import SourceChunks.Proofs.Comment.Reservation

/-!
# Trees in which nothing is left to put together

Coalescing looks for neighbours that are comments, and not below composites.  A tree is free
of runs (`Tree.RunFree`) where it finds none.

* `coalesced_of_runFree`: a tree that is free of runs is left as it is.
* `runFree_coalesced`: what coalescing makes is free of runs.  A run is put together as a
  whole, so what stands beside it is no comment; hence the composite may count as a comment
  itself without a new run coming about.

The second time, then, nothing is done (`coalesced_coalesced`).
-/

namespace SourceChunks

section Lists

variable {α β : Type}

/-- A chain stays one under a function that keeps every item. -/
theorem isChain_filterMap {f : α → Option β} {r : α → α → Prop} {s : β → β → Prop}
    {list : List α} (hkept : ∀ item ∈ list, (f item).isSome = true)
    (hrel : ∀ first second image next, r first second → f first = some image →
      f second = some next → s image next) (h : list.IsChain r) :
    (list.filterMap f).IsChain s := by
  induction list with
  | nil => exact .nil
  | cons first rest ih =>
    obtain ⟨hfirst, hrest⟩ := List.isChain_cons.1 h
    obtain ⟨image, himage⟩ := Option.isSome_iff_exists.1 (hkept first List.mem_cons_self)
    rw [List.filterMap_cons_some himage, List.isChain_cons]
    refine ⟨fun next hnext => ?_, ih (fun item hitem => hkept item (.tail _ hitem)) hrest⟩
    cases rest with
    | nil => simp at hnext
    | cons second others =>
      obtain ⟨image', himage'⟩ := Option.isSome_iff_exists.1
        (hkept second (.tail _ List.mem_cons_self))
      rw [List.filterMap_cons_some himage', List.head?_cons] at hnext
      rw [← Option.some.inj hnext]
      exact hrel first second image image' (hfirst second rfl) himage himage'

end Lists

/-- Where no two neighbours are comments, each item is a group by itself. -/
theorem grouped_eq_singles {α : Type} {isComment : α → Bool} {items : List α}
    (h : items.IsChain fun left right => (isComment left && isComment right) = false)
    (merging : Bool) : grouped isComment merging items = items.map ([·]) := by
  unfold grouped
  split
  · rw [List.splitBy_eq_iff]
    refine ⟨?_, ?_, ?_, ?_⟩
    · induction items with
      | nil => rfl
      | cons item rest ih => exact congrArg (item :: ·) (ih h.of_cons)
    · simp
    · intro group hgroup
      obtain ⟨item, -, rfl⟩ := List.mem_map.1 hgroup
      exact List.isChain_singleton _
    · exact (List.isChain_map _).2 (h.imp fun left right hends =>
        ⟨List.cons_ne_nil _ _, List.cons_ne_nil _ _, hends⟩)
  · rfl

/-! ## The normal form -/

namespace Forest

/-- Outside of composites, no two neighbours in the forest are comments. -/
def RunFree (types : List String) : Forest Element → Prop
  | nil => True
  | cons label children siblings =>
    (types.contains label.content.type = true →
      ∀ next ∈ siblings.trees.head?, next.isCommentOf types = false) ∧
    (label.content.isComposite = false → children.RunFree types) ∧
    siblings.RunFree types

end Forest

namespace Tree

variable {source : Bytes} {types : List String}

/-- No two neighbours in the tree are comments, but for those below composites. -/
def RunFree (types : List String) (tree : Tree Element) : Prop :=
  tree.label.content.isComposite = false → tree.children.RunFree types

/-- A list of trees is free of runs if its neighbours are and every tree is. -/
theorem runFree_ofTrees_iff {trees : List (Tree Element)} :
    (Forest.ofTrees trees).RunFree types ↔
      (trees.IsChain fun left right => (left.isCommentOf types && right.isCommentOf types) = false)
        ∧ ∀ tree ∈ trees, tree.RunFree types := by
  induction trees with
  | nil => simp [Forest.ofTrees, Forest.RunFree]
  | cons first rest ih =>
    have hends : (types.contains first.label.content.type = true →
          ∀ next ∈ rest.head?, next.isCommentOf types = false) ↔
        ∀ next ∈ rest.head?, (first.isCommentOf types && next.isCommentOf types) = false := by
      rw [show types.contains first.label.content.type = first.isCommentOf types from rfl]
      cases first.isCommentOf types <;> simp
    rw [Forest.ofTrees, Forest.RunFree, ih, Forest.trees_ofTrees, hends, List.isChain_cons,
      List.forall_mem_cons]
    constructor
    · rintro ⟨hfirst, hbelow, hchain, hrest⟩
      exact ⟨⟨hfirst, hchain⟩, hbelow, hrest⟩
    · rintro ⟨⟨hfirst, hchain⟩, hbelow, hrest⟩
      exact ⟨hfirst, hbelow, hchain, hrest⟩

/-- **Where there is no run, nothing is done.** -/
theorem coalesced_of_runFree (source : Bytes) {tree : Tree Element} (h : tree.RunFree types)
    (merging : Bool) : tree.coalesced source types merging = tree := by
  cases merging with
  | false => exact coalesced_false source types tree
  | true =>
    cases hcomposite : tree.label.content.isComposite with
    | true =>
      -- below a composite the recursion goes on as a plain copy
      exact coalesced_of_not_merging source types (by rw [hcomposite]; rfl)
    | false =>
      have hchildren := h hcomposite
      rw [← Forest.ofTrees_trees tree.children, runFree_ofTrees_iff] at hchildren
      obtain ⟨hchain, hbelow⟩ := hchildren
      rw [coalesced_eq]
      simp only [hcomposite, Bool.not_false, Bool.and_true]
      rw [grouped_eq_singles hchain, List.filterMap_map]
      have hall : tree.children.trees.filterMap
          (standIn source (coalesced source types true) ∘ ([·])) = tree.children.trees := by
        refine (List.filterMap_congr fun child hchild => ?_).trans List.filterMap_some
        have : child.size < tree.size := size_lt_of_mem_trees hchild
        exact congrArg some (coalesced_of_runFree source (hbelow child hchild) true)
      rw [hall, Forest.ofTrees_trees]
termination_by tree.size

@[simp] theorem label_coalesced (source : Bytes) (types : List String) (merging : Bool)
    (tree : Tree Element) : (tree.coalesced source types merging).label = tree.label := by
  rw [coalesced_eq]

/-- A group that stands in as a comment or not says so of all its members. -/
theorem isCommentOf_of_standIn {copy : Tree Element → Tree Element}
    (hcopy : ∀ tree, (copy tree).label = tree.label) {group : List (Tree Element)}
    {tree : Tree Element}
    (hgroup : (∃ item, group = [item]) ∨ ∀ item ∈ group, item.isCommentOf types = true)
    (h : standIn source copy group = some tree) (hcomment : tree.isCommentOf types = true) :
    ∀ item ∈ group, item.isCommentOf types = true := by
  rcases standIn_cases h with ⟨single, rfl, rfl⟩ | ⟨first, second, others, rfl, -⟩
  · intro item hitem
    rw [List.mem_singleton.1 hitem, isCommentOf, ← hcopy]
    exact hcomment
  · exact hgroup.resolve_left (by simp)

/-- What stands in for the groups of a list has no two comments side by side: if it had, the
groups would meet in two comments. -/
theorem isChain_standIns {copy : Tree Element → Tree Element}
    (hcopy : ∀ tree, (copy tree).label = tree.label) (trees : List (Tree Element)) :
    ((grouped (isCommentOf types) true trees).filterMap (standIn source copy)).IsChain
      fun left right => (left.isCommentOf types && right.isCommentOf types) = false := by
  obtain ⟨hnonempty, hgroups, hends⟩ := grouped_spec (isCommentOf types) trees
  have hkept : ∀ group ∈ grouped (isCommentOf types) true trees,
      (standIn source copy group).isSome = true := by
    intro group hgroup
    match group with
    | [] => exact absurd hgroup hnonempty
    | [_] => rfl
    | _ :: _ :: _ => rfl
  have hchain := hends.imp_of_mem_tail_imp (S := fun group next =>
    group ∈ grouped (isCommentOf types) true trees ∧
    next ∈ grouped (isCommentOf types) true trees ∧
    ∃ last ∈ group.getLast?, ∃ first ∈ next.head?,
      (isCommentOf types last && isCommentOf types first) = false)
    fun group next hgroup hnext h => ⟨hgroup, List.mem_of_mem_tail hnext, h⟩
  refine isChain_filterMap hkept ?_ hchain
  rintro group next left right ⟨hgroup, hnext, last, hlast, first, hfirst, hends⟩ hleft hright
  by_contra hboth
  rw [Bool.not_eq_false, Bool.and_eq_true] at hboth
  have hlastComment := isCommentOf_of_standIn hcopy (hgroups group hgroup) hleft hboth.1 last
    (List.mem_of_mem_getLast? hlast)
  have hfirstComment := isCommentOf_of_standIn hcopy (hgroups next hnext) hright hboth.2 first
    (List.mem_of_mem_head? hfirst)
  rw [hlastComment, hfirstComment] at hends
  exact Bool.noConfusion hends

/-- **No run is left** where runs were put together. -/
theorem runFree_coalesced (source : Bytes) (types : List String) (tree : Tree Element) :
    (tree.coalesced source types true).RunFree types := by
  intro hcomposite
  rw [label_coalesced] at hcomposite
  rw [coalesced_eq]
  simp only [hcomposite, Bool.not_false, Bool.and_true, runFree_ofTrees_iff]
  refine ⟨isChain_standIns (label_coalesced source types true) _, fun child hchild => ?_⟩
  obtain ⟨group, hgroup, hchild⟩ := List.mem_filterMap.1 hchild
  rcases standIn_cases hchild with ⟨single, rfl, rfl⟩ | ⟨first, second, others, -, rfl⟩
  · have hsize : single.size < tree.size :=
      size_lt_of_mem_trees (mem_of_mem_grouped hgroup (List.mem_singleton_self single))
    exact runFree_coalesced source types single
  · intro hcomposite
    exact Bool.noConfusion hcomposite
termination_by tree.size

/-- **Once is enough** for a tree without numbers. -/
theorem coalesced_coalesced (source : Bytes) (types : List String) (tree : Tree Element) :
    (tree.coalesced source types true).coalesced source types true =
      tree.coalesced source types true :=
  coalesced_of_runFree source (runFree_coalesced source types tree) true

end Tree

end SourceChunks
