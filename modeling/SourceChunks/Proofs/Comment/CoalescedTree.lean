import Mathlib.Data.List.SplitBy
import SourceChunks.Comment.Coalesce

/-!
# Coalescing a tree

What coalescing makes of a tree, said as a recursion without numbers, places and stack
(`Tree.coalesced`).  A tree keeps its label.  Of its children, each longest run of two or
more comments gives way to a composite over the same trees, untouched; every other child is
coalesced in turn.  Below a composite that was there before, nothing is put together.

The neighbours are grouped as the copy groups them, by one definition for any items
(`grouped`), so that groups of nodes, of trees and of labels can be compared
(`grouped_map`).  `grouped_spec` says what the groups are: a longest run of comments, or an
item by itself.
-/

namespace SourceChunks

/-! ## Groups of neighbours -/

section Grouped

variable {α β : Type}

/-- Neighbours in groups: each longest run of comments, if runs are put together, and every
other item by itself. -/
def grouped (isComment : α → Bool) (merging : Bool) (items : List α) : List (List α) :=
  if merging then items.splitBy fun left right => isComment left && isComment right
  else items.map ([·])

/-- The groups are the items, in order. -/
@[simp] theorem flatten_grouped (isComment : α → Bool) (merging : Bool) (items : List α) :
    (grouped isComment merging items).flatten = items := by
  unfold grouped
  split
  · exact List.flatten_splitBy _ _
  · induction items with
    | nil => rfl
    | cons item rest ih => rw [List.map_cons, List.flatten_cons, ih]; rfl

theorem mem_of_mem_grouped {isComment : α → Bool} {merging : Bool} {items group : List α}
    {item : α} (h : group ∈ grouped isComment merging items) (hitem : item ∈ group) :
    item ∈ items := by
  rw [← flatten_grouped isComment merging items]
  exact List.mem_flatten.2 ⟨group, h, hitem⟩

/-- **The groups** where runs are put together.  None is empty, each is a single item or a run
of comments, and the runs are the longest: no comment ends one group with a comment at the
start of the next. -/
theorem grouped_spec (isComment : α → Bool) (items : List α) :
    [] ∉ grouped isComment true items ∧
      (∀ group ∈ grouped isComment true items,
        (∃ item, group = [item]) ∨ ∀ item ∈ group, isComment item = true) ∧
      (grouped isComment true items).IsChain fun group next => ∃ last ∈ group.getLast?,
        ∃ first ∈ next.head?, (isComment last && isComment first) = false := by
  rw [grouped, if_pos rfl]
  refine ⟨List.nil_notMem_splitBy _ _, ?_, ?_⟩
  · intro group hgroup
    have hchain := List.isChain_of_mem_splitBy hgroup
    match group with
    | [] => exact absurd hgroup (List.nil_notMem_splitBy _ _)
    | [item] => exact Or.inl ⟨item, rfl⟩
    | first :: second :: others =>
      -- each is a comment by its neighbour on the one side or on the other
      refine Or.inr fun item hitem => ?_
      rw [List.isChain_cons_cons, Bool.and_eq_true] at hchain
      obtain ⟨⟨hfirst, hsecond⟩, hchain⟩ := hchain
      rcases List.mem_cons.1 hitem with rfl | hitem
      · exact hfirst
      · clear hgroup hfirst
        induction others generalizing second with
        | nil => rwa [List.mem_singleton.1 hitem]
        | cons third others ih =>
          rcases List.mem_cons.1 hitem with rfl | hitem
          · exact hsecond
          · rw [List.isChain_cons_cons, Bool.and_eq_true] at hchain
            exact ih third (List.mem_cons_of_mem _ hitem) hchain.2 hchain.1.2 hitem
  · refine (List.isChain_getLast_head_splitBy _ _).imp fun group next hends => ?_
    obtain ⟨hgroup, hnext, hends⟩ := hends
    exact ⟨_, List.getLast_mem_getLast? hgroup, _, List.head_mem_head? hnext, hends⟩

theorem grouped_map (f : α → β) (isComment : β → Bool) (merging : Bool) (items : List α) :
    grouped isComment merging (items.map f) =
      (grouped (fun item => isComment (f item)) merging items).map (List.map f) := by
  unfold grouped
  split
  · rw [List.splitBy_eq_iff, ← List.map_flatten, List.flatten_splitBy]
    refine ⟨rfl, ?_, ?_, ?_⟩
    · rw [List.mem_map]
      rintro ⟨group, hgroup, hempty⟩
      rw [List.map_eq_nil_iff.1 hempty] at hgroup
      exact List.nil_notMem_splitBy _ _ hgroup
    · intro group hgroup
      obtain ⟨items', hitems, rfl⟩ := List.mem_map.1 hgroup
      exact (List.isChain_map f).2 (List.isChain_of_mem_splitBy hitems)
    · refine (List.isChain_map _).2 ((List.isChain_getLast_head_splitBy _ _).imp ?_)
      rintro group next ⟨hgroup, hnext, hends⟩
      refine ⟨by simpa using hgroup, by simpa using hnext, ?_⟩
      rwa [List.getLast_map, List.head_map]
  · rw [List.map_map, List.map_map]
    rfl

end Grouped

/-! ## The recursion -/

namespace Tree

/-- The composite over a run of trees, the first of which is given apart. -/
def composite (source : Bytes) (first : Tree Element) (others : List (Tree Element)) :
    Tree Element where
  label := {
    content := .composite
      (Text.joinLines ((first :: others).map fun tree => Arena.elementText source tree.label))
    span := {
      startByte := first.label.span.startByte
      stopByte := ((first :: others).getLast (by simp)).label.span.stopByte
      startPoint := first.label.span.startPoint
      stopPoint := ((first :: others).getLast (by simp)).label.span.stopPoint } }
  children := .ofTrees (first :: others)

/-- Does the tree's type count as a comment? -/
def isCommentOf (types : List String) (tree : Tree Element) : Bool :=
  types.contains tree.label.content.type

theorem size_lt_of_mem_trees {α : Type} {forest : Forest α} {tree : Tree α}
    (h : tree ∈ forest.trees) : tree.size < forest.size + 1 := by
  induction forest with
  | nil => simp [Forest.trees] at h
  | cons label children siblings _ ih =>
    rw [Forest.trees, List.mem_cons] at h
    rw [Forest.size]
    rcases h with rfl | h
    · show children.size + 1 < children.size + siblings.size + 1 + 1
      omega
    · have := ih h
      omega

/-- What stands in the place of a group of neighbours: a tree by itself is copied, and a run
gives way to a composite. -/
def standIn (source : Bytes) (copy : Tree Element → Tree Element) :
    List (Tree Element) → Option (Tree Element)
  | [] => none
  | [tree] => some (copy tree)
  | first :: second :: others => some (composite source first (second :: others))

/-- What stands in is the copy of the only tree in a group, or the composite over its run. -/
theorem standIn_cases {source : Bytes} {copy : Tree Element → Tree Element}
    {group : List (Tree Element)} {tree : Tree Element}
    (h : standIn source copy group = some tree) :
    (∃ single, group = [single] ∧ copy single = tree) ∨
      ∃ first second others, group = first :: second :: others ∧
        composite source first (second :: others) = tree := by
  match group, h with
  | [single], h => exact Or.inl ⟨single, rfl, Option.some.inj h⟩
  | first :: second :: others, h =>
    exact Or.inr ⟨first, second, others, rfl, Option.some.inj h⟩

/-- The tree with runs of comments put together, unless `merging` is off or a composite is
met. -/
def coalesced (source : Bytes) (types : List String) (merging : Bool) (tree : Tree Element) :
    Tree Element :=
  let merging := merging && !tree.label.content.isComposite
  { label := tree.label
    children := .ofTrees
      ((grouped (isCommentOf types) merging tree.children.trees).attach.filterMap fun
        | ⟨[], _⟩ => none
        | ⟨[child], _⟩ => some (child.coalesced source types merging)
        | ⟨first :: second :: others, _⟩ => some (composite source first (second :: others))) }
termination_by tree.size
decreasing_by
  exact size_lt_of_mem_trees (mem_of_mem_grouped ‹_› (List.mem_singleton_self child))

/-- **The recursion.** -/
theorem coalesced_eq (source : Bytes) (types : List String) (merging : Bool)
    (tree : Tree Element) :
    tree.coalesced source types merging =
      let merging := merging && !tree.label.content.isComposite
      { label := tree.label
        children := .ofTrees
          ((grouped (isCommentOf types) merging tree.children.trees).filterMap
            (standIn source (coalesced source types merging))) } := by
  rw [coalesced]
  refine congrArg (fun trees => Tree.mk tree.label (Forest.ofTrees trees)) ?_
  conv_rhs => rw [← List.attach_map_subtype_val (grouped _ _ _), List.filterMap_map]
  refine congrArg (List.filterMap · _) (funext fun group => ?_)
  rcases group with ⟨_ | ⟨first, _ | ⟨second, others⟩⟩, _⟩ <;> rfl

/-- Nothing is put together where `merging` is off. -/
theorem coalesced_false (source : Bytes) (types : List String) (tree : Tree Element) :
    tree.coalesced source types false = tree := by
  rw [coalesced_eq]
  simp only [Bool.false_and, grouped, Bool.false_eq_true, if_false, List.filterMap_map]
  have hall : tree.children.trees.filterMap
      (standIn source (coalesced source types false) ∘ ([·])) = tree.children.trees := by
    refine (List.filterMap_congr fun child hchild => ?_).trans List.filterMap_some
    have : child.size < tree.size := size_lt_of_mem_trees hchild
    exact congrArg some (coalesced_false source types child)
  rw [hall, Forest.ofTrees_trees]
termination_by tree.size

/-- Nor is it below a composite. -/
theorem coalesced_of_not_merging (source : Bytes) (types : List String) {merging : Bool}
    {tree : Tree Element} (h : (merging && !tree.label.content.isComposite) = false) :
    tree.coalesced source types merging = tree := by
  have hcopy := coalesced_false source types tree
  rw [coalesced_eq] at hcopy ⊢
  simp only [h, Bool.false_and] at hcopy ⊢
  exact hcopy

end Tree

end SourceChunks
