import SourceChunks.Proofs.Arena.Numbering
import SourceChunks.Proofs.Comment.Coalescing
import SourceChunks.Proofs.Comment.RunFree
import SourceChunks.Proofs.Dissolving
import SourceChunks.Proofs.Outline.Defined

/-!
# What coalescing keeps of a tree

Coalescing puts composites into a tree and does nothing else: the composites that are new can
be marked so that without them the tree is what it was (`Forest.Marking`, `exists_marking`).
Each stands above a run of comments and carries their texts (`Tree.JoinsRun`).

* Without any composites, new or old, the trees before and after are the same
  (`erased_coalesced`).
* In the copy of an arena the marks are put on numbers, and what a new composite has joined is
  read off the arena (`Arena.JoinsRun`).

`coalesce_conserves` puts this together with `Tree.runFree_coalesced`: nothing is lost, and no
run is left.
-/

namespace SourceChunks

namespace Tree

/-- The tree is a composite above a run of comments, with their joined texts. -/
structure JoinsRun (source : Bytes) (types : List String) (tree : Tree Element) : Prop where
  content : tree.label.content = .composite (Text.joinLines
    (tree.children.trees.map fun child => Arena.elementText source child.label))
  length : 2 ≤ tree.children.trees.length
  comments : ∀ child ∈ tree.children.trees, child.isCommentOf types = true

theorem joinsRun_composite (source : Bytes) {types : List String} {first second : Tree Element}
    {rest : List (Tree Element)}
    (h : ∀ item ∈ first :: second :: rest, item.isCommentOf types = true) :
    (composite source first (second :: rest)).JoinsRun source types where
  content := by rw [composite, Forest.trees_ofTrees]
  length := by rw [composite, Forest.trees_ofTrees]; exact Nat.le_add_left 2 rest.length
  comments := by rwa [composite, Forest.trees_ofTrees]

/-- The tree without the composites below its root. -/
def erased (tree : Tree Element) : Tree Element :=
  tree.dissolve (·.content.isComposite)

end Tree

/-- Without the marked nodes the forest is the given one, and each of them has joined a run. -/
structure Forest.Marking (source : Bytes) (types : List String) (forest : Forest Element)
    (marked : Forest (Element × Bool)) : Prop where
  restored : (marked.dissolve Prod.snd).map Prod.fst = forest
  joined : ∀ subtree ∈ marked.subtrees, subtree.label.2 = true →
    (subtree.map Prod.fst).JoinsRun source types

namespace Forest

variable {source : Bytes} {types : List String} {α : Type}

/-- A forest in which nothing is marked. -/
def unmarked (forest : Forest α) : Forest (α × Bool) :=
  forest.map (·, false)

theorem map_fst_unmarked (forest : Forest α) : forest.unmarked.map Prod.fst = forest := by
  rw [unmarked, map_map]
  exact map_id forest

theorem dissolve_unmarked (forest : Forest α) :
    forest.unmarked.dissolve Prod.snd = forest.unmarked := by
  refine dissolve_eq_self fun entry hentry => ?_
  rw [unmarked, toList_map] at hentry
  obtain ⟨label, -, rfl⟩ := List.mem_map.1 hentry
  rfl

theorem not_marked_of_mem_unmarked {forest : Forest α} {subtree : Tree (α × Bool)}
    (h : subtree ∈ forest.unmarked.subtrees) : subtree.label.2 = false := by
  rw [unmarked, subtrees_map] at h
  obtain ⟨tree, -, rfl⟩ := List.mem_map.1 h
  rfl

theorem marking_unmarked (forest : Forest Element) :
    forest.Marking source types forest.unmarked where
  restored := by rw [dissolve_unmarked, map_fst_unmarked]
  joined subtree hsubtree hmarked := by
    rw [not_marked_of_mem_unmarked hsubtree] at hmarked
    exact Bool.noConfusion hmarked

namespace Marking

variable {forest later : Forest Element} {marked others : Forest (Element × Bool)}

theorem nil : Marking source types .nil .nil where
  restored := rfl
  joined subtree hsubtree := by simp [subtrees] at hsubtree

/-- A node that is kept is not marked. -/
theorem keep (h : forest.Marking source types marked) (h' : later.Marking source types others)
    (element : Element) :
    (cons element forest later).Marking source types (cons (element, false) marked others) where
  restored := by
    rw [dissolve, if_neg Bool.false_ne_true, map, h.restored, h'.restored]
  joined subtree hsubtree hmarked := by
    rw [subtrees, List.mem_cons, List.mem_append] at hsubtree
    rcases hsubtree with rfl | hsubtree | hsubtree
    · exact Bool.noConfusion hmarked
    · exact h.joined subtree hsubtree hmarked
    · exact h'.joined subtree hsubtree hmarked

/-- A composite that is put above a run is marked. -/
theorem join (h : later.Marking source types others) {first second : Tree Element}
    {rest : List (Tree Element)}
    (hcomments : ∀ item ∈ first :: second :: rest, item.isCommentOf types = true) :
    (ofTrees (first :: second :: rest) ++ later).Marking source types
      (cons ((Tree.composite source first (second :: rest)).label, true)
        (ofTrees (first :: second :: rest)).unmarked others) where
  restored := by
    rw [dissolve, if_pos rfl, map_append, h.restored, dissolve_unmarked, map_fst_unmarked]
  joined subtree hsubtree hmarked := by
    rw [subtrees, List.mem_cons, List.mem_append] at hsubtree
    rcases hsubtree with rfl | hsubtree | hsubtree
    · rw [Tree.map, map_fst_unmarked]
      exact Tree.joinsRun_composite source hcomments
    · rw [not_marked_of_mem_unmarked hsubtree] at hmarked
      exact Bool.noConfusion hmarked
    · exact h.joined subtree hsubtree hmarked

/-- Without composites nothing is left of the marks. -/
theorem dissolve_composites (h : forest.Marking source types marked) :
    (marked.map Prod.fst).dissolve (·.content.isComposite) =
      forest.dissolve (·.content.isComposite) := by
  have hcomposite : ∀ entry ∈ marked.toList,
      entry.1.content.isComposite = (entry.2 || entry.1.content.isComposite) := by
    intro entry hentry
    cases hmarked : entry.2 with
    | false => rfl
    | true =>
      rw [← map_label_subtrees] at hentry
      obtain ⟨subtree, hsubtree, rfl⟩ := List.mem_map.1 hentry
      have hcontent := (h.joined subtree hsubtree hmarked).content
      rw [show subtree.label.1.content = _ from hcontent]
      rfl
  rw [← h.restored, dissolve_map, dissolve_map, dissolve_dissolve]
  exact congrArg _ (dissolve_congr hcomposite)

end Marking

end Forest

namespace Tree

variable {source : Bytes} {types : List String}

theorem exists_marking_standIns {copy : Tree Element → Tree Element}
    {groups : List (List (Tree Element))} (hnonempty : [] ∉ groups)
    (hgroups : ∀ group ∈ groups,
      (∃ item, group = [item]) ∨ ∀ item ∈ group, item.isCommentOf types = true)
    (hcopy : ∀ child ∈ groups.flatten, (copy child).label = child.label ∧
      ∃ marked, marked.map Prod.fst = (copy child).children ∧
        child.children.Marking source types marked) :
    ∃ marked, marked.map Prod.fst = .ofTrees (groups.filterMap (standIn source copy)) ∧
      (Forest.ofTrees groups.flatten).Marking source types marked := by
  induction groups with
  | nil => exact ⟨.nil, rfl, .nil⟩
  | cons group rest ih =>
    rw [List.mem_cons, not_or] at hnonempty
    rw [List.forall_mem_cons] at hgroups
    rw [List.flatten_cons, List.forall_mem_append] at hcopy
    obtain ⟨others, hothers, hlater⟩ := ih hnonempty.2 hgroups.2 hcopy.2
    match group with
    | [] => exact absurd rfl hnonempty.1
    | [single] =>
      obtain ⟨hlabel, below, hbelow, hmarking⟩ := hcopy.1 single (List.mem_singleton_self single)
      refine ⟨.cons (single.label, false) below others, ?_, hmarking.keep hlater single.label⟩
      rw [Forest.map, hbelow, hothers, ← hlabel]
      rfl
    | first :: second :: members =>
      have hcomments := hgroups.1.resolve_left (by simp)
      refine ⟨_, ?_, List.flatten_cons ▸ Forest.ofTrees_append _ _ ▸ hlater.join hcomments⟩
      rw [Forest.map, hothers, Forest.map_fst_unmarked]
      rfl

/-- **Coalescing only puts composites in.** -/
theorem exists_marking (source : Bytes) (types : List String) (merging : Bool)
    (tree : Tree Element) :
    ∃ marked, marked.map Prod.fst = (tree.coalesced source types merging).children ∧
      tree.children.Marking source types marked := by
  cases hmerging : merging && !tree.label.content.isComposite with
  | false =>
    rw [coalesced_of_not_merging source types hmerging]
    exact ⟨_, Forest.map_fst_unmarked _, Forest.marking_unmarked _⟩
  | true =>
    obtain ⟨hnonempty, hgroups, -⟩ := grouped_spec (isCommentOf types) tree.children.trees
    have hcopy : ∀ child ∈ (grouped (isCommentOf types) true tree.children.trees).flatten,
        (child.coalesced source types true).label = child.label ∧
          ∃ marked, marked.map Prod.fst = (child.coalesced source types true).children ∧
            child.children.Marking source types marked := by
      intro child hchild
      rw [flatten_grouped] at hchild
      have : child.size < tree.size := size_lt_of_mem_trees hchild
      exact ⟨label_coalesced source types true child, exists_marking source types true child⟩
    have hmarking := exists_marking_standIns hnonempty hgroups hcopy
    rw [flatten_grouped, Forest.ofTrees_trees] at hmarking
    rw [coalesced_eq]
    simp only [hmerging]
    exact hmarking
termination_by tree.size

/-- **Nothing is lost.**  Without composites, the coalesced tree is the tree it was made of. -/
theorem erased_coalesced (source : Bytes) (types : List String) (merging : Bool)
    (tree : Tree Element) : (tree.coalesced source types merging).erased = tree.erased := by
  obtain ⟨marked, hmarked, hmarking⟩ := exists_marking source types merging tree
  rw [erased, erased, dissolve, dissolve, label_coalesced, ← hmarked, hmarking.dissolve_composites]

/-- What is in a tree beside composites is there in the order of the document. -/
theorem filter_toList_erased (tree : Tree Element) :
    tree.erased.toList.filter (!·.content.isComposite) =
      tree.toList.filter (!·.content.isComposite) := by
  rw [erased, dissolve, toList, Forest.toList_dissolve, List.filter_cons, List.filter_filter,
    toList, List.filter_cons]
  simp only [Bool.and_self]

end Tree

namespace Arena

variable {arena : Arena} {types : List String}

/-- The node of a number is a composite above a run of comments, with their joined texts. -/
def JoinsRun (arena : Arena) (types : List String) (index : Nat) : Prop :=
  ∃ node texts, arena.nodes[index]? = some node ∧ node.isComposite = true ∧
    2 ≤ node.children.length ∧
    (∀ child ∈ node.children,
      ∃ member, arena.nodes[child]? = some member ∧ types.contains member.type = true) ∧
    node.children.mapM arena.text = .ok texts ∧ arena.text index = .ok (Text.joinLines texts)

theorem Unfolds.mapM_text {indices : List Nat} {forest : Forest (Nat × Node)}
    (h : arena.Unfolds indices forest) :
    indices.mapM arena.text = .ok (forest.trees.map fun tree => arena.nodeText tree.label.2) := by
  induction h with
  | nil => rfl
  | cons found _ _ _ ih =>
    rw [List.mapM_cons, text, node_eq_ok_iff.2 found, ih]
    rfl

/-- What a tree without numbers has joined, its node has. -/
theorem Unfolds.joinsRun {tree : Tree (Nat × Node)} {index : Nat}
    (h : arena.Unfolds [index] tree.forest)
    (hjoins : (tree.map (·.2.element)).JoinsRun arena.source types) :
    arena.JoinsRun types index := by
  obtain ⟨node, htree, found, below⟩ := h.exists_node
  obtain ⟨hcontent, hlength, hcomments⟩ := hjoins
  rw [htree, Tree.map, Forest.trees_map] at hcontent hlength hcomments
  refine ⟨node, _, found, ?_, ?_, ?_, below.mapM_text, ?_⟩
  · rw [Node.isComposite, hcontent]
    rfl
  · rw [← below.map_label_fst, List.length_map]
    rwa [List.length_map] at hlength
  · intro child hchild
    rw [← below.map_label_fst] at hchild
    obtain ⟨member, hmember, rfl⟩ := List.mem_map.1 hchild
    obtain ⟨other, hother, hfound, -⟩ := (below.of_mem_trees hmember).exists_node
    refine ⟨other, hfound, ?_⟩
    have hcomment := hcomments _ (List.mem_map_of_mem hmember)
    rw [hother] at hcomment
    exact hcomment
  · rw [text, node_eq_ok_iff.2 found]
    show Except.ok (arena.nodeText node) = _
    rw [nodeText, elementText, hcontent, List.map_map]
    rfl

/-- The composites of an arena with a tree are listed in the order of the document. -/
theorem HasTree.compositeComments_eq {tree : Tree (Nat × Node)} (h : arena.HasTree tree) :
    arena.compositeComments = .ok ((tree.toList.filter (·.2.isComposite)).map Prod.fst) := by
  have htest : ∀ index ∈ tree.toList.map Prod.fst,
      (do return (← arena.node index).isComposite) =
        Except.ok (ε := Failure) ((arena.nodes[index]?.map Node.isComposite).getD false) := by
    intro index hindex
    obtain ⟨entry, hentry, rfl⟩ := List.mem_map.1 hindex
    rw [node_eq_ok_iff.2 (h.found_of_mem hentry), h.found_of_mem hentry]
    rfl
  rw [compositeComments, h.walk_eq]
  refine (filterM_eq_ok htest).trans ?_
  rw [List.filter_map]
  refine congrArg (fun entries => Except.ok (List.map Prod.fst entries)) (List.filter_congr ?_)
  intro entry hentry
  rw [Function.comp, h.found_of_mem hentry]
  rfl

/-! ## The marks as numbers -/

section Numbers

variable {forest : Forest (Nat × Node)} {marked : Forest (Element × Bool)}

/-- Where the numbers of a forest differ, the numbers of the marked nodes tell which they are. -/
theorem exists_marked_numbers (hnodup : (forest.toList.map Prod.fst).Nodup)
    (hmarked : forest.map (·.2.element) = marked.map Prod.fst) :
    ∃ isMarked : Nat → Bool,
      (forest.dissolve fun entry => isMarked entry.1).map (·.2.element) =
        (marked.dissolve Prod.snd).map Prod.fst ∧
      ∀ index, isMarked index = true → ∃ subtree ∈ forest.subtrees, subtree.label.1 = index ∧
        ∃ place ∈ marked.subtrees, place.label.2 = true ∧
          subtree.map (·.2.element) = place.map Prod.fst := by
  obtain ⟨both, rfl, rfl⟩ := Forest.exists_map_eq hmarked
  let isMarked (index : Nat) : Bool := both.toList.any fun entry => entry.1.1 == index && entry.2
  have hmark : ∀ entry ∈ both.toList, isMarked entry.1.1 = entry.2 := by
    intro entry hentry
    rw [Bool.eq_iff_iff, List.any_eq_true]
    constructor
    · rintro ⟨other, hother, heq⟩
      rw [Bool.and_eq_true, beq_iff_eq] at heq
      rw [Forest.toList_map, List.map_map] at hnodup
      rw [← List.inj_on_of_nodup_map hnodup hother hentry heq.1]
      exact heq.2
    · intro htrue
      exact ⟨entry, hentry, by rw [htrue, beq_self_eq_true]; rfl⟩
  refine ⟨isMarked, ?_, fun index hindex => ?_⟩
  · rw [Forest.dissolve_map, Forest.dissolve_map, Forest.map_map, Forest.map_map]
    exact congrArg _ (Forest.dissolve_congr hmark)
  · obtain ⟨entry, hentry, heq⟩ := List.any_eq_true.1 hindex
    rw [Bool.and_eq_true, beq_iff_eq] at heq
    rw [← Forest.map_label_subtrees] at hentry
    obtain ⟨subtree, hsubtree, rfl⟩ := List.mem_map.1 hentry
    refine ⟨subtree.map Prod.fst, ?_, heq.1, subtree.map (Prod.map (·.2.element) id), ?_, heq.2, ?_⟩
    · rw [Forest.subtrees_map]
      exact List.mem_map_of_mem hsubtree
    · rw [Forest.subtrees_map]
      exact List.mem_map_of_mem hsubtree
    · rw [Tree.map_map, Tree.map_map]
      rfl

end Numbers

/-- What coalescing has made of a tree: `isNew` are the composites that it put in. -/
structure Conserves (types : List String) (tree : Tree (Nat × Node)) (copied : Arena)
    (copy : Tree (Nat × Node)) (isNew : Nat → Bool) : Prop where
  isTree : copied.IsTree copy
  root : isNew copied.root = false
  /-- Without the new composites the tree is what it was. -/
  restored : (copy.dissolve fun entry => isNew entry.1).map (·.2.element) =
    tree.map (·.2.element)
  /-- Every new composite has joined a run. -/
  joined : ∀ index, isNew index = true → copied.JoinsRun types index
  /-- Without any composites the trees are the same. -/
  erased : (copy.map (·.2.element)).erased = (tree.map (·.2.element)).erased
  parsed : (copy.toList.map (·.2.element)).filter (!·.content.isComposite) =
    (tree.toList.map (·.2.element)).filter (!·.content.isComposite)
  /-- No run is left. -/
  runFree : (copy.map (·.2.element)).RunFree types
  composites : copied.compositeComments =
    .ok ((copy.toList.filter (·.2.isComposite)).map Prod.fst)

theorem HasTree.exists_conserves {tree : Tree (Nat × Node)} (h : arena.HasTree tree)
    (types : List String) : ∃ copied copy isNew, arena.coalesce types = .ok copied ∧
      Conserves types tree copied copy isNew := by
  obtain ⟨copied, copy, hcoalesce, hsource, -, -, htidy, hcopy⟩ := exists_coalesce types h
  obtain ⟨marked, hmarked, hmarking⟩ :=
    (tree.map (·.2.element)).exists_marking arena.source types true
  rw [← hcopy] at hmarked
  have hnodup : (copy.label.1 :: copy.children.toList.map Prod.fst).Nodup := htidy.isTree.nodup
  rw [List.nodup_cons] at hnodup
  obtain ⟨isNew, hrestored, hnew⟩ := exists_marked_numbers hnodup.2 hmarked.symm
  have herased : (copy.map (·.2.element)).erased = (tree.map (·.2.element)).erased := by
    rw [hcopy, Tree.erased_coalesced]
  have hlabel : copy.label.2.element = tree.label.2.element := by
    have hlabels := congrArg Tree.label hcopy
    rw [Tree.label_coalesced] at hlabels
    exact hlabels
  refine ⟨copied, copy, isNew, hcoalesce, htidy.isTree, ?_, ?_, fun index hindex => ?_, herased,
    ?_, ?_, htidy.hasTree.compositeComments_eq⟩
  · rw [← htidy.hasTree.label_fst]
    cases hroot : isNew copy.label.1 with
    | false => rfl
    | true =>
      obtain ⟨subtree, hsubtree, hnumber, -⟩ := hnew _ hroot
      rw [← hnumber] at hnodup
      refine absurd (List.mem_map_of_mem ?_) hnodup.1
      rw [← Forest.map_label_subtrees]
      exact List.mem_map_of_mem hsubtree
  · rw [Tree.dissolve, Tree.map, hrestored, hmarking.restored, hlabel]
    rfl
  · obtain ⟨subtree, hsubtree, rfl, place, hplace, hmark, heq⟩ := hnew index hindex
    have hunfolds : copied.Unfolds [subtree.label.1] subtree.forest := by
      refine Unfolds.of_mem_subtrees htidy.hasTree ?_
      rw [Tree.subtrees_forest]
      exact List.mem_cons_of_mem _ hsubtree
    refine hunfolds.joinsRun ?_
    rw [heq, hsource]
    exact hmarking.joined place hplace hmark
  · rw [← Tree.toList_map, ← Tree.toList_map, ← Tree.filter_toList_erased, herased,
      Tree.filter_toList_erased]
  · rw [hcopy]
    exact Tree.runFree_coalesced arena.source types _

/-- Comments beside a block that has comments in it. -/
def scatteredArena : Arena where
  source := "#a\n#b\n#c\n#d".toUTF8.toList
  nodes := #[
    { element := ⟨.parsed "module", ⟨0, 11, ⟨0, 0⟩, ⟨3, 2⟩⟩⟩, children := [1, 4, 5] },
    { element := ⟨.parsed "block", ⟨0, 5, ⟨0, 0⟩, ⟨1, 2⟩⟩⟩, children := [2, 3] },
    { element := ⟨.parsed "comment", ⟨0, 2, ⟨0, 0⟩, ⟨0, 2⟩⟩⟩ },
    { element := ⟨.parsed "comment", ⟨3, 5, ⟨1, 0⟩, ⟨1, 2⟩⟩⟩ },
    { element := ⟨.parsed "comment", ⟨6, 8, ⟨2, 0⟩, ⟨2, 2⟩⟩⟩ },
    { element := ⟨.parsed "comment", ⟨9, 11, ⟨3, 0⟩, ⟨3, 2⟩⟩⟩ }]
  root_lt := by decide

theorem scatteredArena_grounded : scatteredArena.Grounded := by
  have pair : scatteredArena.Unfolds [2, 3] _ := .cons rfl .nil (.cons rfl .nil .nil)
  have others : scatteredArena.Unfolds [4, 5] _ := .cons rfl .nil (.cons rfl .nil .nil)
  have root : scatteredArena.Unfolds [0] _ := .cons rfl (.cons rfl pair others) .nil
  exact root.groundedAt

/-- **Coalescing loses nothing and leaves no run.**  Where the child numbers are in range and
acyclic from the root on, there is a copy in which nothing but the new composites differs from
the tree of the arena.  Composites are listed in the order of the document, which need not be
that of their numbers: those beside a block are put in before those that are in it. -/
theorem coalesce_conserves :
    (∀ (arena : Arena) (types : List String), arena.Grounded →
      ∃ tree copied copy isNew, arena.HasTree tree ∧ arena.coalesce types = .ok copied ∧
        Conserves types tree copied copy isNew) ∧
    ∃ (arena copied : Arena) (numbers : List Nat), arena.Grounded ∧
      arena.coalesce defaultCommentTypes = .ok copied ∧
      copied.compositeComments = .ok numbers ∧ ¬ numbers.Pairwise (· < ·) := by
  refine ⟨fun arena types grounded => ?_, ?_⟩
  · obtain ⟨tree, htree⟩ := grounded.exists_hasTree
    obtain ⟨copied, copy, isNew, hcoalesce, hconserves⟩ := htree.exists_conserves types
    exact ⟨tree, copied, copy, isNew, htree, hcoalesce, hconserves⟩
  · have hnumbers : (scatteredArena.coalesce defaultCommentTypes >>= compositeComments) =
        .ok [5, 2] := by decide +kernel
    cases hcoalesce : scatteredArena.coalesce defaultCommentTypes with
    | error failure =>
      rw [hcoalesce] at hnumbers
      cases hnumbers
    | ok copied =>
      rw [hcoalesce] at hnumbers
      exact ⟨scatteredArena, copied, [5, 2], scatteredArena_grounded, hcoalesce, hnumbers,
        by decide⟩

theorem scatteredArena_conserves :
    ∃ tree copied copy isNew, scatteredArena.HasTree tree ∧
      scatteredArena.coalesce defaultCommentTypes = .ok copied ∧
      Conserves defaultCommentTypes tree copied copy isNew :=
  coalesce_conserves.1 scatteredArena defaultCommentTypes scatteredArena_grounded

end Arena

end SourceChunks
