import Mathlib.Data.List.Sort
import SourceChunks.Proofs.Arena.Layout
import SourceChunks.Proofs.Arena.Places

/-!
# Numbers in the order of the document

The arena of a tree is numbered in the order of the document (`Numbered`).  From this alone
follows what else is known of its numbers: a node and what is below it take up one number
after the other (`Numbered.block`), so the numbers of a node's children rise
(`Numbered.pairwise_children`), and the first of them is the next one
(`Numbered.head_children`).
-/

namespace SourceChunks

namespace Forest

variable {α : Type}

/-- What is in a forest takes up a stretch of it. -/
theorem toList_infix_of_mem_subtrees {forest : Forest α} {tree : Tree α}
    (h : tree ∈ forest.subtrees) : tree.toList <:+: forest.toList := by
  induction forest with
  | nil => simp [subtrees] at h
  | cons label children siblings ihChildren ihSiblings =>
    rw [subtrees, List.mem_cons, List.mem_append] at h
    rw [toList]
    rcases h with rfl | h | h
    · exact ⟨[], siblings.toList, rfl⟩
    · exact ((ihChildren h).trans (List.prefix_append _ _).isInfix).trans
        (List.suffix_cons label _).isInfix
    · exact ((ihSiblings h).trans (List.suffix_append _ _).isInfix).trans
        (List.suffix_cons label _).isInfix

/-- The roots of a forest stand in the order of the document. -/
theorem map_label_trees_sublist (forest : Forest α) :
    (forest.trees.map Tree.label).Sublist forest.toList := by
  induction forest with
  | nil => exact List.Sublist.refl _
  | cons label children siblings _ ih =>
    rw [trees, List.map_cons, toList]
    exact (ih.trans (List.sublist_append_right _ _)).cons_cons label

/-- The first root of a forest is the first of all. -/
theorem head?_map_label_trees (forest : Forest α) :
    (forest.trees.map Tree.label).head? = forest.toList.head? := by
  cases forest <;> rfl

end Forest

/-- A stretch of the numbers below a count is a stretch of numbers. -/
theorem eq_range'_of_infix_range {first count : Nat} {numbers : List Nat}
    (h : first :: numbers <:+: List.range count) :
    first :: numbers = List.range' first (numbers.length + 1) := by
  obtain ⟨start, hle, hat⟩ := List.infix_iff_getElem?.1 h
  have hget : ∀ position (hlt : position < (first :: numbers).length),
      (first :: numbers)[position] = position + start := by
    intro position hlt
    have hrange := hat position hlt
    rw [List.getElem?_range (by rw [List.length_range] at hle; omega)] at hrange
    exact (Option.some.inj hrange).symm
  have hstart : first = start := (hget 0 (Nat.succ_pos _)).trans (Nat.zero_add start)
  refine List.ext_getElem (by simp) fun position hlt _ => ?_
  rw [hget position hlt, List.getElem_range', hstart]
  omega

namespace Arena

variable {arena : Arena} {tree : Tree (Nat × Node)}

namespace Unfolds

variable {indices : List Nat} {forest : Forest (Nat × Node)}

/-- Each tree in a forest hangs from its root. -/
theorem of_mem_subtrees (h : arena.Unfolds indices forest) {subtree : Tree (Nat × Node)}
    (hmem : subtree ∈ forest.subtrees) : arena.Unfolds [subtree.label.1] subtree.forest := by
  induction h with
  | nil => simp [Forest.subtrees] at hmem
  | cons found below _ ihBelow ihBeside =>
    rw [Forest.subtrees, List.mem_cons, List.mem_append] at hmem
    rcases hmem with rfl | hmem | hmem
    · exact .cons found below .nil
    · exact ihBelow hmem
    · exact ihBeside hmem

/-- The forest of a number has what is reached from it. -/
theorem reaches_iff {start : Nat} (h : arena.Unfolds [start] forest) {index : Nat} :
    arena.Reaches start index ↔ index ∈ forest.toList.map Prod.fst := by
  constructor
  · intro hreach
    obtain ⟨node, hplace⟩ := h.exists_root_of_mem List.mem_cons_self []
    rcases Relation.reflTransGen_iff_eq_or_transGen.1 hreach with rfl | habove
    · exact List.mem_map.2 ⟨_, Forest.mem_of_mem_withAncestors hplace, rfl⟩
    · obtain ⟨_, other, hother, -⟩ := h.exists_place_of_above hplace habove
      exact List.mem_map.2 ⟨_, Forest.mem_of_mem_withAncestors hother, rfl⟩
  · rintro hmem
    obtain ⟨entry, hentry, rfl⟩ := List.mem_map.1 hmem
    obtain ⟨_, hindex, hreach⟩ := h.exists_reaches_of_mem hentry
    rwa [List.mem_singleton.1 hindex] at hreach

end Unfolds

/-- The arena is the given tree and nothing else, with its numbers in the order of the
document. -/
structure Numbered (arena : Arena) (tree : Tree (Nat × Node)) : Prop extends
    arena.Tidy tree where
  order : tree.toList.map Prod.fst = List.range arena.size

/-- The arena of a tree is numbered in the order of the document. -/
theorem exists_numbered_ofTree (source : Bytes) (tree : Tree Element) :
    ∃ copy, (ofTree source tree).Numbered copy ∧ copy.map (·.2.element) = tree := by
  obtain ⟨copy, tidy, hcopy⟩ := exists_tidy_ofTree source tree
  obtain ⟨forest, hforest, -, hnumbers⟩ := (stands_ofTree source tree).exists_unfolds
  obtain rfl : forest = copy.forest := hforest.unique tidy.hasTree
  rw [Tree.toList_forest] at hnumbers
  exact ⟨copy, ⟨tidy, hnumbers⟩, hcopy⟩

namespace Tidy

variable {index upper : Nat} {node : Node}

/-- A node records the number that lists it. -/
theorem parent_eq_some_iff (h : arena.Tidy tree) (found : arena.nodes[index]? = some node) :
    node.parent = some upper ↔ arena.Child upper index := by
  refine ⟨fun hparent => ?_, fun hchild => h.parent upper index node hchild found⟩
  have hroot : index ≠ arena.root := by
    rintro rfl
    rw [h.root_parent_eq found] at hparent
    exact absurd hparent.symm (Option.some_ne_none upper)
  obtain ⟨other, hother, hlisted⟩ := h.parent_eq found hroot
  exact (hlisted upper).2 (Option.some.inj (hparent.symm.trans hother))

/-- The children that a node lists are nodes. -/
theorem exists_node_of_listed (h : arena.Tidy tree) (hchild : arena.Child upper index) :
    ∃ node, arena.nodes[index]? = some node := by
  obtain ⟨above, found, -⟩ := exists_node_of_child hchild
  have hreach := h.hasTree.reaches_of_mem (h.mem_of_found found)
  exact exists_node_of_lt (h.hasTree.grounded.lt_size index (hreach.tail hchild))

/-- Only the root records no parent. -/
theorem parent_eq_none_iff (h : arena.Tidy tree) (found : arena.nodes[index]? = some node) :
    node.parent = none ↔ index = arena.root := by
  constructor
  · intro hparent
    by_contra hroot
    obtain ⟨other, hother, -⟩ := h.parent_eq found hroot
    exact absurd (hother.symm.trans hparent) (Option.some_ne_none other)
  · rintro rfl
    exact h.root_parent_eq found

end Tidy

namespace Numbered

variable {index : Nat} {node : Node}

/-- The nodes stand in the order of the document. -/
theorem nodes_eq (h : arena.Numbered tree) : arena.nodes.toList = tree.toList.map Prod.snd := by
  refine List.ext_getElem? fun position => ?_
  rw [Array.getElem?_toList, List.getElem?_map]
  cases hentry : tree.toList[position]? with
  | none =>
    have hlength := congrArg List.length h.order
    rw [List.length_map, List.length_range, size] at hlength
    rw [Option.map_none, Array.getElem?_eq_none_iff, ← hlength]
    exact List.getElem?_eq_none_iff.1 hentry
  | some entry =>
    have hnumber : (List.range arena.size)[position]? = some entry.1 := by
      rw [← h.order, List.getElem?_map, hentry]
      rfl
    obtain ⟨_, hposition⟩ := List.getElem?_eq_some_iff.1 hnumber
    rw [List.getElem_range] at hposition
    rw [hposition]
    exact h.hasTree.found_of_mem (List.mem_of_getElem? hentry)

/-- **A tree in the arena takes up one number after the other**, from that of its root. -/
theorem block (h : arena.Numbered tree) {subtree : Tree (Nat × Node)}
    (hmem : subtree ∈ tree.subtrees) :
    subtree.toList.map Prod.fst = List.range' subtree.label.1 subtree.size := by
  rw [← Tree.subtrees_forest] at hmem
  have hinfix := (Forest.toList_infix_of_mem_subtrees hmem).map Prod.fst
  rw [Tree.toList_forest, h.order] at hinfix
  have hblock := eq_range'_of_infix_range hinfix
  rwa [List.length_map, Forest.length_toList] at hblock

/-- What is below a node has the numbers after it, one after the other. -/
theorem exists_below (h : arena.Numbered tree) (found : arena.nodes[index]? = some node) :
    ∃ below : Forest (Nat × Node), arena.Unfolds node.children below ∧
      below.toList.map Prod.fst = List.range' (index + 1) below.size := by
  obtain ⟨_, subtree, hmem, hlabel, seated⟩ := h.exists_seat found
  have hblock := h.block hmem
  have hbelow := seated.below
  rw [hlabel] at hbelow hblock
  rw [Tree.toList, List.map_cons, Tree.size, List.range'_succ, hlabel] at hblock
  exact ⟨subtree.children, hbelow, (List.cons.inj hblock).2⟩

/-- The numbers of a node's children rise. -/
theorem pairwise_children (h : arena.Numbered tree) (found : arena.nodes[index]? = some node) :
    node.children.Pairwise (· < ·) := by
  obtain ⟨below, hbelow, hnumbers⟩ := h.exists_below found
  have hsub := below.map_label_trees_sublist.map Prod.fst
  rw [List.map_map, hnumbers] at hsub
  rw [← hbelow.map_label_fst]
  exact (List.pairwise_lt_range' 1).sublist hsub

/-- The number of a node's first child is the next one. -/
theorem head_children (h : arena.Numbered tree) (found : arena.nodes[index]? = some node)
    {child : Nat} (hchild : node.children.head? = some child) : child = index + 1 := by
  obtain ⟨below, hbelow, hnumbers⟩ := h.exists_below found
  have hhead : node.children.head? = (List.range' (index + 1) below.size).head? := by
    rw [← hnumbers, List.head?_map, ← below.head?_map_label_trees, ← List.head?_map,
      List.map_map, ← hbelow.map_label_fst]
    rfl
  rw [hhead] at hchild
  cases hsize : below.size with
  | zero => simp [hsize] at hchild
  | succ count =>
    rw [hsize, List.range'_succ, List.head?_cons] at hchild
    exact (Option.some.inj hchild).symm

/-- What hangs from the number of a position is the tree that stands there. -/
theorem unfolds_at (h : arena.Numbered tree) {position : Nat} {subtree : Tree (Nat × Node)}
    (hsubtree : tree.subtrees[position]? = some subtree) :
    arena.Unfolds [position] subtree.forest ∧
      subtree.toList.map Prod.fst = List.range' position subtree.size := by
  have hnumber : (List.range arena.size)[position]? = some subtree.label.1 := by
    rw [← h.order, ← Tree.map_label_subtrees, List.getElem?_map, List.getElem?_map, hsubtree]
    rfl
  have hposition : subtree.label.1 = position := by
    obtain ⟨_, hget⟩ := List.getElem?_eq_some_iff.1 hnumber
    rw [← hget, List.getElem_range]
  have hmem := List.mem_of_getElem? hsubtree
  have hunfolds : arena.Unfolds [subtree.label.1] subtree.forest :=
    Unfolds.of_mem_subtrees h.hasTree (by rwa [Tree.subtrees_forest])
  have hblock := h.block hmem
  rw [hposition] at hunfolds hblock
  exact ⟨hunfolds, hblock⟩

end Numbered

end Arena

end SourceChunks
