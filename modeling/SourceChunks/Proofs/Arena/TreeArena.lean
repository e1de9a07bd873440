import Mathlib.Data.List.Pairwise
import SourceChunks.Proofs.Arena.Unfolding

/-!
# Arenas that are trees

An arena is a tree where no number stands twice in its tree and the recorded parents are
numbers of nodes.  There a node is its place: the nodes above it in the arena are its
ancestors in the tree, in one line.

* `mem_ancestors_iff`: the ancestors at a place are the nodes above it.
* `mem_visible_iff`, `exists_closed_above`: what is visible, said with `Above`.
* `above_or_above`: of two nodes above a third, one is above the other.
-/

namespace SourceChunks

namespace Arena

variable {arena : Arena}

/-- Every recorded parent is the number of a node. -/
def ParentsInRange (arena : Arena) : Prop :=
  ∀ (index : Nat) (node : Node) (parent : Nat), arena.nodes[index]? = some node →
    node.parent = some parent → parent < arena.size

theorem parentsInRange_iff : arena.ParentsInRange ↔
    ∀ node ∈ arena.nodes.toList, ∀ parent ∈ node.parent, parent < arena.size := by
  constructor
  · intro h node hmem parent hparent
    obtain ⟨index, hlt, hfound⟩ := List.getElem_of_mem hmem
    refine h index node parent ?_ hparent
    rw [← Array.getElem?_toList, List.getElem?_eq_getElem hlt, hfound]
  · intro h index node parent hfound hparent
    rw [← Array.getElem?_toList] at hfound
    exact h node (List.mem_of_getElem? hfound) parent hparent

/-- The arena is the given tree: its numbers differ, and the recorded parents have nodes. -/
structure IsTree (arena : Arena) (tree : Tree (Nat × Node)) : Prop where
  hasTree : arena.HasTree tree
  nodup : (tree.toList.map Prod.fst).Nodup
  parents : arena.ParentsInRange

namespace Unfolds

variable {indices : List Nat} {forest : Forest (Nat × Node)} {above ancestors : List (Nat × Node)}

/-- The roots of a forest stand at its top. -/
theorem exists_root_of_mem (h : arena.Unfolds indices forest) {index : Nat}
    (hmem : index ∈ indices) (above : List (Nat × Node)) :
    ∃ node, (above, (index, node)) ∈ forest.withAncestors above := by
  induction h with
  | nil => simp at hmem
  | @cons first node rest children siblings found below beside _ ihBeside =>
    rcases List.mem_cons.1 hmem with rfl | hmem
    · exact ⟨node, List.mem_cons_self⟩
    · obtain ⟨other, hother⟩ := ihBeside hmem
      exact ⟨other, List.mem_cons_of_mem _ (List.mem_append_right _ hother)⟩

/-- The children of a node stand below its place. -/
theorem exists_child_place (h : arena.Unfolds indices forest) {entry : Nat × Node}
    (hmem : (ancestors, entry) ∈ forest.withAncestors above) {child : Nat}
    (hchild : arena.Child entry.1 child) :
    ∃ node, (entry :: ancestors, (child, node)) ∈ forest.withAncestors above := by
  induction h generalizing above with
  | nil => simp [Forest.withAncestors] at hmem
  | @cons first node rest children siblings found below beside ihBelow ihBeside =>
    simp only [Forest.withAncestors, List.mem_cons, List.mem_append] at hmem ⊢
    rcases hmem with hmem | hmem | hmem
    · obtain ⟨rfl, rfl⟩ := Prod.mk.inj hmem
      obtain ⟨other, hother⟩ := below.exists_root_of_mem ((child_iff found).1 hchild)
        ((first, node) :: ancestors)
      exact ⟨other, Or.inr (Or.inl hother)⟩
    · obtain ⟨other, hother⟩ := ihBelow hmem
      exact ⟨other, Or.inr (Or.inl hother)⟩
    · obtain ⟨other, hother⟩ := ihBeside hmem
      exact ⟨other, Or.inr (Or.inr hother)⟩

/-- What is below a node stands below its place. -/
theorem exists_place_of_above (h : arena.Unfolds indices forest) {entry : Nat × Node}
    (hmem : (ancestors, entry) ∈ forest.withAncestors above) {lower : Nat}
    (habove : arena.Above entry.1 lower) :
    ∃ others node, (others, (lower, node)) ∈ forest.withAncestors above ∧ entry ∈ others := by
  induction habove with
  | single hchild =>
    obtain ⟨node, hnode⟩ := h.exists_child_place hmem hchild
    exact ⟨_, node, hnode, List.mem_cons_self⟩
  | tail _ hchild ih =>
    obtain ⟨others, between, hbetween, hentry⟩ := ih
    obtain ⟨node, hnode⟩ := h.exists_child_place hbetween hchild
    exact ⟨_, node, hnode, List.mem_cons_of_mem _ hentry⟩

/-- A place and its ancestors are a line, in which the farther are above the nearer. -/
theorem pairwise_ancestors (h : arena.Unfolds indices forest)
    (hline : above.Pairwise fun near far => arena.Above far.1 near.1)
    (htop : ∀ index ∈ indices, ∀ ancestor ∈ above, arena.Above ancestor.1 index)
    {entry : Nat × Node} (hmem : (ancestors, entry) ∈ forest.withAncestors above) :
    (entry :: ancestors).Pairwise fun near far => arena.Above far.1 near.1 := by
  induction h generalizing above with
  | nil => simp [Forest.withAncestors] at hmem
  | @cons first node rest children siblings found below beside ihBelow ihBeside =>
    have hfirst : ∀ ancestor ∈ above, arena.Above ancestor.1 first :=
      htop first List.mem_cons_self
    simp only [Forest.withAncestors, List.mem_cons, List.mem_append] at hmem
    rcases hmem with hmem | hmem | hmem
    · obtain ⟨rfl, rfl⟩ := Prod.mk.inj hmem
      exact List.pairwise_cons.2 ⟨hfirst, hline⟩
    · refine ihBelow (List.pairwise_cons.2 ⟨hfirst, hline⟩) ?_ hmem
      intro child hchild ancestor hancestor
      have hstep : arena.Child first child := (child_iff found).2 hchild
      rcases List.mem_cons.1 hancestor with rfl | hancestor
      · exact .single hstep
      · exact (hfirst ancestor hancestor).tail hstep
    · exact ihBeside hline (fun index hindex => htop index (List.mem_cons_of_mem _ hindex)) hmem

end Unfolds

/-! ## Trees -/

namespace HasTree

variable {tree : Tree (Nat × Node)} {ancestors : List (Nat × Node)} {entry : Nat × Node}

theorem pairwise_ancestors (h : arena.HasTree tree)
    (hmem : (ancestors, entry) ∈ tree.forest.withAncestors []) :
    (entry :: ancestors).Pairwise fun near far => arena.Above far.1 near.1 :=
  Unfolds.pairwise_ancestors h List.Pairwise.nil (by simp) hmem

/-- Nodes of one number are one node. -/
theorem eq_of_fst_eq (h : arena.HasTree tree) {other : Nat × Node} (hentry : entry ∈ tree.toList)
    (hother : other ∈ tree.toList) (heq : entry.1 = other.1) : entry = other := by
  have hfound := h.found_of_mem hentry
  rw [heq, h.found_of_mem hother] at hfound
  exact Prod.ext heq (Option.some.inj hfound).symm

end HasTree

namespace IsTree

variable {tree : Tree (Nat × Node)} {ancestors : List (Nat × Node)} {entry : Nat × Node}

theorem nodup_toList (h : arena.IsTree tree) : tree.toList.Nodup :=
  List.Nodup.of_map _ h.nodup

/-- **The ancestors of a node are the nodes above it.** -/
theorem mem_ancestors_iff (h : arena.IsTree tree)
    (hmem : (ancestors, entry) ∈ tree.forest.withAncestors []) {upper : Nat × Node} :
    upper ∈ ancestors ↔ upper ∈ tree.toList ∧ arena.Above upper.1 entry.1 := by
  constructor
  · intro hupper
    refine ⟨?_, (List.pairwise_cons.1 (h.hasTree.pairwise_ancestors hmem)).1 upper hupper⟩
    rw [← Tree.toList_forest]
    exact Forest.mem_of_mem_ancestors hmem hupper
  · rintro ⟨hupper, habove⟩
    rw [← Tree.toList_forest] at hupper
    obtain ⟨uppers, hplace⟩ := Forest.exists_mem_withAncestors hupper []
    obtain ⟨others, node, hother, hin⟩ :=
      Unfolds.exists_place_of_above h.hasTree hplace habove
    have hnode : (entry.1, node) = entry := by
      refine h.hasTree.eq_of_fst_eq ?_ ?_ rfl
      · rw [← Tree.toList_forest]
        exact Forest.mem_of_mem_withAncestors hother
      · rw [← Tree.toList_forest]
        exact Forest.mem_of_mem_withAncestors hmem
    have hnodup : tree.forest.toList.Nodup := by
      rw [Tree.toList_forest]
      exact h.nodup_toList
    rw [hnode] at hother
    rwa [Forest.ancestors_unique hnodup hmem hother]

/-- **What is visible in a tree**: the nodes without a closed node above them. -/
theorem mem_visible_iff (h : arena.IsTree tree) {closed : Nat × Node → Bool} :
    entry ∈ tree.forest.visible closed ↔ entry ∈ tree.toList ∧
      ∀ upper ∈ tree.toList, arena.Above upper.1 entry.1 → closed upper = false := by
  rw [Forest.mem_visible_iff]
  constructor
  · rintro ⟨ancestors, hmem, hopen⟩
    refine ⟨?_, fun upper hupper habove => ?_⟩
    · rw [← Tree.toList_forest]
      exact Forest.mem_of_mem_withAncestors hmem
    · exact hopen upper ((h.mem_ancestors_iff hmem).2 ⟨hupper, habove⟩)
  · rintro ⟨hentry, hopen⟩
    rw [← Tree.toList_forest] at hentry
    obtain ⟨ancestors, hmem⟩ := Forest.exists_mem_withAncestors hentry []
    refine ⟨ancestors, hmem, fun upper hupper => ?_⟩
    obtain ⟨hin, habove⟩ := (h.mem_ancestors_iff hmem).1 hupper
    exact hopen upper hin habove

/-- A node with a closed node above it has a visible one above it. -/
theorem exists_closed_above (h : arena.IsTree tree) {closed : Nat × Node → Bool}
    (hentry : entry ∈ tree.toList) {upper : Nat × Node} (hupper : upper ∈ tree.toList)
    (habove : arena.Above upper.1 entry.1) (hclosed : closed upper = true) :
    ∃ outer ∈ tree.forest.visible closed, closed outer = true ∧
      arena.Above outer.1 entry.1 := by
  rw [← Tree.toList_forest] at hentry
  obtain ⟨ancestors, hmem⟩ := Forest.exists_mem_withAncestors hentry []
  obtain ⟨between, hbetween, houter⟩ := Forest.exists_closed_visible closed hmem
  rw [List.append_nil] at hbetween
  subst hbetween
  have hin := (h.mem_ancestors_iff hmem).2 ⟨hupper, habove⟩
  obtain ⟨outer, hmemOuter, hclosedOuter, hvisible⟩ :=
    houter (List.any_eq_true.2 ⟨upper, hin, hclosed⟩)
  exact ⟨outer, hvisible, hclosedOuter, ((h.mem_ancestors_iff hmem).1 hmemOuter).2⟩

/-- Of two nodes above a third, one is above the other. -/
theorem above_or_above (h : arena.IsTree tree) (hentry : entry ∈ tree.toList)
    {upper other : Nat × Node} (hupper : upper ∈ tree.toList) (hother : other ∈ tree.toList)
    (habove : arena.Above upper.1 entry.1) (habove' : arena.Above other.1 entry.1) :
    upper = other ∨ arena.Above upper.1 other.1 ∨ arena.Above other.1 upper.1 := by
  rw [← Tree.toList_forest] at hentry
  obtain ⟨ancestors, hmem⟩ := Forest.exists_mem_withAncestors hentry []
  have hline := (List.pairwise_cons.1 (h.hasTree.pairwise_ancestors hmem)).2
  have hin := (h.mem_ancestors_iff hmem).2 ⟨hupper, habove⟩
  have hin' := (h.mem_ancestors_iff hmem).2 ⟨hother, habove'⟩
  by_cases heq : upper = other
  · exact Or.inl heq
  · refine Or.inr ?_
    have hrelated : ancestors.Pairwise fun a b => arena.Above a.1 b.1 ∨ arena.Above b.1 a.1 :=
      hline.imp Or.inr
    have : Std.Symm fun a b : Nat × Node => arena.Above a.1 b.1 ∨ arena.Above b.1 a.1 :=
      ⟨fun _ _ hor => hor.symm⟩
    exact hrelated.forall hin hin' heq

end IsTree

end Arena

end SourceChunks
