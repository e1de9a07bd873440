import Mathlib.Data.List.Perm.Subperm
import Mathlib.Logic.Relation
import SourceChunks.Arena.Walk
import SourceChunks.Proofs.Ancestry

/-!
# The tree of an arena

An arena numbers its nodes, and its child numbers may be anything.  Where they make sense
from the root on, the arena stands for a tree, and this file is the bridge between the two.

* `Unfolds` relates a list of numbers to the forest that hangs from them.  It is functional
  (`Unfolds.unique`), and nothing is cut off: every number in the forest has a node, and
  every child of a node stands below it.
* `GroundedAt` is the condition on the numbers: what can be reached from a number has nodes
  and does not lead back to itself.  A grounded number has a forest (`GroundedAt.exists_unfolds`),
  and a number with a forest is grounded (`Unfolds.groundedAt`).
* The bound of a walk, `visits`, was computed by cutting the unfolding off one level below
  the number of nodes.  `visits_eq_size` says that nothing is lost there: along a path that
  never comes back the numbers differ, so a path is no longer than the arena.

The same child may stand below several nodes, or twice below one; the forest then has it
several times.  An arena is a tree where that does not happen (`HasTree`, with the numbers
of the tree all different).
-/

namespace SourceChunks

namespace Arena

variable {arena : Arena}

/-- The forest of the nodes that hang from the given numbers, each with its number. -/
inductive Unfolds (arena : Arena) : List Nat → Forest (Nat × Node) → Prop
  | nil : Unfolds arena [] .nil
  | cons {index : Nat} {node : Node} {rest : List Nat} {children siblings : Forest (Nat × Node)}
      (found : arena.nodes[index]? = some node) (below : Unfolds arena node.children children)
      (beside : Unfolds arena rest siblings) :
      Unfolds arena (index :: rest) (.cons (index, node) children siblings)

/-- The tree that hangs from the root. -/
def HasTree (arena : Arena) (tree : Tree (Nat × Node)) : Prop :=
  arena.Unfolds [arena.root] tree.forest

/-- The second number is a child of the first. -/
def Child (arena : Arena) (parent child : Nat) : Prop :=
  child ∈ arena.childrenOf parent

/-- The first number is a strict ancestor of the second. -/
def Above (arena : Arena) : Nat → Nat → Prop :=
  Relation.TransGen arena.Child

/-- The second number is the first, or below it. -/
def Reaches (arena : Arena) : Nat → Nat → Prop :=
  Relation.ReflTransGen arena.Child

/-- From the number on, all child numbers are those of nodes, and none leads back to a node
above. -/
structure GroundedAt (arena : Arena) (start : Nat) : Prop where
  lt_size : ∀ index, arena.Reaches start index → index < arena.size
  acyclic : ∀ index, arena.Reaches start index → ¬ arena.Above index index

/-- The child numbers are in range and acyclic from the root on. -/
def Grounded (arena : Arena) : Prop :=
  arena.GroundedAt arena.root

theorem childrenOf_eq {index : Nat} {node : Node} (found : arena.nodes[index]? = some node) :
    arena.childrenOf index = node.children := by
  rw [childrenOf, found]

theorem child_iff {parent child : Nat} {node : Node} (found : arena.nodes[parent]? = some node) :
    arena.Child parent child ↔ child ∈ node.children := by
  rw [Child, childrenOf_eq found]

/-- A number with children is that of a node. -/
theorem exists_node_of_child {parent child : Nat} (h : arena.Child parent child) :
    ∃ node, arena.nodes[parent]? = some node ∧ child ∈ node.children := by
  unfold Child childrenOf at h
  split at h
  · next node found => exact ⟨node, found, h⟩
  · simp at h

theorem exists_node_of_lt {index : Nat} (h : index < arena.size) :
    ∃ node, arena.nodes[index]? = some node :=
  ⟨arena.nodes[index], Array.getElem?_eq_getElem h⟩

theorem lt_size_of_node {index : Nat} {node : Node} (found : arena.nodes[index]? = some node) :
    index < arena.size :=
  (Array.getElem?_eq_some_iff.1 found).1

/-! ## The forest of a list of numbers -/

namespace Unfolds

/-- A list of numbers has one forest. -/
theorem unique {indices : List Nat} {forest other : Forest (Nat × Node)}
    (h : arena.Unfolds indices forest) (h' : arena.Unfolds indices other) : forest = other := by
  induction h generalizing other with
  | nil => cases h'; rfl
  | cons found _ _ ihBelow ihBeside =>
    cases h' with
    | cons found' below' beside' =>
      obtain rfl := Option.some.inj (found.symm.trans found')
      rw [ihBelow below', ihBeside beside']

/-- The numbers are those of the roots of their forest. -/
theorem map_label_fst {indices : List Nat} {forest : Forest (Nat × Node)}
    (h : arena.Unfolds indices forest) : forest.trees.map (·.label.1) = indices := by
  induction h with
  | nil => rfl
  | cons _ _ _ _ ih => rw [Forest.trees, List.map_cons, ih]

theorem append {indices later : List Nat} {forest laterForest : Forest (Nat × Node)}
    (h : arena.Unfolds indices forest) (h' : arena.Unfolds later laterForest) :
    arena.Unfolds (indices ++ later) (forest ++ laterForest) := by
  induction h with
  | nil => exact h'
  | cons found below _ _ ihBeside => exact .cons found below ihBeside

/-- Each number of a list with a forest has a forest of its own, which is no larger. -/
theorem exists_of_mem {indices : List Nat} {forest : Forest (Nat × Node)}
    (h : arena.Unfolds indices forest) {index : Nat} (hmem : index ∈ indices) :
    ∃ own, arena.Unfolds [index] own ∧ own.size ≤ forest.size := by
  induction h with
  | nil => simp at hmem
  | @cons first node rest children siblings found below beside _ ihBeside =>
    rcases List.mem_cons.1 hmem with rfl | hmem
    · refine ⟨_, .cons found below .nil, ?_⟩
      simp only [Forest.size]
      omega
    · obtain ⟨own, hown, hle⟩ := ihBeside hmem
      refine ⟨own, hown, ?_⟩
      simp only [Forest.size]
      omega

/-- The forest of a child is smaller than that of its parent. -/
theorem exists_of_child {parent child : Nat} {forest : Forest (Nat × Node)}
    (h : arena.Unfolds [parent] forest) (hchild : arena.Child parent child) :
    ∃ own, arena.Unfolds [child] own ∧ own.size < forest.size := by
  cases h with
  | cons found below beside =>
    obtain ⟨own, hown, hle⟩ := below.exists_of_mem ((child_iff found).1 hchild)
    refine ⟨own, hown, ?_⟩
    simp only [Forest.size]
    omega

/-- What is reached from a number with a forest has a forest. -/
theorem exists_of_reaches {start index : Nat} {forest : Forest (Nat × Node)}
    (h : arena.Unfolds [start] forest) (hreach : arena.Reaches start index) :
    ∃ own, arena.Unfolds [index] own := by
  induction hreach with
  | refl => exact ⟨forest, h⟩
  | tail _ hchild ih =>
    obtain ⟨between, hbetween⟩ := ih
    obtain ⟨own, hown, -⟩ := hbetween.exists_of_child hchild
    exact ⟨own, hown⟩

/-- Forests shrink from a node to what is below it. -/
theorem exists_of_above {upper lower : Nat} {forest : Forest (Nat × Node)}
    (h : arena.Unfolds [upper] forest) (habove : arena.Above upper lower) :
    ∃ own, arena.Unfolds [lower] own ∧ own.size < forest.size := by
  induction habove with
  | single hchild => exact h.exists_of_child hchild
  | tail _ hchild ih =>
    obtain ⟨between, hbetween, hlt⟩ := ih
    obtain ⟨own, hown, hlt'⟩ := hbetween.exists_of_child hchild
    exact ⟨own, hown, Nat.lt_trans hlt' hlt⟩

/-- A number with a forest is grounded: a number above itself would have a forest smaller
than its forest. -/
theorem groundedAt {start : Nat} {forest : Forest (Nat × Node)}
    (h : arena.Unfolds [start] forest) : arena.GroundedAt start where
  lt_size index hreach := by
    obtain ⟨own, hown⟩ := h.exists_of_reaches hreach
    cases hown with
    | cons found _ _ => exact lt_size_of_node found
  acyclic index hreach habove := by
    obtain ⟨own, hown⟩ := h.exists_of_reaches hreach
    obtain ⟨other, hother, hlt⟩ := hown.exists_of_above habove
    rw [hown.unique hother] at hlt
    exact Nat.lt_irrefl _ hlt

/-- The labels of a forest are reached from its numbers. -/
theorem exists_reaches_of_mem {indices : List Nat} {forest : Forest (Nat × Node)}
    (h : arena.Unfolds indices forest) {entry : Nat × Node} (hmem : entry ∈ forest.toList) :
    ∃ index ∈ indices, arena.Reaches index entry.1 := by
  induction h with
  | nil => simp at hmem
  | @cons first node rest children siblings found _ _ ihBelow ihBeside =>
    simp only [Forest.toList, List.mem_cons, List.mem_append] at hmem
    rcases hmem with rfl | hmem | hmem
    · exact ⟨first, List.mem_cons_self, .refl⟩
    · obtain ⟨child, hchild, hreach⟩ := ihBelow hmem
      exact ⟨first, List.mem_cons_self, .head ((child_iff found).2 hchild) hreach⟩
    · obtain ⟨index, hindex, hreach⟩ := ihBeside hmem
      exact ⟨index, List.mem_cons_of_mem _ hindex, hreach⟩

/-- Every label of a forest is a node with its number. -/
theorem found_of_mem {indices : List Nat} {forest : Forest (Nat × Node)}
    (h : arena.Unfolds indices forest) {entry : Nat × Node} (hmem : entry ∈ forest.toList) :
    arena.nodes[entry.1]? = some entry.2 := by
  induction h with
  | nil => simp at hmem
  | cons found _ _ ihBelow ihBeside =>
    simp only [Forest.toList, List.mem_cons, List.mem_append] at hmem
    rcases hmem with rfl | hmem | hmem
    · exact found
    · exact ihBelow hmem
    · exact ihBeside hmem

end Unfolds

/-! ## Grounded numbers have forests -/

/-- Where each number of a list unfolds above the cut, so does the list. -/
theorem exists_unfolds_of_forall {depth : Nat} {indices : List Nat}
    (h : ∀ index ∈ indices, ∃ forest, arena.Unfolds [index] forest ∧
      forest.map Prod.fst = arena.unfold depth [index]) :
    ∃ forest, arena.Unfolds indices forest ∧
      forest.map Prod.fst = arena.unfold depth indices := by
  induction indices with
  | nil => exact ⟨.nil, .nil, by cases depth <;> rfl⟩
  | cons index rest ih =>
    obtain ⟨first, hfirst, hcut⟩ := h index List.mem_cons_self
    obtain ⟨later, hlater, hcut'⟩ := ih fun other hmem => h other (List.mem_cons_of_mem _ hmem)
    cases hfirst with
    | cons found below beside =>
      cases beside
      cases depth with
      | zero => simp [Forest.map, unfold] at hcut
      | succ depth =>
        rw [unfold_succ_cons] at hcut ⊢
        refine ⟨_, .cons found below hlater, ?_⟩
        simp only [Forest.map, Forest.cons.injEq] at hcut ⊢
        exact ⟨trivial, hcut.2.1, hcut'⟩

/-- The cut lies below a grounded number, provided that the number of levels above it and
the length of a path of different numbers down to it exceed the number of nodes together. -/
theorem GroundedAt.exists_unfolds_of_path {start : Nat} (h : arena.GroundedAt start)
    (depth : Nat) : ∀ (path : List Nat) (index : Nat), path.Nodup →
      (∀ upper ∈ path, arena.Reaches start upper ∧ arena.Above upper index) →
      arena.Reaches start index → arena.size < path.length + depth →
      ∃ forest, arena.Unfolds [index] forest ∧
        forest.map Prod.fst = arena.unfold depth [index] := by
  induction depth with
  | zero =>
    intro path index hnodup hpath _ hsize
    have hsub : path ⊆ List.range arena.size := fun upper hmem =>
      List.mem_range.2 (h.lt_size upper (hpath upper hmem).1)
    have hle := (List.subperm_of_subset hnodup hsub).length_le
    rw [List.length_range] at hle
    omega
  | succ depth ih =>
    intro path index hnodup hpath hreach hsize
    obtain ⟨node, found⟩ := exists_node_of_lt (h.lt_size index hreach)
    have hfresh : index ∉ path := fun hmem => h.acyclic index hreach (hpath index hmem).2
    -- each child is reached along the path that ends in its parent
    have hchildren : ∀ child ∈ node.children, ∃ forest, arena.Unfolds [child] forest ∧
        forest.map Prod.fst = arena.unfold depth [child] := by
      intro child hmem
      have hchild : arena.Child index child := (child_iff found).2 hmem
      refine ih (index :: path) child (List.nodup_cons.2 ⟨hfresh, hnodup⟩) ?_
        (hreach.tail hchild) ?_
      · intro upper hupper
        rcases List.mem_cons.1 hupper with rfl | hupper
        · exact ⟨hreach, .single hchild⟩
        · exact ⟨(hpath upper hupper).1, (hpath upper hupper).2.tail hchild⟩
      · rw [List.length_cons]
        omega
    obtain ⟨children, hunfolds, hcut⟩ := exists_unfolds_of_forall hchildren
    refine ⟨_, .cons found hunfolds .nil, ?_⟩
    rw [unfold_succ_cons, childrenOf_eq found, ← hcut]
    rfl

/-- **A grounded number has a forest**, and the unfolding that bounds a walk is all of it. -/
theorem GroundedAt.exists_unfolds {start : Nat} (h : arena.GroundedAt start) :
    ∃ forest, arena.Unfolds [start] forest ∧
      forest.map Prod.fst = arena.unfold (arena.size + 1) [start] :=
  h.exists_unfolds_of_path (arena.size + 1) [] start List.nodup_nil (by simp)
    Relation.ReflTransGen.refl (by simp)

/-- A grounded arena has a tree. -/
theorem Grounded.exists_hasTree (h : arena.Grounded) : ∃ tree, arena.HasTree tree := by
  obtain ⟨forest, hforest, -⟩ := GroundedAt.exists_unfolds h
  cases hforest with
  | cons found below beside =>
    cases beside
    exact ⟨⟨(arena.root, _), _⟩, .cons found below .nil⟩

/-- The bound of a walk is the number of nodes it visits. -/
theorem visits_eq_size {start : Nat} {forest : Forest (Nat × Node)}
    (h : arena.Unfolds [start] forest) : arena.visits [start] = forest.size := by
  obtain ⟨other, hother, hcut⟩ := h.groundedAt.exists_unfolds
  rw [visits, ← hcut, Forest.size_map, hother.unique h]

namespace HasTree

variable {tree : Tree (Nat × Node)}

theorem grounded (h : arena.HasTree tree) : arena.Grounded :=
  Unfolds.groundedAt h

theorem unique {other : Tree (Nat × Node)} (h : arena.HasTree tree) (h' : arena.HasTree other) :
    tree = other := by
  have heq := Unfolds.unique h h'
  simp only [Tree.forest, Forest.cons.injEq, and_true] at heq
  obtain ⟨label, children⟩ := tree
  obtain ⟨hlabel, hchildren⟩ := heq
  subst hlabel hchildren
  rfl

/-- The root of the tree is the root of the arena, with its node. -/
theorem label_fst (h : arena.HasTree tree) : tree.label.1 = arena.root := by
  unfold HasTree at h
  generalize hforest : tree.forest = forest at h
  cases h with
  | cons found below beside => rw [(Forest.cons.inj hforest).1]

theorem found_of_mem (h : arena.HasTree tree) {entry : Nat × Node} (hmem : entry ∈ tree.toList) :
    arena.nodes[entry.1]? = some entry.2 :=
  Unfolds.found_of_mem h (by rwa [Tree.toList_forest])

/-- The nodes of the tree are reached from the root. -/
theorem reaches_of_mem (h : arena.HasTree tree) {entry : Nat × Node} (hmem : entry ∈ tree.toList) :
    arena.Reaches arena.root entry.1 := by
  rw [← Tree.toList_forest] at hmem
  obtain ⟨index, hindex, hreach⟩ := Unfolds.exists_reaches_of_mem h hmem
  rwa [List.mem_singleton.1 hindex] at hreach

end HasTree

/-! ## Walking -/

/-- The walk visits the nodes in the order of the document. -/
theorem walkStack_eq {fuel : Nat} {stack : List Nat} {forest : Forest (Nat × Node)}
    (h : arena.Unfolds stack forest) (hfuel : forest.size ≤ fuel) :
    arena.walkStack fuel stack = .ok (forest.toList.map Prod.fst) := by
  induction fuel generalizing stack forest with
  | zero =>
    cases h with
    | nil => rfl
    | cons => simp [Forest.size] at hfuel
  | succ fuel ih =>
    cases h with
    | nil => rfl
    | @cons index node rest children siblings found below beside =>
      have hnode : arena.node index = .ok node := node_eq_ok_iff.2 found
      have hrest := ih (below.append beside) (by
        rw [Forest.size_append]
        simp only [Forest.size] at hfuel
        omega)
      rw [walkStack, hnode]
      simp only [bind, Except.bind, hrest, pure, Except.pure]
      simp [Forest.toList]

/-- The walk from a number with a forest lists the forest. -/
theorem walkFrom_eq {start : Nat} {forest : Forest (Nat × Node)}
    (h : arena.Unfolds [start] forest) :
    arena.walkFrom start = .ok (forest.toList.map Prod.fst) :=
  walkStack_eq h (Nat.le_of_eq (visits_eq_size h).symm)

/-- The walk of an arena with a tree lists the tree. -/
theorem HasTree.walk_eq {tree : Tree (Nat × Node)} (h : arena.HasTree tree) :
    arena.walk = .ok (tree.toList.map Prod.fst) := by
  rw [walk, walkFrom_eq h, Tree.toList_forest]

end Arena

end SourceChunks
