import SourceChunks.Proofs.Arena.Tidy

/-!
# Places in an arena

A node of a tree stands at a place: there are nodes above it, the nearest first, and trees
below it.  `places` lists the trees in a forest so, in the order of the document.

In an arena that was made from a tree, a node's records agree with its place (`Seated`): the
numbers of its children are those of the trees below it, its parent is the nearest node above
it, and so on upwards, and only at the root there is nothing above.  What reads the records
can then be said of the place alone.
-/

namespace SourceChunks

namespace Forest

variable {α β : Type}

/-- The trees in a forest in the order of the document, each with the labels above it,
nearest first; `above` is what stands above the forest. -/
def places (above : List α) : Forest α → List (List α × Tree α)
  | nil => []
  | cons label children siblings =>
    (above, ⟨label, children⟩) :: (children.places (label :: above) ++ siblings.places above)

/-- The trees in a forest in the order of the document. -/
def subtrees : Forest α → List (Tree α)
  | nil => []
  | cons label children siblings => ⟨label, children⟩ :: (children.subtrees ++ siblings.subtrees)

@[simp] theorem map_snd_places (above : List α) (forest : Forest α) :
    (forest.places above).map Prod.snd = forest.subtrees := by
  induction forest generalizing above with
  | nil => rfl
  | cons label children siblings ihc ihs => simp [places, subtrees, ihc, ihs]

@[simp] theorem map_label_subtrees (forest : Forest α) :
    forest.subtrees.map Tree.label = forest.toList := by
  induction forest with
  | nil => rfl
  | cons label children siblings ihc ihs => simp [subtrees, toList, ihc, ihs]

@[simp] theorem subtrees_map (f : α → β) (forest : Forest α) :
    (forest.map f).subtrees = forest.subtrees.map (Tree.map f) := by
  induction forest with
  | nil => rfl
  | cons label children siblings ihc ihs => simp [map, subtrees, ihc, ihs, Tree.map]

section Places

variable {above : List α} {label : α} {children siblings : Forest α}
  {p : List α × Tree α → Prop}

/-- What holds at all places of a forest holds at the first, below it, and beside it. -/
theorem forall_places_cons :
    (∀ place ∈ (cons label children siblings).places above, p place) ↔
      p (above, ⟨label, children⟩) ∧ (∀ place ∈ children.places (label :: above), p place) ∧
        ∀ place ∈ siblings.places above, p place := by
  rw [places, List.forall_mem_cons, List.forall_mem_append]

end Places

end Forest

namespace Tree

variable {α : Type} {p : Tree α → Prop}

/-- The trees in a tree, itself the first. -/
def subtrees (tree : Tree α) : List (Tree α) :=
  tree :: tree.children.subtrees

@[simp] theorem subtrees_forest (tree : Tree α) : tree.forest.subtrees = tree.subtrees := by
  rw [forest, Forest.subtrees, Forest.subtrees, List.append_nil, subtrees]

@[simp] theorem map_label_subtrees (tree : Tree α) :
    tree.subtrees.map Tree.label = tree.toList := by
  rw [← subtrees_forest, Forest.map_label_subtrees, toList_forest]

@[simp] theorem subtrees_map {β : Type} (f : α → β) (tree : Tree α) :
    (tree.map f).subtrees = tree.subtrees.map (Tree.map f) := by
  rw [subtrees, subtrees, List.map_cons]
  exact congrArg _ (Forest.subtrees_map f tree.children)

/-- The trees in a forest are those in its trees. -/
theorem forall_subtrees_ofTrees {trees : List (Tree α)} :
    (∀ subtree ∈ (Forest.ofTrees trees).subtrees, p subtree) ↔
      ∀ tree ∈ trees, ∀ subtree ∈ tree.subtrees, p subtree := by
  induction trees with
  | nil => simp [Forest.ofTrees, Forest.subtrees]
  | cons tree rest ih =>
    rw [Forest.ofTrees, Forest.subtrees, List.forall_mem_cons, List.forall_mem_append, ih,
      List.forall_mem_cons, subtrees, List.forall_mem_cons, and_assoc]

/-- What is in a tree in a forest is in the forest. -/
theorem forall_subtrees_of_mem {forest : Forest α} (h : ∀ subtree ∈ forest.subtrees, p subtree)
    {tree : Tree α} (hmem : tree ∈ forest.subtrees) : ∀ subtree ∈ tree.subtrees, p subtree := by
  induction forest with
  | nil => simp [Forest.subtrees] at hmem
  | cons label children siblings ihc ihs =>
    rw [Forest.subtrees, List.forall_mem_cons, List.forall_mem_append] at h
    obtain ⟨hself, hchildren, hsiblings⟩ := h
    rw [Forest.subtrees, List.mem_cons, List.mem_append] at hmem
    rcases hmem with rfl | hmem | hmem
    · exact List.forall_mem_cons.2 ⟨hself, hchildren⟩
    · exact ihc hchildren hmem
    · exact ihs hsiblings hmem

/-- The trees in a tree are itself and those in its children. -/
theorem forall_subtrees_iff {tree : Tree α} :
    (∀ subtree ∈ tree.subtrees, p subtree) ↔
      p tree ∧ ∀ child ∈ tree.children.trees, ∀ subtree ∈ child.subtrees, p subtree := by
  rw [subtrees, List.forall_mem_cons, ← forall_subtrees_ofTrees, Forest.ofTrees_trees]

end Tree

namespace Arena

variable {arena : Arena}

/-- The nodes of the arena stand one above the other, each recording the next as its parent
and the last recording none. -/
def Line (arena : Arena) : List (Nat × Node) → Prop
  | [] => True
  | entry :: above =>
    arena.nodes[entry.1]? = some entry.2 ∧ entry.2.parent = above.head?.map Prod.fst
      ∧ arena.Line above

/-- The records of a node agree with what stands above it and below it. -/
structure Seated (arena : Arena) (above : List (Nat × Node)) (tree : Tree (Nat × Node)) :
    Prop where
  line : arena.Line (tree.label :: above)
  below : arena.Unfolds tree.label.2.children tree.children
  root_iff : tree.label.1 = arena.root ↔ above = []

namespace Tidy

variable {tree : Tree (Nat × Node)}

/-- A node with nothing above it is the root. -/
theorem root_iff_of_line (h : arena.Tidy tree) {entry : Nat × Node} {above : List (Nat × Node)}
    (hline : arena.Line (entry :: above)) : entry.1 = arena.root ↔ above = [] := by
  obtain ⟨found, hparent, -⟩ := hline
  constructor
  · intro hroot
    rw [hroot] at found
    rw [h.root_parent_eq found, eq_comm, Option.map_eq_none_iff, List.head?_eq_none_iff] at hparent
    exact hparent
  · rintro rfl
    by_contra hroot
    obtain ⟨upper, hupper, -⟩ := h.parent_eq found hroot
    rw [hupper] at hparent
    exact absurd hparent (Option.some_ne_none upper)

theorem seated_of_unfolds (h : arena.Tidy tree) {indices : List Nat}
    {forest : Forest (Nat × Node)} {above : List (Nat × Node)}
    (hforest : arena.Unfolds indices forest) (habove : arena.Line above)
    (hroots : ∀ index ∈ indices, ∀ node, arena.nodes[index]? = some node →
      node.parent = above.head?.map Prod.fst) :
    ∀ place ∈ forest.places above, arena.Seated place.1 place.2 := by
  induction hforest generalizing above with
  | nil => simp [Forest.places]
  | @cons index node rest children siblings found below beside ihBelow ihBeside =>
    have hline : arena.Line ((index, node) :: above) :=
      ⟨found, hroots index List.mem_cons_self node found, habove⟩
    rw [Forest.forall_places_cons]
    refine ⟨⟨hline, below, h.root_iff_of_line hline⟩, ihBelow hline fun child hchild other found' =>
      h.parent index child other ((child_iff found).2 hchild) found', ihBeside habove ?_⟩
    exact fun other hother => hroots other (List.mem_cons_of_mem _ hother)

/-- **In an arena made from a tree, every node is seated at its place.** -/
theorem seated (h : arena.Tidy tree) :
    ∀ place ∈ tree.forest.places [], arena.Seated place.1 place.2 := by
  refine h.seated_of_unfolds h.hasTree trivial fun index hindex node found => ?_
  rw [List.mem_singleton.1 hindex] at found
  exact h.root_parent_eq found

/-- Every node has its place. -/
theorem exists_seat (h : arena.Tidy tree) {index : Nat} {node : Node}
    (found : arena.nodes[index]? = some node) :
    ∃ above, ∃ subtree ∈ tree.subtrees, subtree.label = (index, node) ∧
      arena.Seated above subtree := by
  have hmem := h.mem_of_found found
  rw [← Tree.toList_forest, ← Forest.map_label_subtrees, ← Forest.map_snd_places [],
    List.map_map, List.mem_map] at hmem
  obtain ⟨place, hplace, hlabel⟩ := hmem
  have hsubtree : place.2 ∈ tree.forest.subtrees := by
    rw [← Forest.map_snd_places []]
    exact List.mem_map_of_mem hplace
  rw [Tree.subtrees_forest] at hsubtree
  exact ⟨place.1, place.2, hsubtree, hlabel, h.seated place hplace⟩

end Tidy

end Arena

end SourceChunks
