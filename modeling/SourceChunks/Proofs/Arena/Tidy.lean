import SourceChunks.Proofs.Arena.TreeArena

/-!
# Arenas without loose ends

An arena that was made from a tree has nothing else in it: every number is met once on the
way down from the root, and what a node records as its parent is the node that lists it
(`Tidy`).  Such an arena is a tree (`Tidy.isTree`).

`Stands` is how that is shown of arenas that are filled place by place.  It says of trees
without numbers at which places they stand, under which parents, and lists the places that
they take up.  It looks at the places through a function, so the places may lie in an arena
or in a copy that is not finished yet.
-/

namespace SourceChunks

namespace Forest

variable {α β : Type}

theorem trees_map (f : α → β) (forest : Forest α) :
    (forest.map f).trees = forest.trees.map (Tree.map f) := by
  induction forest with
  | nil => rfl
  | cons label children siblings _ ih => rw [map, trees, ih]; rfl

end Forest

namespace Arena

/-- Trees stand at the given places, the root of each recording the parent that is given with
its place; the last list has the places of all their nodes. -/
inductive Stands (look : Nat → Option Node) :
    List (Nat × Option Nat) → List (Tree Element) → List Nat → Prop
  | nil : Stands look [] [] []
  | cons {place : Nat} {node : Node} {rest : List (Nat × Option Nat)} {children : Forest Element}
      {siblings : List (Tree Element)} {below beside : List Nat} (found : look place = some node)
      (down : Stands look (node.children.map (·, some place)) children.trees below)
      (right : Stands look rest siblings beside) :
      Stands look ((place, node.parent) :: rest) (⟨node.element, children⟩ :: siblings)
        (place :: (below ++ beside))

namespace Stands

variable {look : Nat → Option Node} {roots later : List (Nat × Option Nat)}
  {trees laterTrees : List (Tree Element)} {numbers : List Nat}

/-- Trees that stand side by side can be told apart. -/
theorem split (hlength : roots.length = trees.length)
    (h : Stands look (roots ++ later) (trees ++ laterTrees) numbers) :
    ∃ first second, numbers = first ++ second ∧ Stands look roots trees first ∧
      Stands look later laterTrees second := by
  induction roots generalizing trees numbers with
  | nil =>
    obtain rfl : trees = [] := List.length_eq_zero_iff.1 hlength.symm
    exact ⟨[], numbers, rfl, .nil, h⟩
  | cons root roots ih =>
    cases trees with
    | nil => simp at hlength
    | cons tree trees =>
      cases h with
      | cons found down right =>
        obtain ⟨first, second, rfl, hfirst, hsecond⟩ := ih (Nat.succ.inj hlength) right
        refine ⟨_, second, ?_, .cons found down hfirst, hsecond⟩
        rw [List.cons_append, List.append_assoc]

theorem uncons {root : Nat × Option Nat} {tree : Tree Element}
    (h : Stands look (root :: roots) (tree :: trees) numbers) :
    ∃ first second, numbers = first ++ second ∧ Stands look [root] [tree] first ∧
      Stands look roots trees second :=
  split (rfl : [root].length = [tree].length) h

theorem append {first second : List Nat} (h : Stands look roots trees first)
    (h' : Stands look later laterTrees second) :
    Stands look (roots ++ later) (trees ++ laterTrees) (first ++ second) := by
  induction h with
  | nil => exact h'
  | cons found down _ _ ih =>
    rw [List.cons_append, List.cons_append, List.cons_append, List.append_assoc]
    exact .cons found down ih

/-- A root records the parent that is given with its place. -/
theorem parent_of_root (h : Stands look roots trees numbers) {place : Nat}
    {parent : Option Nat} (hmem : (place, parent) ∈ roots) :
    ∃ node, look place = some node ∧ node.parent = parent := by
  induction h with
  | nil => simp at hmem
  | @cons first node rest children siblings below beside found down right _ ih =>
    rcases List.mem_cons.1 hmem with heq | hmem
    · obtain ⟨rfl, rfl⟩ := Prod.mk.inj heq
      exact ⟨node, found, rfl⟩
    · exact ih hmem

/-- Every place that is taken up is that of a node. -/
theorem found_of_mem (h : Stands look roots trees numbers) {place : Nat}
    (hmem : place ∈ numbers) : ∃ node, look place = some node := by
  induction h with
  | nil => simp at hmem
  | cons found _ _ ihDown ihRight =>
    rcases List.mem_cons.1 hmem with rfl | hmem
    · exact ⟨_, found⟩
    · exact (List.mem_append.1 hmem).elim ihDown ihRight

/-- The children that a node lists record it as their parent. -/
theorem parent_of_child (h : Stands look roots trees numbers) {place child : Nat} {node : Node}
    (hmem : place ∈ numbers) (found : look place = some node) (hchild : child ∈ node.children) :
    ∃ other, look child = some other ∧ other.parent = some place := by
  induction h with
  | nil => simp at hmem
  | @cons first own rest children siblings below beside found' down right ihDown ihRight =>
    rcases List.mem_cons.1 hmem with rfl | hmem
    · obtain rfl : own = node := Option.some.inj (found'.symm.trans found)
      exact down.parent_of_root (List.mem_map.2 ⟨child, hchild, rfl⟩)
    · rcases List.mem_append.1 hmem with hmem | hmem
      · exact ihDown hmem
      · exact ihRight hmem

/-- In an arena the trees that stand at places are those that hang from them. -/
theorem exists_unfolds {arena : Arena} (h : Stands (arena.nodes[·]?) roots trees numbers) :
    ∃ forest, arena.Unfolds (roots.map Prod.fst) forest ∧
      forest.map (·.2.element) = .ofTrees trees ∧ forest.toList.map Prod.fst = numbers := by
  induction h with
  | nil => exact ⟨.nil, .nil, rfl, rfl⟩
  | @cons place node rest children siblings below beside found down right ihDown ihRight =>
    obtain ⟨lower, hlower, hlabels, hbelow⟩ := ihDown
    obtain ⟨others, hothers, hlabels', hbeside⟩ := ihRight
    rw [List.map_map] at hlower
    have hchildren : node.children.map (Prod.fst ∘ (·, some place)) = node.children :=
      List.map_id _
    rw [hchildren] at hlower
    refine ⟨.cons (place, node) lower others, .cons found hlower hothers, ?_, ?_⟩
    · rw [Forest.map, hlabels, hlabels', Forest.ofTrees_trees]
      rfl
    · rw [Forest.toList, List.map_cons, List.map_append, hbelow, hbeside]

end Stands

/-- The arena is the given tree and nothing else, and parents are recorded as children are
listed. -/
structure Tidy (arena : Arena) (tree : Tree (Nat × Node)) : Prop where
  hasTree : arena.HasTree tree
  /-- Every number is met once. -/
  covers : (tree.toList.map Prod.fst).Perm (List.range arena.size)
  rootParent : tree.label.2.parent = none
  parent : ∀ (upper lower : Nat) (node : Node), arena.Child upper lower →
    arena.nodes[lower]? = some node → node.parent = some upper

variable {arena : Arena}

namespace Tidy

variable {tree : Tree (Nat × Node)}

/-- Every number is that of a node of the tree. -/
theorem exists_mem_of_lt (h : arena.Tidy tree) {index : Nat} (hlt : index < arena.size) :
    ∃ node, (index, node) ∈ tree.toList := by
  have hmem : index ∈ tree.toList.map Prod.fst := h.covers.mem_iff.2 (List.mem_range.2 hlt)
  obtain ⟨⟨_, node⟩, hentry, rfl⟩ := List.mem_map.1 hmem
  exact ⟨node, hentry⟩

theorem mem_of_found (h : arena.Tidy tree) {index : Nat} {node : Node}
    (found : arena.nodes[index]? = some node) : (index, node) ∈ tree.toList := by
  obtain ⟨other, hentry⟩ := h.exists_mem_of_lt (lt_size_of_node found)
  obtain rfl : other = node := Option.some.inj ((h.hasTree.found_of_mem hentry).symm.trans found)
  exact hentry

/-- A tidy arena has as many nodes as its tree. -/
theorem size_eq (h : arena.Tidy tree) : arena.size = tree.size := by
  have hlength := h.covers.length_eq
  rw [List.length_map, List.length_range, ← Tree.toList_forest, Forest.length_toList,
    Tree.size_forest] at hlength
  exact hlength.symm

/-- **Parents.**  Every node but the root is listed by one node, and records that one. -/
theorem parent_eq (h : arena.Tidy tree) {index : Nat} {node : Node}
    (found : arena.nodes[index]? = some node) (hroot : index ≠ arena.root) :
    ∃ upper, node.parent = some upper ∧ ∀ other, arena.Child other index ↔ other = upper := by
  have hreach := h.hasTree.reaches_of_mem (h.mem_of_found found)
  rcases Relation.ReflTransGen.cases_tail hreach with heq | ⟨upper, -, hchild⟩
  · exact absurd heq hroot
  · refine ⟨upper, h.parent upper index node hchild found, fun other => ⟨fun hother => ?_, ?_⟩⟩
    · have heq := (h.parent other index node hother found).symm.trans
        (h.parent upper index node hchild found)
      exact Option.some.inj heq
    · rintro rfl
      exact hchild

theorem root_parent_eq (h : arena.Tidy tree) {node : Node}
    (found : arena.nodes[arena.root]? = some node) : node.parent = none := by
  have hlabel := h.hasTree.found_of_mem tree.label_mem_toList
  rw [h.hasTree.label_fst, found] at hlabel
  rw [Option.some.inj hlabel, h.rootParent]

theorem isTree (h : arena.Tidy tree) : arena.IsTree tree where
  hasTree := h.hasTree
  nodup := h.covers.nodup_iff.2 List.nodup_range
  parents index node parent found hparent := by
    by_cases hroot : index = arena.root
    · subst hroot
      rw [h.root_parent_eq found] at hparent
      simp at hparent
    · obtain ⟨upper, hupper, hlisted⟩ := h.parent_eq found hroot
      obtain rfl : upper = parent := Option.some.inj (hupper.symm.trans hparent)
      obtain ⟨other, hother, -⟩ := exists_node_of_child ((hlisted upper).2 rfl)
      exact lt_size_of_node hother

end Tidy

/-- **A tree that stands at the root and takes up all places** is what a tidy arena is. -/
theorem Stands.exists_tidy {tree : Tree Element} {numbers : List Nat}
    (h : Stands (arena.nodes[·]?) [(arena.root, none)] [tree] numbers)
    (hcovers : numbers.Perm (List.range arena.size)) :
    ∃ copy, arena.Tidy copy ∧ copy.map (·.2.element) = tree := by
  obtain ⟨forest, hforest, hlabels, hnumbers⟩ := h.exists_unfolds
  obtain ⟨rootNode, hrootNode, hrootParent⟩ := h.parent_of_root List.mem_cons_self
  cases hforest with
  | @cons _ node _ children _ found below beside =>
    cases beside
    obtain rfl : rootNode = node := Option.some.inj (hrootNode.symm.trans found)
    have hnumbers' : (Tree.mk (arena.root, rootNode) children).toList.map Prod.fst = numbers := by
      rw [← hnumbers, Forest.toList, Forest.toList_nil, List.append_nil]
      rfl
    refine ⟨⟨(arena.root, rootNode), children⟩, ⟨.cons found below .nil, ?_, hrootParent, ?_⟩, ?_⟩
    · rw [hnumbers']
      exact hcovers
    · intro upper lower node hchild hnode
      obtain ⟨other, hother, hlower⟩ := exists_node_of_child hchild
      have hmem : upper ∈ numbers :=
        hcovers.mem_iff.2 (List.mem_range.2 (lt_size_of_node hother))
      obtain ⟨own, hown, hparent⟩ := h.parent_of_child hmem hother hlower
      rwa [← Option.some.inj (hnode.symm.trans hown)] at hparent
    · simp only [Forest.ofTrees, Forest.map, Forest.cons.injEq, and_true] at hlabels
      obtain ⟨label, subtrees⟩ := tree
      rw [Tree.map, Tree.mk.injEq]
      exact hlabels

end Arena

end SourceChunks
