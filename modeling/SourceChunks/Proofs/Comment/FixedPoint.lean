import SourceChunks.Proofs.Comment.Coalescing
import SourceChunks.Proofs.Comment.RunFree

/-!
# Coalescing comes to rest

Coalescing twice makes the tree that coalescing once makes, for no run is left.  The numbers
may differ all the same: the first time the members of a run get theirs together with the
composite, the second time when the composite is copied.

They differ no more after that, and this needs no look at the numbers.  What a copy stores,
and where, follows from the tree without numbers alone (`coalesce_congr`): the numbers of the
arena that is copied serve to look nodes up and for nothing else.  The first and the second
copy hold the same tree, so they have the same copy, and that is the second one
(`coalesce_coalesce`).

`SameTask` is what the two sides of the congruence have in common while they are copied: the
same places wait, for trees that are the same but for their numbers.
-/

namespace SourceChunks

/-- The same is to be copied to the same place, whatever numbers it is copied from. -/
structure SameTask (task other : CopyTask) : Prop where
  place : task.copy.place = other.copy.place
  parent : task.copy.parent = other.copy.parent
  merging : task.copy.merging = other.copy.merging
  tree : task.tree.map (·.2.element) = other.tree.map (·.2.element)

/-- The same trees but for their numbers. -/
def SameTrees (trees others : List (Tree (Nat × Node))) : Prop :=
  trees.map (Tree.map (·.2.element)) = others.map (Tree.map (·.2.element))

namespace SameTrees

variable {trees others : List (Tree (Nat × Node))}

theorem length_eq (h : SameTrees trees others) : trees.length = others.length := by
  have hlength := congrArg List.length h
  rwa [List.length_map, List.length_map] at hlength

theorem cons_inv {first other : Tree (Nat × Node)}
    (h : SameTrees (first :: trees) (other :: others)) :
    first.map (·.2.element) = other.map (·.2.element) ∧ SameTrees trees others :=
  List.cons.inj h

/-- The members of a run that is the same wait for the same. -/
theorem memberTasks (h : SameTrees trees others) (composite place : Nat) :
    List.Forall₂ SameTask (Arena.memberTasks composite place trees)
      (Arena.memberTasks composite place others) := by
  induction trees generalizing others place with
  | nil =>
    obtain rfl : others = [] := List.length_eq_zero_iff.1 h.length_eq.symm
    exact .nil
  | cons tree trees ih =>
    cases others with
    | nil => exact absurd h.length_eq (Nat.succ_ne_zero _)
    | cons other others =>
      obtain ⟨hfirst, hrest⟩ := h.cons_inv
      exact .cons ⟨rfl, rfl, rfl, hfirst⟩ (ih hrest (place + 1))

end SameTrees

namespace Arena

variable {arena other : Arena}

/-- The composite over a run depends on the source and on the trees without numbers. -/
theorem compositeNode_congr (hsource : arena.source = other.source)
    {first second : Tree (Nat × Node)} {trees others : List (Tree (Nat × Node))}
    (h : SameTrees (first :: trees) (second :: others)) (parent place : Nat) :
    arena.compositeNode parent place first trees =
      other.compositeNode parent place second others := by
  have helement : (arena.compositeNode parent place first trees).element =
      (other.compositeNode parent place second others).element := by
    obtain ⟨hfirst, hrest⟩ := h.cons_inv
    rw [compositeNode_element, compositeNode_element, hsource, hfirst, hrest]
  have hchildren : (arena.compositeNode parent place first trees).children =
      (other.compositeNode parent place second others).children := by
    rw [compositeNode, compositeNode, h.length_eq]
  show Node.mk _ _ _ = Node.mk _ _ _
  rw [Node.mk.injEq]
  exact ⟨helement, hchildren, rfl⟩

/-- What two reservations have in common where the trees are the same but for numbers. -/
structure SameReservation (reservation second : Reservation) : Prop where
  places : reservation.places = second.places
  children : reservation.children = second.children
  tasks : List.Forall₂ SameTask reservation.tasks second.tasks

/-- **Places are reserved alike** for groups of the same trees. -/
theorem reserve_congr (hsource : arena.source = other.source) (parent : Nat) (merging : Bool)
    (places : Array (Option Node)) {groups others : List (List (Tree (Nat × Node)))}
    (h : List.Forall₂ SameTrees groups others) :
    SameReservation (arena.reserve parent merging places groups)
      (other.reserve parent merging places others) := by
  induction h generalizing places with
  | nil => exact ⟨rfl, rfl, .nil⟩
  | @cons group twin groups others hgroup _ ih =>
    match group, twin, hgroup with
    | [], [], _ => exact ih places
    | [tree], [copy], hgroup =>
      have hlater := ih (places ++ #[none])
      exact ⟨hlater.places, congrArg (places.size :: ·) hlater.children,
        .cons ⟨rfl, rfl, rfl, hgroup.cons_inv.1⟩ hlater.tasks⟩
    | first :: second :: trees, first' :: second' :: trees', hgroup =>
      have hrun : arena.reserveRun parent places first (second :: trees) =
          other.reserveRun parent places first' (second' :: trees') := by
        rw [reserveRun, reserveRun, compositeNode_congr hsource hgroup, hgroup.length_eq]
      have hlater := ih (arena.reserveRun parent places first (second :: trees))
      simp only [reserve]
      rw [← hrun]
      exact ⟨hlater.places, congrArg (places.size :: ·) hlater.children,
        List.rel_append (hgroup.memberTasks _ _) hlater.tasks⟩
    | [], _ :: _, hgroup => exact absurd hgroup.length_eq (by simp)
    | _ :: _, [], hgroup => exact absurd hgroup.length_eq (by simp)
    | [_], _ :: _ :: _, hgroup => exact absurd hgroup.length_eq (by simp)
    | _ :: _ :: _, [_], hgroup => exact absurd hgroup.length_eq (by simp)

/-- The same trees fall into the same groups. -/
theorem sameTrees_grouped (types : List String) (merging : Bool)
    {children others : Forest (Nat × Node)}
    (h : children.map (·.2.element) = others.map (·.2.element)) :
    List.Forall₂ SameTrees
      (grouped (fun tree => types.contains tree.label.2.type) merging children.trees)
      (grouped (fun tree => types.contains tree.label.2.type) merging others.trees) := by
  have hgroups : ∀ forest : Forest (Nat × Node),
      grouped (Tree.isCommentOf types) merging (forest.map (·.2.element)).trees =
        (grouped (fun tree => types.contains tree.label.2.type) merging forest.trees).map
          (List.map (Tree.map (·.2.element))) := by
    intro forest
    rw [Forest.trees_map, grouped_map]
    rfl
  have hsame := hgroups children
  rw [h, hgroups others, ← List.forall₂_eq_eq_eq, List.forall₂_map_left_iff,
    List.forall₂_map_right_iff] at hsame
  exact hsame.flip.imp fun _ _ heq => heq.symm

/-- **One node is copied alike** where the same tree waits, and then the same trees wait. -/
theorem copyNode_congr (hsource : arena.source = other.source) (types : List String)
    (places : Array (Option Node)) {task twin : CopyTask} (htask : SameTask task twin)
    (hown : arena.Unfolds [task.copy.index] task.tree.forest)
    (hown' : other.Unfolds [twin.copy.index] twin.tree.forest) :
    ∃ after added twins, List.Forall₂ SameTask added twins ∧
      (∀ one ∈ added, arena.Unfolds [one.copy.index] one.tree.forest) ∧
      (∀ one ∈ twins, other.Unfolds [one.copy.index] one.tree.forest) ∧
      (∀ stack, arena.copyNode types task.copy ⟨places, stack⟩ =
        .ok ⟨after, added.map (·.copy) ++ stack⟩) ∧
      ∀ stack, other.copyNode types twin.copy ⟨places, stack⟩ =
        .ok ⟨after, twins.map (·.copy) ++ stack⟩ := by
  obtain ⟨node, htree, found, below⟩ := hown.exists_node
  obtain ⟨node', htree', found', below'⟩ := hown'.exists_node
  have hsame := htask.tree
  rw [htree, htree', Tree.map, Tree.map, Tree.mk.injEq] at hsame
  obtain ⟨helement, hchildren⟩ := hsame
  have hcomposite : node.isComposite = node'.isComposite := by
    rw [Node.isComposite, Node.isComposite, helement]
  let reservation := arena.childReservation types places task.copy node task.tree.children
  let second := other.childReservation types places twin.copy node' twin.tree.children
  have hreservation : SameReservation reservation second := by
    show SameReservation (arena.reserve _ _ places _) (other.reserve _ _ places _)
    rw [htask.place, htask.merging, hcomposite]
    exact reserve_congr hsource _ _ places (sameTrees_grouped types _ hchildren)
  -- the numbers of the two nodes are not stored
  have hstored : ({ node with
        children := reservation.children, parent := task.copy.parent } : Node) =
      { node' with children := second.children, parent := twin.copy.parent } := by
    rw [hreservation.children, htask.parent, helement]
  refine ⟨_, _, _, hreservation.tasks, fun one hone => unfolds_of_mem_childReservation below hone,
    fun one hone => unfolds_of_mem_childReservation below' hone, copyNode_eq found below,
    fun stack => ?_⟩
  rw [copyNode_eq found' below']
  show Except.ok (CopyState.mk (second.places.setIfInBounds twin.copy.place (some _)) _) = _
  rw [← hstored, ← htask.place, ← hreservation.places]

/-- **Copies are made alike** of what waits for the same trees. -/
theorem copyStack_congr (hsource : arena.source = other.source) (types : List String) {fuel : Nat}
    {places : Array (Option Node)} {tasks others : List CopyTask}
    (h : List.Forall₂ SameTask tasks others)
    (htasks : ∀ task ∈ tasks, arena.Unfolds [task.copy.index] task.tree.forest)
    (hothers : ∀ task ∈ others, other.Unfolds [task.copy.index] task.tree.forest) :
    arena.copyStack types fuel ⟨places, tasks.map (·.copy)⟩ =
      other.copyStack types fuel ⟨places, others.map (·.copy)⟩ := by
  induction fuel generalizing places tasks others with
  | zero =>
    cases h with
    | nil => simp [copyStack]
    | cons => rfl
  | succ fuel ih =>
    cases h with
    | nil => simp [copyStack]
    | @cons task twin rest later htask hrest =>
      obtain ⟨hown, htasks⟩ := List.forall_mem_cons.1 htasks
      obtain ⟨hown', hothers⟩ := List.forall_mem_cons.1 hothers
      obtain ⟨after, added, twins, hadded, hunfolds, hunfolds', hstep, hstep'⟩ :=
        copyNode_congr hsource types places htask hown hown'
      have hnext : arena.copyStack types fuel ⟨after, (added ++ rest).map (·.copy)⟩ =
          other.copyStack types fuel ⟨after, (twins ++ later).map (·.copy)⟩ :=
        ih (List.rel_append hadded hrest) (List.forall_mem_append.2 ⟨hunfolds, htasks⟩)
          (List.forall_mem_append.2 ⟨hunfolds', hothers⟩)
      rw [List.map_append, List.map_append] at hnext
      rw [List.map_cons, List.map_cons, copyStack, copyStack, hstep, hstep']
      exact hnext

/-- **The copy follows from the tree without numbers.**  Arenas over one source that hold the
same tree have the same copy, number by number. -/
theorem coalesce_congr (hsource : arena.source = other.source) (types : List String)
    {tree twin : Tree (Nat × Node)} (h : arena.HasTree tree) (h' : other.HasTree twin)
    (hsame : tree.map (·.2.element) = twin.map (·.2.element)) :
    arena.coalesce types = other.coalesce types := by
  have hsize : tree.size = twin.size := by
    rw [← Tree.size_map (·.2.element) tree, hsame, Tree.size_map]
  have hvisits : arena.visits [arena.root] = other.visits [other.root] := by
    rw [visits_eq_size h, visits_eq_size h', Tree.size_forest, Tree.size_forest, hsize]
  have hcopied : arena.copyStack types (arena.visits [arena.root])
        ⟨#[none], [⟨arena.root, 0, none, true⟩]⟩ =
      other.copyStack types (other.visits [other.root])
        ⟨#[none], [⟨other.root, 0, none, true⟩]⟩ := by
    let task : CopyTask := ⟨⟨arena.root, 0, none, true⟩, tree⟩
    let task' : CopyTask := ⟨⟨other.root, 0, none, true⟩, twin⟩
    have htasks : List.Forall₂ SameTask [task] [task'] := .cons ⟨rfl, rfl, rfl, hsame⟩ .nil
    rw [hvisits]
    exact copyStack_congr hsource types htasks (List.forall_mem_singleton.2 h)
      (List.forall_mem_singleton.2 h')
  rw [coalesce, coalesce, hcopied, hsource]

/-- **Coalescing comes to rest.**  Where the child numbers are in range and acyclic from the
root on, coalescing a second time leaves the tree without numbers as it is, and the number of
nodes; and coalescing a third time leaves the arena as it is, number by number. -/
theorem coalesce_coalesce (arena : Arena) (types : List String) (grounded : arena.Grounded) :
    ∃ once twice first second, arena.coalesce types = .ok once ∧
      once.coalesce types = .ok twice ∧ twice.coalesce types = .ok twice ∧
      twice.size = once.size ∧ twice.source = once.source ∧
      once.HasTree first ∧ twice.HasTree second ∧
      second.map (·.2.element) = first.map (·.2.element) := by
  obtain ⟨tree, htree⟩ := grounded.exists_hasTree
  obtain ⟨once, first, honce, hsource, -, -, hfirst, hfirstTree⟩ := exists_coalesce types htree
  obtain ⟨twice, second, htwice, hsource', -, -, hsecond, hsecondTree⟩ :=
    exists_coalesce types hfirst.hasTree
  have hsame : second.map (·.2.element) = first.map (·.2.element) := by
    rw [hsecondTree, hfirstTree, hsource, Tree.coalesced_coalesced]
  have hthird : twice.coalesce types = .ok twice := by
    rw [← htwice]
    exact coalesce_congr hsource' types hsecond.hasTree hfirst.hasTree hsame
  have hsize : twice.size = once.size := by
    rw [hsecond.size_eq, hfirst.size_eq, ← Tree.size_map (·.2.element) second, hsame,
      Tree.size_map]
  exact ⟨once, twice, first, second, honce, htwice, hthird, hsize, hsource', hfirst.hasTree,
    hsecond.hasTree, hsame⟩

/-- Comments in comments, beside a composite and a node that only bears the type of one. -/
def layeredArena : Arena where
  source := "#a\n#b".toUTF8.toList
  nodes := #[
    { element := ⟨.parsed "module", ⟨0, 5, ⟨0, 0⟩, ⟨1, 2⟩⟩⟩, children := [1, 2, 3] },
    { element := ⟨.parsed "comment", ⟨0, 5, ⟨0, 0⟩, ⟨1, 2⟩⟩⟩, children := [4, 5, 7] },
    { element := ⟨.parsed compositeType, ⟨0, 5, ⟨0, 0⟩, ⟨1, 2⟩⟩⟩ },
    { element := ⟨.composite "#b", ⟨3, 5, ⟨1, 0⟩, ⟨1, 2⟩⟩⟩, children := [4, 5], parent := some 9 },
    { element := ⟨.parsed "comment", ⟨0, 2, ⟨0, 0⟩, ⟨0, 2⟩⟩⟩ },
    { element := ⟨.parsed "comment", ⟨3, 5, ⟨1, 0⟩, ⟨1, 2⟩⟩⟩ },
    { element := ⟨.parsed "block", ⟨0, 5, ⟨0, 0⟩, ⟨1, 2⟩⟩⟩, children := [0, 1] },
    { element := ⟨.parsed "mark", ⟨5, 5, ⟨1, 2⟩, ⟨1, 2⟩⟩⟩ }]
  root := 6
  root_lt := by decide

theorem layeredArena_coalesce_coalesce :
    ∃ once twice first second, layeredArena.coalesce ["comment", compositeType] = .ok once ∧
      once.coalesce ["comment", compositeType] = .ok twice ∧
      twice.coalesce ["comment", compositeType] = .ok twice ∧
      twice.size = once.size ∧ twice.source = once.source ∧
      once.HasTree first ∧ twice.HasTree second ∧
      second.map (·.2.element) = first.map (·.2.element) := by
  refine coalesce_coalesce layeredArena ["comment", compositeType] ?_
  have mark : layeredArena.Unfolds [7] _ := .cons rfl .nil .nil
  have pair : layeredArena.Unfolds [4, 5] _ := .cons rfl .nil (.cons rfl .nil .nil)
  have comment : layeredArena.Unfolds [4, 5, 7] _ := pair.append mark
  have module : layeredArena.Unfolds [1, 2, 3] _ :=
    .cons rfl comment (.cons rfl .nil (.cons rfl pair .nil))
  have root : layeredArena.Unfolds [6] _ :=
    .cons rfl (.cons rfl module (.cons rfl comment .nil)) .nil
  exact root.groundedAt

end Arena

end SourceChunks
