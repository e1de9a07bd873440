import SourceChunks.Proofs.Comment.Reservation

/-!
# The copy is the recursion

The copy of an arena is made with a stack, in places that are reserved long before they are
written.  It stores what the recursion makes of the tree of the arena, and nothing else.

The invariant (`Ready`) is small: what waits has an empty place, and each its own.  A step
writes one place and hands the empty ones among those it reserves to the trees that wait
from then on (`Ready.step`).  What has been written stays, so a composite that is written
before its members is still there when they are.

`copyStack_spec` is the induction: the trees that wait come to stand at their places, and
the places they take up are those that waited and all that were added.  So at the end, where
only the root waited, no place is left empty and none is used twice (`coalesce_isCoalesced`).
-/

namespace SourceChunks

namespace Forest

variable {α : Type}

theorem ofTrees_append (trees later : List (Tree α)) :
    ofTrees (trees ++ later) = ofTrees trees ++ ofTrees later := by
  induction trees with
  | nil => rfl
  | cons tree trees ih => rw [List.cons_append, ofTrees, ofTrees, cons_append, ih]

end Forest

namespace Arena

variable {arena : Arena}

namespace Unfolds

variable {indices : List Nat} {forest : Forest (Nat × Node)}

theorem mapM_node (h : arena.Unfolds indices forest) :
    indices.mapM (fun index => (index, ·) <$> arena.node index) =
      .ok (forest.trees.map Tree.label) := by
  induction h with
  | nil => rfl
  | cons found _ _ _ ih =>
    rw [List.mapM_cons, node_eq_ok_iff.2 found, ih]
    rfl

/-- A tree that hangs from a number is a node with what hangs from its children. -/
theorem exists_node {index : Nat} {tree : Tree (Nat × Node)}
    (h : arena.Unfolds [index] tree.forest) :
    ∃ node, tree = ⟨(index, node), tree.children⟩ ∧ arena.nodes[index]? = some node ∧
      arena.Unfolds node.children tree.children := by
  obtain ⟨label, children⟩ := tree
  cases h with
  | cons found below beside => exact ⟨_, rfl, found, below⟩

/-- Each tree of a forest hangs from its root. -/
theorem of_mem_trees (h : arena.Unfolds indices forest) {tree : Tree (Nat × Node)}
    (hmem : tree ∈ forest.trees) : arena.Unfolds [tree.label.1] tree.forest := by
  induction h with
  | nil => simp [Forest.trees] at hmem
  | cons found below _ _ ih =>
    rw [Forest.trees, List.mem_cons] at hmem
    rcases hmem with rfl | hmem
    · exact .cons found below .nil
    · exact ih hmem

end Unfolds

/-! ## One step -/

/-- What copying a node leaves: the places reserved for its children, and their trees. -/
def childReservation (arena : Arena) (types : List String) (places : Array (Option Node))
    (copy : PendingCopy) (node : Node) (children : Forest (Nat × Node)) : Reservation :=
  let merging := copy.merging && !node.isComposite
  arena.reserve copy.place merging places
    (grouped (fun tree => types.contains tree.label.2.type) merging children.trees)

section Step

variable {types : List String} {places : Array (Option Node)} {copy : PendingCopy} {node : Node}
  {children : Forest (Nat × Node)}

theorem copyNode_eq (found : arena.nodes[copy.index]? = some node)
    (below : arena.Unfolds node.children children) (stack : List PendingCopy) :
    arena.copyNode types copy ⟨places, stack⟩ =
      let reservation := arena.childReservation types places copy node children
      .ok {
        places := reservation.places.setIfInBounds copy.place
          (some { node with children := reservation.children, parent := copy.parent })
        stack := reservation.tasks.map (·.copy) ++ stack } := by
  have hgroups : groups types (copy.merging && !node.isComposite)
      (children.trees.map Tree.label) =
        (grouped (fun tree => types.contains tree.label.2.type)
          (copy.merging && !node.isComposite) children.trees).map (List.map Tree.label) :=
    grouped_map Tree.label (fun entry : Nat × Node => types.contains entry.2.type) _ _
  rw [copyNode, node_eq_ok_iff.2 found]
  show (do
    let children ← node.children.mapM fun index => (index, ·) <$> arena.node index
    _) = _
  rw [below.mapM_node]
  show Except.ok _ = Except.ok _
  rw [hgroups, foldl_reserveGroup]
  rfl

/-- The trees that wait after a step hang from the numbers to be copied. -/
theorem unfolds_of_mem_childReservation (below : arena.Unfolds node.children children)
    {task : CopyTask}
    (h : task ∈ (arena.childReservation types places copy node children).tasks) :
    arena.Unfolds [task.copy.index] task.tree.forest := by
  have htree : task.tree ∈ children.trees := by
    rw [← flatten_grouped (fun tree => types.contains tree.label.2.type)
      (copy.merging && !node.isComposite) children.trees, ← map_tree_tasks]
    exact List.mem_map_of_mem h
  rw [index_of_mem_tasks h]
  exact below.of_mem_trees htree

/-- A step leaves to be copied what is below the node. -/
theorem ofTrees_childReservation (types : List String) (places : Array (Option Node))
    (copy : PendingCopy) (node : Node) (children : Forest (Nat × Node)) :
    Forest.ofTrees ((arena.childReservation types places copy node children).tasks.map (·.tree)) =
      children := by
  rw [childReservation, map_tree_tasks, flatten_grouped, Forest.ofTrees_trees]

end Step

end Arena

/-! ## The invariant -/

/-- What waits has an empty place, and each its own. -/
structure Ready (places : Array (Option Node)) (tasks : List CopyTask) : Prop where
  empty : ∀ task ∈ tasks, places[task.copy.place]? = some none
  nodup : (tasks.map (·.copy.place)).Nodup

namespace Ready

variable {places : Array (Option Node)} {task : CopyTask} {rest : List CopyTask}

theorem lt_size (h : Ready places rest) {task : CopyTask} (hmem : task ∈ rest) :
    task.copy.place < places.size :=
  (Array.getElem?_eq_some_iff.1 (h.empty task hmem)).1

/-- **One step.**  After the place of a node is written, the places reserved for what is below
it and those that waited before are empty, and no two are the same. -/
theorem step (arena : Arena) (h : Ready places (task :: rest)) (types : List String)
    (node stored : Node) (children : Forest (Nat × Node)) :
    let reservation := arena.childReservation types places task.copy node children
    Ready (reservation.places.setIfInBounds task.copy.place (some stored))
      (reservation.tasks ++ rest) := by
  intro reservation
  have hplace : task.copy.place < places.size := h.lt_size List.mem_cons_self
  have hnodup := h.nodup
  rw [List.map_cons, List.nodup_cons] at hnodup
  have hrange : (reservation.composites ++ reservation.tasks.map (·.copy.place)).Perm
      (List.range' places.size (reservation.places.size - places.size)) :=
    Arena.perm_range places _
  have hnew : ∀ other ∈ reservation.tasks, places.size ≤ other.copy.place := by
    intro other hother
    have hmem := hrange.mem_iff.1
      (List.mem_append_right _ (List.mem_map_of_mem (f := (·.copy.place)) hother))
    exact (List.mem_range'_1.1 hmem).1
  refine ⟨fun other hother => ?_, ?_⟩
  · rcases List.mem_append.1 hother with hother | hother
    · have hne : task.copy.place ≠ other.copy.place := by
        have := hnew other hother
        omega
      rw [Array.getElem?_setIfInBounds_ne hne]
      exact Arena.empty_of_mem_tasks hother
    · have hne : task.copy.place ≠ other.copy.place := fun heq =>
        hnodup.1 (heq ▸ List.mem_map_of_mem (f := (·.copy.place)) hother)
      have hin := List.mem_cons_of_mem task hother
      rw [Array.getElem?_setIfInBounds_ne hne]
      exact (Arena.getElem?_reserve (h.lt_size hin) _).trans (h.empty other hin)
  · rw [List.map_append, List.nodup_append]
    refine ⟨?_, hnodup.2, ?_⟩
    · exact ((hrange.nodup_iff.2 List.nodup_range').of_append_right)
    · intro place hin place' hin' heq
      obtain ⟨other, hother, rfl⟩ := List.mem_map.1 hin
      obtain ⟨older, holder, rfl⟩ := List.mem_map.1 hin'
      have hlow := hnew other hother
      have hhigh := h.lt_size (List.mem_cons_of_mem task holder)
      omega

/-- What is written when the places are reserved is written after the step. -/
theorem written_set (arena : Arena) (h : Ready places (task :: rest)) (types : List String)
    (node stored : Node) (children : Forest (Nat × Node)) {place : Nat} {other : Node}
    (hwritten : written (arena.childReservation types places task.copy node children).places place =
      some other) :
    written ((arena.childReservation types places task.copy node children).places.setIfInBounds
      task.copy.place (some stored)) place = some other := by
  rw [written_eq_some_iff] at hwritten ⊢
  have hne : task.copy.place ≠ place := by
    rintro rfl
    have hempty : (arena.childReservation types places task.copy node
        children).places[task.copy.place]? = some none :=
      (Arena.getElem?_reserve (h.lt_size List.mem_cons_self) _).trans
        (h.empty task List.mem_cons_self)
    rw [hempty] at hwritten
    simp at hwritten
  rwa [Array.getElem?_setIfInBounds_ne hne]

end Ready

namespace Arena

variable {arena : Arena}

/-- Once the trees that wait after a step stand at their places, so does the node's tree. -/
theorem stands_node {types : List String} {places : Array (Option Node)} {task : CopyTask}
    {index : Nat} {node : Node} {children : Forest (Nat × Node)} {look : Nat → Option Node}
    {numbers : List Nat} (htree : task.tree = ⟨(index, node), children⟩)
    (hstored : look task.copy.place = some { node with
      children := (arena.childReservation types places task.copy node children).children
      parent := task.copy.parent })
    (hkept : ∀ place other,
      written (arena.childReservation types places task.copy node children).places place =
        some other → look place = some other)
    (h : Stands look
      ((arena.childReservation types places task.copy node children).tasks.map CopyTask.root)
      ((arena.childReservation types places task.copy node children).tasks.map
        (CopyTask.wanted arena.source types)) numbers) :
    ∃ all, Stands look [task.root] [task.wanted arena.source types] all ∧
      all.Perm (task.copy.place ::
        ((arena.childReservation types places task.copy node children).composites
          ++ numbers)) := by
  obtain ⟨below, hbelow, hperm⟩ := stands_children types hkept h
  have hgroups : grouped (Tree.isCommentOf types) (task.copy.merging && !node.isComposite)
      (children.map (·.2.element)).trees =
        (grouped (fun tree => types.contains tree.label.2.type)
          (task.copy.merging && !node.isComposite) children.trees).map
            (List.map (Tree.map (·.2.element))) := by
    rw [Forest.trees_map, grouped_map]
    rfl
  have hwanted : task.wanted arena.source types = ⟨node.element, .ofTrees
      (((grouped (fun tree => types.contains tree.label.2.type)
        (task.copy.merging && !node.isComposite) children.trees).map
          (List.map (Tree.map (·.2.element)))).filterMap
            (Tree.standIn arena.source (Tree.coalesced arena.source types
              (task.copy.merging && !node.isComposite))))⟩ := by
    rw [CopyTask.wanted, htree, Tree.coalesced_eq, ← hgroups]
    rfl
  rw [← Forest.trees_ofTrees (List.filterMap _ _)] at hbelow
  have hstands : Stands look [task.root] _ _ := .cons hstored hbelow .nil
  rw [hwanted]
  refine ⟨_, hstands, ?_⟩
  rw [List.append_nil]
  exact hperm.cons _

/-- The places after a step: those of composites and of the trees that wait from then on are
the ones that it adds. -/
theorem perm_step {all first second composites waiting rest : List Nat}
    {place start middle stop : Nat} (hall : all.Perm (place :: (composites ++ first)))
    (hadded : (composites ++ waiting).Perm (List.range' start (middle - start)))
    (hlater : (first ++ second).Perm
      (waiting ++ rest ++ List.range' middle (stop - middle)))
    (hstart : start ≤ middle) (hmiddle : middle ≤ stop) :
    (all ++ second).Perm (place :: rest ++ List.range' start (stop - start)) := by
  have hrange : List.range' start (stop - start) =
      List.range' start (middle - start) ++ List.range' middle (stop - middle) := by
    obtain ⟨count, rfl⟩ := Nat.exists_eq_add_of_le hstart
    rw [Nat.add_sub_cancel_left, List.range'_append_1]
    congr 1
    omega
  calc
    List.Perm (all ++ second) (place :: (composites ++ first) ++ second) :=
      hall.append_right second
    _ = place :: (composites ++ (first ++ second)) := by
      rw [List.cons_append, List.append_assoc]
    List.Perm _ (place :: (composites ++
        (waiting ++ rest ++ List.range' middle (stop - middle)))) :=
      (hlater.append_left composites).cons place
    _ = place :: ((composites ++ waiting) ++ (rest ++ List.range' middle (stop - middle))) := by
      simp only [List.append_assoc]
    List.Perm _ (place :: (rest ++ (List.range' start (middle - start) ++
        List.range' middle (stop - middle)))) :=
      ((hadded.append_right _).trans (List.perm_append_comm_assoc ..)).cons place
    _ = place :: rest ++ List.range' start (stop - start) := by
      rw [hrange, List.cons_append]

/-- **The copy of what waits.**  The trees that wait come to stand at their places; what was
written stays; and the places that are taken up are those that waited and those added. -/
theorem copyStack_spec (arena : Arena) (types : List String) {fuel : Nat}
    {places : Array (Option Node)} {tasks : List CopyTask} (hready : Ready places tasks)
    (htasks : ∀ task ∈ tasks, arena.Unfolds [task.copy.index] task.tree.forest)
    (hfuel : (Forest.ofTrees (tasks.map (·.tree))).size ≤ fuel) :
    ∃ out numbers, arena.copyStack types fuel ⟨places, tasks.map (·.copy)⟩ = .ok out ∧
      places.size ≤ out.size ∧
      (∀ place node, written places place = some node → written out place = some node) ∧
      Stands (written out) (tasks.map CopyTask.root)
        (tasks.map (CopyTask.wanted arena.source types)) numbers ∧
      numbers.Perm (tasks.map (·.copy.place)
        ++ List.range' places.size (out.size - places.size)) := by
  induction fuel generalizing places tasks with
  | zero =>
    cases tasks with
    | nil => exact ⟨places, [], by simp [copyStack], Nat.le_refl _, fun _ _ h => h, .nil, by simp⟩
    | cons task rest => simp [Forest.ofTrees, Forest.size] at hfuel
  | succ fuel ih =>
    cases tasks with
    | nil => exact ⟨places, [], by simp [copyStack], Nat.le_refl _, fun _ _ h => h, .nil, by simp⟩
    | cons task rest =>
      obtain ⟨hown, hrest⟩ := List.forall_mem_cons.1 htasks
      obtain ⟨node, htree, found, below⟩ := hown.exists_node
      let reservation := arena.childReservation types places task.copy node task.tree.children
      let stored : Node :=
        { node with children := reservation.children, parent := task.copy.parent }
      let after := reservation.places.setIfInBounds task.copy.place (some stored)
      have hnext : Ready after (reservation.tasks ++ rest) := hready.step arena types node stored _
      have hsizes : (Forest.ofTrees ((reservation.tasks ++ rest).map (·.tree))).size ≤ fuel := by
        have hbelow : Forest.ofTrees (reservation.tasks.map (·.tree)) = task.tree.children :=
          ofTrees_childReservation types places task.copy node _
        rw [List.map_append, Forest.ofTrees_append, hbelow, Forest.size_append]
        rw [List.map_cons, Forest.ofTrees, Forest.size] at hfuel
        omega
      obtain ⟨out, numbers, hrun, hsize, hkept, hstands, hperm⟩ := ih hnext (by
        intro other hother
        rcases List.mem_append.1 hother with hother | hother
        · exact unfolds_of_mem_childReservation below hother
        · exact hrest other hother) hsizes
      rw [List.map_append, List.map_append] at hstands
      obtain ⟨first, second, rfl, hfirst, hsecond⟩ := Stands.split (by simp) hstands
      -- the places the step reserved are in the places that it leaves
      have hafter : after.size = reservation.places.size := Array.size_setIfInBounds
      have hgrown : places.size ≤ reservation.places.size := size_le_reserve places _
      have hplace : task.copy.place < places.size := hready.lt_size List.mem_cons_self
      have hstored : written out task.copy.place = some stored := by
        refine hkept _ _ (written_eq_some_iff.2 ?_)
        exact Array.getElem?_setIfInBounds_self_of_lt (by omega)
      have hreserved : ∀ place other, written reservation.places place = some other →
          written out place = some other := fun place other hwritten =>
        hkept place other (hready.written_set arena types node stored _ hwritten)
      obtain ⟨all, hall, hallPerm⟩ := stands_node htree hstored hreserved hfirst
      refine ⟨out, all ++ second, ?_, by omega, ?_, hall.append hsecond, ?_⟩
      · rw [List.map_cons, copyStack, copyNode_eq found below]
        rw [List.map_append] at hrun
        exact hrun
      · intro place other hwritten
        exact hreserved place other (written_reserve hwritten _)
      · have hrange : (reservation.composites ++ reservation.tasks.map (·.copy.place)).Perm
            (List.range' places.size (reservation.places.size - places.size)) :=
          perm_range places _
        rw [List.map_append, hafter] at hperm
        exact perm_step hallPerm hrange hperm hgrown (by omega)

/-! ## The whole copy -/

/-- Places of which all are written hold the nodes of an arena. -/
theorem exists_eq_map_some {places : Array (Option Node)}
    (h : ∀ place < places.size, ∃ node, written places place = some node) :
    ∃ nodes : Array Node, places = nodes.map some := by
  choose node hnode using h
  refine ⟨Array.ofFn fun place : Fin places.size => node place place.2, ?_⟩
  refine Array.ext (by simp) fun place hlt _ => ?_
  have hfound := written_eq_some_iff.1 (hnode place hlt)
  rw [Array.getElem?_eq_getElem hlt, Option.some.injEq] at hfound
  rw [hfound, Array.getElem_map, Array.getElem_ofFn]

/-- **The copy stores what the recursion makes of the tree**, at places that it fills without
a gap, and each once. -/
theorem exists_coalesce (types : List String) {tree : Tree (Nat × Node)}
    (h : arena.HasTree tree) :
    ∃ copied copy, arena.coalesce types = .ok copied ∧ copied.source = arena.source ∧
      copied.root = 0 ∧
      arena.copyStack types (arena.visits [arena.root])
        ⟨#[none], [⟨arena.root, 0, none, true⟩]⟩ = .ok (copied.nodes.map some) ∧
      copied.Tidy copy ∧
      copy.map (·.2.element) =
        (tree.map (·.2.element)).coalesced arena.source types true := by
  let task : CopyTask := ⟨⟨arena.root, 0, none, true⟩, tree⟩
  have hready : Ready #[none] [task] := ⟨by simp [task], by simp⟩
  have htasks : ∀ other ∈ [task], arena.Unfolds [other.copy.index] other.tree.forest := by
    intro other hother
    rw [List.mem_singleton.1 hother]
    exact h
  have hfuel : (Forest.ofTrees ([task].map (·.tree))).size ≤ arena.visits [arena.root] :=
    Nat.le_of_eq (visits_eq_size h).symm
  obtain ⟨out, numbers, hrun, hsize, -, hstands, hperm⟩ :=
    copyStack_spec arena types hready htasks hfuel
  have hcovers : numbers.Perm (List.range out.size) := by
    have hsize' : 1 ≤ out.size := hsize
    have hrange : List.range out.size = 0 :: List.range' 1 (out.size - 1) := by
      obtain ⟨count, hcount⟩ := Nat.exists_eq_add_of_le' hsize'
      rw [List.range_eq_range', hcount, List.range'_succ]
      rfl
    rw [hrange]
    exact hperm
  obtain ⟨nodes, rfl⟩ := exists_eq_map_some fun place hlt =>
    hstands.found_of_mem (hcovers.mem_iff.2 (List.mem_range.2 hlt))
  rw [Array.size_map] at hsize hcovers
  have hlook : written (nodes.map some) = (nodes[·]?) := by
    funext place
    rw [written, Array.getElem?_map]
    cases nodes[place]? <;> rfl
  let copied : Arena := ⟨arena.source, nodes, 0, hsize⟩
  have hstands' : Stands (copied.nodes[·]?) [(copied.root, none)]
      [(tree.map (·.2.element)).coalesced arena.source types true] numbers := hlook ▸ hstands
  obtain ⟨copy, htidy, hcopy⟩ := hstands'.exists_tidy hcovers
  have hcoalesce : arena.coalesce types = .ok copied := by
    have hnodes : (nodes.map some).mapM id = some nodes := by
      rw [Array.mapM_map]
      exact Array.mapM_pure.trans (by simp)
    have hrun' : arena.copyStack types (arena.visits [arena.root])
        ⟨#[none], [⟨arena.root, 0, none, true⟩]⟩ = .ok (nodes.map some) := hrun
    simp only [coalesce, hrun', bind, Except.bind, hnodes]
    exact dif_pos ⟨Int.le_refl 0, hsize⟩
  exact ⟨copied, copy, hcoalesce, rfl, rfl, hrun, htidy, hcopy⟩

/-- The copy of an arena that hangs together from its root as the given tree. -/
structure IsCoalesced (arena : Arena) (types : List String) (tree : Tree (Nat × Node))
    (copied : Arena) : Prop where
  source : copied.source = arena.source
  root : copied.root = 0
  /-- Every place that was reserved is written. -/
  filled : arena.copyStack types (arena.visits [arena.root])
    ⟨#[none], [⟨arena.root, 0, none, true⟩]⟩ = .ok (copied.nodes.map some)
  /-- Every number is met once. -/
  covers : ∃ numbers, copied.walk = .ok numbers ∧ numbers.Perm (List.range copied.size)
  rootParent : ∀ node, copied.nodes[0]? = some node → node.parent = none
  /-- Every other node records the one node that lists it. -/
  parent : ∀ (index : Nat) (node : Node), copied.nodes[index]? = some node → index ≠ 0 →
    ∃ upper, node.parent = some upper ∧ ∀ other, copied.Child other index ↔ other = upper
  refines : ∃ copy, copied.HasTree copy ∧ copy.map (·.2.element) =
    (tree.map (·.2.element)).coalesced arena.source types true

/-- **The copy is the recursion.**  Where the child numbers are in range and acyclic from the
root on, an arena has a copy without loose ends, and without its numbers it is the tree that
the recursion makes.  Which number the root has, what cannot be reached from it, what is
listed more than once and what is recorded as parents makes no difference. -/
theorem coalesce_isCoalesced (arena : Arena) (types : List String) (grounded : arena.Grounded) :
    ∃ tree copied, arena.HasTree tree ∧ arena.coalesce types = .ok copied ∧
      arena.IsCoalesced types tree copied := by
  obtain ⟨tree, htree⟩ := grounded.exists_hasTree
  obtain ⟨copied, copy, hcoalesce, hsource, hroot, hfilled, htidy, hcopy⟩ :=
    exists_coalesce types htree
  refine ⟨tree, copied, htree, hcoalesce, hsource, hroot, hfilled, ?_, ?_, ?_, ?_⟩
  · exact ⟨_, htidy.hasTree.walk_eq, htidy.covers⟩
  · rw [← hroot]
    exact fun node found => htidy.root_parent_eq found
  · rw [← hroot]
    exact fun index node found hne => htidy.parent_eq found hne
  · exact ⟨copy, htidy.hasTree, hcopy⟩

/-- Comments that are shared by two nodes, with parents that nobody lists, under a root that
does not come first. -/
def tangledArena : Arena where
  source := "#a\n#b".toUTF8.toList
  nodes := #[
    { element := ⟨.parsed "comment", ⟨0, 2, ⟨0, 0⟩, ⟨0, 2⟩⟩⟩, parent := some 4 },
    { element := ⟨.parsed "module", ⟨0, 5, ⟨0, 0⟩, ⟨1, 2⟩⟩⟩, children := [0, 2, 3, 2] },
    { element := ⟨.parsed "comment", ⟨3, 5, ⟨1, 0⟩, ⟨1, 2⟩⟩⟩, parent := some 9 },
    { element := ⟨.parsed "block", ⟨0, 5, ⟨0, 0⟩, ⟨1, 2⟩⟩⟩, children := [0, 2] },
    { element := ⟨.parsed "block", ⟨0, 5, ⟨0, 0⟩, ⟨1, 2⟩⟩⟩, children := [4, 7] }]
  root := 1
  root_lt := by decide

theorem tangledArena_isCoalesced : ∃ tree copied, tangledArena.HasTree tree ∧
    tangledArena.coalesce defaultCommentTypes = .ok copied ∧
      tangledArena.IsCoalesced defaultCommentTypes tree copied := by
  refine coalesce_isCoalesced tangledArena defaultCommentTypes ?_
  have comments : tangledArena.Unfolds [0, 2] _ := .cons rfl .nil (.cons rfl .nil .nil)
  have children : tangledArena.Unfolds [0, 2, 3, 2] _ :=
    comments.append (.cons rfl comments (.cons rfl .nil .nil))
  have root : tangledArena.Unfolds [1] _ := .cons rfl children .nil
  exact root.groundedAt

end Arena

end SourceChunks
