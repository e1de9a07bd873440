import SourceChunks.Proofs.Arena.Tidy
import SourceChunks.Proofs.Comment.CoalescedTree

/-!
# Reserving the places of siblings

When a node is copied, places are reserved for its children: group by group, the next free
place for a child by itself, and for a run one place for the composite and then one for each
member.  `reserve` says this as a recursion over the groups, with the trees that are to be
copied to the places; `foldl_reserveGroup` is that the copy does the same.

A reservation is good for two things.

* Its places are new and every one is accounted for: those of composites, which are written,
  and those of the trees that wait, which are empty (`perm_range`, `empty_of_mem_tasks`).
* Once the waiting trees stand at their places, so do the children
  (`stands_children`): a child by itself is one of these trees, and a composite stands over
  the trees of its members.
-/

namespace SourceChunks

/-- A copy that waits, and the tree to be copied. -/
structure CopyTask where
  copy : PendingCopy
  tree : Tree (Nat × Node)

namespace CopyTask

/-- The place of the copy and the parent of its root. -/
def root (task : CopyTask) : Nat × Option Nat :=
  (task.copy.place, task.copy.parent)

/-- What is to stand at the place, without numbers. -/
def wanted (source : Bytes) (types : List String) (task : CopyTask) : Tree Element :=
  (task.tree.map (·.2.element)).coalesced source types task.copy.merging

end CopyTask

/-- What a reservation leaves: all places, the places of the children, those of composites,
and what waits to be copied to the others. -/
structure Reservation where
  places : Array (Option Node)
  children : List Nat
  composites : List Nat
  tasks : List CopyTask

/-- What is written at a place. -/
def written (places : Array (Option Node)) (place : Nat) : Option Node :=
  places[place]?.join

theorem written_eq_some_iff {places : Array (Option Node)} {place : Nat} {node : Node} :
    written places place = some node ↔ places[place]? = some (some node) := by
  rw [written, Option.join_eq_some_iff]

namespace Arena

/-- The copies of the members of a run at places that follow one another. -/
def memberTasks (composite : Nat) : Nat → List (Tree (Nat × Node)) → List CopyTask
  | _, [] => []
  | place, tree :: trees =>
    ⟨⟨tree.label.1, place, some composite, false⟩, tree⟩ :: memberTasks composite (place + 1) trees

/-- The composite over a run, where the members get the places after its own. -/
def compositeNode (arena : Arena) (parent place : Nat) (first : Tree (Nat × Node))
    (others : List (Tree (Nat × Node))) : Node where
  element := arena.compositeOf first.label.2 ((first :: others).getLast (by simp)).label.2
    ((first :: others).map fun tree => tree.label.2)
  children := List.range' (place + 1) (first :: others).length
  parent := some parent

/-- The composite of a copy is that of the recursion. -/
theorem compositeNode_element (arena : Arena) (parent place : Nat) (first : Tree (Nat × Node))
    (others : List (Tree (Nat × Node))) :
    (arena.compositeNode parent place first others).element =
      (Tree.composite arena.source (first.map (·.2.element))
        (others.map (Tree.map (·.2.element)))).label := by
  have hlast : (first.map (·.2.element) :: others.map (Tree.map (·.2.element))).getLast
      (by simp) = ((first :: others).getLast (by simp)).map (·.2.element) := by
    simp only [← List.map_cons, List.getLast_map]
  have htexts : ((first :: others).map fun tree => tree.label.2).map arena.nodeText =
      (first.map (·.2.element) :: others.map (Tree.map (·.2.element))).map fun tree =>
        elementText arena.source tree.label := by
    rw [← List.map_cons, List.map_map, List.map_map]
    rfl
  simp only [compositeNode, compositeOf, Tree.composite, htexts, hlast]
  rfl

/-- The places after the composite over a run is written and its members have got theirs. -/
def reserveRun (arena : Arena) (parent : Nat) (places : Array (Option Node))
    (first : Tree (Nat × Node)) (others : List (Tree (Nat × Node))) : Array (Option Node) :=
  places ++ (#[some (arena.compositeNode parent places.size first others)]
    ++ Array.replicate (first :: others).length none)

/-- Reserves places for groups of neighbours. -/
def reserve (arena : Arena) (parent : Nat) (merging : Bool) :
    Array (Option Node) → List (List (Tree (Nat × Node))) → Reservation
  | places, [] => ⟨places, [], [], []⟩
  | places, [] :: groups => arena.reserve parent merging places groups
  | places, [tree] :: groups =>
    let later := arena.reserve parent merging (places ++ #[none]) groups
    { later with
      children := places.size :: later.children
      tasks := ⟨⟨tree.label.1, places.size, some parent, merging⟩, tree⟩ :: later.tasks }
  | places, (first :: second :: others) :: groups =>
    let later := arena.reserve parent merging
      (arena.reserveRun parent places first (second :: others)) groups
    { later with
      children := places.size :: later.children
      composites := places.size :: later.composites
      tasks := memberTasks places.size (places.size + 1) (first :: second :: others)
        ++ later.tasks }

section MemberTasks

variable {composite place : Nat} {trees : List (Tree (Nat × Node))}

theorem map_copy_memberTasks (composite place : Nat) (trees : List (Tree (Nat × Node))) :
    (memberTasks composite place trees).map (·.copy) =
      List.zipWith (fun member copy => ⟨member.1, copy, some composite, false⟩)
        (trees.map (·.label)) (List.range' place trees.length) := by
  induction trees generalizing place with
  | nil => rfl
  | cons tree trees ih =>
    rw [memberTasks, List.map_cons, ih, List.map_cons, List.length_cons, List.range'_succ,
      List.zipWith_cons_cons]

theorem map_tree_memberTasks (composite place : Nat) (trees : List (Tree (Nat × Node))) :
    (memberTasks composite place trees).map (·.tree) = trees := by
  induction trees generalizing place with
  | nil => rfl
  | cons tree trees ih => rw [memberTasks, List.map_cons, ih]

theorem map_root_memberTasks (composite place : Nat) (trees : List (Tree (Nat × Node))) :
    (memberTasks composite place trees).map CopyTask.root =
      (List.range' place trees.length).map (·, some composite) := by
  induction trees generalizing place with
  | nil => rfl
  | cons tree trees ih =>
    rw [memberTasks, List.map_cons, ih, List.length_cons, List.range'_succ, List.map_cons]
    rfl

theorem map_place_memberTasks (composite place : Nat) (trees : List (Tree (Nat × Node))) :
    (memberTasks composite place trees).map (·.copy.place) =
      List.range' place trees.length := by
  have hroots := congrArg (List.map Prod.fst) (map_root_memberTasks composite place trees)
  rw [List.map_map, List.map_map] at hroots
  exact hroots.trans (List.map_id _)

/-- Members are copied as they are. -/
theorem map_wanted_memberTasks (source : Bytes) (types : List String) (composite place : Nat)
    (trees : List (Tree (Nat × Node))) :
    (memberTasks composite place trees).map (CopyTask.wanted source types) =
      trees.map (Tree.map (·.2.element)) := by
  induction trees generalizing place with
  | nil => rfl
  | cons tree trees ih =>
    rw [memberTasks, List.map_cons, ih, List.map_cons, CopyTask.wanted, Tree.coalesced_false]

theorem index_of_mem_memberTasks {task : CopyTask} (h : task ∈ memberTasks composite place trees) :
    task.copy.index = task.tree.label.1 := by
  induction trees generalizing place with
  | nil => simp [memberTasks] at h
  | cons tree trees ih =>
    rw [memberTasks, List.mem_cons] at h
    rcases h with rfl | h
    · rfl
    · exact ih h

end MemberTasks

/-! ## What a reservation leaves -/

section Reserve

variable (arena : Arena) (parent : Nat) (merging : Bool)

/-- **The copy reserves places as the recursion does.** -/
theorem foldl_reserveGroup (groups : List (List (Tree (Nat × Node)))) (siblings : SiblingPlaces) :
    (groups.map (List.map Tree.label)).foldl (arena.reserveGroup parent merging) siblings =
      { places := (arena.reserve parent merging siblings.places groups).places
        children :=
          siblings.children ++ (arena.reserve parent merging siblings.places groups).children
        pending := siblings.pending ++
          (arena.reserve parent merging siblings.places groups).tasks.map (·.copy) } := by
  induction groups generalizing siblings with
  | nil => simp [reserve]
  | cons group groups ih =>
    rw [List.map_cons, List.foldl_cons, ih]
    match group with
    | [] => rfl
    | [tree] => simp [reserve, reserveGroup]
    | first :: second :: others =>
      have hlast : ((second.label :: others.map Tree.label).getLast (by simp)).2 =
          ((second :: others).getLast (by simp)).label.2 := by
        simp only [← List.map_cons, List.getLast_map]
      have hplaces : (arena.reserveGroup parent merging siblings
          ((first :: second :: others).map Tree.label)).places =
            arena.reserveRun parent siblings.places first (second :: others) := by
        simp only [List.map_cons, reserveGroup, reserveRun, compositeNode, hlast, List.map_map,
          List.length_cons, List.length_map]
        simp
        rfl
      rw [hplaces]
      simp [reserve, reserveGroup, map_copy_memberTasks]

variable {arena parent merging}

/-- Places are only added. -/
theorem exists_reserve_places (places : Array (Option Node))
    (groups : List (List (Tree (Nat × Node)))) :
    ∃ added, (arena.reserve parent merging places groups).places = places ++ added := by
  induction groups generalizing places with
  | nil => exact ⟨#[], by simp [reserve]⟩
  | cons group groups ih =>
    match group with
    | [] => exact ih places
    | [tree] =>
      obtain ⟨added, hadded⟩ := ih (places ++ #[none])
      exact ⟨_, hadded.trans (Array.append_assoc ..)⟩
    | first :: second :: others =>
      obtain ⟨added, hadded⟩ := ih (arena.reserveRun parent places first (second :: others))
      exact ⟨_, hadded.trans (Array.append_assoc ..)⟩

theorem size_le_reserve (places : Array (Option Node))
    (groups : List (List (Tree (Nat × Node)))) :
    places.size ≤ (arena.reserve parent merging places groups).places.size := by
  obtain ⟨added, hadded⟩ : ∃ added, (arena.reserve parent merging places groups).places = _ :=
    exists_reserve_places places groups
  rw [hadded, Array.size_append]
  exact Nat.le_add_right _ _

/-- What stood at a place still does. -/
theorem getElem?_reserve {places : Array (Option Node)} {place : Nat} (hlt : place < places.size)
    (groups : List (List (Tree (Nat × Node)))) :
    (arena.reserve parent merging places groups).places[place]? = places[place]? := by
  obtain ⟨added, hadded⟩ := exists_reserve_places places groups
  rw [hadded, Array.getElem?_append_left hlt]

theorem written_reserve {places : Array (Option Node)} {place : Nat} {node : Node}
    (h : written places place = some node) (groups : List (List (Tree (Nat × Node)))) :
    written (arena.reserve parent merging places groups).places place = some node := by
  rw [written_eq_some_iff] at h ⊢
  rw [getElem?_reserve (Array.getElem?_eq_some_iff.1 h).1, h]

theorem size_reserveRun (places : Array (Option Node)) (first : Tree (Nat × Node))
    (others : List (Tree (Nat × Node))) :
    (arena.reserveRun parent places first others).size = places.size + 1 + others.length.succ := by
  simp [reserveRun, Nat.add_assoc, Nat.add_comm, Nat.add_left_comm]

/-- The trees that wait are those of the groups, in order. -/
theorem map_tree_tasks (places : Array (Option Node)) (groups : List (List (Tree (Nat × Node)))) :
    (arena.reserve parent merging places groups).tasks.map (·.tree) = groups.flatten := by
  induction groups generalizing places with
  | nil => rfl
  | cons group groups ih =>
    match group with
    | [] => exact ih places
    | [tree] => exact congrArg (tree :: ·) (ih _)
    | first :: second :: others =>
      rw [reserve, List.map_append, map_tree_memberTasks, ih, List.flatten_cons]

/-- What waits is the copy of the root of its tree. -/
theorem index_of_mem_tasks {places : Array (Option Node)}
    {groups : List (List (Tree (Nat × Node)))} {task : CopyTask}
    (h : task ∈ (arena.reserve parent merging places groups).tasks) :
    task.copy.index = task.tree.label.1 := by
  induction groups generalizing places with
  | nil => simp [reserve] at h
  | cons group groups ih =>
    match group with
    | [] => exact ih h
    | [tree] =>
      rw [reserve, List.mem_cons] at h
      rcases h with rfl | h
      · rfl
      · exact ih h
    | first :: second :: others =>
      rw [reserve, List.mem_append] at h
      exact h.elim index_of_mem_memberTasks ih

/-- **Every new place** is that of a composite or of a tree that waits, and of one only. -/
theorem perm_range (places : Array (Option Node)) (groups : List (List (Tree (Nat × Node)))) :
    ((arena.reserve parent merging places groups).composites
        ++ (arena.reserve parent merging places groups).tasks.map (·.copy.place)).Perm
      (List.range' places.size
        ((arena.reserve parent merging places groups).places.size - places.size)) := by
  induction groups generalizing places with
  | nil => simp [reserve]
  | cons group groups ih =>
    match group with
    | [] => exact ih places
    | [tree] =>
      have hsize : (places ++ #[none]).size ≤
          (arena.reserve parent merging (places ++ #[none]) groups).places.size :=
        size_le_reserve _ _
      have hlater := ih (places ++ #[none])
      rw [Array.size_append] at hsize hlater
      simp only [List.size_toArray, List.length_singleton] at hsize hlater
      simp only [reserve, List.map_cons]
      generalize (arena.reserve parent merging (places ++ #[none]) groups) = later at *
      have hcount : later.places.size - places.size =
          later.places.size - (places.size + 1) + 1 := by
        omega
      rw [hcount, List.range'_succ]
      exact List.perm_middle.trans (hlater.cons _)
    | first :: second :: others =>
      have hsize : (arena.reserveRun parent places first (second :: others)).size ≤
          (arena.reserve parent merging
            (arena.reserveRun parent places first (second :: others)) groups).places.size :=
        size_le_reserve _ _
      have hlater := ih (arena.reserveRun parent places first (second :: others))
      rw [size_reserveRun] at hsize hlater
      simp only [reserve, List.map_append, map_place_memberTasks, List.length_cons]
      generalize (arena.reserve parent merging
        (arena.reserveRun parent places first (second :: others)) groups) = later at *
      simp only [List.length_cons, Nat.succ_eq_add_one] at hsize hlater
      -- the place of the composite, those of its members, and those of the later groups
      have hrange : List.range' places.size (later.places.size - places.size) =
          places.size :: (List.range' (places.size + 1) (others.length + 1 + 1) ++
            List.range' (places.size + 1 + (others.length + 1 + 1))
              (later.places.size - (places.size + 1 + (others.length + 1 + 1)))) := by
        rw [List.range'_append_1, ← List.range'_succ]
        congr 1
        omega
      rw [hrange, List.cons_append]
      refine List.Perm.cons _ ?_
      exact (List.perm_append_comm_assoc ..).trans (hlater.append_left _)

/-- The place of a tree that waits is empty. -/
theorem empty_of_mem_tasks {places : Array (Option Node)}
    {groups : List (List (Tree (Nat × Node)))} {task : CopyTask}
    (h : task ∈ (arena.reserve parent merging places groups).tasks) :
    (arena.reserve parent merging places groups).places[task.copy.place]? = some none := by
  induction groups generalizing places with
  | nil => simp [reserve] at h
  | cons group groups ih =>
    match group with
    | [] => exact ih h
    | [tree] =>
      rw [reserve, List.mem_cons] at h
      rcases h with rfl | h
      · rw [reserve, getElem?_reserve (by simp)]
        simp
      · exact ih h
    | first :: second :: others =>
      rw [reserve, List.mem_append] at h
      rcases h with h | h
      · have hplace : task.copy.place ∈
            List.range' (places.size + 1) (first :: second :: others).length := by
          rw [← map_place_memberTasks]
          exact List.mem_map_of_mem h
        rw [List.mem_range'_1, List.length_cons, List.length_cons] at hplace
        have hlt : task.copy.place <
            (arena.reserveRun parent places first (second :: others)).size := by
          rw [size_reserveRun, List.length_cons]
          omega
        rw [reserve, getElem?_reserve hlt, reserveRun, Array.getElem?_append_right (by omega),
          Array.getElem?_append_right (by simp; omega), Array.getElem?_replicate]
        rw [if_pos (by simp; omega)]
      · exact ih h

/-- **The children stand where the waiting trees do.**  Once the trees that wait stand at
their places, and composites are left as they are, the children stand at theirs. -/
theorem stands_children (types : List String) {look : Nat → Option Node}
    {places : Array (Option Node)} {groups : List (List (Tree (Nat × Node)))} {numbers : List Nat}
    (hkept : ∀ place node,
      written (arena.reserve parent merging places groups).places place = some node →
        look place = some node)
    (h : Stands look ((arena.reserve parent merging places groups).tasks.map CopyTask.root)
      ((arena.reserve parent merging places groups).tasks.map
        (CopyTask.wanted arena.source types)) numbers) :
    ∃ all, Stands look
        ((arena.reserve parent merging places groups).children.map (·, some parent))
        ((groups.map (List.map (Tree.map (·.2.element)))).filterMap
          (Tree.standIn arena.source (Tree.coalesced arena.source types merging))) all ∧
      all.Perm ((arena.reserve parent merging places groups).composites ++ numbers) := by
  induction groups generalizing places numbers with
  | nil =>
    cases h
    exact ⟨[], .nil, List.Perm.refl _⟩
  | cons group groups ih =>
    match group with
    | [] => exact ih hkept h
    | [tree] =>
      simp only [reserve] at h hkept
      obtain ⟨below, beside, rfl, hdown, hright⟩ := h.uncons
      obtain ⟨all, hall, hperm⟩ := ih hkept hright
      refine ⟨below ++ all, hdown.append hall, ?_⟩
      exact (hperm.append_left below).trans (List.perm_append_comm_assoc ..)
    | first :: second :: others =>
      have hcomposite : look places.size =
          some (arena.compositeNode parent places.size first (second :: others)) := by
        refine hkept _ _ (written_eq_some_iff.2 ?_)
        rw [reserve, getElem?_reserve (by rw [size_reserveRun]; omega), reserveRun,
          Array.getElem?_append_right (Nat.le_refl _), Nat.sub_self,
          Array.getElem?_append_left (by simp)]
        rfl
      simp only [reserve, List.map_append, map_root_memberTasks, map_wanted_memberTasks] at h hkept
      obtain ⟨below, beside, rfl, hdown, hright⟩ := Stands.split (by simp) h
      obtain ⟨all, hall, hperm⟩ := ih hkept hright
      rw [← Forest.trees_ofTrees (List.map _ _)] at hdown
      refine ⟨places.size :: (below ++ all), ?_, ?_⟩
      · have hrun := Stands.cons hcomposite hdown hall
        rw [compositeNode_element] at hrun
        exact hrun
      · refine List.Perm.cons _ ?_
        exact (hperm.append_left below).trans (List.perm_append_comm_assoc ..)

end Reserve

end Arena

end SourceChunks
