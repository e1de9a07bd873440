import SourceChunks.Outline.Class
import SourceChunks.Outline.Function
import SourceChunks.Proofs.Arena.TreeArena
import SourceChunks.Proofs.CompleteRun
import SourceChunks.Walk

/-!
# Every definition has an outline

An outline looks at a node's children, at theirs and at theirs again, and the outline of a
function also at the parent and at the parent's parent.  Where child numbers are in range
from the node on and recorded parents have nodes, all of that is found; so the outline does
not fail, and all it says on the way is to ask for costs (`exists_outline`).
-/

namespace SourceChunks

section Lists

variable {α β : Type}

/-- Where every element succeeds, so does the list. -/
theorem exists_mapM_ok {f : α → Except Failure β} {list : List α}
    (h : ∀ element ∈ list, ∃ image, f element = .ok image) :
    ∃ images, list.mapM f = .ok images := by
  induction list with
  | nil => exact ⟨[], rfl⟩
  | cons first rest ih =>
    obtain ⟨image, himage⟩ := h first List.mem_cons_self
    obtain ⟨images, himages⟩ := ih fun element hmem => h element (List.mem_cons_of_mem _ hmem)
    exact ⟨image :: images, by rw [List.mapM_cons, himage, himages]; rfl⟩

/-- A function that succeeds for every element maps as its images do. -/
theorem mapM_eq_ok {f : α → Except Failure β} {g : α → β} {list : List α}
    (h : ∀ element ∈ list, f element = .ok (g element)) : list.mapM f = .ok (list.map g) := by
  induction list with
  | nil => rfl
  | cons first rest ih =>
    rw [List.mapM_cons, h first List.mem_cons_self,
      ih fun element hmem => h element (List.mem_cons_of_mem _ hmem)]
    rfl

theorem filterAuxM_eq_ok {p : α → Except Failure Bool} {q : α → Bool} (list kept : List α)
    (h : ∀ element ∈ list, p element = .ok (q element)) :
    list.filterAuxM p kept = .ok ((list.filter q).reverse ++ kept) := by
  induction list generalizing kept with
  | nil => rfl
  | cons first rest ih =>
    have hrest := fun kept => ih kept fun element hmem => h element (List.mem_cons_of_mem _ hmem)
    rw [List.filterAuxM, h first List.mem_cons_self]
    simp only [bind, Except.bind, hrest]
    cases hfirst : q first <;> simp [hfirst]

/-- A test that answers for every element filters as its answers do. -/
theorem filterM_eq_ok {p : α → Except Failure Bool} {q : α → Bool} {list : List α}
    (h : ∀ element ∈ list, p element = .ok (q element)) :
    list.filterM p = .ok (list.filter q) := by
  rw [List.filterM, filterAuxM_eq_ok list [] h]
  simp [bind, Except.bind, pure, Except.pure]

end Lists

namespace Arena

variable {arena : Arena}

/-- The children of a reached node have nodes. -/
theorem GroundedAt.exists_child {start index child : Nat} (h : arena.GroundedAt start)
    (hreach : arena.Reaches start index) (hchild : arena.Child index child) :
    ∃ node, arena.node child = .ok node := by
  obtain ⟨node, found⟩ := exists_node_of_lt (h.lt_size child (hreach.tail hchild))
  exact ⟨node, node_eq_ok_iff.2 found⟩

theorem exists_firstOfType {indices : List Nat}
    (h : ∀ index ∈ indices, ∃ node, arena.node index = .ok node) (types : List String) :
    ∃ first?, arena.firstOfType types indices = .ok first? ∧
      ∀ first, first? = some first → first ∈ indices := by
  induction indices with
  | nil => exact ⟨none, rfl, by simp⟩
  | cons index rest ih =>
    obtain ⟨node, hnode⟩ := h index List.mem_cons_self
    obtain ⟨first?, hfirst, hmem⟩ := ih fun other hother => h other (List.mem_cons_of_mem _ hother)
    rw [firstOfType, hnode]
    simp only [bind, Except.bind]
    by_cases htype : types.contains node.type = true
    · refine ⟨some index, by rw [if_pos htype]; rfl, ?_⟩
      rintro first ⟨⟩
      exact List.mem_cons_self
    · refine ⟨first?, by rw [if_neg htype]; exact hfirst, fun first heq => ?_⟩
      exact List.mem_cons_of_mem _ (hmem first heq)

theorem exists_bodyCut? {start method : Nat} (h : arena.GroundedAt start)
    (hreach : arena.Reaches start method) (profile : Profile) :
    ∃ cut?, arena.bodyCut? profile method = .ok cut? := by
  obtain ⟨node, found⟩ := exists_node_of_lt (h.lt_size method hreach)
  have hchildren : ∀ child ∈ node.children, ∃ other, arena.node child = .ok other :=
    fun child hmem => h.exists_child hreach ((child_iff found).2 hmem)
  obtain ⟨first?, hfirst, hmem⟩ := exists_firstOfType hchildren (profile.types .functionBodies)
  rw [bodyCut?, node_eq_ok_iff.2 found]
  simp only [bind, Except.bind, hfirst]
  cases first? with
  | none => exact ⟨none, rfl⟩
  | some body =>
    obtain ⟨bodyNode, hbody⟩ := hchildren body (hmem body rfl)
    exact ⟨_, by simp only [hbody]; rfl⟩

/-- The methods among nodes are those whose type says so. -/
theorem methodsAmong_map {members : List (Nat × Node)}
    (h : ∀ member ∈ members, arena.node member.1 = .ok member.2) (profile : Profile) :
    arena.methodsAmong profile (members.map Prod.fst) =
      .ok ((members.filter fun member =>
        profile.plays .functionDeclarations member.2.type).map Prod.fst) := by
  have hfilter : arena.methodsAmong profile (members.map Prod.fst) =
      .ok ((members.map Prod.fst).filter fun index =>
        match arena.node index with
        | .ok node => profile.plays .functionDeclarations node.type
        | .error _ => false) := by
    refine filterM_eq_ok (List.forall_mem_map.2 fun member hmember => ?_)
    rw [h member hmember]
    rfl
  rw [hfilter, List.filter_map]
  refine congrArg (fun kept => Except.ok (List.map Prod.fst kept)) (List.filter_congr ?_)
  intro member hmember
  simp only [Function.comp, h member hmember]

/-- Numbers of nodes can be sorted into methods and others. -/
theorem methodsAmong_eq {indices : List Nat}
    (h : ∀ index ∈ indices, ∃ node, arena.node index = .ok node) (profile : Profile) :
    ∃ methods, arena.methodsAmong profile indices = .ok methods ∧ methods ⊆ indices := by
  refine ⟨_, filterM_eq_ok (q := fun index =>
    match arena.node index with
    | .ok node => profile.plays .functionDeclarations node.type
    | .error _ => false) ?_, List.filter_subset_self _⟩
  intro index hmem
  obtain ⟨node, hnode⟩ := h index hmem
  simp only [hnode]
  rfl

theorem exists_bodyCuts {start index : Nat} {node : Node} (h : arena.GroundedAt start)
    (hreach : arena.Reaches start index) (found : arena.nodes[index]? = some node)
    (profile : Profile) : ∃ cuts, arena.bodyCuts profile node = .ok cuts := by
  have hchildren : ∀ child ∈ node.children, ∃ other, arena.node child = .ok other :=
    fun child hmem => h.exists_child hreach ((child_iff found).2 hmem)
  obtain ⟨first?, hfirst, hmem⟩ := exists_firstOfType hchildren (profile.types .classBodies)
  simp only [bodyCuts, bind, Except.bind, hfirst]
  cases first? with
  | none => exact ⟨[], rfl⟩
  | some body =>
    have hbody : arena.Child index body := (child_iff found).2 (hmem body rfl)
    obtain ⟨bodyNode, hnode⟩ := hchildren body (hmem body rfl)
    have foundBody := node_eq_ok_iff.1 hnode
    have hmembers : ∀ member ∈ bodyNode.children, ∃ other, arena.node member = .ok other :=
      fun member hmember => h.exists_child (hreach.tail hbody) ((child_iff foundBody).2 hmember)
    obtain ⟨methods, hmethods, hsub⟩ := methodsAmong_eq hmembers profile
    have hcuts : ∀ method ∈ methods, ∃ cut?, arena.bodyCut? profile method = .ok cut? :=
      fun method hmethod => exists_bodyCut? h
        ((hreach.tail hbody).tail ((child_iff foundBody).2 (hsub hmethod))) profile
    obtain ⟨cuts, hcutsOk⟩ := exists_mapM_ok hcuts
    exact ⟨_, by simp only [hnode, hmethods, hcutsOk]; rfl⟩

theorem exists_classHead? {index : Nat} {node : Node} (h : arena.ParentsInRange)
    (found : arena.nodes[index]? = some node) (profile : Profile) :
    ∃ head?, arena.classHead? profile node = .ok head? := by
  unfold classHead?
  cases hparent : node.parent with
  | none => exact ⟨none, rfl⟩
  | some container =>
    obtain ⟨containerNode, foundContainer⟩ :=
      exists_node_of_lt (h index node container found hparent)
    simp only [node_eq_ok_iff.2 foundContainer, bind, Except.bind]
    cases howner : containerNode.parent with
    | none => exact ⟨none, rfl⟩
    | some owner =>
      obtain ⟨ownerNode, foundOwner⟩ :=
        exists_node_of_lt (h container containerNode owner foundContainer howner)
      simp only [node_eq_ok_iff.2 foundOwner]
      split
      · split
        · exact ⟨_, rfl⟩
        · exact ⟨_, rfl⟩
      · exact ⟨_, rfl⟩

theorem exists_functionOutline {start index : Nat} (h : arena.GroundedAt start)
    (hparents : arena.ParentsInRange) (hreach : arena.Reaches start index) (profile : Profile) :
    ∃ content, arena.functionOutline profile index = .ok content := by
  obtain ⟨node, found⟩ := exists_node_of_lt (h.lt_size index hreach)
  obtain ⟨head?, hhead⟩ := exists_classHead? hparents found profile
  simp only [functionOutline, node_eq_ok_iff.2 found, bind, Except.bind]
  cases hlast : node.children.getLast? with
  | none => exact ⟨_, rfl⟩
  | some body =>
    have hbody := List.mem_of_getLast? hlast
    obtain ⟨bodyNode, hnode⟩ := h.exists_child hreach ((child_iff found).2 hbody)
    exact ⟨_, by simp only [hnode, hhead]; rfl⟩

end Arena

variable (cost : String → Int)

/-- Pruning ends, and only asks for costs. -/
theorem exists_pruneOutline (budget : Int) (fragments : List Bytes) (code : Bytes) :
    ∃ events result, Producer.Yields cost (pruneOutline budget fragments code) events result ∧
      events.filterMap Event.chunk? = [] := by
  induction fragments generalizing code with
  | nil => exact ⟨[], _, .done _, rfl⟩
  | cons fragment earlier ih =>
    obtain ⟨events, result, hyields, hquiet⟩ := ih (removeFragment code fragment)
    have hasked := Producer.Yields.priced cost (outlineText code)
    rw [pruneOutline]
    by_cases hdear : cost (outlineText code) > budget
    · refine ⟨_, _, hasked.bind (?_ : Producer.Yields cost _ (events ++ []) (result.1, true)), ?_⟩
      · rw [if_pos hdear]
        exact hyields.bind (.done _)
      · simpa [Event.chunk?] using hquiet
    · refine ⟨_, _, hasked.bind (?_ : Producer.Yields cost _ [] (code, false)), rfl⟩
      rw [if_neg hdear]
      exact .done _

/-- **Every definition has an outline.** -/
theorem ChunkWalk.exists_outline {walk : ChunkWalk} {start index : Nat}
    (h : walk.arena.GroundedAt start) (hparents : walk.arena.ParentsInRange)
    (hreach : walk.arena.Reaches start index) (kind : DefinitionKind) :
    ∃ events content, Producer.Yields cost (walk.outline kind index) events content ∧
      events.filterMap Event.chunk? = [] := by
  cases kind with
  | ofClass =>
    obtain ⟨node, found⟩ := Arena.exists_node_of_lt (h.lt_size index hreach)
    obtain ⟨cuts, hcuts⟩ := Arena.exists_bodyCuts h hreach found walk.profile
    obtain ⟨events, ⟨code, pruned⟩, hyields, hquiet⟩ := exists_pruneOutline cost
      walk.budget (walk.arena.outlineWith node cuts).fragments.reverse
      (walk.arena.outlineWith node cuts).code
    refine ⟨[] ++ ([] ++ (events ++ [])), tidyOutline code pruned, ?_, by simpa using hquiet⟩
    exact (Producer.Yields.ofExcept (Arena.node_eq_ok_iff.2 found)).bind
      ((Producer.Yields.ofExcept hcuts).bind (hyields.bind (.done _)))
  | ofFunction =>
    obtain ⟨content, hcontent⟩ := Arena.exists_functionOutline h hparents hreach walk.profile
    exact ⟨[], content, .ofExcept hcontent, rfl⟩

end SourceChunks
