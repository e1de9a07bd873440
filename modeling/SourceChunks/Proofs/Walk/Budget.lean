import SourceChunks.Proofs.Walk.Account

/-!
# Raising the budget

With a larger budget more nodes fit, so the walk comes to fewer: what a node that fits hides,
it hid before, and more is hidden now (`reached_raised`).  Hence nothing breaks apart when the
budget is raised.  A node that was delivered whole still is, or lies in one that is; and no
node gets a chunk of its own, and no comment comes to the buffer, that did not before.

There is one exception.  A composite comment whose type is that of a definition is delivered
whole if it fits, and has a chunk of its own then; but if it does not fit it is a comment
before it is a definition, and waits in the buffer (`not_hasOwnChunk_of_raised`).  It is no
exception to say that it has a chunk of its own or is buffered (`run_raised`).
-/

namespace SourceChunks

/-- Does the node have a chunk of its own in the stream, whole or as an outline? -/
def HasOwnChunk (stream : List Delivery) (entry : Nat × Node) : Prop :=
  ∃ delivery ∈ stream, delivery.node? = some entry

/-- Was the node in the comment buffer, and came from there into a chunk of the stream? -/
def WasBuffered (stream : List Delivery) (entry : Nat × Node) : Prop :=
  ∃ delivery ∈ stream, ∃ group, delivery.comments? = some group ∧ entry ∈ group

namespace ChunkWalk

/-- What becomes of the nodes of a stream when the budget is raised. -/
structure HoldsTogether (arena : Arena) (before after : List Delivery) : Prop where
  /-- What was delivered whole still is, by itself or in a node above it. -/
  whole : ∀ entry, EmittedWhole before entry →
    EmittedWhole after entry ∨ ∃ upper, EmittedWhole after upper ∧ arena.Above upper.1 entry.1
  /-- What has a chunk of its own had one before, or is a composite comment that was
  buffered. -/
  own : ∀ entry, entry.1 ≠ arena.root → HasOwnChunk after entry →
    HasOwnChunk before entry ∨ entry.2.isComposite = true ∧ WasBuffered before entry
  buffered : ∀ entry, WasBuffered after entry → WasBuffered before entry

variable {walk : ChunkWalk} {cost : String → Int} {tree : Tree (Nat × Node)}
  {entry : Nat × Node}

/-! ## The stream and the walk -/

/-- Chunks of their own have the nodes that the walk comes to and that get one. -/
theorem hasOwnChunk_iff :
    HasOwnChunk (walk.deliveries cost tree) entry ↔
      entry ∈ walk.reached cost tree ∧ (walk.ownDelivery? cost entry).isSome = true := by
  constructor
  · rintro ⟨delivery, hmem, hnode⟩
    obtain ⟨hreached, hown⟩ := (mem_deliveries_iff_of_node? hnode).1 hmem
    exact ⟨hreached, hown ▸ rfl⟩
  · rintro ⟨hreached, hsome⟩
    obtain ⟨own, hown⟩ := Option.isSome_iff_exists.1 hsome
    have hnode := node?_of_own hown
    exact ⟨own, (mem_deliveries_iff_of_node? hnode).2 ⟨hreached, hown⟩, hnode⟩

/-- Buffered are the comments that the walk comes to and that are not delivered whole. -/
theorem wasBuffered_iff :
    WasBuffered (walk.deliveries cost tree) entry ↔
      entry ∈ walk.reached cost tree ∧ walk.isBuffered cost entry = true := by
  obtain ⟨after, account, hempty⟩ := Account.deliveries walk cost tree
  have hbuffered := account.buffered
  rw [hempty, List.append_nil, List.nil_append] at hbuffered
  rw [← List.mem_filter, ← hbuffered, List.mem_flatten]
  constructor
  · rintro ⟨delivery, hmem, group, hgroup, hentry⟩
    exact ⟨group, List.mem_filterMap.2 ⟨delivery, hmem, hgroup⟩, hentry⟩
  · rintro ⟨group, hmem, hentry⟩
    obtain ⟨delivery, hdelivery, hgroup⟩ := List.mem_filterMap.1 hmem
    exact ⟨delivery, hdelivery, group, hgroup, hentry⟩

/-! ## Two budgets -/

section Raised

variable {raised : Int}

/-- What fits still fits. -/
theorem isWhole_raised (hle : walk.budget ≤ raised) (h : walk.isWhole cost entry = true) :
    { walk with budget := raised }.isWhole cost entry = true := by
  rw [isWhole, Bool.and_eq_true, decide_eq_true_iff] at h ⊢
  exact ⟨h.1, Int.lt_of_lt_of_le h.2 hle⟩

theorem isWhole_of_raised (hle : walk.budget ≤ raised)
    (h : { walk with budget := raised }.isWhole cost entry = false) :
    walk.isWhole cost entry = false := by
  by_contra hwhole
  rw [isWhole_raised hle (Bool.not_eq_false _ ▸ hwhole)] at h
  exact Bool.noConfusion h

/-- **The walk comes to no more nodes**: above a node that it comes to none is closed, and so
none was before. -/
theorem reached_raised (h : walk.arena.IsTree tree) (hle : walk.budget ≤ raised)
    (hreached : entry ∈ { walk with budget := raised }.reached cost tree) :
    entry ∈ walk.reached cost tree := by
  obtain ⟨hentry, hopen⟩ := h.mem_visible_iff.1 hreached
  refine h.mem_visible_iff.2 ⟨hentry, fun upper hupper habove => ?_⟩
  have hupperOpen := hopen upper hupper habove
  rw [isClosed, Bool.or_eq_false_iff] at hupperOpen ⊢
  exact ⟨isWhole_of_raised hle hupperOpen.1, hupperOpen.2⟩

/-- A node that the walk comes to no more lies in one that is delivered whole: it lay in no
composite before. -/
theorem exists_emittedWhole_above (h : walk.arena.IsTree tree)
    (hreached : entry ∈ walk.reached cost tree)
    (hhidden : entry ∉ { walk with budget := raised }.reached cost tree) :
    ∃ upper, EmittedWhole ({ walk with budget := raised }.deliveries cost tree) upper ∧
      walk.arena.Above upper.1 entry.1 := by
  have hentry := mem_toList_of_mem_reached hreached
  obtain ⟨upper, hupper, habove, hclosed⟩ : ∃ upper ∈ tree.toList,
      walk.arena.Above upper.1 entry.1 ∧
        { walk with budget := raised }.isClosed cost upper = true := by
    by_contra hnone
    refine hhidden (h.mem_visible_iff.2 ⟨hentry, fun upper hupper habove => ?_⟩)
    by_contra hclosed
    exact hnone ⟨upper, hupper, habove, Bool.not_eq_false _ ▸ hclosed⟩
  obtain ⟨outer, houter, hclosed, habove⟩ := h.exists_closed_above hentry hupper habove hclosed
  have hmem : outer ∈ tree.toList := mem_toList_of_mem_reached houter
  have hcomposite := (open_of_above_reached h hreached hmem habove).2
  rw [isClosed, hcomposite, Bool.or_false] at hclosed
  exact ⟨outer, emittedWhole_iff.2 ⟨houter, hclosed⟩, habove⟩

/-- A node that gets a chunk of its own got one before, unless it is the root, or a comment
that did not fit before. -/
theorem ownDelivery?_of_raised (hroot : entry.1 ≠ walk.arena.root)
    (hown : ({ walk with budget := raised }.ownDelivery? cost entry).isSome = true) :
    (walk.ownDelivery? cost entry).isSome = true ∨
      walk.isComment entry.2 = true ∧ walk.isWhole cost entry = false ∧
        (walk.profile.definition? entry.2.type).isSome = true := by
  cases hwhole : walk.isWhole cost entry with
  | true => exact Or.inl (ownDelivery?_of_whole hwhole ▸ rfl)
  | false =>
    have hdefinition : (walk.profile.definition? entry.2.type).isSome = true := by
      obtain ⟨own, hown⟩ := Option.isSome_iff_exists.1 hown
      rcases own_cases hown with ⟨hwhole', -⟩ | ⟨kind, -, -, hkind, -⟩
      · rw [isWhole, Bool.and_eq_true, beq_eq_false_iff_ne.2 hroot, Bool.false_or] at hwhole'
        exact hwhole'.1
      · exact hkind ▸ rfl
    cases hcomment : walk.isComment entry.2 with
    | true => exact Or.inr ⟨rfl, rfl, hdefinition⟩
    | false =>
      refine Or.inl ?_
      rw [ownDelivery?, hwhole, hcomment, if_neg Bool.false_ne_true, if_neg Bool.false_ne_true,
        Option.isSome_map]
      exact hdefinition

end Raised

/-- **Raising the budget breaks nothing apart.**  On an arena that is a tree, for every profile
that keeps comments and definitions apart and all costs, both runs come to their ends, and
their chunks are those of streams of which the one holds together what the other does. -/
theorem run_raised (walk : ChunkWalk) (cost : String → Int) (tree : Tree (Nat × Node))
    (h : walk.arena.IsTree tree)
    (hapart : ∀ type, walk.profile.plays .comments type = true →
      walk.profile.plays .classes type = false ∧ walk.profile.plays .functions type = false)
    (raised : Int) (hle : walk.budget ≤ raised) :
    let wider : ChunkWalk := { walk with budget := raised }
    (walk.chunks.run none (CostFunction.mk cost)).ending = .done () ∧
      (walk.chunks.run none (CostFunction.mk cost)).chunks =
        (walk.deliveries cost tree).map (·.chunk) ∧
      (wider.chunks.run none (CostFunction.mk cost)).ending = .done () ∧
      (wider.chunks.run none (CostFunction.mk cost)).chunks =
        (wider.deliveries cost tree).map (·.chunk) ∧
      HoldsTogether walk.arena (walk.deliveries cost tree) (wider.deliveries cost tree) := by
  intro wider
  obtain ⟨hending, hchunks⟩ := walk.run_eq_deliveries cost h
  obtain ⟨hending', hchunks'⟩ := wider.run_eq_deliveries cost h
  refine ⟨hending, hchunks, hending', hchunks', fun entry hemitted => ?_,
    fun entry hroot hown => ?_, fun entry hbuffered => ?_⟩
  · obtain ⟨hreached, hwhole⟩ := emittedWhole_iff.1 hemitted
    by_cases hreached' : entry ∈ wider.reached cost tree
    · exact Or.inl (emittedWhole_iff.2 ⟨hreached', isWhole_raised hle hwhole⟩)
    · exact Or.inr (exists_emittedWhole_above h hreached hreached')
  · obtain ⟨hreached', hown'⟩ := hasOwnChunk_iff.1 hown
    have hreached := reached_raised h hle hreached'
    rcases ownDelivery?_of_raised hroot hown' with hsome | ⟨hcomment, hwhole, hdefinition⟩
    · exact Or.inl (hasOwnChunk_iff.2 ⟨hreached, hsome⟩)
    · refine Or.inr ⟨?_, wasBuffered_iff.2 ⟨hreached, ?_⟩⟩
      · -- by its type it is a definition, so it is no comment by its type
        rw [isComment, Bool.or_eq_true] at hcomment
        refine hcomment.resolve_right fun hplays => ?_
        obtain ⟨hclass, hfunction⟩ := hapart _ hplays
        rw [Profile.definition?, hclass, hfunction] at hdefinition
        exact Bool.noConfusion hdefinition
      · rw [isBuffered, hwhole, hcomment]
        rfl
  · obtain ⟨hreached', hbuffered'⟩ := wasBuffered_iff.1 hbuffered
    rw [isBuffered, Bool.and_eq_true, Bool.not_eq_true'] at hbuffered'
    refine wasBuffered_iff.2 ⟨reached_raised h hle hreached', ?_⟩
    rw [isBuffered, isWhole_of_raised hle hbuffered'.1]
    exact hbuffered'.2

/-- A module with a composite comment. -/
def remarkArena : Arena where
  source := "x\n#a\n#b".toUTF8.toList
  nodes := #[
    { element := ⟨.parsed "module", ⟨0, 7, ⟨0, 0⟩, ⟨2, 2⟩⟩⟩, children := [1] },
    { element := ⟨.composite "#a\n#b", ⟨2, 7, ⟨1, 0⟩, ⟨2, 2⟩⟩⟩, children := [2, 3]
      parent := some 0 },
    { element := ⟨.parsed "comment", ⟨2, 4, ⟨1, 0⟩, ⟨1, 2⟩⟩⟩, parent := some 1 },
    { element := ⟨.parsed "comment", ⟨5, 7, ⟨2, 0⟩, ⟨2, 2⟩⟩⟩, parent := some 1 }]
  root := 0
  root_lt := by decide

/-- The tree of the arena. -/
def remarkTree : Tree (Nat × Node) where
  label := (0, remarkArena.nodes[0])
  children := .cons (1, remarkArena.nodes[1])
    (.cons (2, remarkArena.nodes[2]) .nil (.cons (3, remarkArena.nodes[3]) .nil .nil)) .nil

theorem remarkArena_isTree : remarkArena.IsTree remarkTree where
  hasTree :=
    .cons rfl (.cons rfl (.cons rfl .nil (.cons rfl .nil .nil)) .nil) .nil
  nodup := by decide
  parents := Arena.parentsInRange_iff.2 (by decide)

/-- A language in which composite comments are classes. -/
def remarkProfile : Profile := .ofTypes "remarks" fun
  | .comments => ["comment"]
  | .classes => [compositeType]
  | _ => []

theorem remarkProfile_apart (type : String) (h : remarkProfile.plays .comments type = true) :
    remarkProfile.plays .classes type = false ∧
      remarkProfile.plays .functions type = false := by
  obtain rfl : type = "comment" := by simpa [Profile.plays, remarkProfile] using h
  decide

/-- The walk over them with a budget that the composite comment does not fit. -/
def remarkWalk : ChunkWalk := ⟨remarkArena, remarkProfile, 5⟩

/-- There raising the budget only moves the composite comment out of the buffer, and its chunk
gets the rows of the node. -/
theorem remarkWalk_raised :
    remarkArena.IsTree remarkTree ∧ remarkWalk.budget ≤ 6 ∧
      (remarkWalk.chunks.run none (CostFunction.mk fun text => text.length)).chunks =
        [⟨"#a\n#b", 1, 1⟩] ∧
      (ChunkWalk.chunks { remarkWalk with budget := 6 } |>.run none
        (CostFunction.mk fun text => text.length)).chunks = [⟨"#a\n#b", 1, 2⟩] ∧
      HoldsTogether remarkArena (remarkWalk.deliveries (fun text => text.length) remarkTree)
        (ChunkWalk.deliveries { remarkWalk with budget := 6 } (fun text => text.length)
          remarkTree) := by
  have ⟨_, _, _, _, together⟩ := remarkWalk.run_raised (fun text => text.length) remarkTree
    remarkArena_isTree remarkProfile_apart 6 (by decide)
  exact ⟨remarkArena_isTree, by decide, by decide +kernel, by decide +kernel, together⟩

/-- **A composite comment may have a chunk of its own with the larger budget only**, where it
counts as a definition. -/
theorem not_hasOwnChunk_of_raised :
    ¬ ∀ (walk : ChunkWalk) (cost : String → Int) (tree : Tree (Nat × Node)) (raised : Int),
      walk.arena.IsTree tree →
      (∀ type, walk.profile.plays .comments type = true →
        walk.profile.plays .classes type = false ∧
          walk.profile.plays .functions type = false) →
      walk.budget ≤ raised → ∀ entry, entry.1 ≠ walk.arena.root →
      HasOwnChunk ({ walk with budget := raised }.deliveries cost tree) entry →
      HasOwnChunk (walk.deliveries cost tree) entry := by
  intro hall
  -- it costs less than six, and not less than five
  have hown : HasOwnChunk (ChunkWalk.deliveries { remarkWalk with budget := 6 }
      (fun text => text.length) remarkTree) (1, remarkArena.nodes[1]) :=
    hasOwnChunk_iff.2 ⟨by decide +kernel, by decide +kernel⟩
  have hkept := hall remarkWalk (fun text => text.length) remarkTree 6 remarkArena_isTree
    remarkProfile_apart (by decide) (1, remarkArena.nodes[1]) (by decide) hown
  exact absurd (hasOwnChunk_iff.1 hkept).2 (by decide +kernel)

end ChunkWalk

end SourceChunks
