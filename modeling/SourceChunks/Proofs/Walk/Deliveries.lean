import SourceChunks.Proofs.Arena.TreeArena
import SourceChunks.Proofs.Outline.Defined
import SourceChunks.Proofs.Walk.Recursion

/-!
# Where chunks come from

A chunk does not say which nodes it was made of.  `deliveries` is the stream of a complete
run with that written beside each chunk, and `run_eq_deliveries` says that the chunks of the
run are those of the stream.

The stream is made in two steps, and each can be reasoned about without the other.

* Which nodes the walk comes to is a matter of the tree alone: it looks below every node
  that is neither delivered whole nor a composite comment (`isClosed`).  So the nodes are
  the visible ones of the tree, in the order of the document (`reached`).
* What becomes of these nodes one after the other is a matter of the comment buffer alone
  (`handle`).  A definition has a chunk of its own, a comment waits for one.
-/

namespace SourceChunks

/-- The nodes that a chunk was made of. -/
inductive Origin where
  /-- A node delivered whole. -/
  | whole (entry : Nat × Node)
  /-- A definition delivered as an outline. -/
  | outline (entry : Nat × Node)
  /-- Comments that left the buffer together. -/
  | comments (entries : List (Nat × Node))

/-- A chunk with the nodes it was made of. -/
structure Delivery where
  origin : Origin
  chunk : Chunk

namespace Delivery

/-- The node whose own chunk it is. -/
def node? (delivery : Delivery) : Option (Nat × Node) :=
  match delivery.origin with
  | .whole entry | .outline entry => some entry
  | .comments _ => none

/-- The comments it is made of, if it is made of comments. -/
def comments? (delivery : Delivery) : Option (List (Nat × Node)) :=
  match delivery.origin with
  | .comments entries => some entries
  | _ => none

/-- All nodes it is made of. -/
def entries (delivery : Delivery) : List (Nat × Node) :=
  match delivery.origin with
  | .whole entry | .outline entry => [entry]
  | .comments entries => entries

/-- A chunk of a node's own is made of the node alone. -/
theorem entries_of_node? {delivery : Delivery} {entry : Nat × Node}
    (h : delivery.node? = some entry) :
    delivery.entries = [entry] ∧ delivery.comments? = none := by
  obtain ⟨origin, chunk⟩ := delivery
  cases origin with
  | whole other => exact ⟨congrArg ([·]) (Option.some.inj h), rfl⟩
  | outline other => exact ⟨congrArg ([·]) (Option.some.inj h), rfl⟩
  | comments entries => simp [node?] at h

theorem entries_of_comments? {delivery : Delivery} {group : List (Nat × Node)}
    (h : delivery.comments? = some group) : delivery.entries = group := by
  obtain ⟨origin, chunk⟩ := delivery
  cases origin with
  | whole other => simp [comments?] at h
  | outline other => simp [comments?] at h
  | comments entries => exact Option.some.inj h

end Delivery

/-- The comments that wait, and the buffer in which they do. -/
structure Waiting where
  entries : List (Nat × Node) := []
  buffer : CommentBuffer := {}

/-- Sends off what is waiting. -/
def Waiting.flush (waiting : Waiting) : List Delivery × Waiting :=
  (waiting.buffer.flush.1.toList.map fun chunk => ⟨.comments waiting.entries, chunk⟩,
    ⟨[], waiting.buffer.flush.2⟩)

namespace ChunkWalk

variable (walk : ChunkWalk) (cost : String → Int)

/-- Is the node delivered whole when the walk comes to it? -/
def isWhole (entry : Nat × Node) : Bool :=
  (entry.1 == walk.arena.root || (walk.profile.definition? entry.2.type).isSome)
    && decide (cost (walk.arena.nodeText entry.2) < walk.budget)

/-- Does the walk leave out what is below the node? -/
def isClosed (entry : Nat × Node) : Bool :=
  walk.isWhole cost entry || entry.2.isComposite

/-- Does the node wait in the comment buffer when the walk comes to it? -/
def isBuffered (entry : Nat × Node) : Bool :=
  !walk.isWhole cost entry && walk.isComment entry.2

/-- The nodes that the walk comes to, in the order of the document. -/
def reached (tree : Tree (Nat × Node)) : List (Nat × Node) :=
  tree.forest.visible (walk.isClosed cost)

/-- The outline of a definition when texts have the given costs. -/
def outlined (kind : DefinitionKind) (index : Nat) : String :=
  ((walk.outline kind index).run none (CostFunction.mk cost)).ending.value?.getD ""

/-- The chunk that a node has for its own, if it has one. -/
def ownDelivery? (entry : Nat × Node) : Option Delivery :=
  if walk.isWhole cost entry then
    some ⟨.whole entry, nodeChunk entry.2 (walk.arena.nodeText entry.2)⟩
  else if walk.isComment entry.2 then none
  else
    (walk.profile.definition? entry.2.type).map fun kind =>
      ⟨.outline entry, nodeChunk entry.2 (walk.outlined cost kind entry.1)⟩

/-- What becomes of a node that the walk comes to, and what waits then. -/
def handle (entry : Nat × Node) (waiting : Waiting) : List Delivery × Waiting :=
  if walk.isBuffered cost entry then
    let text := walk.arena.nodeText entry.2
    let added := waiting.buffer.add text (cost text) walk.budget
    (added.1.toList.map fun chunk => ⟨.comments waiting.entries, chunk⟩,
      ⟨(if added.1.isSome then [] else waiting.entries) ++ [entry], added.2⟩)
  else
    match walk.ownDelivery? cost entry with
    | some delivery => (waiting.flush.1 ++ [delivery], waiting.flush.2)
    | none => ([], waiting)

/-- What becomes of nodes one after the other. -/
def handleAll : List (Nat × Node) → Waiting → List Delivery × Waiting
  | [], waiting => ([], waiting)
  | entry :: rest, waiting =>
    let (first, waiting) := walk.handle cost entry waiting
    let (later, waiting) := handleAll rest waiting
    (first ++ later, waiting)

/-- The stream of a complete run over a tree. -/
def deliveries (tree : Tree (Nat × Node)) : List Delivery :=
  let (stream, waiting) := walk.handleAll cost (walk.reached cost tree) {}
  stream ++ waiting.flush.1

@[simp] theorem handleAll_nil (waiting : Waiting) :
    walk.handleAll cost [] waiting = ([], waiting) := rfl

theorem handleAll_cons (entry : Nat × Node) (rest : List (Nat × Node)) (waiting : Waiting) :
    walk.handleAll cost (entry :: rest) waiting =
      ((walk.handle cost entry waiting).1 ++
          (walk.handleAll cost rest (walk.handle cost entry waiting).2).1,
        (walk.handleAll cost rest (walk.handle cost entry waiting).2).2) := rfl

variable {walk cost} in
theorem handle_of_buffered {entry : Nat × Node} (hbuffered : walk.isBuffered cost entry = true)
    (waiting : Waiting) :
    walk.handle cost entry waiting =
      let text := walk.arena.nodeText entry.2
      let added := waiting.buffer.add text (cost text) walk.budget
      (added.1.toList.map fun chunk => ⟨.comments waiting.entries, chunk⟩,
        ⟨(if added.1.isSome then [] else waiting.entries) ++ [entry], added.2⟩) := by
  rw [handle, if_pos hbuffered]

variable {walk cost} in
theorem handle_of_own {entry : Nat × Node} {own : Delivery}
    (hbuffered : walk.isBuffered cost entry = false)
    (hown : walk.ownDelivery? cost entry = some own) (waiting : Waiting) :
    walk.handle cost entry waiting = (waiting.flush.1 ++ [own], waiting.flush.2) := by
  rw [handle, if_neg (by simp [hbuffered]), hown]

variable {walk cost} in
theorem handle_of_none {entry : Nat × Node} (hbuffered : walk.isBuffered cost entry = false)
    (hown : walk.ownDelivery? cost entry = none) (waiting : Waiting) :
    walk.handle cost entry waiting = ([], waiting) := by
  rw [handle, if_neg (by simp [hbuffered]), hown]

theorem handleAll_append (entries later : List (Nat × Node)) (waiting : Waiting) :
    walk.handleAll cost (entries ++ later) waiting =
      ((walk.handleAll cost entries waiting).1 ++
          (walk.handleAll cost later (walk.handleAll cost entries waiting).2).1,
        (walk.handleAll cost later (walk.handleAll cost entries waiting).2).2) := by
  induction entries generalizing waiting with
  | nil => rfl
  | cons entry rest ih =>
    rw [List.cons_append, handleAll_cons, handleAll_cons, ih, List.append_assoc]

section Own

variable {walk cost} {entry : Nat × Node} {own : Delivery}

theorem ownDelivery?_of_whole (hwhole : walk.isWhole cost entry = true) :
    walk.ownDelivery? cost entry =
      some ⟨.whole entry, nodeChunk entry.2 (walk.arena.nodeText entry.2)⟩ := by
  rw [ownDelivery?, if_pos hwhole]

/-- A chunk of a node's own is its text if the node is delivered whole, and else the outline
of a definition that is no comment. -/
theorem own_cases (hown : walk.ownDelivery? cost entry = some own) :
    (walk.isWhole cost entry = true ∧
        own = ⟨.whole entry, nodeChunk entry.2 (walk.arena.nodeText entry.2)⟩) ∨
      ∃ kind, walk.isWhole cost entry = false ∧ walk.isComment entry.2 = false ∧
        walk.profile.definition? entry.2.type = some kind ∧
        own = ⟨.outline entry, nodeChunk entry.2 (walk.outlined cost kind entry.1)⟩ := by
  cases hwhole : walk.isWhole cost entry with
  | true =>
    rw [ownDelivery?_of_whole hwhole, Option.some.injEq] at hown
    exact Or.inl ⟨rfl, hown.symm⟩
  | false =>
    cases hcomment : walk.isComment entry.2 with
    | true => simp [ownDelivery?, hwhole, hcomment] at hown
    | false =>
      simp only [ownDelivery?, hwhole, hcomment, Bool.false_eq_true, if_false,
        Option.map_eq_some_iff] at hown
      obtain ⟨kind, hkind, hown⟩ := hown
      exact Or.inr ⟨kind, rfl, rfl, hkind, hown.symm⟩

theorem node?_of_own (hown : walk.ownDelivery? cost entry = some own) :
    own.node? = some entry := by
  rcases own_cases hown with ⟨-, rfl⟩ | ⟨kind, -, -, -, rfl⟩ <;> rfl

end Own

/-! ## The run and its stream -/

theorem filterMap_chunk?_map (chunks : List Chunk) :
    (chunks.map Event.chunk).filterMap Event.chunk? = chunks := by
  rw [List.filterMap_map]
  exact List.filterMap_some

/-- The conversation does with the buffer what happens to the nodes one after the other. -/
def Renders (program : CommentBuffer → Producer CommentBuffer) (entries : List (Nat × Node)) :
    Prop :=
  ∀ waiting : Waiting, ∃ events,
    Producer.Yields cost (program waiting.buffer) events
      (walk.handleAll cost entries waiting).2.buffer ∧
    events.filterMap Event.chunk? = (walk.handleAll cost entries waiting).1.map (·.chunk)

variable {walk cost}

theorem Renders.nil : walk.Renders cost pure [] :=
  fun _ => ⟨[], .done _, rfl⟩

theorem Renders.append {program next : CommentBuffer → Producer CommentBuffer}
    {entries later : List (Nat × Node)} (h : walk.Renders cost program entries)
    (h' : walk.Renders cost next later) :
    walk.Renders cost (fun buffer => program buffer >>= next) (entries ++ later) := by
  intro waiting
  obtain ⟨events, hyields, hchunks⟩ := h waiting
  obtain ⟨events', hyields', hchunks'⟩ := h' (walk.handleAll cost entries waiting).2
  rw [handleAll_append]
  exact ⟨events ++ events', hyields.bind hyields', by
    rw [List.filterMap_append, hchunks, hchunks', List.map_append]⟩

/-- The events of a flush are its chunk, if there is one. -/
theorem yields_flush (cost : String → Int) (waiting : Waiting) : ∃ events,
    Producer.Yields cost (ChunkWalk.flush waiting.buffer) events waiting.flush.2.buffer ∧
      events.filterMap Event.chunk? = waiting.flush.1.map (·.chunk) := by
  have hsent : Producer.Yields cost (ChunkWalk.flush waiting.buffer) _ waiting.flush.2.buffer :=
    (Producer.Yields.deliver? waiting.buffer.flush.1).bind (.pure _)
  refine ⟨_, hsent, ?_⟩
  rw [List.append_nil, filterMap_chunk?_map, Waiting.flush, List.map_map]
  exact (List.map_id _).symm

/-- Whether a node is delivered whole is asked without delivering anything. -/
theorem yields_askWhole {entry : Nat × Node} {isRoot : Bool}
    (hroot : isRoot = (entry.1 == walk.arena.root)) : ∃ asked,
    Producer.Yields cost (walk.askWhole isRoot entry.2) asked (walk.isWhole cost entry) ∧
      asked.filterMap Event.chunk? = [] := by
  rw [askWhole, isWhole, ← hroot]
  by_cases hasks : (isRoot || (walk.profile.definition? entry.2.type).isSome) = true
  · rw [if_pos hasks, hasks, Bool.true_and, map_eq_pure_bind]
    exact ⟨_, (Producer.Yields.priced cost _).bind (.pure _), rfl⟩
  · rw [if_neg hasks, Bool.eq_false_iff.2 hasks]
    exact ⟨_, .pure _, rfl⟩

/-- A flush, and then a chunk of a node's own. -/
theorem yields_flush_deliver (waiting : Waiting) (own : Delivery) : ∃ events,
    Producer.Yields cost
      (do
        let buffer ← ChunkWalk.flush waiting.buffer
        Producer.deliver own.chunk
        return buffer) events waiting.flush.2.buffer ∧
    events.filterMap Event.chunk? = (waiting.flush.1 ++ [own]).map (·.chunk) := by
  obtain ⟨events, hflush, hchunks⟩ := yields_flush cost waiting
  refine ⟨_, hflush.bind ((Producer.Yields.deliver _).bind (.pure _)), ?_⟩
  rw [List.filterMap_append, hchunks, List.map_append]
  rfl

section Enter

variable {entry : Nat × Node} {descend : CommentBuffer → Producer CommentBuffer}
  {below : List (Nat × Node)}

/-- A comment that is not delivered whole waits, after what it sends off. -/
theorem Renders.enterComment (hwhole : walk.isWhole cost entry = false)
    (hcomment : walk.isComment entry.2 = true) (hbelow : walk.Renders cost descend below) :
    walk.Renders cost (walk.enterNode entry descend)
      (entry :: if entry.2.isComposite then [] else below) := by
  intro waiting
  have hbuffered : walk.isBuffered cost entry = true := by
    rw [isBuffered, hwhole, hcomment]
    rfl
  let text := walk.arena.nodeText entry.2
  let added := waiting.buffer.add text (cost text) walk.budget
  have hasked := Producer.Yields.priced cost text
  have hsent : Producer.Yields cost (Producer.deliver? added.1) _ () := .deliver? added.1
  have hchunks : (added.1.toList.map Event.chunk).filterMap Event.chunk? =
      (walk.handle cost entry waiting).1.map (·.chunk) := by
    rw [filterMap_chunk?_map, handle_of_buffered hbuffered, List.map_map]
    exact (List.map_id _).symm
  have hbuffer : (walk.handle cost entry waiting).2.buffer = added.2 := by
    rw [handle_of_buffered hbuffered]
  rw [handleAll_cons, ChunkWalk.enterNode, if_pos (show (_ || _) = true from hcomment)]
  cases hcomposite : entry.2.isComposite with
  | true =>
    rw [if_pos rfl, handleAll_nil, hbuffer]
    refine ⟨_, hasked.bind (hsent.bind (.pure _)), ?_⟩
    rw [List.append_nil, List.append_nil, ← hchunks]
    rfl
  | false =>
    obtain ⟨later, hlater, hchunks'⟩ := hbelow (walk.handle cost entry waiting).2
    rw [hbuffer] at hlater
    refine ⟨_, hasked.bind (hsent.bind hlater), ?_⟩
    rw [List.filterMap_append, List.filterMap_append, hchunks, hchunks', List.map_append]
    rfl

/-- A definition that is not delivered whole gets its outline, which never fails. -/
theorem Renders.enterDefinition {start : Nat} (h : walk.arena.GroundedAt start)
    (hparents : walk.arena.ParentsInRange) (hreach : walk.arena.Reaches start entry.1)
    (hwhole : walk.isWhole cost entry = false) (hcomment : walk.isComment entry.2 = false)
    {kind : DefinitionKind} (hkind : walk.profile.definition? entry.2.type = some kind)
    (hbelow : walk.Renders cost descend below) :
    walk.Renders cost (walk.enterNode entry descend) (entry :: below) := by
  intro waiting
  obtain ⟨asked, content, hcontent, hquiet⟩ := exists_outline cost h hparents hreach kind
  have houtlined : walk.outlined cost kind entry.1 = content := by
    rw [outlined, hcontent.run_eq]
    rfl
  have hbuffered : walk.isBuffered cost entry = false := by
    rw [isBuffered, hcomment, Bool.and_false]
  have hown : walk.ownDelivery? cost entry =
      some ⟨.outline entry, nodeChunk entry.2 content⟩ := by
    rw [ownDelivery?, if_neg (by simp [hwhole]), if_neg (by simp [hcomment]), hkind, ← houtlined]
    rfl
  obtain ⟨events, hflush, hchunks⟩ := yields_flush cost waiting
  obtain ⟨later, hlater, hchunks'⟩ := hbelow waiting.flush.2
  rw [handleAll_cons, handle_of_own hbuffered hown, ChunkWalk.enterNode,
    if_neg (show ¬(_ || _) = true from Bool.eq_false_iff.1 hcomment), hkind]
  refine ⟨_, hflush.bind (hcontent.bind ((Producer.Yields.deliver _).bind hlater)), ?_⟩
  simp [List.filterMap_append, hchunks, hquiet, hchunks', Event.chunk?]

/-- A node that is not delivered whole. -/
theorem Renders.enterNode {start : Nat} (h : walk.arena.GroundedAt start)
    (hparents : walk.arena.ParentsInRange) (hreach : walk.arena.Reaches start entry.1)
    (hwhole : walk.isWhole cost entry = false) (hbelow : walk.Renders cost descend below) :
    walk.Renders cost (walk.enterNode entry descend)
      (entry :: if entry.2.isComposite then [] else below) := by
  cases hcomment : walk.isComment entry.2 with
  | true => exact Renders.enterComment hwhole hcomment hbelow
  | false =>
    have hcomposite : entry.2.isComposite = false :=
      (Bool.or_eq_false_iff.1 (show (_ || _) = false from hcomment)).1
    rw [hcomposite, if_neg Bool.false_ne_true]
    cases hkind : walk.profile.definition? entry.2.type with
    | some kind => exact Renders.enterDefinition h hparents hreach hwhole hcomment hkind hbelow
    | none =>
      intro waiting
      have hbuffered : walk.isBuffered cost entry = false := by
        rw [isBuffered, hcomment, Bool.and_false]
      have hown : walk.ownDelivery? cost entry = none := by
        rw [ownDelivery?, if_neg (by simp [hwhole]), if_neg (by simp [hcomment]), hkind]
        rfl
      rw [handleAll_cons, handle_of_none hbuffered hown, ChunkWalk.enterNode,
        if_neg (show ¬(_ || _) = true from Bool.eq_false_iff.1 hcomment), hkind]
      exact hbelow waiting

end Enter

/-- **One visit** does to the buffer what happens to the node, and goes on below it unless
it is closed. -/
theorem Renders.visitNode {start : Nat} (h : walk.arena.GroundedAt start)
    (hparents : walk.arena.ParentsInRange) {entry : Nat × Node} {isRoot : Bool}
    (hroot : isRoot = (entry.1 == walk.arena.root)) (hreach : walk.arena.Reaches start entry.1)
    {descend : CommentBuffer → Producer CommentBuffer} {below : List (Nat × Node)}
    (hbelow : walk.Renders cost descend below) :
    walk.Renders cost (walk.visitNode isRoot entry descend)
      (entry :: if walk.isClosed cost entry then [] else below) := by
  intro waiting
  obtain ⟨asked, hasked, hquiet⟩ := yields_askWhole hroot
  rw [ChunkWalk.visitNode]
  cases hwhole : walk.isWhole cost entry with
  | true =>
    have hbuffered : walk.isBuffered cost entry = false := by rw [isBuffered, hwhole]; rfl
    have hclosed : walk.isClosed cost entry = true := by rw [isClosed, hwhole]; rfl
    have hown := ownDelivery?_of_whole hwhole
    obtain ⟨events, hyields, hchunks⟩ := yields_flush_deliver waiting
      ⟨.whole entry, nodeChunk entry.2 (walk.arena.nodeText entry.2)⟩
    rw [hwhole] at hasked
    rw [if_pos hclosed, handleAll_cons, handleAll_nil, List.append_nil,
      handle_of_own hbuffered hown]
    refine ⟨_, hasked.bind hyields, ?_⟩
    rw [List.filterMap_append, hquiet, hchunks, List.nil_append]
  | false =>
    have hclosed : walk.isClosed cost entry = entry.2.isComposite := by
      rw [isClosed, hwhole, Bool.false_or]
    obtain ⟨events, hyields, hchunks⟩ := Renders.enterNode h hparents hreach hwhole hbelow waiting
    rw [hwhole] at hasked
    rw [hclosed]
    refine ⟨_, hasked.bind hyields, ?_⟩
    rw [List.filterMap_append, hquiet, hchunks, List.nil_append]

/-- Visiting trees below the root does to the buffer what happens to the visible nodes. -/
theorem Renders.visitAll {start : Nat} (h : walk.arena.GroundedAt start)
    (hparents : walk.arena.ParentsInRange) (forest : Forest (Nat × Node))
    (hforest : ∀ entry ∈ forest.toList,
      walk.arena.Reaches start entry.1 ∧ entry.1 ≠ walk.arena.root) :
    walk.Renders cost (walk.visitAll forest) (forest.visible (walk.isClosed cost)) := by
  induction forest with
  | nil => exact Renders.nil
  | cons entry children siblings ihChildren ihSiblings =>
    obtain ⟨hreach, hroot⟩ := hforest entry List.mem_cons_self
    have hbelow := ihChildren fun other hmem => hforest other
      (List.mem_cons_of_mem _ (List.mem_append_left _ hmem))
    have hbeside := ihSiblings fun other hmem => hforest other
      (List.mem_cons_of_mem _ (List.mem_append_right _ hmem))
    exact (Renders.visitNode h hparents (by simpa using hroot) hreach hbelow).append hbeside

/-- **The run and its stream.**  A complete run comes to its end, and its chunks are those
of the stream. -/
theorem run_eq_deliveries (walk : ChunkWalk) (cost : String → Int) {tree : Tree (Nat × Node)}
    (h : walk.arena.IsTree tree) :
    (walk.chunks.run none (CostFunction.mk cost)).ending = .done () ∧
      (walk.chunks.run none (CostFunction.mk cost)).chunks =
        (walk.deliveries cost tree).map (·.chunk) := by
  have hlabel := h.hasTree.label_fst
  have hbelow : walk.Renders cost (walk.visitAll tree.children)
      (tree.children.visible (walk.isClosed cost)) := by
    refine Renders.visitAll h.hasTree.grounded h.parents tree.children fun entry hmem => ⟨?_, ?_⟩
    · exact h.hasTree.reaches_of_mem (List.mem_cons_of_mem _ hmem)
    · intro heq
      have hnodup := h.nodup
      rw [Tree.toList, List.map_cons, List.nodup_cons, hlabel, ← heq] at hnodup
      exact hnodup.1 (List.mem_map_of_mem hmem)
  have hnode : walk.Renders cost (walk.visitNode true tree.label (walk.visitAll tree.children))
      (walk.reached cost tree) := by
    rw [reached, Tree.forest, Forest.visible, Forest.visible, List.append_nil]
    exact Renders.visitNode h.hasTree.grounded h.parents (by simpa using hlabel)
      (h.hasTree.reaches_of_mem tree.label_mem_toList) hbelow
  obtain ⟨events, hyields, hchunks⟩ := hnode {}
  obtain ⟨last, hlast, hchunks'⟩ :=
    yields_flush cost (walk.handleAll cost (walk.reached cost tree) {}).2
  have hrun : Producer.Yields cost (walk.visitTree tree) _ () :=
    hyields.bind (hlast.bind (.pure ()))
  rw [walk.chunks_eq_visitTree_of_hasTree h.hasTree, hrun.run_eq]
  refine ⟨rfl, ?_⟩
  rw [Trace.chunks, List.append_nil, List.filterMap_append, hchunks, hchunks', deliveries,
    List.map_append]

end ChunkWalk

end SourceChunks
