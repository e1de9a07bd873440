import SourceChunks.Proofs.Walk.Deliveries

/-!
# The balance of a walk

Comments leave the buffer at four places of the walk, and the lines of their chunks are
counted across all of them.  What holds at each of these places is one balance between what
was delivered and what waits (`Account`):

* the nodes delivered and then those waiting are the nodes handled, in their order;
* so are the comments among them, and no comment chunk is empty;
* a comment chunk has a line for each of its comments and starts where the last one ended;
* the other chunks are those that the nodes have for their own.

Balances add up (`Account.trans`), so it is enough to settle a flush, a comment that starts
to wait and a chunk of a node's own.  At the end of the walk nothing waits, and the balance
is one of the stream alone (`Account.deliveries`).
-/

namespace SourceChunks

namespace ChunkWalk

variable (walk : ChunkWalk) (cost : String → Int)

/-- The chunks of groups of comments, the first of which starts on the given line. -/
def commentChunks (line : Int) : List (List (Nat × Node)) → List Chunk
  | [] => []
  | group :: later =>
    ⟨Text.joinLines (group.map fun comment => walk.arena.nodeText comment.2), line,
        line + group.length - 1⟩
      :: commentChunks (line + group.length) later

theorem commentChunks_append (line : Int) (groups later : List (List (Nat × Node))) :
    walk.commentChunks line (groups ++ later) =
      walk.commentChunks line groups
        ++ walk.commentChunks (line + groups.flatten.length) later := by
  induction groups generalizing line with
  | nil => simp [commentChunks]
  | cons group groups ih =>
    rw [List.cons_append, commentChunks, commentChunks, ih, List.cons_append, List.flatten_cons,
      List.length_append]
    rw [Int.natCast_add, Int.add_assoc]

/-- The chunk of a group has its comments, and starts on the line after all those of the
groups before it. -/
theorem getElem?_commentChunks {line : Int} {groups : List (List (Nat × Node))} {i : Nat}
    {group : List (Nat × Node)} (h : groups[i]? = some group) :
    (walk.commentChunks line groups)[i]? =
      some ⟨Text.joinLines (group.map fun comment => walk.arena.nodeText comment.2),
        line + (groups.take i).flatten.length,
        line + (groups.take i).flatten.length + group.length - 1⟩ := by
  induction groups generalizing line i with
  | nil => simp at h
  | cons first groups ih =>
    cases i with
    | zero =>
      rw [List.getElem?_cons_zero, Option.some.injEq] at h
      subst h
      simp [commentChunks]
    | succ i =>
      rw [List.getElem?_cons_succ] at h
      rw [commentChunks, List.getElem?_cons_succ, ih h, List.take_succ_cons, List.flatten_cons,
        List.length_append]
      rw [Int.natCast_add, Int.add_assoc]

/-! ## The balance of a stretch of the walk -/

/-- Does something of the node come into a chunk when the walk comes to it? -/
def isHandled (entry : Nat × Node) : Bool :=
  walk.isBuffered cost entry || (walk.ownDelivery? cost entry).isSome

/-- The buffer holds the texts of the comments that wait. -/
def Sound (waiting : Waiting) : Prop :=
  waiting.buffer.contents = waiting.entries.map fun comment => walk.arena.nodeText comment.2

/-- The balance of a stretch of the walk, in which the walk came to the given nodes. -/
structure Account (entries : List (Nat × Node)) (before : Waiting) (stream : List Delivery)
    (after : Waiting) : Prop where
  sound : walk.Sound after
  /-- Nothing is lost, doubled or moved. -/
  handled : stream.flatMap Delivery.entries ++ after.entries =
    before.entries ++ entries.filter (walk.isHandled cost)
  /-- No comment is lost, doubled or moved. -/
  buffered : (stream.filterMap Delivery.comments?).flatten ++ after.entries =
    before.entries ++ entries.filter (walk.isBuffered cost)
  nonempty : [] ∉ stream.filterMap Delivery.comments?
  /-- The lines of comment chunks go on from those before. -/
  numbered : (stream.filter fun delivery => delivery.comments?.isSome).map (·.chunk) =
    walk.commentChunks before.buffer.startLine (stream.filterMap Delivery.comments?)
  startLine : after.buffer.startLine =
    before.buffer.startLine + (stream.filterMap Delivery.comments?).flatten.length
  /-- All other chunks are those of nodes. -/
  own : stream.filter (fun delivery => delivery.node?.isSome) =
    entries.filterMap (walk.ownDelivery? cost)

variable {walk cost} {before between after waiting : Waiting} {entry : Nat × Node}

namespace Account

theorem refl (h : walk.Sound waiting) : walk.Account cost [] waiting [] waiting where
  sound := h
  handled := by simp
  buffered := by simp
  nonempty := by simp
  numbered := rfl
  startLine := by simp
  own := rfl

/-- **Balances add up.** -/
theorem trans {entries later : List (Nat × Node)} {stream rest : List Delivery}
    (h : walk.Account cost entries before stream between)
    (h' : walk.Account cost later between rest after) :
    walk.Account cost (entries ++ later) before (stream ++ rest) after where
  sound := h'.sound
  handled := by
    rw [List.flatMap_append, List.append_assoc, h'.handled, ← List.append_assoc, h.handled,
      List.append_assoc, ← List.filter_append]
  buffered := by
    rw [List.filterMap_append, List.flatten_append, List.append_assoc, h'.buffered,
      ← List.append_assoc, h.buffered, List.append_assoc, ← List.filter_append]
  nonempty := by
    rw [List.filterMap_append, List.mem_append]
    exact fun hmem => hmem.elim h.nonempty h'.nonempty
  numbered := by
    rw [List.filter_append, List.map_append, List.filterMap_append, commentChunks_append,
      h.numbered, h'.numbered, h.startLine]
  startLine := by
    rw [h'.startLine, h.startLine, List.filterMap_append, List.flatten_append, List.length_append]
    omega
  own := by rw [List.filter_append, h.own, h'.own, List.filterMap_append]

/-- A flush: what waits becomes a chunk, if anything waits. -/
theorem flush (cost : String → Int) (h : walk.Sound waiting) :
    walk.Account cost [] waiting waiting.flush.1 waiting.flush.2 := by
  by_cases hempty : waiting.buffer.contents = []
  · have hentries : waiting.entries = [] := by
      rw [Sound, hempty] at h
      exact List.map_eq_nil_iff.1 h.symm
    have hflush : waiting.buffer.flush = (none, waiting.buffer) := by
      rw [CommentBuffer.flush, hempty]
      rfl
    have hnothing : waiting.flush = ([], waiting) := by
      rw [Waiting.flush, hflush, ← hentries]
      rfl
    rw [hnothing]
    exact refl h
  · have hentries : waiting.entries ≠ [] := by
      intro heq
      rw [Sound, heq] at h
      exact hempty h
    have hlength : waiting.buffer.contents.length = waiting.entries.length := by
      rw [h, List.length_map]
    have hflush : waiting.buffer.flush = (some
          ⟨Text.joinLines waiting.buffer.contents, waiting.buffer.startLine,
            waiting.buffer.startLine + waiting.entries.length - 1⟩,
        { contents := [], startLine := waiting.buffer.startLine + waiting.entries.length
          cost := 0 }) := by
      rw [CommentBuffer.flush, if_neg (by simpa using hempty), hlength]
    rw [Waiting.flush, hflush, h]
    exact {
      sound := rfl
      handled := by simp [Delivery.entries]
      buffered := by simp [Delivery.comments?]
      nonempty := by simpa [Delivery.comments?] using hentries
      numbered := by simp [Delivery.comments?, commentChunks]
      startLine := by simp [Delivery.comments?]
      own := by simp [Delivery.node?] }

/-- A comment starts to wait, for whatever the buffer then costs. -/
theorem wait (h : walk.Sound waiting) (hbuffered : walk.isBuffered cost entry = true)
    (total : Int) :
    walk.Account cost [entry] waiting []
      ⟨waiting.entries ++ [entry],
        { contents := waiting.buffer.contents ++ [walk.arena.nodeText entry.2]
          startLine := waiting.buffer.startLine
          cost := total }⟩ where
  sound := by
    rw [Sound] at h ⊢
    rw [h, List.map_append]
    rfl
  handled := by simp [isHandled, hbuffered]
  buffered := by simp [hbuffered]
  nonempty := by simp
  numbered := rfl
  startLine := by simp
  own := by
    have hown : walk.ownDelivery? cost entry = none := by
      rw [isBuffered, Bool.and_eq_true, Bool.not_eq_true'] at hbuffered
      rw [ownDelivery?, hbuffered.1, hbuffered.2]
      rfl
    simp [hown]

/-- A node has a chunk of its own, while nothing waits. -/
theorem deliver {own : Delivery} (h : walk.Sound waiting) (hempty : waiting.entries = [])
    (hbuffered : walk.isBuffered cost entry = false)
    (hown : walk.ownDelivery? cost entry = some own) (hnode : own.node? = some entry) :
    walk.Account cost [entry] waiting [own] waiting := by
  obtain ⟨hentries, hcomments⟩ := Delivery.entries_of_node? hnode
  exact {
    sound := h
    handled := by simp [hempty, hentries, isHandled, hown]
    buffered := by simp [hempty, hcomments, hbuffered]
    nonempty := by simp [hcomments]
    numbered := by simp [hcomments, commentChunks]
    startLine := by simp [hcomments]
    own := by simp [hnode, hown] }

/-- A node of which nothing comes into a chunk. -/
theorem skip (h : walk.Sound waiting) (hbuffered : walk.isBuffered cost entry = false)
    (hown : walk.ownDelivery? cost entry = none) :
    walk.Account cost [entry] waiting [] waiting where
  sound := h
  handled := by simp [isHandled, hbuffered, hown]
  buffered := by simp [hbuffered]
  nonempty := by simp
  numbered := rfl
  startLine := by simp
  own := by simp [hown]

/-- A comment that comes to the buffer waits there, alone if it sends off what waited. -/
theorem buffer (h : walk.Sound waiting) (hbuffered : walk.isBuffered cost entry = true) :
    walk.Account cost [entry] waiting (walk.handle cost entry waiting).1
      (walk.handle cost entry waiting).2 := by
  rw [handle_of_buffered hbuffered]
  by_cases hover : waiting.buffer.cost + cost (walk.arena.nodeText entry.2) >
      walk.budget - CommentBuffer.headroom
  · have hadd : waiting.buffer.add (walk.arena.nodeText entry.2)
        (cost (walk.arena.nodeText entry.2)) walk.budget =
          (waiting.buffer.flush.1, { waiting.buffer.flush.2 with
            contents := waiting.buffer.flush.2.contents ++ [walk.arena.nodeText entry.2]
            cost := cost (walk.arena.nodeText entry.2) }) := by
      rw [CommentBuffer.add, if_pos hover]
    have hleft : (if waiting.buffer.flush.1.isSome then [] else waiting.entries) = [] := by
      split
      · rfl
      · next hnone =>
        have hcontents := (CommentBuffer.flush_fst_eq_none_iff waiting.buffer).1 (by
          simpa using hnone)
        rw [Sound, hcontents] at h
        exact List.map_eq_nil_iff.1 h.symm
    have hflush := flush cost h
    have hwaits := hflush.trans
      (wait hflush.sound hbuffered (cost (walk.arena.nodeText entry.2)))
    rw [List.append_nil] at hwaits
    simp only [hadd, hleft]
    exact hwaits
  · have hadd : waiting.buffer.add (walk.arena.nodeText entry.2)
        (cost (walk.arena.nodeText entry.2)) walk.budget =
          (none, { waiting.buffer with
            contents := waiting.buffer.contents ++ [walk.arena.nodeText entry.2]
            cost := waiting.buffer.cost + cost (walk.arena.nodeText entry.2) }) := by
      rw [CommentBuffer.add, if_neg hover]
    simp only [hadd]
    exact wait h hbuffered _

/-- **One node.**  What becomes of a node that the walk comes to keeps the balance. -/
theorem handle (cost : String → Int) (h : walk.Sound waiting) (entry : Nat × Node) :
    walk.Account cost [entry] waiting (walk.handle cost entry waiting).1
      (walk.handle cost entry waiting).2 := by
  cases hbuffered : walk.isBuffered cost entry with
  | true => exact buffer h hbuffered
  | false =>
    cases hown : walk.ownDelivery? cost entry with
    | none =>
      rw [handle_of_none hbuffered hown]
      exact skip h hbuffered hown
    | some own =>
      have hflush := flush cost h
      rw [handle_of_own hbuffered hown]
      exact hflush.trans (deliver hflush.sound rfl hbuffered hown (node?_of_own hown))

/-- **All nodes**, one after the other. -/
theorem handleAll (cost : String → Int) (h : walk.Sound waiting)
    (entries : List (Nat × Node)) :
    walk.Account cost entries waiting (walk.handleAll cost entries waiting).1
      (walk.handleAll cost entries waiting).2 := by
  induction entries generalizing waiting with
  | nil => exact refl h
  | cons entry rest ih =>
    have hfirst := handle cost h entry
    rw [handleAll_cons]
    exact hfirst.trans (ih hfirst.sound)

/-- **The whole stream**, after which nothing waits. -/
theorem deliveries (walk : ChunkWalk) (cost : String → Int) (tree : Tree (Nat × Node)) :
    ∃ after, walk.Account cost (walk.reached cost tree) {} (walk.deliveries cost tree) after ∧
      after.entries = [] := by
  have hstart : walk.Sound {} := rfl
  have hall := handleAll cost hstart (walk.reached cost tree)
  have hwhole := hall.trans (flush cost hall.sound)
  rw [List.append_nil] at hwhole
  exact ⟨_, hwhole, rfl⟩

end Account

/-! ## What was delivered whole -/

/-- The chunks of nodes' own are those of the nodes that the walk comes to. -/
theorem mem_deliveries_iff_of_node? {tree : Tree (Nat × Node)} {delivery : Delivery}
    (hnode : delivery.node? = some entry) :
    delivery ∈ walk.deliveries cost tree ↔
      entry ∈ walk.reached cost tree ∧ walk.ownDelivery? cost entry = some delivery := by
  obtain ⟨after, account, -⟩ := Account.deliveries walk cost tree
  have hkept : delivery ∈ walk.deliveries cost tree ↔
      delivery ∈ (walk.deliveries cost tree).filter fun own => own.node?.isSome := by
    rw [List.mem_filter, hnode]
    simp
  rw [hkept, account.own, List.mem_filterMap]
  constructor
  · rintro ⟨other, hreached, hown⟩
    have heq : some entry = some other := hnode.symm.trans (node?_of_own hown)
    rw [Option.some.inj heq]
    exact ⟨hreached, hown⟩
  · rintro ⟨hreached, hown⟩
    exact ⟨entry, hreached, hown⟩

/-- Does the stream deliver the node whole? -/
def EmittedWhole (stream : List Delivery) (entry : Nat × Node) : Prop :=
  ∃ delivery ∈ stream, delivery.origin = .whole entry

/-- Delivered whole are the nodes that the walk comes to and that fit. -/
theorem emittedWhole_iff {tree : Tree (Nat × Node)} :
    EmittedWhole (walk.deliveries cost tree) entry ↔
      entry ∈ walk.reached cost tree ∧ walk.isWhole cost entry = true := by
  constructor
  · rintro ⟨delivery, hmem, horigin⟩
    have hnode : delivery.node? = some entry := by rw [Delivery.node?, horigin]
    obtain ⟨hreached, hown⟩ := (mem_deliveries_iff_of_node? hnode).1 hmem
    refine ⟨hreached, ?_⟩
    rcases own_cases hown with ⟨hwhole, -⟩ | ⟨kind, -, -, -, rfl⟩
    · exact hwhole
    · simp at horigin
  · rintro ⟨hreached, hwhole⟩
    exact ⟨_, (mem_deliveries_iff_of_node? rfl).2 ⟨hreached, ownDelivery?_of_whole hwhole⟩, rfl⟩

theorem reached_sublist (walk : ChunkWalk) (cost : String → Int) (tree : Tree (Nat × Node)) :
    (walk.reached cost tree).Sublist tree.toList := by
  rw [← Tree.toList_forest]
  exact Forest.visible_sublist _ _

theorem mem_toList_of_mem_reached {tree : Tree (Nat × Node)} (h : entry ∈ walk.reached cost tree) :
    entry ∈ tree.toList :=
  (walk.reached_sublist cost tree).subset h

/-- **What lies above a node that the walk comes to** is not delivered whole, and is no
composite. -/
theorem open_of_above_reached {tree : Tree (Nat × Node)} (h : walk.arena.IsTree tree)
    (hreached : entry ∈ walk.reached cost tree) {upper : Nat × Node} (hupper : upper ∈ tree.toList)
    (habove : walk.arena.Above upper.1 entry.1) :
    ¬ EmittedWhole (walk.deliveries cost tree) upper ∧ upper.2.isComposite = false := by
  have hopen := (h.mem_visible_iff.1 hreached).2 upper hupper habove
  rw [isClosed, Bool.or_eq_false_iff] at hopen
  refine ⟨fun hemitted => ?_, hopen.2⟩
  rw [(emittedWhole_iff.1 hemitted).2] at hopen
  exact Bool.noConfusion hopen.1

end ChunkWalk

end SourceChunks
