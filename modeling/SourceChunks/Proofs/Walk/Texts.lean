import SourceChunks.Proofs.Walk.Recursion

/-!
# The texts of a conversation

A conversation delivers texts and asks what texts cost.  `Says` bounds which texts these are,
whatever is answered, and which values the conversation may end with; it follows the
conversation, so it goes through one conversation after another (`Says.bind`), and what a run
records is bounded so, with any calculator and for any consumer (`Says.run`).

A walk says the texts of nodes, their outlines, and comments joined.  So if a sort of texts
admits joining, it is enough to know that the texts and the outlines of the nodes are of that
sort (`ChunkWalk.says_visitTree`).
-/

namespace SourceChunks

namespace Producer

variable {α β : Type} {said : String → Prop} {post : α → Prop}

/-- Whatever it is answered, the conversation delivers and prices texts of the one sort only,
and ends with values of the other if it ends with a value. -/
def Says (said : String → Prop) (post : α → Prop) : Producer α → Prop
  | done value => post value
  | fail _ => True
  | emit chunk rest => said chunk.content ∧ rest.Says said post
  | request _ rest => rest.Says said post
  | price text rest => said text ∧ ∀ tokens, (rest tokens).Says said post

theorem Says.pure {value : α} (h : post value) : (Pure.pure value : Producer α).Says said post :=
  h

theorem Says.bind {producer : Producer α} {next : α → Producer β} {last : β → Prop}
    (h : producer.Says said post) (h' : ∀ value, post value → (next value).Says said last) :
    (producer >>= next).Says said last := by
  induction producer with
  | done value => exact h' value h
  | fail => trivial
  | emit chunk rest ih => exact ⟨h.1, ih h.2⟩
  | request language rest ih => exact ih h
  | price text rest ih => exact ⟨h.1, fun tokens => ih tokens (h.2 tokens)⟩

theorem Says.ofExcept {result : Except Failure α} (h : ∀ value, result = .ok value → post value) :
    (Producer.ofExcept result).Says said post := by
  cases result with
  | ok value => exact h value rfl
  | error failure => trivial

theorem Says.deliver {chunk : Chunk} (h : said chunk.content) :
    (Producer.deliver chunk).Says said fun _ => True :=
  ⟨h, trivial⟩

theorem Says.deliver? {chunk? : Option Chunk}
    (h : ∀ chunk, chunk? = some chunk → said chunk.content) :
    (Producer.deliver? chunk?).Says said fun _ => True := by
  cases chunk? with
  | none => trivial
  | some chunk => exact .deliver (h chunk rfl)

theorem Says.cost {text : String} (h : said text) :
    (Producer.cost text).Says said fun _ => True :=
  ⟨h, fun _ => trivial⟩

/-- **The texts of a run** are of the sort, with any calculator and for any consumer. -/
theorem Says.run {κ : Type} [TokenCalculator κ] {producer : Producer α}
    (h : producer.Says said post) (limit : Option Nat) (calculator : κ) :
    (∀ chunk ∈ (producer.run limit calculator).chunks, said chunk.content) ∧
      ∀ question ∈ (producer.run limit calculator).questions, said question.1 := by
  induction producer generalizing limit calculator with
  | done value =>
    rw [Producer.run]
    split <;> exact ⟨by simp [Trace.chunks], by simp [Trace.questions]⟩
  | fail failure =>
    rw [Producer.run]
    split <;> exact ⟨by simp [Trace.chunks], by simp [Trace.questions]⟩
  | emit chunk rest ih =>
    rw [Producer.run]
    split
    · exact ⟨by simp [Trace.chunks], by simp [Trace.questions]⟩
    · obtain ⟨hchunks, hquestions⟩ := ih h.2 (limit.map (· - 1)) calculator
      exact ⟨List.forall_mem_cons.2 ⟨h.1, hchunks⟩, hquestions⟩
  | request language rest ih =>
    rw [Producer.run]
    split
    · exact ⟨by simp [Trace.chunks], by simp [Trace.questions]⟩
    · exact ih h limit calculator
  | price text rest ih =>
    rw [Producer.run]
    split
    · exact ⟨by simp [Trace.chunks], by simp [Trace.questions]⟩
    · split
      · next tokens calculator' _ =>
        obtain ⟨hchunks, hquestions⟩ := ih tokens (h.2 tokens) limit calculator'
        exact ⟨hchunks, List.forall_mem_cons.2 ⟨h.1, hquestions⟩⟩
      · exact ⟨by simp [Trace.chunks], by simp [Trace.questions]⟩

end Producer

/-! ## The walk -/

namespace ChunkWalk

variable {walk : ChunkWalk} {said : String → Prop}

/-- Texts of the sort wait. -/
def Holds (said : String → Prop) (buffer : CommentBuffer) : Prop :=
  ∀ text ∈ buffer.contents, said text

/-- The text and the outlines of the node are of the sort. -/
structure Tells (walk : ChunkWalk) (said : String → Prop) (entry : Nat × Node) : Prop where
  text : said (walk.arena.nodeText entry.2)
  outline : ∀ kind, (walk.outline kind entry.1).Says said said

section Buffer

variable {buffer : CommentBuffer}
  (joined : ∀ texts, (∀ text ∈ texts, said text) → said (Text.joinLines texts))

include joined in
theorem said_flush (h : Holds said buffer) {chunk : Chunk} (hchunk : buffer.flush.1 = some chunk) :
    said chunk.content := by
  unfold CommentBuffer.flush at hchunk
  split at hchunk
  · simp at hchunk
  · rw [← Option.some.inj hchunk]
    exact joined _ h

include joined in
theorem says_flush (h : Holds said buffer) :
    (ChunkWalk.flush buffer).Says said (Holds said) := by
  have hempty : Holds said buffer.flush.2 := by simp [Holds]
  exact (Producer.Says.deliver? fun chunk => said_flush joined h).bind fun _ _ => hempty

include joined in
theorem said_add (h : Holds said buffer) {comment : String} (hcomment : said comment)
    (cost budget : Int) :
    (∀ chunk, (buffer.add comment cost budget).1 = some chunk → said chunk.content) ∧
      Holds said (buffer.add comment cost budget).2 := by
  unfold CommentBuffer.add
  split
  · refine ⟨fun chunk => said_flush joined h, ?_⟩
    simpa [Holds] using hcomment
  · refine ⟨by simp, ?_⟩
    rw [Holds, List.forall_mem_append]
    exact ⟨h, List.forall_mem_singleton.2 hcomment⟩

end Buffer

section Visit

variable (joined : ∀ texts, (∀ text ∈ texts, said text) → said (Text.joinLines texts))
  {entry : Nat × Node} {descend : CommentBuffer → Producer CommentBuffer}
  {buffer : CommentBuffer}

include joined in
theorem says_enterNode (hentry : walk.Tells said entry)
    (hdescend : ∀ buffer, Holds said buffer → (descend buffer).Says said (Holds said))
    (h : Holds said buffer) :
    (walk.enterNode entry descend buffer).Says said (Holds said) := by
  unfold enterNode
  dsimp only
  split
  · refine (Producer.Says.cost hentry.text).bind fun tokens _ => ?_
    obtain ⟨hsent, hholds⟩ := said_add joined h hentry.text tokens walk.budget
    refine (Producer.Says.deliver? hsent).bind fun _ _ => ?_
    split
    · exact .pure hholds
    · exact hdescend _ hholds
  · split
    · next kind _ =>
      refine (says_flush joined h).bind fun emptied hemptied => ?_
      refine (hentry.outline kind).bind fun content hcontent => ?_
      exact (Producer.Says.deliver hcontent).bind fun _ _ => hdescend emptied hemptied
    · exact hdescend buffer h

include joined in
theorem says_visitNode (isRoot : Bool) (hentry : walk.Tells said entry)
    (hdescend : ∀ buffer, Holds said buffer → (descend buffer).Says said (Holds said))
    (h : Holds said buffer) :
    (walk.visitNode isRoot entry descend buffer).Says said (Holds said) := by
  have hasked : (walk.askWhole isRoot entry.2).Says said fun _ => True := by
    unfold askWhole
    split
    · rw [map_eq_pure_bind]
      exact (Producer.Says.cost hentry.text).bind fun _ _ => .pure trivial
    · exact .pure trivial
  refine hasked.bind fun isWhole _ => ?_
  split
  · refine (says_flush joined h).bind fun emptied hemptied => ?_
    exact (Producer.Says.deliver hentry.text).bind fun _ _ => .pure hemptied
  · exact says_enterNode joined hentry hdescend h

include joined in
theorem says_visitAll {forest : Forest (Nat × Node)}
    (hforest : ∀ entry ∈ forest.toList, walk.Tells said entry) (h : Holds said buffer) :
    (walk.visitAll forest buffer).Says said (Holds said) := by
  induction forest generalizing buffer with
  | nil => exact .pure h
  | cons entry children siblings ihChildren ihSiblings =>
    rw [Forest.toList, List.forall_mem_cons, List.forall_mem_append] at hforest
    obtain ⟨hentry, hchildren, hsiblings⟩ := hforest
    refine (says_visitNode joined false hentry (fun _ => ihChildren hchildren) h).bind ?_
    exact fun _ => ihSiblings hsiblings

include joined in
/-- **The texts of a walk** are those of nodes, outlines, and comments joined. -/
theorem says_visitTree {tree : Tree (Nat × Node)}
    (htree : ∀ entry ∈ tree.toList, walk.Tells said entry) :
    (walk.visitTree tree).Says said fun _ => True := by
  obtain ⟨hlabel, hchildren⟩ := List.forall_mem_cons.1 htree
  have hempty : Holds said {} := by simp [Holds]
  refine (says_visitNode joined true hlabel (fun _ => says_visitAll joined hchildren) hempty).bind
    fun buffer hbuffer => ?_
  exact (says_flush joined hbuffer).bind fun _ _ => .pure trivial

end Visit

end ChunkWalk

end SourceChunks
