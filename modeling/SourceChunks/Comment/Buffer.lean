import SourceChunks.Chunk
import SourceChunks.Text.Lines

/-!
# The comment buffer

Comments that follow one another wait in a buffer and leave it together as one chunk.  A
comment that would take the buffer past the budget, less some headroom, first sends off
what is waiting and then waits itself, however dear it is; so a chunk of several comments
never costs more than the budget less the headroom, counted comment by comment.

The lines of a comment chunk are not those of the source.  They number the comments of a
run, from one: each chunk starts on the line after the last one's end, and has a line for
each of its comments.
-/

namespace SourceChunks

/-- Comments that wait to be sent off as one chunk. -/
structure CommentBuffer where
  contents : List String := []
  startLine : Int := 1
  cost : Int := 0
  deriving DecidableEq, Repr

namespace CommentBuffer

/-- What every comment chunk of several comments keeps free of its budget. -/
def headroom : Int := 5

/-- Sends off what is waiting, if anything is. -/
def flush (buffer : CommentBuffer) : Option Chunk × CommentBuffer :=
  if buffer.contents.isEmpty then (none, buffer)
  else
    let next := buffer.startLine + buffer.contents.length
    (some ⟨Text.joinLines buffer.contents, buffer.startLine, next - 1⟩,
      { contents := [], startLine := next, cost := 0 })

/-- Adds a comment of the given cost, sending off what is waiting if both together would
leave too little of the budget free. -/
def add (buffer : CommentBuffer) (comment : String) (cost budget : Int) :
    Option Chunk × CommentBuffer :=
  if buffer.cost + cost > budget - headroom then
    let (flushed, emptied) := buffer.flush
    (flushed, { emptied with contents := emptied.contents ++ [comment], cost })
  else
    (none, { buffer with contents := buffer.contents ++ [comment], cost := buffer.cost + cost })

/-- A chunk is sent off exactly when something is waiting. -/
theorem flush_fst_eq_none_iff (buffer : CommentBuffer) :
    buffer.flush.1 = none ↔ buffer.contents = [] := by
  unfold flush
  split <;> simp_all

/-- Nothing waits after a flush. -/
@[simp] theorem contents_flush (buffer : CommentBuffer) : buffer.flush.2.contents = [] := by
  unfold flush
  split <;> simp_all

/-- The lines of a comment chunk number its comments. -/
theorem stopLine_flush {buffer : CommentBuffer} {chunk : Chunk} (h : buffer.flush.1 = some chunk) :
    chunk.startLine = buffer.startLine ∧ buffer.flush.2.startLine = chunk.stopLine + 1 ∧
      chunk.stopLine = chunk.startLine + buffer.contents.length - 1 := by
  unfold flush at h ⊢
  split at h
  · simp at h
  · next hne =>
    rw [if_neg hne]
    simp only [Option.some.injEq] at h
    subst h
    exact ⟨rfl, by simp, rfl⟩

/-- A comment waits after it was added, whatever was sent off. -/
theorem getLast?_contents_add (buffer : CommentBuffer) (comment : String) (cost budget : Int) :
    (buffer.add comment cost budget).2.contents.getLast? = some comment := by
  unfold add
  split <;> simp

end CommentBuffer

end SourceChunks
