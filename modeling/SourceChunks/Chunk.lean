/-!
# Chunks

What the library delivers: a piece of text and the lines it stands for, ends included.
-/

namespace SourceChunks

/-- A piece of text with the range of its lines. -/
structure Chunk where
  content : String
  startLine : Int
  stopLine : Int
  deriving DecidableEq, Repr

end SourceChunks
