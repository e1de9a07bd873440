/-!
# Ranges of character numbers

A property of characters is given by the ranges of numbers that have it.
-/

namespace SourceChunks.Text

/-- Is the number in one of the ranges, ends included? -/
def inRanges (ranges : List (Nat × Nat)) (code : Nat) : Bool :=
  ranges.any fun range => range.1 ≤ code && code ≤ range.2

end SourceChunks.Text
