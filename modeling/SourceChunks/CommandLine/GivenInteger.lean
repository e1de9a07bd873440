/-!
# Whole numbers that options give

An option that takes a whole number may also be given with nothing for its value.  It then
counts as given all the same: what depends on it neither has a number to go by nor falls back
on what it would be without the option.
-/

namespace SourceChunks

/-- What an option for a whole number gives. -/
inductive GivenInteger where
  | number (value : Int)
  /-- The option was given with nothing for its value. -/
  | nothing
  deriving DecidableEq, Repr

end SourceChunks
