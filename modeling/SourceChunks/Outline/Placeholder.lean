import SourceChunks.Arena.Basic
import SourceChunks.Grammar.Profile

/-!
# Placeholders

What stands for a body that an outline leaves out: three dots, in braces where the body
stood in braces.
-/

namespace SourceChunks

/-- What stands for a body in braces. -/
def bracePlaceholder : Bytes := Utf8.encode "\x7b ... \x7d"

/-- What stands for any other body. -/
def dotsPlaceholder : Bytes := Utf8.encode "..."

/-- What stands for a body of the given type. -/
def Profile.placeholder (profile : Profile) (type : String) : Bytes :=
  if profile.plays .braceBodies type then bracePlaceholder else dotsPlaceholder

/-- What stands for the node of a number. -/
def Arena.placeholder (arena : Arena) (profile : Profile) (index : Nat) : Except Failure Bytes :=
  return profile.placeholder (← arena.node index).type

end SourceChunks
