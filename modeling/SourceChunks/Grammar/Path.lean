import SourceChunks.Text.Lines
import SourceChunks.Text.Lowercase

/-!
# Paths and their extensions

A path is cut at the slashes; empty components and single dots mean nothing and are
dropped, while two dots are a component like any other.  The extension is what follows the
last dot of the last component, unless that dot is its first or its last character.
-/

namespace SourceChunks.Path

/-- The components of a path that mean something. -/
def components (path : String) : List String :=
  ((Text.pieces '/' path.toList).map String.ofList).filter fun component =>
    component != "" && component != "."

/-- The last component of a path, or nothing. -/
def name (path : String) : String :=
  (components path).getLast?.getD ""

/-- What follows the last dot of a name, when something stands on either side of it. -/
def nameExtension (name : List Char) : List Char :=
  let reversed := name.reverse
  let after := reversed.takeWhile (· != '.')
  match reversed.dropWhile (· != '.') with
  | '.' :: _ :: _ => after.reverse
  | _ => []

/-- The extension of a path in lower case, or nothing. -/
def extension (path : String) : String :=
  Text.lowercase (String.ofList (nameExtension (name path).toList))

end SourceChunks.Path
