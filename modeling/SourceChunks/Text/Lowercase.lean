import SourceChunks.Text.LetterCase
import SourceChunks.Text.Blank

/-!
# Lower case

The full lower-case form of a text.  Two characters do not simply move along a run of the
table: the dotted capital I becomes an i and a combining dot, and the capital sigma
becomes the final sigma at the end of a word, that is when a letter comes before it and
none after it, looking through the characters in between that do not count.

`normalName` is the form under which names are kept: without blanks at the ends and in
lower case.
-/

namespace SourceChunks.Text

/-- The lower-case form of a character that does not depend on its neighbours. -/
def lowercaseChar (char : Char) : List Char :=
  if char = 'İ' then ['i', '\u0307']
  else
    match lowercaseRuns.find? (·.holds char.toNat) with
    | some run => [Char.ofNat (char.toNat + run.shift).toNat]
    | none => [char]

/-- Does a word end between the characters `before`, nearest first, and those `after`? -/
def endsWord (before after : List Char) : Bool :=
  (before.dropWhile isCaseIgnorable).head?.any isCased
    && !(after.dropWhile isCaseIgnorable).head?.any isCased

/-- The lower-case form of the characters that follow `before`, nearest first. -/
def lowercaseAfter (before : List Char) : List Char → List Char
  | [] => []
  | char :: rest =>
    (if char = 'Σ' then [if endsWord before rest then 'ς' else 'σ'] else lowercaseChar char)
      ++ lowercaseAfter (char :: before) rest

/-- The text in lower case. -/
def lowercase (text : String) : String :=
  String.ofList (lowercaseAfter [] text.toList)

/-- The form under which a name is kept; a missing name is the empty one. -/
def normalName (name : Option String) : String :=
  lowercase (strip (name.getD ""))

end SourceChunks.Text
