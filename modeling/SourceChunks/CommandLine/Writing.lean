import SourceChunks.Chunk
import SourceChunks.Failure
import SourceChunks.Json.Writer

/-!
# Writing

What a run has to say is written to an output text by text, and the output may refuse a text:
it has no code for one of the characters, its disk is full, or nobody reads it any more.  A
text is written whole or, if it is refused, not at all.

An output may remember what it was given, so whether it takes a text may depend on all that
was written before.  Nothing is assumed of that: `TextSink` is to outputs what `TokenCalculator`
is to calculators.
-/

namespace SourceChunks

/-- Something that texts are written to. -/
class TextSink (σ : Type) where
  write : σ → String → Except Failure Unit × σ

/-- What was written of a text, and why it was not all of it. -/
structure Written where
  text : String
  refusal : Option Failure
  deriving DecidableEq

namespace TextSink

variable {σ : Type} [TextSink σ]

/-- Writes a text. -/
def tell (sink : σ) (text : String) : Written :=
  match write sink text with
  | (.ok (), _) => ⟨text, none⟩
  | (.error failure, _) => ⟨"", some failure⟩

/-- Writes a line.  Its text is written first, and then its end. -/
def print (sink : σ) (line : String) : Written :=
  match write sink line with
  | (.error failure, _) => ⟨"", some failure⟩
  | (.ok (), sink) =>
    match write sink "\n" with
    | (.error failure, _) => ⟨line, some failure⟩
    | (.ok (), _) => ⟨line ++ "\n", none⟩

end TextSink

/-! ## Outputs that differ in their characters -/

/-- The characters that an output has codes for. -/
inductive CharacterSet where
  /-- All of them. -/
  | unicode
  /-- The first 128. -/
  | ascii
  deriving DecidableEq, Repr

namespace CharacterSet

/-- Is there a code for the character? -/
def holds : CharacterSet → Char → Bool
  | unicode, _ => true
  | ascii, char => char.toNat < 128

/-- The first characters in a row that there are no codes for, with the number of characters
before them. -/
def lacking? (set : CharacterSet) (text : String) : Option (Nat × List Char) :=
  let before := text.toList.takeWhile set.holds
  match (text.toList.drop before.length).takeWhile (!set.holds ·) with
  | [] => none
  | chars => some (before.length, chars)

instance : TextSink CharacterSet where
  write set text :=
    match set.lacking? text with
    | none => (.ok (), set)
    | some (before, chars) => (.error (.noCode before chars), set)

end CharacterSet

/-! ## Lines -/

/-- The record of a chunk of a file. -/
def Chunk.record (path : String) (chunk : Chunk) : Json :=
  .object [("path", .string path), ("start_line", .number chunk.startLine),
    ("end_line", .number chunk.stopLine), ("content", .string chunk.content)]

/-- The line of a record. -/
def outputLine (record : Json) : String :=
  record.render ++ "\n"

end SourceChunks
