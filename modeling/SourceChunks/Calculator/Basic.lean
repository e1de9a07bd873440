import SourceChunks.Calculator.Encoding
import SourceChunks.Producer

/-!
# Calculators

The calculators that can be asked for by name: one that counts characters, one that counts
the tokens of an encoding, and one that finds the same cost for every text.

An encoding is looked up when the first text is counted and kept from then on; a name that
means nothing shows only then, and each time.
-/

namespace SourceChunks

/-- Something that tells the cost of a text. -/
inductive Calculator where
  /-- A text costs its number of characters. -/
  | characters
  /-- A text costs its number of tokens in the named encoding, which may be loaded. -/
  | tokens (encodingName : String) (loaded : Option Encoding)
  /-- Every text costs the same. -/
  | fixed (cost : Int)

namespace Calculator

/-- The encoding that is used when none is named. -/
def defaultEncoding : String := "cl100k_base"

/-- A calculator for the tokens of an encoding, which is not loaded yet. -/
def ofEncoding (name : Option String) : Calculator :=
  match name with
  | none | some "" => .tokens defaultEncoding none
  | some name => .tokens name none

/-- The name of the encoding a calculator uses, if it uses one. -/
def encodingName? : Calculator → Option String
  | tokens name _ => some name
  | _ => none

/-- The cost of a text, and the calculator afterwards. -/
def count [EncodingSource] (calculator : Calculator) (text : String) :
    Except Failure Int × Calculator :=
  match calculator with
  | characters => (.ok text.length, calculator)
  | fixed cost => (.ok cost, calculator)
  | tokens _ (some encoding) => (.ok (encoding.count text), calculator)
  | tokens name none =>
    match Encoding.load name with
    | .ok encoding => (.ok (encoding.count text), tokens name (some encoding))
    | .error failure => (.error failure, calculator)

instance [EncodingSource] : TokenCalculator Calculator where
  count := count

end Calculator

end SourceChunks
