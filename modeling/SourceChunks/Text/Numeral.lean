import SourceChunks.Text.Blank
import SourceChunks.Text.DecimalDigit

/-!
# Whole numbers in words of digits

The form of a whole number that a setting may have: an optional sign, then decimal digits
of any script, between two of which a single low line may stand.  Blank characters around
it do not matter, except that the four information separators count as no blank here.  A
number of more than `maxDigits` digits is refused.
-/

namespace SourceChunks.Text

/-- The greatest number of digits that is read. -/
def maxDigits : Nat := 4300

/-- May the character stand around a numeral? -/
def isNumeralBlank (char : Char) : Bool :=
  isBlank char && !(0x1C ≤ char.toNat && char.toNat ≤ 0x1F)

/-- The values of the digits of a numeral: at least one digit, and a single low line
between two digits at most. -/
def digitValues? : List Char → Option (List Nat)
  | [] => none
  | char :: rest => do
    let value ← digitValue? char
    match rest with
    | [] => some [value]
    | '_' :: more => (value :: ·) <$> digitValues? more
    | next :: more => (value :: ·) <$> digitValues? (next :: more)

/-- The number that digits spell, the most significant first. -/
def numberOf (digits : List Nat) : Nat :=
  digits.foldl (fun value digit => value * 10 + digit) 0

/-- The number of a numeral without a sign. -/
def magnitude? (chars : List Char) : Option Nat := do
  let digits ← digitValues? chars
  if digits.length ≤ maxDigits then some (numberOf digits) else none

/-- The whole number that the characters spell. -/
def integer? (text : String) : Option Int :=
  let chars := ((text.toList.dropWhile isNumeralBlank).reverse.dropWhile isNumeralBlank).reverse
  match chars with
  | '-' :: digits => (magnitude? digits).map fun size => -(size : Int)
  | '+' :: digits => (magnitude? digits).map fun size => (size : Int)
  | digits => (magnitude? digits).map fun size => (size : Int)

end SourceChunks.Text
