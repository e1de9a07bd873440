import SourceChunks.Json.Basic

/-!
# Reading JSON

The reader takes any text in the format, with blanks between its signs, and keeps the order
of the fields.  It goes down the value with a bound on the number of steps; twice the length
of the text is enough, since at every second step a character is consumed.

A character outside the basic plane may be escaped as two surrogates.  The reader carries a
leading surrogate until it sees what follows; one that stands alone becomes the replacement
character.
-/

namespace SourceChunks.Json

/-- Drops what may stand between the signs of a text. -/
def skipBlanks : List Char → List Char :=
  List.dropWhile fun char => char == ' ' || char == '\n' || char == '\t' || char == '\r'

/-- The value of a hexadecimal digit. -/
def hexValue? (char : Char) : Option Nat :=
  if '0' ≤ char ∧ char ≤ '9' then some (char.toNat - '0'.toNat)
  else if 'a' ≤ char ∧ char ≤ 'f' then some (char.toNat - 'a'.toNat + 10)
  else if 'A' ≤ char ∧ char ≤ 'F' then some (char.toNat - 'A'.toNat + 10)
  else none

/-- The value of four hexadecimal digits. -/
def unit? (a b c d : Char) : Option Nat := do
  some (((← hexValue? a) * 16 + (← hexValue? b)) * 256 + (← hexValue? c) * 16 + (← hexValue? d))

/-- The character that follows a backslash in a short escape, and what it stands for. -/
def shortEscape? : Char → Option Char
  | '"' => some '"'
  | '\\' => some '\\'
  | '/' => some '/'
  | 'n' => some '\n'
  | 'r' => some '\r'
  | 't' => some '\t'
  | 'b' => some '\x08'
  | 'f' => some '\x0C'
  | _ => none

/-- What has been read of a string: its characters, last first, and a leading surrogate
whose partner has not been seen yet. -/
structure StringPrefix where
  read : List Char := []
  leading : Option Nat := none

/-- A leading surrogate whose partner does not come is no character. -/
def StringPrefix.settle (before : StringPrefix) : List Char :=
  match before.leading with
  | none => before.read
  | some _ => '\uFFFD' :: before.read

/-- One more character is read. -/
def StringPrefix.push (before : StringPrefix) (char : Char) : StringPrefix :=
  { read := char :: before.settle }

/-- One more escaped unit of sixteen bits is read. -/
def StringPrefix.pushUnit (before : StringPrefix) (unit : Nat) : StringPrefix :=
  if 0xD800 ≤ unit ∧ unit < 0xDC00 then { read := before.settle, leading := some unit }
  else if 0xDC00 ≤ unit ∧ unit < 0xE000 then
    match before.leading with
    | some lead =>
      { read := Char.ofNat (0x10000 + (lead - 0xD800) * 0x400 + (unit - 0xDC00)) :: before.read }
    | none => before.push '\uFFFD'
  else before.push (Char.ofNat unit)

/-- Reads the rest of a string, up to and with its closing quote. -/
def readString (before : StringPrefix) : List Char → Option (String × List Char)
  | [] => none
  | '"' :: rest => some (String.ofList before.settle.reverse, rest)
  | '\\' :: 'u' :: a :: b :: c :: d :: rest =>
    match unit? a b c d with
    | some unit => readString (before.pushUnit unit) rest
    | none => none
  | '\\' :: char :: rest =>
    match shortEscape? char with
    | some meant => readString (before.push meant) rest
    | none => none
  | char :: rest => if char.toNat < 0x20 then none else readString (before.push char) rest

/-- Reads the digits of a number; a fraction or an exponent is refused. -/
def readDigits (chars : List Char) : Option (Nat × List Char) :=
  let digits := chars.takeWhile Char.isDigit
  let rest := chars.dropWhile Char.isDigit
  if digits.isEmpty then none
  else
    match rest with
    | '.' :: _ | 'e' :: _ | 'E' :: _ => none
    | _ => some (digits.foldl (fun value digit => value * 10 + (digit.toNat - '0'.toNat)) 0, rest)

mutual

/-- Reads a value. -/
def readValue : Nat → List Char → Option (Json × List Char)
  | 0, _ => none
  | fuel + 1, text =>
    match skipBlanks text with
    | 'n' :: 'u' :: 'l' :: 'l' :: rest => some (null, rest)
    | 't' :: 'r' :: 'u' :: 'e' :: rest => some (bool true, rest)
    | 'f' :: 'a' :: 'l' :: 's' :: 'e' :: rest => some (bool false, rest)
    | '"' :: rest => (readString {} rest).map fun (value, rest) => (string value, rest)
    | '-' :: rest => (readDigits rest).map fun (size, rest) => (number (-(size : Int)), rest)
    | '[' :: rest =>
      match skipBlanks rest with
      | ']' :: rest => some (array [], rest)
      | rest => (readItems fuel rest).map fun (items, rest) => (array items, rest)
    | '\x7b' :: rest =>
      match skipBlanks rest with
      | '\x7d' :: rest => some (object [], rest)
      | rest => (readFields fuel rest).map fun (fields, rest) => (object fields, rest)
    | rest => (readDigits rest).map fun (size, rest) => (number (size : Int), rest)

/-- Reads the items of an array, at least one, up to and with the closing bracket. -/
def readItems : Nat → List Char → Option (List Json × List Char)
  | 0, _ => none
  | fuel + 1, text => do
    let (item, rest) ← readValue fuel text
    match skipBlanks rest with
    | ',' :: rest =>
      let (items, rest) ← readItems fuel rest
      some (item :: items, rest)
    | ']' :: rest => some ([item], rest)
    | _ => none

/-- Reads the fields of an object, at least one, up to and with the closing brace. -/
def readFields : Nat → List Char → Option (List (String × Json) × List Char)
  | 0, _ => none
  | fuel + 1, text => do
    match skipBlanks text with
    | '"' :: rest =>
      let (name, rest) ← readString {} rest
      match skipBlanks rest with
      | ':' :: rest =>
        let (value, rest) ← readValue fuel rest
        match skipBlanks rest with
        | ',' :: rest =>
          let (fields, rest) ← readFields fuel rest
          some ((name, value) :: fields, rest)
        | '\x7d' :: rest => some ([(name, value)], rest)
        | _ => none
      | _ => none
    | _ => none

end

theorem readValue_zero (text : List Char) : readValue 0 text = none := by
  rw [readValue]

theorem readItems_zero (text : List Char) : readItems 0 text = none := by
  rw [readItems]

theorem readFields_zero (text : List Char) : readFields 0 text = none := by
  rw [readFields]

/-- The value a text spells, if it spells one and nothing else. -/
def ofChars? (text : List Char) : Option Json :=
  match readValue (2 * text.length + 2) text with
  | some (json, rest) => if (skipBlanks rest).isEmpty then some json else none
  | none => none

/-- The value a text spells. -/
def parse? (text : String) : Option Json :=
  ofChars? text.toList

end SourceChunks.Json
