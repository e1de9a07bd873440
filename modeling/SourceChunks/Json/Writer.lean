import SourceChunks.Json.Basic
import SourceChunks.Text.Quoted

/-!
# Writing JSON

The one written form of a value: items are separated by a comma and a space, a field's name
and its value by a colon and a space.  Inside a string only the quote, the backslash and the
characters below the space are escaped; everything else stands for itself, so a written
value holds no line feed and fits on one line.
-/

namespace SourceChunks.Json

open Text (hexDigits)

/-- A character as it stands inside a written string. -/
def escapedChar (char : Char) : List Char :=
  if char = '"' then ['\\', '"']
  else if char = '\\' then ['\\', '\\']
  else if char = '\n' then ['\\', 'n']
  else if char = '\r' then ['\\', 'r']
  else if char = '\t' then ['\\', 't']
  else if char = '\x08' then ['\\', 'b']
  else if char = '\x0C' then ['\\', 'f']
  else if char.toNat < 0x20 then '\\' :: 'u' :: hexDigits 4 char.toNat
  else [char]

/-- A string in quotes. -/
def stringChars (text : String) : List Char :=
  '"' :: text.toList.flatMap escapedChar ++ ['"']

/-- A whole number in decimal digits. -/
def numberChars : Int → List Char
  | .ofNat size => Nat.toDigits 10 size
  | .negSucc size => '-' :: Nat.toDigits 10 (size + 1)

/-- Texts with a comma and a space between each two. -/
def separated (parts : List (List Char)) : List Char :=
  [',', ' '].intercalate parts

mutual

/-- The written form of a value. -/
def chars : Json → List Char
  | null => ['n', 'u', 'l', 'l']
  | bool true => ['t', 'r', 'u', 'e']
  | bool false => ['f', 'a', 'l', 's', 'e']
  | number value => numberChars value
  | string value => stringChars value
  | array items => '[' :: separated (itemChars items) ++ [']']
  | object fields => '\x7b' :: separated (fieldChars fields) ++ ['\x7d']

/-- The written forms of the items of an array. -/
def itemChars : List Json → List (List Char)
  | [] => []
  | item :: items => chars item :: itemChars items

/-- The written forms of the fields of an object. -/
def fieldChars : List (String × Json) → List (List Char)
  | [] => []
  | (name, value) :: fields =>
    (stringChars name ++ ':' :: ' ' :: chars value) :: fieldChars fields

end

/-- The written form of a value, as a text. -/
def render (json : Json) : String :=
  String.ofList json.chars

theorem itemChars_eq_map (items : List Json) : itemChars items = items.map chars := by
  induction items with
  | nil => rfl
  | cons item items ih => rw [itemChars, ih, List.map_cons]

end SourceChunks.Json
