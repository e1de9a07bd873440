import SourceChunks.Text.Unprintable

/-!
# Quoted text

The form in which a message shows a text so that nothing in it is lost: between single
quotes, or between double quotes when the text holds a single quote and no double one.
The backslash and the enclosing quote are written after a backslash, the line feed, the
carriage return and the tabulator by their letters, and any other character that has no
form of its own on a page by its number in two, four or eight hexadecimal digits.
-/

namespace SourceChunks.Text

/-- The lower-case hexadecimal digit of a value below sixteen. -/
def hexDigit (value : Nat) : Char :=
  if value < 10 then Char.ofNat (value + '0'.toNat) else Char.ofNat (value - 10 + 'a'.toNat)

/-- The last `width` hexadecimal digits of a number. -/
def hexDigits : Nat → Nat → List Char
  | 0, _ => []
  | width + 1, value => hexDigits width (value / 16) ++ [hexDigit (value % 16)]

/-- A character by its number: two digits if they suffice, else four, else eight. -/
def numberedChar (char : Char) : List Char :=
  let code := char.toNat
  if code < 0x100 then '\\' :: 'x' :: hexDigits 2 code
  else if code < 0x10000 then '\\' :: 'u' :: hexDigits 4 code
  else '\\' :: 'U' :: hexDigits 8 code

/-- A character as it stands between two quotes of the given kind. -/
def quotedChar (delimiter char : Char) : List Char :=
  if char = '\\' ∨ char = delimiter then ['\\', char]
  else if char = '\n' then ['\\', 'n']
  else if char = '\r' then ['\\', 'r']
  else if char = '\t' then ['\\', 't']
  else if isPrintable char then [char]
  else numberedChar char

/-- The quotes a text is put between. -/
def delimiterFor (chars : List Char) : Char :=
  if chars.contains '\'' && !chars.contains '"' then '"' else '\''

/-- The text between quotes. -/
def quoted (text : String) : String :=
  let delimiter := delimiterFor text.toList
  String.ofList (delimiter :: text.toList.flatMap (quotedChar delimiter) ++ [delimiter])

/-- A list of texts, each between quotes, in square brackets. -/
def quotedList (texts : List String) : String :=
  "[" ++ ", ".intercalate (texts.map quoted) ++ "]"

end SourceChunks.Text
