import SourceChunks.Bytes

/-!
# Blank characters

A character is blank when it only separates: the tabulators and line ends, the four
information separators, the no-break and next-line controls, and the spaces of Unicode.
The zero-width space, the word joiner and the byte order mark are not blank.

Whether a whole file is blank is asked of its bytes, where only the six ASCII separators
count.
-/

namespace SourceChunks.Text

/-- Does the character only separate? -/
def isBlank (char : Char) : Bool :=
  let code := char.toNat
  (0x09 ≤ code && code ≤ 0x0D) || (0x1C ≤ code && code ≤ 0x20) || code == 0x85
    || code == 0xA0 || code == 0x1680 || (0x2000 ≤ code && code ≤ 0x200A)
    || code == 0x2028 || code == 0x2029 || code == 0x202F || code == 0x205F
    || code == 0x3000

/-- Does the byte only separate?  These are the ASCII tabulators, line ends and the space. -/
def isBlankByte (byte : UInt8) : Bool :=
  (0x09 ≤ byte && byte ≤ 0x0D) || byte == 0x20

/-- The characters without the blank ones at either end. -/
def stripChars (chars : List Char) : List Char :=
  ((chars.dropWhile isBlank).reverse.dropWhile isBlank).reverse

/-- The text without the blank characters at either end. -/
def strip (text : String) : String :=
  String.ofList (stripChars text.toList)

end SourceChunks.Text
