import SourceChunks.Bytes

/-!
# Text as bytes and back

`encode` writes a text in UTF-8.  `decode` reads any byte string: where the bytes are not
well formed it writes one replacement character for each maximal piece that could still
have begun a well-formed sequence, so `E2 82` is one replacement character, and `ED A0 80`,
whose first byte admits no continuation above `9F`, is three.

The reader is one pass over the bytes.  A lead byte fixes the ranges its continuation
bytes must lie in (`trails?`); the longest run of bytes inside those ranges is consumed,
and the character is good exactly when the run is complete.
-/

namespace SourceChunks.Utf8

/-- The UTF-8 form of a text. -/
def encode (text : String) : Bytes :=
  text.toList.flatMap String.utf8EncodeChar

/-- The character that stands for bytes which are no text. -/
def replacement : Char := Char.ofNat 0xFFFD

/-- The range of an ordinary continuation byte. -/
def continuation : UInt8 × UInt8 := (0x80, 0xBF)

/-- The ranges in which the bytes after a lead byte must lie; `none` for a byte that
begins no character. -/
def trails? (lead : UInt8) : Option (List (UInt8 × UInt8)) :=
  if lead < 0x80 then some []
  else if lead < 0xC2 then none
  else if lead < 0xE0 then some [continuation]
  else if lead == 0xE0 then some [(0xA0, 0xBF), continuation]
  else if lead == 0xED then some [(0x80, 0x9F), continuation]
  else if lead < 0xF0 then some [continuation, continuation]
  else if lead == 0xF0 then some [(0x90, 0xBF), continuation, continuation]
  else if lead < 0xF4 then some [continuation, continuation, continuation]
  else if lead == 0xF4 then some [(0x80, 0x8F), continuation, continuation]
  else none

/-- How many bytes at the front lie in the given ranges, one after the other. -/
def matching : List (UInt8 × UInt8) → Bytes → Nat
  | (low, high) :: ranges, byte :: rest =>
    if low ≤ byte ∧ byte ≤ high then matching ranges rest + 1 else 0
  | _, _ => 0

/-- The payload bits of a lead byte that is followed by `count` continuation bytes. -/
def leadBits (lead : UInt8) : Nat → Nat
  | 0 => lead.toNat
  | 1 => lead.toNat % 0x20
  | 2 => lead.toNat % 0x10
  | _ => lead.toNat % 0x08

/-- The scalar value that a lead byte and its continuation bytes spell. -/
def scalar (lead : UInt8) (trail : Bytes) : Nat :=
  trail.foldl (fun value byte => value * 0x40 + byte.toNat % 0x40)
    (leadBits lead trail.length)

/-- The character that begins with `lead`, and how many of the bytes after it belong to it. -/
def decodeHead (lead : UInt8) (rest : Bytes) : Char × Nat :=
  match trails? lead with
  | none => (replacement, 0)
  | some ranges =>
    let count := matching ranges rest
    if count = ranges.length then (Char.ofNat (scalar lead (rest.take count)), count)
    else (replacement, count)

/-- Reads bytes, of which the first `skip` belong to a character already read. -/
def decodeFrom : Nat → Bytes → List Char
  | _, [] => []
  | skip + 1, _ :: rest => decodeFrom skip rest
  | 0, lead :: rest =>
    let (char, count) := decodeHead lead rest
    char :: decodeFrom count rest

/-- The text a byte string spells, with replacement characters for what is no text. -/
def decode (bytes : Bytes) : String :=
  String.ofList (decodeFrom 0 bytes)

@[simp] theorem encode_append (left right : String) :
    encode (left ++ right) = encode left ++ encode right := by
  simp [encode]

theorem decodeFrom_eq_drop (skip : Nat) (bytes : Bytes) :
    decodeFrom skip bytes = decodeFrom 0 (bytes.drop skip) := by
  induction bytes generalizing skip with
  | nil => cases skip <;> rfl
  | cons byte rest ih =>
    cases skip with
    | zero => rfl
    | succ skip => simpa [decodeFrom] using ih skip

end SourceChunks.Utf8
