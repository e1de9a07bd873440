/-!
# Byte strings

A source file is a list of bytes, and every offset into it counts bytes.  This module
holds the three cuts the library makes: a slice between two offsets, the replacement of a
range, and the search for the last place where one byte string stands inside another.

All offsets are clamped to the length, so a cut never fails.  Only `splice` also takes
negative offsets, which count from the end.
-/

namespace SourceChunks

/-- A byte string. -/
abbrev Bytes := List UInt8

namespace Bytes

/-- The bytes from `start` up to, but not including, `stop`. -/
def slice (bytes : Bytes) (start stop : Nat) : Bytes :=
  (bytes.take stop).drop start

/-- The byte string with the range from `start` to `stop` replaced.  When `stop` lies
before `start`, the bytes between them stand on both sides of the replacement. -/
def replaceRange (bytes : Bytes) (start stop : Nat) (replacement : Bytes) : Bytes :=
  bytes.take start ++ replacement ++ bytes.drop stop

/-- The place a signed offset names: a negative one counts from the end and stops at the
first byte. -/
def offset (bytes : Bytes) (place : Int) : Nat :=
  if place < 0 then (bytes.length + place).toNat else place.toNat

/-- `replaceRange` with signed offsets. -/
def splice (bytes : Bytes) (start stop : Int) (replacement : Bytes) : Bytes :=
  bytes.replaceRange (bytes.offset start) (bytes.offset stop) replacement

/-- The greatest offset at which `needle` stands in the byte string. -/
def lastIndexOf? (needle : Bytes) : Bytes → Option Nat
  | [] => if needle.isEmpty then some 0 else none
  | byte :: rest =>
    match lastIndexOf? needle rest with
    | some place => some (place + 1)
    | none => if needle.isPrefixOf (byte :: rest) then some 0 else none

@[simp] theorem slice_nil (start stop : Nat) : slice [] start stop = [] := by
  simp [slice]

theorem length_slice (bytes : Bytes) (start stop : Nat) :
    (bytes.slice start stop).length = min stop bytes.length - start := by
  simp [slice]

theorem offset_natCast (bytes : Bytes) (place : Nat) : bytes.offset place = place := by
  simp only [offset]
  split <;> omega

/-- Signed offsets that are not negative name the same range. -/
theorem splice_natCast (bytes : Bytes) (start stop : Nat) (replacement : Bytes) :
    bytes.splice start stop replacement = bytes.replaceRange start stop replacement := by
  rw [splice, offset_natCast, offset_natCast]

end Bytes

end SourceChunks
