import Mathlib.Data.List.Basic
import SourceChunks.Chunk
import SourceChunks.Text.Lines

/-!
# Comments between chunks

What a walk delivers are comments, and between them chunks that nodes have for their own.  How
the comments are packed does not matter for what they say: `digest` joins those between two
chunks, and joining comments first in groups and then the groups comes to the same.

That is because the join of some comments is determined by the characters they contribute,
when each contributes its text and a line feed.  Written so, sign by sign (`spelled`), pieces
can be put one after the other, and a group of comments is spelled like its members
(`signs_comment_joinLines`).  So pieces may be compared part by part, and pieces that are
spelled alike have the same digest (`digest_congr`).
-/

namespace SourceChunks

/-- The text of a comment, or a chunk that a node has for its own. -/
inductive Piece where
  | comment (text : String)
  | own (chunk : Chunk)
  deriving DecidableEq

namespace Piece

/-- The comments before the first chunk of a node's own, and each such chunk with the comments
between it and the next. -/
def parted : List Piece → List String × List (Chunk × List String)
  | [] => ([], [])
  | comment text :: rest => (text :: (parted rest).1, (parted rest).2)
  | own chunk :: rest => ([], (chunk, (parted rest).1) :: (parted rest).2)

/-- The comments before the first chunk of a node's own as one text, and each such chunk with
the comments between it and the next as one text. -/
def digest (pieces : List Piece) : String × List (Chunk × String) :=
  (Text.joinLines (parted pieces).1,
    (parted pieces).2.map fun part => (part.1, Text.joinLines part.2))

/-! ## Sign by sign -/

/-- The characters of the texts, each text with a line feed after it. -/
def closed (texts : List String) : List Char :=
  texts.flatMap fun text => text.toList ++ ['\n']

/-- What a piece contributes: a comment its characters and a line feed, a chunk itself. -/
def signs : Piece → List (Char ⊕ Chunk)
  | comment text => (text.toList ++ ['\n']).map Sum.inl
  | own chunk => [Sum.inr chunk]

/-- What pieces contribute, one after the other. -/
def spelled (pieces : List Piece) : List (Char ⊕ Chunk) :=
  pieces.flatMap signs

@[simp] theorem spelled_append (pieces later : List Piece) :
    spelled (pieces ++ later) = spelled pieces ++ spelled later :=
  List.flatMap_append

/-- The characters before the first chunk, and each chunk with those between it and the next. -/
def readBack : List (Char ⊕ Chunk) → List Char × List (Chunk × List Char)
  | [] => ([], [])
  | .inl char :: rest => (char :: (readBack rest).1, (readBack rest).2)
  | .inr chunk :: rest => ([], (chunk, (readBack rest).1) :: (readBack rest).2)

theorem readBack_inl_append (chars : List Char) (rest : List (Char ⊕ Chunk)) :
    readBack (chars.map Sum.inl ++ rest) = (chars ++ (readBack rest).1, (readBack rest).2) := by
  induction chars with
  | nil => rfl
  | cons char later ih => rw [List.map_cons, List.cons_append, readBack, ih, List.cons_append]

/-- From the signs of pieces, the characters of the comments between chunks are read back. -/
theorem readBack_spelled (pieces : List Piece) :
    readBack (spelled pieces) =
      (closed (parted pieces).1, (parted pieces).2.map fun part => (part.1, closed part.2)) := by
  induction pieces with
  | nil => rfl
  | cons piece rest ih =>
    rw [spelled, List.flatMap_cons, ← spelled]
    cases piece with
    | comment text =>
      rw [signs, readBack_inl_append, ih, parted, closed, closed, List.flatMap_cons]
    | own chunk =>
      rw [signs, List.singleton_append, readBack, ih, parted, List.map_cons]
      rfl

theorem joinLines_cons_cons (first second : String) (others : List String) :
    Text.joinLines (first :: second :: others) =
      first ++ "\n" ++ Text.joinLines (second :: others) := by
  rw [← String.toList_inj, Text.joinLines, String.toList_intercalate, String.toList_append,
    String.toList_append, Text.joinLines, String.toList_intercalate]
  exact List.intercalate_cons_cons

/-- The texts joined are the texts closed, but for the last line feed. -/
theorem toList_joinLines_append {texts : List String} (h : texts ≠ []) :
    (Text.joinLines texts).toList ++ ['\n'] = closed texts := by
  induction texts with
  | nil => exact absurd rfl h
  | cons text rest ih =>
    cases rest with
    | nil => simp [Text.joinLines, closed, String.intercalate_singleton]
    | cons next others =>
      rw [joinLines_cons_cons, String.toList_append, String.toList_append, List.append_assoc,
        ih (List.cons_ne_nil next others), closed, closed, List.flatMap_cons]
      rfl

theorem joinLines_eq (texts : List String) :
    Text.joinLines texts = String.ofList (closed texts).dropLast := by
  cases texts with
  | nil => rfl
  | cons text rest =>
    rw [← toList_joinLines_append (List.cons_ne_nil text rest), List.dropLast_concat,
      String.ofList_toList]

/-- **A group of comments** is spelled like its members. -/
theorem signs_comment_joinLines {texts : List String} (h : texts ≠ []) :
    signs (comment (Text.joinLines texts)) = spelled (texts.map comment) := by
  rw [signs, toList_joinLines_append h, closed, spelled, List.flatMap_map, List.map_flatMap]
  rfl

/-- **What is spelled alike** has the same digest. -/
theorem digest_congr {pieces others : List Piece} (h : spelled pieces = spelled others) :
    digest pieces = digest others := by
  have hread := congrArg readBack h
  rw [readBack_spelled, readBack_spelled, Prod.mk.injEq] at hread
  obtain ⟨hfirst, hlater⟩ := hread
  have hjoined := congrArg
    (List.map fun part : Chunk × List Char => (part.1, String.ofList part.2.dropLast)) hlater
  rw [List.map_map, List.map_map] at hjoined
  rw [digest, digest, joinLines_eq, joinLines_eq, hfirst]
  refine congrArg (Prod.mk _) ?_
  simp only [joinLines_eq]
  exact hjoined

end Piece

end SourceChunks
