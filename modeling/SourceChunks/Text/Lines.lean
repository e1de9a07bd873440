import SourceChunks.Text.Blank

/-!
# Lines, and runs of blank lines

Lines are cut at the line feed only.  `removeBlankRuns` tidies a text from which parts
were taken: below a line that holds something, a run of two or more blank lines is removed
altogether, and a single blank line stays.  Blank lines above the first line that holds
something are left alone, for nothing was taken there.

The scan goes from the last line up.  It carries the run of blank lines it is inside,
which is settled when the line above the run is reached, and the lines below, which are
settled already.
-/

namespace SourceChunks.Text

/-- What stands between the separators of a text. -/
def pieces (separator : Char) : List Char → List (List Char)
  | [] => [[]]
  | char :: rest =>
    if char = separator then [] :: pieces separator rest
    else
      match pieces separator rest with
      | [] => [[char]]
      | piece :: later => (char :: piece) :: later

/-- The lines of a text: what stands between its line feeds. -/
def lineChars (chars : List Char) : List (List Char) :=
  pieces '\n' chars

/-- The texts with a line feed between each two. -/
def joinLines (lines : List String) : String :=
  "\n".intercalate lines

/-- Does the line hold blank characters only? -/
def isBlankLine (line : List Char) : Bool :=
  line.all isBlank

/-- The state of the upward scan: the blank run it is inside, and the settled lines below. -/
structure BlankScan where
  /-- Blank lines met since the last line that holds something. -/
  run : List (List Char) := []
  /-- The lines below that run, as they will be kept. -/
  kept : List (List Char) := []

/-- The scan moves up to `line`. -/
def BlankScan.up (line : List Char) (scan : BlankScan) : BlankScan :=
  if isBlankLine line then { scan with run := line :: scan.run }
  else
    { run := []
      kept := line :: if scan.run.length > 1 then scan.kept else scan.run ++ scan.kept }

/-- The lines that stay when long runs of blank lines are removed. -/
def keptLines (lines : List (List Char)) : List (List Char) :=
  let scan := lines.foldr BlankScan.up {}
  scan.run ++ scan.kept

/-- The text without its runs of two or more blank lines, those at the top excepted. -/
def removeBlankRuns (text : String) : String :=
  String.ofList (['\n'].intercalate (keptLines (lineChars text.toList)))

theorem pieces_ne_nil (separator : Char) (chars : List Char) : pieces separator chars ≠ [] := by
  cases chars with
  | nil => simp [pieces]
  | cons char rest =>
    rw [pieces]
    split
    · simp
    · split <;> simp

/-- The lines, joined again, are the text. -/
theorem intercalate_pieces (separator : Char) (chars : List Char) :
    [separator].intercalate (pieces separator chars) = chars := by
  induction chars with
  | nil => rfl
  | cons char rest ih =>
    rw [pieces]
    have hne := pieces_ne_nil separator rest
    cases hp : pieces separator rest with
    | nil => exact absurd hp hne
    | cons piece later =>
      rw [hp] at ih
      split
      · next h => simp [← ih, h, List.intercalate]
      · cases later <;> simp_all [List.intercalate]

/-- A piece ends where the separator stands for the first time. -/
theorem pieces_append_cons {separator : Char} {piece : List Char} (rest : List Char)
    (h : separator ∉ piece) :
    pieces separator (piece ++ separator :: rest) = piece :: pieces separator rest := by
  induction piece with
  | nil => rw [List.nil_append, pieces, if_pos rfl]
  | cons char piece ih =>
    rw [List.mem_cons, not_or] at h
    rw [List.cons_append, pieces, if_neg (Ne.symm h.1), ih h.2]

theorem pieces_of_notMem {separator : Char} {piece : List Char} (h : separator ∉ piece) :
    pieces separator piece = [piece] := by
  induction piece with
  | nil => rfl
  | cons char piece ih =>
    rw [List.mem_cons, not_or] at h
    rw [pieces, if_neg (Ne.symm h.1), ih h.2]

end SourceChunks.Text
