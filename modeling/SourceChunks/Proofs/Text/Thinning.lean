import SourceChunks.Text.Lines

/-!
# Texts without some of their blanks

Where runs of blank lines are taken out of a text, the characters that go are blank ones.  This
is a relation between texts (`Thinned`), and stripping keeps it: what is blank in front or behind
goes on either side, and everything between is thinned as it was.  So a tidied text, stripped, is
not longer than the text stripped (`length_strip_removeBlankRuns_le`), though blank characters at
the ends of the text may have moved there.

A line that goes takes one of its line feeds along.  With a line feed before every line, each
line has its own (`cons_intercalate_eq_fed`), and the scan can be followed line by line.
-/

namespace SourceChunks.Text

/-- The first text is the second without some of its blank characters. -/
inductive Thinned : List Char → List Char → Prop
  | nil : Thinned [] []
  | keep (char : Char) {thin full : List Char} (h : Thinned thin full) :
      Thinned (char :: thin) (char :: full)
  | drop {char : Char} (blank : isBlank char = true) {thin full : List Char}
      (h : Thinned thin full) : Thinned thin (char :: full)

namespace Thinned

variable {thin full : List Char}

theorem refl (chars : List Char) : Thinned chars chars := by
  induction chars with
  | nil => exact .nil
  | cons char rest ih => exact .keep char ih

theorem append {later whole : List Char} (h : Thinned thin full) (h' : Thinned later whole) :
    Thinned (thin ++ later) (full ++ whole) := by
  induction h with
  | nil => exact h'
  | keep char _ ih => exact .keep char ih
  | drop blank _ ih => exact .drop blank ih

theorem of_blank {chars : List Char} (h : ∀ char ∈ chars, isBlank char = true) :
    Thinned [] chars := by
  induction chars with
  | nil => exact .nil
  | cons char rest ih =>
    obtain ⟨hchar, hrest⟩ := List.forall_mem_cons.1 h
    exact .drop hchar (ih hrest)

theorem reverse (h : Thinned thin full) : Thinned thin.reverse full.reverse := by
  induction h with
  | nil => exact .nil
  | keep char _ ih =>
    rw [List.reverse_cons, List.reverse_cons]
    exact ih.append (refl [char])
  | drop blank h ih =>
    rw [List.reverse_cons, ← List.append_nil (List.reverse _)]
    exact ih.append (.drop blank .nil)

/-- Without the blanks in front of both, it is as before. -/
theorem dropWhile (h : Thinned thin full) :
    Thinned (thin.dropWhile isBlank) (full.dropWhile isBlank) := by
  induction h with
  | nil => exact .nil
  | keep char h ih =>
    by_cases hblank : isBlank char = true
    · rw [List.dropWhile_cons_of_pos hblank, List.dropWhile_cons_of_pos hblank]
      exact ih
    · rw [List.dropWhile_cons_of_neg hblank, List.dropWhile_cons_of_neg hblank]
      exact .keep char h
  | drop blank _ ih =>
    rw [List.dropWhile_cons_of_pos blank]
    exact ih

theorem stripChars (h : Thinned thin full) :
    Thinned (Text.stripChars thin) (Text.stripChars full) :=
  h.dropWhile.reverse.dropWhile.reverse

theorem length_le (h : Thinned thin full) : thin.length ≤ full.length := by
  induction h with
  | nil => exact Nat.le_refl 0
  | keep char _ ih => exact Nat.succ_le_succ ih
  | drop _ _ ih => exact Nat.le_succ_of_le ih

end Thinned

/-! ## Line by line -/

/-- The lines with a line feed before each. -/
def fed (lines : List (List Char)) : List Char :=
  lines.flatMap ('\n' :: ·)

theorem fed_append (lines later : List (List Char)) :
    fed (lines ++ later) = fed lines ++ fed later :=
  List.flatMap_append

/-- A line feed before joined lines is the first of one before each. -/
theorem cons_intercalate_eq_fed {lines : List (List Char)} (h : lines ≠ []) :
    '\n' :: ['\n'].intercalate lines = fed lines := by
  induction lines with
  | nil => exact absurd rfl h
  | cons line rest ih =>
    cases rest with
    | nil => simp [fed, List.intercalate]
    | cons next others =>
      rw [List.intercalate_cons_cons, List.append_assoc, List.singleton_append,
        ih (List.cons_ne_nil next others)]
      rfl

/-- Blank lines are blank, and so are their line feeds. -/
theorem isBlank_of_mem_fed {lines : List (List Char)}
    (h : ∀ line ∈ lines, isBlankLine line = true) :
    ∀ char ∈ fed lines, isBlank char = true := by
  intro char hchar
  obtain ⟨line, hline, hmem⟩ := List.mem_flatMap.1 hchar
  rcases List.mem_cons.1 hmem with rfl | hmem
  · rfl
  · exact List.all_eq_true.1 (h line hline) char hmem

/-- The scan has met blank lines, and thins what is below them. -/
structure BlankScan.Thins (lines : List (List Char)) (scan : BlankScan) : Prop where
  blank : ∀ line ∈ scan.run, isBlankLine line = true
  below : ∃ below, lines = scan.run ++ below ∧ Thinned (fed scan.kept) (fed below)

theorem BlankScan.Thins.up {lines : List (List Char)} {scan : BlankScan} (h : scan.Thins lines)
    (line : List Char) : (scan.up line).Thins (line :: lines) := by
  obtain ⟨hblank, below, rfl, hthin⟩ := h
  rw [BlankScan.up]
  split
  · next hline =>
    exact ⟨List.forall_mem_cons.2 ⟨hline, hblank⟩, below, rfl, hthin⟩
  · have hrest : Thinned
        (fed (if scan.run.length > 1 then scan.kept else scan.run ++ scan.kept))
        (fed (scan.run ++ below)) := by
      split
      · rw [fed_append]
        exact (Thinned.of_blank (isBlank_of_mem_fed hblank)).append hthin
      · rw [fed_append, fed_append]
        exact (Thinned.refl _).append hthin
    exact ⟨fun _ hmem => absurd hmem List.not_mem_nil, _, rfl,
      (Thinned.refl ('\n' :: line)).append hrest⟩

/-- **The lines that stay** are the lines without some blanks. -/
theorem thinned_keptLines (lines : List (List Char)) :
    Thinned (fed (keptLines lines)) (fed lines) := by
  have hscan : (lines.foldr BlankScan.up {}).Thins lines := by
    induction lines with
    | nil => exact ⟨fun _ hmem => absurd hmem List.not_mem_nil, [], rfl, .nil⟩
    | cons line rest ih => exact ih.up line
  obtain ⟨-, below, hlines, hthin⟩ := hscan
  have hall : Thinned (fed ((lines.foldr BlankScan.up {}).run ++
      (lines.foldr BlankScan.up {}).kept)) (fed ((lines.foldr BlankScan.up {}).run ++ below)) := by
    rw [fed_append, fed_append]
    exact (Thinned.refl _).append hthin
  rwa [← hlines] at hall

theorem keptLines_ne_nil {lines : List (List Char)} (h : lines ≠ []) : keptLines lines ≠ [] := by
  cases lines with
  | nil => exact absurd rfl h
  | cons line rest =>
    rw [keptLines, List.foldr_cons, BlankScan.up]
    split <;> simp

/-- **A tidied text** is the text without some blanks, with a line feed in front of both. -/
theorem thinned_removeBlankRuns (text : String) :
    Thinned ('\n' :: (removeBlankRuns text).toList) ('\n' :: text.toList) := by
  have hlines : lineChars text.toList ≠ [] := pieces_ne_nil '\n' text.toList
  have hthin := thinned_keptLines (lineChars text.toList)
  rw [← cons_intercalate_eq_fed hlines, ← cons_intercalate_eq_fed (keptLines_ne_nil hlines),
    lineChars, intercalate_pieces] at hthin
  rw [removeBlankRuns, String.toList_ofList]
  exact hthin

theorem length_removeBlankRuns_le (text : String) :
    (removeBlankRuns text).length ≤ text.length :=
  Nat.le_of_succ_le_succ (thinned_removeBlankRuns text).length_le

/-- **A tidied text, stripped,** is not longer than the text stripped. -/
theorem length_strip_removeBlankRuns_le (text : String) :
    (strip (removeBlankRuns text)).length ≤ (strip text).length := by
  have hthin := (thinned_removeBlankRuns text).stripChars
  -- a line feed in front of a text is stripped with it
  have hfeed : ∀ chars : List Char, stripChars ('\n' :: chars) = stripChars chars := by
    intro chars
    have hblank : isBlank '\n' = true := rfl
    rw [stripChars, List.dropWhile_cons_of_pos hblank, ← stripChars]
  rw [hfeed, hfeed] at hthin
  rw [strip, strip, String.length_ofList, String.length_ofList]
  exact hthin.length_le

end SourceChunks.Text
