import SourceChunks.Proofs.Text.Characters
import SourceChunks.Proofs.Text.Thinning

/-!
# Runs of blank lines, block by block

The lines of a text are blank lines at the top, and then blocks: a line that holds something,
and the run of blank lines below it.  A run ends where the next block begins or where the text
does, so it is as long as it can be, and there is one way only to cut lines so
(`Blocks.ofLines_lines`).

Tidying a text is tidying each block: a run of a single line stays, a longer one goes
(`keptLines_eq`).  What comes out is in blocks again, and these have nothing to tidy; so tidying
twice is tidying once (`removeBlankRuns_blocks`).

The scan goes up line by line, and so does the cutting into blocks (`Blocks.up`): the run that
the scan is inside is the top of what is cut already.
-/

namespace SourceChunks.Text

/-- A line that holds something, and the blank lines below it. -/
@[ext]
structure Block where
  line : List Char
  run : List (List Char)
  holds : isBlankLine line = false
  blank : ∀ line ∈ run, isBlankLine line = true

namespace Block

/-- The lines of a block. -/
def lines (block : Block) : List (List Char) :=
  block.line :: block.run

/-- The block with its run if that is a single line, and without it if it is longer. -/
def tidied (block : Block) : Block where
  line := block.line
  run := if block.run.length = 1 then block.run else []
  holds := block.holds
  blank := by
    split
    · exact block.blank
    · exact fun _ hmem => absurd hmem List.not_mem_nil

theorem tidied_tidied (block : Block) : block.tidied.tidied = block.tidied := by
  ext1
  · rfl
  · by_cases h : block.run.length = 1 <;> simp [tidied, h]

/-- Of the lines of a block one holds something. -/
theorem filter_lines (block : Block) :
    block.lines.filter (fun line => !isBlankLine line) = [block.line] := by
  have hrun : block.run.filter (fun line => !isBlankLine line) = [] := by
    refine List.filter_eq_nil_iff.2 fun line hline => ?_
    rw [block.blank line hline]
    exact Bool.false_ne_true
  rw [lines, List.filter_cons, block.holds, hrun]
  rfl

end Block

/-- Lines in blocks, with the blank lines at the top. -/
@[ext]
structure Blocks where
  top : List (List Char)
  blocks : List Block
  blank : ∀ line ∈ top, isBlankLine line = true

namespace Blocks

/-- The lines from the top on. -/
def lines (whole : Blocks) : List (List Char) :=
  whole.top ++ whole.blocks.flatMap Block.lines

/-- Each block is tidied, and the top stays. -/
def tidied (whole : Blocks) : Blocks :=
  { whole with blocks := whole.blocks.map Block.tidied }

/-- No lines. -/
def empty : Blocks where
  top := []
  blocks := []
  blank := fun _ hmem => absurd hmem List.not_mem_nil

/-- One more line above: a blank one joins the top, any other takes the top for its run. -/
def up (line : List Char) (below : Blocks) : Blocks :=
  if h : isBlankLine line = true then
    { below with
      top := line :: below.top
      blank := List.forall_mem_cons.2 ⟨h, below.blank⟩ }
  else
    { empty with blocks := ⟨line, below.top, Bool.eq_false_iff.2 h, below.blank⟩ :: below.blocks }

/-- The lines, cut into blocks. -/
def ofLines (lines : List (List Char)) : Blocks :=
  lines.foldr up empty

theorem up_of_blank {line : List Char} (h : isBlankLine line = true) (below : Blocks) :
    (up line below).top = line :: below.top ∧ (up line below).blocks = below.blocks := by
  rw [up, dif_pos h]
  exact ⟨rfl, rfl⟩

theorem up_of_holds (block : Block) (below : Blocks) (h : below.top = block.run) :
    up block.line below = { empty with blocks := block :: below.blocks } := by
  rw [up, dif_neg (Bool.eq_false_iff.1 block.holds)]
  ext1
  · rfl
  · exact congrArg (· :: below.blocks) (Block.ext rfl h)

theorem lines_up (line : List Char) (below : Blocks) :
    (up line below).lines = line :: below.lines := by
  rw [up]
  split <;> rfl

/-- Nothing is lost in cutting. -/
theorem lines_ofLines (lines : List (List Char)) : (ofLines lines).lines = lines := by
  induction lines with
  | nil => rfl
  | cons line rest ih =>
    rw [ofLines, List.foldr_cons, lines_up, ← ofLines, ih]

/-- Blank lines above join the top. -/
theorem foldr_up_of_blank {run : List (List Char)} (h : ∀ line ∈ run, isBlankLine line = true)
    (below : Blocks) :
    (run.foldr up below).top = run ++ below.top ∧ (run.foldr up below).blocks = below.blocks := by
  induction run with
  | nil => exact ⟨rfl, rfl⟩
  | cons line rest ih =>
    obtain ⟨hline, hrest⟩ := List.forall_mem_cons.1 h
    obtain ⟨htop, hblocks⟩ := ih hrest
    obtain ⟨htop', hblocks'⟩ := up_of_blank hline (rest.foldr up below)
    rw [List.foldr_cons, htop', hblocks', htop, hblocks]
    exact ⟨rfl, rfl⟩

theorem ofLines_flatMap (blocks : List Block) :
    ofLines (blocks.flatMap Block.lines) = { empty with blocks } := by
  induction blocks with
  | nil => rfl
  | cons block later ih =>
    obtain ⟨htop, hblocks⟩ := foldr_up_of_blank block.blank { empty with blocks := later }
    rw [ofLines] at ih
    rw [List.flatMap_cons, Block.lines, ofLines, List.cons_append, List.foldr_cons,
      List.foldr_append, ih, up_of_holds block _ (htop.trans (List.append_nil _)), hblocks]

/-- **There is one way to cut** lines into blocks. -/
theorem ofLines_lines (whole : Blocks) : ofLines whole.lines = whole := by
  have hbelow := ofLines_flatMap whole.blocks
  rw [ofLines] at hbelow
  obtain ⟨htop, hblocks⟩ := foldr_up_of_blank whole.blank { empty with blocks := whole.blocks }
  rw [lines, ofLines, List.foldr_append, hbelow]
  exact Blocks.ext (htop.trans (List.append_nil _)) hblocks

theorem tidied_tidied (whole : Blocks) : whole.tidied.tidied = whole.tidied := by
  ext1
  · rfl
  · rw [tidied, tidied, List.map_map]
    exact List.map_congr_left fun block _ => block.tidied_tidied

/-- The lines that hold something are those of the blocks. -/
theorem filter_lines (whole : Blocks) :
    whole.lines.filter (fun line => !isBlankLine line) = whole.blocks.map Block.line := by
  have htop : whole.top.filter (fun line => !isBlankLine line) = [] := by
    refine List.filter_eq_nil_iff.2 fun line hline => ?_
    rw [whole.blank line hline]
    exact Bool.false_ne_true
  rw [lines, List.filter_append, htop, List.nil_append, List.filter_flatMap]
  simp only [Block.filter_lines]
  exact List.map_eq_flatMap.symm

end Blocks

/-! ## The scan, block by block -/

/-- One line of the scan does to its state what it does to the blocks. -/
theorem up_tidied (line : List Char) (below : Blocks) :
    BlankScan.up line ⟨below.top, below.tidied.blocks.flatMap Block.lines⟩ =
      ⟨(below.up line).top, (below.up line).tidied.blocks.flatMap Block.lines⟩ := by
  rw [BlankScan.up, Blocks.up]
  split
  · rfl
  · simp only [Blocks.tidied, List.map_cons, List.flatMap_cons, Block.lines, Block.tidied]
    -- what is longer than one line goes, and of what is empty nothing can
    cases below.top with
    | nil => rfl
    | cons first later =>
      cases later with
      | nil => rfl
      | cons next others => simp [Blocks.empty]

/-- **The lines that stay** are those of the tidied blocks. -/
theorem keptLines_eq (lines : List (List Char)) :
    keptLines lines = (Blocks.ofLines lines).tidied.lines := by
  have hscan : lines.foldr BlankScan.up {} = ⟨(Blocks.ofLines lines).top,
      (Blocks.ofLines lines).tidied.blocks.flatMap Block.lines⟩ := by
    induction lines with
    | nil => rfl
    | cons line rest ih =>
      rw [List.foldr_cons, ih, up_tidied]
      rfl
  rw [keptLines, hscan]
  rfl

theorem keptLines_keptLines (lines : List (List Char)) :
    keptLines (keptLines lines) = keptLines lines := by
  rw [keptLines_eq, keptLines_eq, Blocks.ofLines_lines, Blocks.tidied_tidied]

/-! ## From lines to texts -/

theorem notMem_of_mem_pieces {separator : Char} {chars piece : List Char}
    (h : piece ∈ pieces separator chars) : separator ∉ piece := by
  induction chars generalizing piece with
  | nil =>
    rw [pieces, List.mem_singleton] at h
    exact h ▸ List.not_mem_nil
  | cons char rest ih =>
    rw [pieces] at h
    split at h
    · rcases List.mem_cons.1 h with rfl | h
      · exact List.not_mem_nil
      · exact ih h
    · next hne =>
      split at h
      · next hnil => exact absurd hnil (pieces_ne_nil separator rest)
      · next first later heq =>
        rw [heq] at ih
        rcases List.mem_cons.1 h with rfl | h
        · rw [List.mem_cons, not_or]
          exact ⟨Ne.symm hne, ih List.mem_cons_self⟩
        · exact ih (List.mem_cons_of_mem _ h)

/-- Joined pieces are found again. -/
theorem pieces_intercalate {separator : Char} {list : List (List Char)} (hne : list ≠ [])
    (h : ∀ piece ∈ list, separator ∉ piece) :
    pieces separator ([separator].intercalate list) = list := by
  induction list with
  | nil => exact absurd rfl hne
  | cons piece rest ih =>
    obtain ⟨hpiece, hrest⟩ := List.forall_mem_cons.1 h
    cases rest with
    | nil => rw [List.intercalate_singleton, pieces_of_notMem hpiece]
    | cons next others =>
      rw [List.intercalate_cons_cons, List.append_assoc, List.singleton_append,
        pieces_append_cons _ hpiece, ih (List.cons_ne_nil _ _) hrest]

/-- The lines of a tidied text are those that stay, as they were. -/
theorem lineChars_removeBlankRuns (text : String) :
    lineChars (removeBlankRuns text).toList = keptLines (lineChars text.toList) := by
  rw [removeBlankRuns, String.toList_ofList]
  refine pieces_intercalate (keptLines_ne_nil (pieces_ne_nil _ _)) fun line hline => ?_
  exact notMem_of_mem_pieces ((keptLines_sublist _).subset hline)

theorem removeBlankRuns_removeBlankRuns (text : String) :
    removeBlankRuns (removeBlankRuns text) = removeBlankRuns text := by
  rw [removeBlankRuns, lineChars_removeBlankRuns, keptLines_keptLines, ← removeBlankRuns]

theorem removeBlankRuns_of_blank {text : String}
    (h : ∀ line ∈ lineChars text.toList, isBlankLine line = true) :
    removeBlankRuns text = text := by
  have htop : (Blocks.mk (lineChars text.toList) [] h).lines = lineChars text.toList :=
    List.append_nil _
  have hlines : keptLines (lineChars text.toList) = lineChars text.toList := by
    rw [keptLines_eq, ← htop, Blocks.ofLines_lines]
    rfl
  rw [removeBlankRuns, hlines, lineChars, intercalate_pieces, String.ofList_toList]

/-- **Tidying a text** is tidying its blocks.  There is one way to cut the lines of a text into
blocks, and the lines of the tidied text are those of the tidied blocks: the blank lines at the
top, the lines that hold something, and of each run below these what is a single line.  A text
of blank lines stays as it is, and tidying twice is tidying once. -/
theorem removeBlankRuns_blocks (text : String) :
    let lines := lineChars text.toList
    let blocks := Blocks.ofLines lines
    let result := lineChars (removeBlankRuns text).toList
    blocks.lines = lines ∧ (∀ other : Blocks, other.lines = lines → other = blocks) ∧
      result = blocks.tidied.lines ∧
      result.filter (fun line => !isBlankLine line) =
        lines.filter (fun line => !isBlankLine line) ∧
      ((∀ line ∈ lines, isBlankLine line = true) → removeBlankRuns text = text) ∧
      removeBlankRuns (removeBlankRuns text) = removeBlankRuns text := by
  intro lines blocks result
  have hlines : blocks.lines = lines := Blocks.lines_ofLines lines
  have hresult : result = blocks.tidied.lines :=
    (lineChars_removeBlankRuns text).trans (keptLines_eq lines)
  refine ⟨hlines, fun other hother => ?_, hresult, ?_, removeBlankRuns_of_blank,
    removeBlankRuns_removeBlankRuns text⟩
  · rw [← Blocks.ofLines_lines other, hother]
  · rw [hresult, ← hlines, Blocks.filter_lines, Blocks.filter_lines, Blocks.tidied, List.map_map]
    rfl

/-- A text of three blank lines stays as it is, and of the run in the other text nothing does. -/
theorem blankTexts_blocks :
    (∀ line ∈ lineChars "\n \t\n".toList, isBlankLine line = true) ∧
      removeBlankRuns "\n \t\n" = "\n \t\n" ∧
      lineChars (removeBlankRuns "\na\n \n\u3000\nb\n").toList = [[], ['a'], ['b'], []] := by
  have hblank : ∀ line ∈ lineChars "\n \t\n".toList, isBlankLine line = true := by decide
  obtain ⟨-, -, -, -, hstays, -⟩ := removeBlankRuns_blocks "\n \t\n"
  obtain ⟨-, -, hlines, -⟩ := removeBlankRuns_blocks "\na\n \n\u3000\nb\n"
  exact ⟨hblank, hstays hblank, hlines.trans (by decide +kernel)⟩

end SourceChunks.Text
