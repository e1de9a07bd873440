import SourceChunks.Proofs.CommandLine.Obstacles

/-!
# What a total counts

The lines of a file are added to the total when the file is done, so those of a file that fails
are not counted, though they were written (`FileJob.processFiles_total`).  The total is the
number of lines exactly if no file failed after it had delivered a chunk.

* `FileReport.length_lines`: the lines are those that are counted and those of files that failed.
* `FileJob.total_eq_length_lines`: with a calculator that can be asked for by name and an output
  that takes every text nothing is left uncounted, for then a file fails before its first chunk.
* `twoFunctions_uncounted`: a calculator that gives up after a chunk leaves that chunk uncounted.
-/

namespace SourceChunks

namespace FileReport

/-- The chunks of files are those that are counted and those of the files that failed. -/
theorem length_lines (reports : List FileReport) : (lines reports).length =
    counted reports + ((reports.filter failed).flatMap chunks).length := by
  induction reports with
  | nil => rfl
  | cons report reports ih =>
    have hlines : (lines (report :: reports)).length =
        report.chunks.length + (lines reports).length := by
      simp [lines, records]
    rw [hlines, ih]
    cases hfailed : report.failed with
    | true => simp [counted, hfailed]; omega
    | false => simp [counted, hfailed]; omega

/-- Nothing is left out of the total exactly if no file failed after a chunk. -/
theorem counted_eq_length_lines_iff (reports : List FileReport) :
    counted reports = (lines reports).length ↔
      ∀ report ∈ reports, report.failed = true → report.chunks = [] := by
  rw [length_lines]
  have hnone : ((reports.filter failed).flatMap chunks).length = 0 ↔
      ∀ report ∈ reports, report.failed = true → report.chunks = [] := by
    rw [List.length_eq_zero_iff, List.flatMap_eq_nil_iff, List.forall_mem_filter]
  rw [← hnone]
  omega

end FileReport

/-- **What the total counts.**  Whatever the calculator and the output do, the lines that are
written are those that are counted and those of files that failed; the total is their number
exactly if no file failed after a chunk; and the paths listed are those of the files that failed
in their turn. -/
theorem FileJob.processFiles_total {κ σ : Type} [TokenCalculator κ] [TextSink σ] (job : FileJob)
    (calculator : κ) (sink : σ) (paths : List String) :
    let done := job.processFiles calculator sink paths
    let turns := job.turns calculator sink paths
    (FileReport.lines done.reports).length = done.total +
        ((done.reports.filter FileReport.failed).flatMap FileReport.chunks).length ∧
      (done.total = (FileReport.lines done.reports).length ↔
        ∀ file ∈ done.reports, file.failed = true → file.chunks = []) ∧
      turns.map Turn.path = paths ∧ done.reports = turns.map job.report ∧
      done.failed = (turns.filter fun turn => (job.report turn).failed).map Turn.path := by
  intro done turns
  obtain ⟨htotal, hfailed⟩ := job.sums_processFiles calculator sink paths
  have hreports : done.reports = turns.map job.report :=
    job.reports_eq_turns calculator sink paths
  refine ⟨?_, ?_, job.map_path_turns calculator sink paths, hreports, ?_⟩
  · exact (FileReport.length_lines done.reports).trans (congrArg (· + _) htotal.symm)
  · rw [show done.total = _ from htotal]
    exact FileReport.counted_eq_length_lines_iff done.reports
  · rw [show done.failed = _ from hfailed, FileReport.failedPaths]
    rw [show (job.processFiles calculator sink paths).reports = _ from hreports, List.filter_map,
      List.map_map]
    exact List.map_congr_left fun turn _ => job.path_report turn

/-- **Nothing is left uncounted** by the calculators that can be asked for by name, if the output
takes every text. -/
theorem FileJob.total_eq_length_lines [EncodingSource] {σ : Type} [TextSink σ] (job : FileJob)
    (calculator : Calculator) {sink : σ} (htakes : TextSink.TakesAll sink) (paths : List String) :
    let done := job.processFiles calculator sink paths
    done.total = (FileReport.lines done.reports).length := by
  intro done
  rw [(job.processFiles_total calculator sink paths).2.1, reports_eq_turns]
  refine List.forall_mem_map.2 fun turn hturn => ?_
  obtain ⟨-, hnothing⟩ | ⟨chunk, failure, hline⟩ := job.report_cases turn
  · exact hnothing
  · exact absurd hline (not_lineRefused htakes hturn)

/-- A file with two functions. -/
def twoFunctions : Workspace where
  files := [{
    path := "two.py"
    contents := "def f(): pass\ndef g(): pass".toUTF8.toList
    tree := some {
      label := ⟨"module", ⟨0, 27, ⟨0, 0⟩, ⟨1, 13⟩⟩⟩
      children := .ofTrees [
        ⟨⟨"function_definition", ⟨0, 13, ⟨0, 0⟩, ⟨0, 13⟩⟩⟩, .nil⟩,
        ⟨⟨"function_definition", ⟨14, 27, ⟨1, 0⟩, ⟨1, 13⟩⟩⟩, .nil⟩] } }]

/-- Where the calculator gives up after a chunk, its line is written but not counted. -/
theorem twoFunctions_uncounted :
    let job : FileJob :=
      ⟨twoFunctions.read, twoFunctions.languages Config.standard, 20, false, none⟩
    let done := job.processFiles (RationedCosts.mk (fun text => text.length) 2
      (.calculatorFailed "calculator failed")) CharacterSet.unicode ["two.py"]
    (FileReport.lines done.reports).length = 1 ∧ done.total = 0 ∧ done.failed = ["two.py"] := by
  decide +kernel

end SourceChunks
