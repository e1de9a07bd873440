import Mathlib.Data.List.TakeWhile
import SourceChunks.CommandLine.Run
import SourceChunks.Grammar.Standard
import SourceChunks.Proofs.Calculator.Steady
import SourceChunks.Workspace

/-!
# Files that share a calculator

The files of a run are processed with one calculator, and their lines go to one output.  Where
the calculator is steady, what comes of a file depends on the file and on the output alone: not
on the files before it, on whether they failed, and on where in a file the run had enough.  So a
run over two lists of files is the one run and then the other.

* `FileJob.foldl_processNext`: the loop over files goes on from where it is as it would begin,
  and adds to what it has.
* `FileJob.processFiles_later`: it takes the same course whatever was asked of its calculator.
* `FileJob.processFiles_of_unmoved`: where the output does not change either, what comes of a list
  of files is what comes of each of them alone.
* `Recorder.processFiles_recorded`: what is written are the lines of the chunks in the reports.
* `runFiles_append` says all this of the calculators that can be asked for by name.
-/

namespace SourceChunks

open TokenCalculator

/-! ## Outputs -/

namespace TextSink

variable {σ : Type} [TextSink σ]

/-- The second output is the first after texts, taken or not. -/
inductive Later (start : σ) : σ → Prop
  | start : Later start start
  | wrote {sink : σ} (h : Later start sink) (text : String) : Later start (write sink text).2

theorem Later.trans {first second third : σ} (h : Later first second) (h' : Later second third) :
    Later first third := by
  induction h' with
  | start => exact h
  | wrote _ text ih => exact ih.wrote text

/-- From here on the output takes every text. -/
def TakesAll (start : σ) : Prop :=
  ∀ sink, Later start sink → ∀ text, (write sink text).1 = .ok ()

variable (σ) in
/-- What is written to such an output leaves it as it is. -/
def Unmoved : Prop :=
  ∀ (sink : σ) (text : String), (write sink text).2 = sink

theorem Unmoved.eq_of_later (hunmoved : Unmoved σ) {start sink : σ} (h : Later start sink) :
    sink = start := by
  induction h with
  | start => rfl
  | @wrote sink _ text ih => exact (hunmoved sink text).trans ih

end TextSink

theorem CharacterSet.unmoved : TextSink.Unmoved CharacterSet := by
  intro set text
  simp only [TextSink.write]
  split <;> rfl

/-- An output with codes for all characters takes every text. -/
theorem CharacterSet.takesAll_unicode : TextSink.TakesAll unicode := by
  intro sink hlater text
  obtain rfl := unmoved.eq_of_later hlater
  have hlacking : unicode.lacking? text = none := by
    have hall : text.toList.takeWhile unicode.holds = text.toList :=
      List.takeWhile_eq_self_iff.2 fun _ _ => rfl
    simp only [lacking?, hall, List.drop_length, List.takeWhile_nil]
  simp only [TextSink.write, hlacking]

/-! ## One file -/

namespace LineWriter

variable {σ : Type} [TextSink σ] {path : String} {writer after : LineWriter σ}

/-- A chunk is taken as its line is, and counted then. -/
theorem write_of_taken {chunk : Chunk} (h : take path writer chunk = (.ok (), after)) :
    TextSink.write writer.sink (outputLine (chunk.record path)) = (.ok (), after.sink) ∧
      after.count = writer.count + 1 := by
  unfold take at h
  split at h
  · next hwrite => cases h; exact ⟨hwrite, rfl⟩
  · cases h

/-- A chunk is refused as its line is, and not counted then. -/
theorem write_of_refused {chunk : Chunk} {failure : Failure}
    (h : take path writer chunk = (.error failure, after)) :
    TextSink.write writer.sink (outputLine (chunk.record path)) = (.error failure, after.sink) ∧
      after.count = writer.count := by
  unfold take at h
  split at h
  · cases h
  · next hwrite => cases h; exact ⟨hwrite, rfl⟩

theorem count_of_takes {chunks : List Chunk} (h : Takes (take path) writer chunks after) :
    after.count = writer.count + chunks.length := by
  induction h with
  | nil => rfl
  | @cons writer next last chunk chunks taken later ih =>
    rw [ih, (write_of_taken taken).2, List.length_cons, Nat.add_assoc, Nat.add_comm 1]

theorem later_of_takes {chunks : List Chunk} (h : Takes (take path) writer chunks after) :
    TextSink.Later writer.sink after.sink := by
  induction h with
  | nil => exact .start
  | @cons writer next last chunk chunks taken later ih =>
    have hnext : TextSink.Later writer.sink _ := .wrote .start (outputLine (chunk.record path))
    rw [(write_of_taken taken).1] at hnext
    exact hnext.trans ih

theorem later_of_refused {chunk : Chunk} {failure : Failure}
    (h : take path writer chunk = (.error failure, after)) :
    TextSink.Later writer.sink after.sink := by
  have hlast : TextSink.Later writer.sink _ := .wrote .start (outputLine (chunk.record path))
  rwa [(write_of_refused h).1] at hlast

end LineWriter

namespace FileJob

variable {κ σ : Type} [TokenCalculator κ] [TextSink σ] {start calculator : κ}

@[simp] theorem path_processFile (job : FileJob) (calculator : κ) (sink : σ) (path : String) :
    (job.processFile calculator sink path).1.path = path := by
  unfold processFile
  split <;> rfl

/-- The lines of a file are counted as they are written. -/
theorem count_processFile (job : FileJob) (calculator : κ) (sink : σ) (path : String) :
    (job.processFile calculator sink path).1.count =
      (job.processFile calculator sink path).1.chunks.length := by
  unfold processFile
  split
  · rfl
  · next limit hlimit =>
    obtain ⟨-, htakes⟩ | ⟨chunk, failure, hrefuses⟩ :=
      (job.producer path).feed_cases (LineWriter.take path) limit calculator { sink }
    · exact (LineWriter.count_of_takes htakes).trans (Nat.zero_add _)
    · obtain ⟨before, htakes, hrefused⟩ := hrefuses.taken
      exact (LineWriter.write_of_refused hrefused).2.trans
        ((LineWriter.count_of_takes htakes).trans (Nat.zero_add _))

/-- What comes of a file does not depend on what its calculator was asked before. -/
theorem processFile_later (hsteady : Steady start) (h : Later start calculator) (job : FileJob)
    (sink : σ) (path : String) :
    (job.processFile calculator sink path).1 = (job.processFile start sink path).1 ∧
      (job.processFile calculator sink path).2.2 = (job.processFile start sink path).2.2 ∧
      Later start (job.processFile calculator sink path).2.1 := by
  unfold processFile
  split
  · exact ⟨rfl, rfl, h⟩
  · next limit hlimit =>
    obtain ⟨hevents, hending, hwriter, hlater⟩ := (job.producer path).feed_later hsteady
      (LineWriter.take path) limit h .start { sink }
    refine ⟨?_, congrArg LineWriter.sink hwriter, hlater⟩
    simp only [Trace.chunks, Trace.requests, Trace.failure?, hevents, hending, hwriter]

/-- A file leaves the output as it is after texts. -/
theorem sink_processFile_later (job : FileJob) (calculator : κ) (sink : σ) (path : String) :
    TextSink.Later sink (job.processFile calculator sink path).2.2 := by
  unfold processFile
  split
  · exact .start
  · next limit hlimit =>
    obtain ⟨-, htakes⟩ | ⟨chunk, failure, hrefuses⟩ :=
      (job.producer path).feed_cases (LineWriter.take path) limit calculator { sink }
    · exact LineWriter.later_of_takes htakes
    · obtain ⟨before, htakes, hrefused⟩ := hrefuses.taken
      exact (LineWriter.later_of_takes htakes).trans (LineWriter.later_of_refused hrefused)

end FileJob

/-! ## The loop over files -/

/-- What came of files, and then of others. -/
def Processing.andThen {κ σ : Type} (first second : Processing κ σ) : Processing κ σ where
  calculator := second.calculator
  sink := second.sink
  reports := first.reports ++ second.reports
  total := first.total + second.total
  failed := first.failed ++ second.failed

/-- What came of one file. -/
def Processing.ofFile {κ σ : Type} (came : FileReport × κ × σ) : Processing κ σ where
  calculator := came.2.1
  sink := came.2.2
  reports := [came.1]
  total := if came.1.failed then 0 else came.1.count
  failed := if came.1.failed then [came.1.path] else []

theorem Processing.andThen_assoc {κ σ : Type} (first second third : Processing κ σ) :
    (first.andThen second).andThen third = first.andThen (second.andThen third) := by
  simp only [andThen, List.append_assoc, Nat.add_assoc]

namespace FileJob

variable {κ σ : Type} [TokenCalculator κ] [TextSink σ] {start calculator : κ}

/-- A file adds to what came of the others what comes of it. -/
theorem processNext_eq (job : FileJob) (done : Processing κ σ) (path : String) :
    job.processNext done path =
      done.andThen (.ofFile (job.processFile done.calculator done.sink path)) := by
  unfold processNext
  cases hfailure : (job.processFile done.calculator done.sink path).1.failure <;>
    simp [Processing.andThen, Processing.ofFile, FileReport.failed, hfailure]

theorem processFiles_one (job : FileJob) (calculator : κ) (sink : σ) (path : String) :
    job.processFiles calculator sink [path] = .ofFile (job.processFile calculator sink path) := by
  rw [processFiles, List.foldl_cons, List.foldl_nil, processNext_eq]
  simp [Processing.andThen, Processing.ofFile]

/-- **The loop goes on** as it would begin, and adds to what it has. -/
theorem foldl_processNext (job : FileJob) (done : Processing κ σ) (paths : List String) :
    paths.foldl job.processNext done =
      done.andThen (job.processFiles done.calculator done.sink paths) := by
  induction paths generalizing done with
  | nil => simp [processFiles, Processing.andThen]
  | cons path paths ih =>
    have hfirst : job.processFiles done.calculator done.sink (path :: paths) =
        (job.processFiles done.calculator done.sink [path]).andThen _ := ih _
    rw [List.foldl_cons, ih, processNext_eq, Processing.andThen_assoc, hfirst, processFiles_one,
      processNext_eq]
    rfl

/-- A run over two lists of files is a run over the one and then a run over the other. -/
theorem processFiles_append (job : FileJob) (calculator : κ) (sink : σ)
    (first second : List String) :
    let done := job.processFiles calculator sink first
    job.processFiles calculator sink (first ++ second) =
      done.andThen (job.processFiles done.calculator done.sink second) := by
  intro done
  rw [processFiles, List.foldl_append]
  exact job.foldl_processNext done second

/-- What comes of the first file and then of the others. -/
theorem processFiles_cons (job : FileJob) (calculator : κ) (sink : σ) (path : String)
    (paths : List String) :
    let came := job.processFile calculator sink path
    job.processFiles calculator sink (path :: paths) =
      (Processing.ofFile came).andThen (job.processFiles came.2.1 came.2.2 paths) := by
  intro came
  have happend := job.processFiles_append calculator sink [path] paths
  rwa [processFiles_one] at happend

/-! ## What the loop depends on -/

/-- The loop came to the same with calculators that are those of the start after questions. -/
structure SameCourse (start : κ) (done other : Processing κ σ) : Prop where
  reports : done.reports = other.reports
  total : done.total = other.total
  failed : done.failed = other.failed
  sink : done.sink = other.sink
  later : Later start done.calculator
  laterOther : Later start other.calculator

/-- **The loop takes the same course** whatever was asked of its calculator before. -/
theorem processFiles_later {other : κ} (hsteady : Steady start) (h : Later start calculator)
    (h' : Later start other) (job : FileJob) (sink : σ) (paths : List String) :
    SameCourse start (job.processFiles calculator sink paths)
      (job.processFiles other sink paths) := by
  induction paths generalizing calculator other sink with
  | nil => exact ⟨rfl, rfl, rfl, rfl, h, h'⟩
  | cons path paths ih =>
    obtain ⟨hreport, hsink, hlater⟩ := job.processFile_later hsteady h sink path
    obtain ⟨hreport', hsink', hlater'⟩ := job.processFile_later hsteady h' sink path
    have hsame : (job.processFile calculator sink path).1 = (job.processFile other sink path).1 :=
      hreport.trans hreport'.symm
    have hrest := ih hlater hlater' (job.processFile calculator sink path).2.2
    rw [processFiles_cons, processFiles_cons]
    rw [hsink.trans hsink'.symm] at hrest ⊢
    exact {
      reports := by simp only [Processing.andThen, Processing.ofFile, hsame, hrest.reports]
      total := by simp only [Processing.andThen, Processing.ofFile, hsame, hrest.total]
      failed := by simp only [Processing.andThen, Processing.ofFile, hsame, hrest.failed]
      sink := hrest.sink
      later := hrest.later
      laterOther := hrest.laterOther }

/-- **Each file by itself.**  Where the output does not change, what comes of files is what comes of
each of them with the calculator as it was made. -/
theorem processFiles_of_unmoved (hsink : TextSink.Unmoved σ) (hsteady : Steady start)
    (h : Later start calculator) (job : FileJob) (sink : σ) (paths : List String) :
    (job.processFiles calculator sink paths).sink = sink ∧
      (job.processFiles calculator sink paths).reports =
        paths.map fun path => (job.processFile start sink path).1 := by
  induction paths generalizing calculator with
  | nil => exact ⟨rfl, rfl⟩
  | cons path paths ih =>
    obtain ⟨hreport, -, hlater⟩ := job.processFile_later hsteady h sink path
    rw [processFiles_cons, hsink.eq_of_later (job.sink_processFile_later calculator sink path)]
    obtain ⟨hlast, hrest⟩ := ih hlater
    exact ⟨hlast, congr (congrArg _ hreport) hrest⟩

end FileJob

/-! ## Turns -/

/-- The turn of a file in a run: its path, and the calculator and the output as they are then. -/
structure Turn (κ σ : Type) where
  path : String
  calculator : κ
  sink : σ

namespace FileJob

variable {κ σ : Type} [TokenCalculator κ] [TextSink σ] {start calculator : κ}

/-- The turns of files in order. -/
def turns (job : FileJob) : κ → σ → List String → List (Turn κ σ)
  | _, _, [] => []
  | calculator, sink, path :: paths =>
    let came := job.processFile calculator sink path
    ⟨path, calculator, sink⟩ :: job.turns came.2.1 came.2.2 paths

/-- What comes of a file in its turn. -/
def report (job : FileJob) (turn : Turn κ σ) : FileReport :=
  (job.processFile turn.calculator turn.sink turn.path).1

@[simp] theorem path_report (job : FileJob) (turn : Turn κ σ) :
    (job.report turn).path = turn.path :=
  job.path_processFile turn.calculator turn.sink turn.path

theorem map_path_turns (job : FileJob) (calculator : κ) (sink : σ) (paths : List String) :
    (job.turns calculator sink paths).map Turn.path = paths := by
  induction paths generalizing calculator sink with
  | nil => rfl
  | cons path paths ih => rw [turns, List.map_cons, ih]

/-- **What comes of files** is what comes of each of them in its turn. -/
theorem reports_eq_turns (job : FileJob) (calculator : κ) (sink : σ) (paths : List String) :
    (job.processFiles calculator sink paths).reports =
      (job.turns calculator sink paths).map job.report := by
  induction paths generalizing calculator sink with
  | nil => rfl
  | cons path paths ih =>
    rw [processFiles_cons, turns, List.map_cons, ← ih]
    rfl

theorem later_of_mem_turns (hsteady : Steady start) (h : Later start calculator) (job : FileJob)
    (sink : σ) (paths : List String) :
    ∀ turn ∈ job.turns calculator sink paths, Later start turn.calculator := by
  induction paths generalizing calculator sink with
  | nil => exact fun turn hturn => absurd hturn List.not_mem_nil
  | cons path paths ih =>
    obtain ⟨-, -, hlater⟩ := job.processFile_later hsteady h sink path
    exact List.forall_mem_cons.2 ⟨h, ih hlater _⟩

theorem sink_of_mem_turns (job : FileJob) (calculator : κ) (sink : σ) (paths : List String) :
    ∀ turn ∈ job.turns calculator sink paths, TextSink.Later sink turn.sink := by
  induction paths generalizing calculator sink with
  | nil => exact fun turn hturn => absurd hturn List.not_mem_nil
  | cons path paths ih =>
    refine List.forall_mem_cons.2 ⟨.start, fun turn hturn => ?_⟩
    exact (job.sink_processFile_later calculator sink path).trans (ih _ _ turn hturn)

end FileJob

/-! ## What is counted -/

namespace FileReport

/-- The number of chunks of the files that did not fail. -/
def counted (reports : List FileReport) : Nat :=
  ((reports.filter fun report => !report.failed).flatMap chunks).length

/-- The paths of the files that failed, in order. -/
def failedPaths (reports : List FileReport) : List String :=
  (reports.filter failed).map path

theorem lines_append (reports later : List FileReport) :
    lines (reports ++ later) = lines reports ++ lines later := by
  rw [lines, records, List.flatMap_append, List.map_append]
  rfl

end FileReport

/-- **The total** is the number of chunks of the files that did not fail, and the paths listed are
those of the files that did. -/
theorem FileJob.sums_processFiles {κ σ : Type} [TokenCalculator κ] [TextSink σ] (job : FileJob)
    (calculator : κ) (sink : σ) (paths : List String) :
    let done := job.processFiles calculator sink paths
    done.total = FileReport.counted done.reports ∧
      done.failed = FileReport.failedPaths done.reports := by
  induction paths generalizing calculator sink with
  | nil => exact ⟨rfl, rfl⟩
  | cons path paths ih =>
    rw [processFiles_cons]
    obtain ⟨htotal, hfailed⟩ := ih (job.processFile calculator sink path).2.1
      (job.processFile calculator sink path).2.2
    have hcount := job.count_processFile calculator sink path
    cases hfails : (job.processFile calculator sink path).1.failed <;>
      simp [Processing.andThen, Processing.ofFile, FileReport.counted, FileReport.failedPaths,
        htotal, hfailed, hfails, hcount]

/-! ## What is written -/

/-- An output that keeps what it takes. -/
structure Recorder (σ : Type) where
  sink : σ
  taken : String := ""

instance {σ : Type} [TextSink σ] : TextSink (Recorder σ) where
  write recorder text :=
    match TextSink.write recorder.sink text with
    | (.ok (), sink) => (.ok (), { sink, taken := recorder.taken ++ text })
    | (.error failure, sink) => (.error failure, { recorder with sink })

namespace Recorder

variable {κ σ : Type} [TokenCalculator κ] [TextSink σ] {recorder after : Recorder σ}

theorem taken_of_ok {text : String} (h : TextSink.write recorder text = (.ok (), after)) :
    after.taken = recorder.taken ++ text := by
  simp only [TextSink.write] at h
  split at h
  · cases h; rfl
  · cases h

theorem taken_of_error {text : String} {failure : Failure}
    (h : TextSink.write recorder text = (.error failure, after)) :
    after.taken = recorder.taken := by
  simp only [TextSink.write] at h
  split at h
  · cases h
  · cases h; rfl

/-- The lines of the chunks that are taken are kept. -/
theorem taken_of_takes {path : String} {writer last : LineWriter (Recorder σ)}
    {chunks : List Chunk} (h : Takes (LineWriter.take path) writer chunks last) :
    last.sink.taken = writer.sink.taken ++
      String.join (chunks.map fun chunk => outputLine (chunk.record path)) := by
  induction h with
  | nil => simp
  | @cons writer next last chunk chunks taken later ih =>
    rw [ih, taken_of_ok (LineWriter.write_of_taken taken).1, List.map_cons, String.join_cons,
      String.append_assoc]

theorem taken_processFile (job : FileJob) (calculator : κ) (recorder : Recorder σ)
    (path : String) :
    let came := job.processFile calculator recorder path
    came.2.2.taken = recorder.taken ++ String.join (FileReport.lines [came.1]) := by
  unfold FileJob.processFile
  split
  · simp [FileReport.lines, FileReport.records]
  · next limit hlimit =>
    simp only [FileReport.lines, FileReport.records, List.flatMap_singleton, List.map_map]
    obtain ⟨-, htakes⟩ | ⟨chunk, failure, hrefuses⟩ :=
      (job.producer path).feed_cases (LineWriter.take path) limit calculator { sink := recorder }
    · exact taken_of_takes htakes
    · obtain ⟨before, htakes, hrefused⟩ := hrefuses.taken
      exact (taken_of_error (LineWriter.write_of_refused hrefused).1).trans (taken_of_takes htakes)

theorem taken_processFiles (job : FileJob) (calculator : κ) (recorder : Recorder σ)
    (paths : List String) :
    let done := job.processFiles calculator recorder paths
    done.sink.taken = recorder.taken ++ String.join (FileReport.lines done.reports) := by
  induction paths generalizing calculator recorder with
  | nil => simp [FileJob.processFiles, FileReport.lines, FileReport.records]
  | cons path paths ih =>
    rw [FileJob.processFiles_cons]
    refine (ih _ _).trans ?_
    rw [taken_processFile, String.append_assoc, ← String.join_append, ← FileReport.lines_append]
    rfl

/-- The writer to the output without the record of it. -/
def bareWriter (writer : LineWriter (Recorder σ)) : LineWriter σ where
  sink := writer.sink.sink
  count := writer.count

theorem take_bareWriter (path : String) (writer : LineWriter (Recorder σ)) (chunk : Chunk) :
    LineWriter.take path (bareWriter writer) chunk =
      ((LineWriter.take path writer chunk).1, bareWriter (LineWriter.take path writer chunk).2) := by
  simp only [LineWriter.take, bareWriter, TextSink.write]
  cases TextSink.write writer.sink.sink (outputLine (chunk.record path)) with
  | mk answer next => cases answer <;> rfl

/-- A record of the output makes no difference to a file. -/
theorem processFile_sink (job : FileJob) (calculator : κ) (recorder : Recorder σ)
    (path : String) :
    let came := job.processFile calculator recorder path
    job.processFile calculator recorder.sink path = (came.1, came.2.1, came.2.2.sink) := by
  unfold FileJob.processFile
  split
  · rfl
  · next limit hlimit =>
    have hfed := (job.producer path).feed_map bareWriter (take_bareWriter path) limit calculator
      { sink := recorder }
    dsimp only at hfed ⊢
    rw [show bareWriter { sink := recorder } = { sink := recorder.sink } from rfl] at hfed
    rw [hfed]
    rfl

/-- A run over files without the record of its output. -/
def bareRun (done : Processing κ (Recorder σ)) : Processing κ σ :=
  { done with sink := done.sink.sink }

theorem processNext_bareRun (job : FileJob) (done : Processing κ (Recorder σ)) (path : String) :
    job.processNext (bareRun done) path = bareRun (job.processNext done path) := by
  simp only [FileJob.processNext, bareRun, processFile_sink]
  split <;> rfl

/-- **What is written** of files are the lines of the chunks in their reports.  A record of what the
output takes makes no difference to anything else, and holds just these lines. -/
theorem processFiles_recorded (job : FileJob) (calculator : κ) (sink : σ) (paths : List String) :
    let recorded := job.processFiles calculator (Recorder.mk sink "") paths
    let done := job.processFiles calculator sink paths
    done = bareRun recorded ∧
      recorded.sink.taken = String.join (FileReport.lines done.reports) := by
  intro recorded done
  have hdone : done = bareRun recorded := by
    show paths.foldl job.processNext (bareRun { calculator, sink := ⟨sink, ""⟩ }) = _
    exact List.foldl_hom bareRun (processNext_bareRun job)
  refine ⟨hdone, ?_⟩
  rw [hdone]
  exact (taken_processFiles job calculator _ paths).trans String.empty_append

end Recorder

namespace RunReport

/-- As far as files go, a run is one run and then another. -/
structure Joins (whole first second : RunReport) : Prop where
  files : whole.files = first.files ++ second.files
  lines : FileReport.lines whole.files =
    FileReport.lines first.files ++ FileReport.lines second.files
  /-- The output are these lines and what is written of the summary. -/
  output : ∀ summary, (Outcome.ran whole summary).output =
    String.join (FileReport.lines first.files) ++ String.join (FileReport.lines second.files) ++
      summary.text
  total : whole.summary.chunks = first.summary.chunks + second.summary.chunks
  failed : whole.summary.failed = first.summary.failed ++ second.summary.failed
  complaints : whole.complaints = first.complaints ++ second.complaints

/-- Where files, total and failures are those of two runs, so is everything that is told. -/
theorem joins_of_files {whole first second : RunReport}
    (hfiles : whole.files = first.files ++ second.files)
    (htotal : whole.total = first.total + second.total)
    (hfailed : whole.failed = first.failed ++ second.failed) : whole.Joins first second where
  files := hfiles
  lines := by rw [hfiles, FileReport.lines_append]
  output := by
    intro summary
    rw [Outcome.output, output, hfiles, FileReport.lines_append, String.join_append]
  total := htotal
  failed := hfailed
  complaints := by
    rw [complaints, hfiles, List.filterMap_append]
    rfl

variable {run : RunReport}

theorem exitCode_eq_one_iff (h : run.failed = FileReport.failedPaths run.files) :
    run.exitCode = 1 ↔ ∃ file ∈ run.files, file.failed = true := by
  rw [exitCode, h, FileReport.failedPaths, ← List.any_eq_true]
  cases hany : run.files.any FileReport.failed <;> simp_all

theorem exitCode_eq_zero_iff (h : run.failed = FileReport.failedPaths run.files) :
    run.exitCode = 0 ↔ ∀ file ∈ run.files, file.failed = false := by
  rw [exitCode, h, FileReport.failedPaths]
  simp

end RunReport

/-- **Files are processed independently.**  With a calculator that can be asked for by name,
which may have counted texts before, a run over two lists of files is the run over the first
and then that over the second, each with the calculator as it was made and the second on the
output as the first left it.  The exit code is one exactly if some file fails.  If the output does
not change, what comes of a file is what comes of it alone. -/
theorem runFiles_append (encodings : EncodingSource) {σ : Type} [TextSink σ]
    {name encoding : Option String} {calculator used : Calculator}
    (hcreate : CalculatorRegistry.builtin.create name encoding = .ok calculator)
    (hused : Later calculator used) (read : String → Except Failure Bytes)
    (languages : Languages) (arguments : Arguments) (settings : Settings) (sink : σ)
    (first second : List String) :
    let run (calculator : Calculator) (sink : σ) (paths : List String) : RunReport × σ :=
      runFiles encodings read languages { arguments with paths } settings calculator sink
    let report (path : String) : FileReport :=
      ((fileJob read languages arguments settings).processFile calculator sink path).1
    let whole := run used sink (first ++ second)
    let before := run calculator sink first
    let after := run calculator before.2 second
    whole.1.Joins before.1 after.1 ∧ whole.2 = after.2 ∧
      (whole.1.exitCode = 1 ↔ ∃ file ∈ whole.1.files, file.failed = true) ∧
      (whole.1.exitCode = 0 ↔ ∀ file ∈ whole.1.files, file.failed = false) ∧
      (TextSink.Unmoved σ → before.2 = sink ∧ whole.1.files = (first ++ second).map report ∧
        (whole.1.exitCode = 1 ↔ ∃ path ∈ first ++ second, (report path).failed = true) ∧
        (whole.1.exitCode = 0 ↔ ∀ path ∈ first ++ second, (report path).failed = false)) := by
  intro run report whole before after
  have hsteady : Steady calculator :=
    Calculator.steady_of_isFresh (CalculatorRegistry.isFresh_of_create hcreate)
  let job := fileJob read languages arguments settings
  have hbefore := job.processFiles_later hsteady hused .start sink first
  have hafter := job.processFiles_later hsteady hbefore.later .start before.2 second
  have happend := job.processFiles_append used sink first second
  dsimp only at happend
  rw [hbefore.sink] at happend
  have hfailed : whole.1.failed = FileReport.failedPaths whole.1.files :=
    (job.sums_processFiles used sink (first ++ second)).2
  have hone := RunReport.exitCode_eq_one_iff hfailed
  have hzero := RunReport.exitCode_eq_zero_iff hfailed
  refine ⟨RunReport.joins_of_files ?_ ?_ ?_, ?_, hone, hzero, fun hsink => ?_⟩
  · exact (congrArg Processing.reports happend).trans
      (congr (congrArg _ hbefore.reports) hafter.reports)
  · exact (congrArg Processing.total happend).trans (congr (congrArg _ hbefore.total) hafter.total)
  · exact (congrArg Processing.failed happend).trans
      (congr (congrArg _ hbefore.failed) hafter.failed)
  · exact (congrArg Processing.sink happend).trans hafter.sink
  · have hfiles : whole.1.files = (first ++ second).map report :=
      (job.processFiles_of_unmoved hsink hsteady hused sink (first ++ second)).2
    refine ⟨(job.processFiles_of_unmoved hsink hsteady .start sink first).1, hfiles, ?_, ?_⟩
    · rw [hone, hfiles]
      constructor
      · rintro ⟨_, hmem, hfails⟩
        obtain ⟨path, hpath, rfl⟩ := List.mem_map.1 hmem
        exact ⟨path, hpath, hfails⟩
      · rintro ⟨path, hpath, hfails⟩
        exact ⟨report path, List.mem_map_of_mem hpath, hfails⟩
    · rw [hzero, hfiles, List.forall_mem_map]

/-- A directory with one file. -/
def loneFile : Workspace where
  files := [{ path := "lone.py", contents := "test".toUTF8.toList }]

theorem loneFile_runFiles_append :
    let encodings := EncodingSource.byteGroups
    let run (calculator : Calculator) (paths : List String) : RunReport :=
      (runFiles encodings loneFile.read (loneFile.languages Config.standard)
        { paths, limit := some (.number 1) } ⟨4, "tiktoken", none, true⟩ calculator
        CharacterSet.unicode).1
    let fresh : Calculator := .ofEncoding none
    let used : Calculator := (fresh.count "test").2
    (run used (["lone.py", "gone.py"] ++ ["lone.py"])).Joins
        (run fresh ["lone.py", "gone.py"]) (run fresh ["lone.py"]) ∧
      (run used (["lone.py", "gone.py"] ++ ["lone.py"])).exitCode = 1 := by
  intro encodings run fresh used
  have hcreate : CalculatorRegistry.builtin.create none none = .ok fresh := rfl
  have hused : Later fresh used := .asked .start "test"
  obtain ⟨hjoins, -, -, -, halone⟩ := runFiles_append encodings hcreate hused loneFile.read
    (loneFile.languages Config.standard) { limit := some (.number 1) }
    ⟨4, "tiktoken", none, true⟩ CharacterSet.unicode ["lone.py", "gone.py"] ["lone.py"]
  obtain ⟨hsink, -, hexit, -⟩ := halone CharacterSet.unmoved
  rw [hsink] at hjoins
  refine ⟨hjoins, hexit.2 ⟨"gone.py", by decide, ?_⟩⟩
  decide +kernel

end SourceChunks
