import SourceChunks.CommandLine.GivenInteger
import SourceChunks.CommandLine.Writing
import SourceChunks.Settings
import SourceChunks.SourceFile

/-!
# Processing files

The files of a run are chunked one after the other with one calculator, and a line is written
for each chunk as soon as it is delivered.  A file can fail at any point of this, also because
its line is refused.  It is noted then, and the run goes on with the next file; what was
written of it stays written.  A limit stops each file after so many chunks; a limit of nought
stops it before it is read.

Lines are counted as they are written, file by file.  The count of a file is added to the total
when the file is done, so that of a file that fails is not.
-/

namespace SourceChunks

/-- What files are chunked with. -/
structure FileJob where
  /-- Reads a file. -/
  read : String → Except Failure Bytes
  languages : Languages
  budget : Int
  coalesce : Bool
  limit : Option GivenInteger

/-- What came of a file. -/
structure FileReport where
  path : String
  /-- The chunks of which a line was written. -/
  chunks : List Chunk
  /-- The number of lines, as it was counted. -/
  count : Nat
  requests : List String
  failure : Option Failure

/-- The greatest limit. -/
def maxLimit : Int := 9223372036854775807

/-- A limit as a number of chunks. -/
def chunkLimit : Option GivenInteger → Except Failure (Option Nat)
  | none => .ok none
  | some .nothing => .error .badLimit
  | some (.number limit) =>
    if 0 ≤ limit ∧ limit ≤ maxLimit then .ok (some limit.toNat) else .error .badLimit

/-- What the lines of a file are written to, and how many it has taken. -/
structure LineWriter (σ : Type) where
  sink : σ
  count : Nat := 0

/-- Writes the line of a chunk, and counts it when it is written. -/
def LineWriter.take {σ : Type} [TextSink σ] (path : String) (writer : LineWriter σ)
    (chunk : Chunk) : Except Failure Unit × LineWriter σ :=
  match TextSink.write writer.sink (outputLine (chunk.record path)) with
  | (.ok (), sink) => (.ok (), { sink, count := writer.count + 1 })
  | (.error failure, sink) => (.error failure, { writer with sink })

/-- How far a run over files has come. -/
structure Processing (κ σ : Type) where
  calculator : κ
  sink : σ
  reports : List FileReport := []
  /-- The lines of the files that did not fail. -/
  total : Nat := 0
  /-- The paths of the files that failed. -/
  failed : List String := []

namespace FileJob

/-- Reads a file and delivers its chunks. -/
def producer (job : FileJob) (path : String) : Producer Unit := do
  let contents ← Producer.ofExcept (job.read path)
  job.languages.chunkFile job.budget job.coalesce path contents

variable {κ σ : Type} [TokenCalculator κ] [TextSink σ]

/-- Processes one file; what comes of it, and the calculator and the output afterwards. -/
def processFile (job : FileJob) (calculator : κ) (sink : σ) (path : String) :
    FileReport × κ × σ :=
  match chunkLimit job.limit with
  | .error failure =>
    ({ path, chunks := [], count := 0, requests := [], failure := some failure }, calculator,
      sink)
  | .ok limit =>
    let (trace, writer) := (job.producer path).feed (LineWriter.take path) limit calculator { sink }
    ({ path, chunks := trace.chunks, count := writer.count, requests := trace.requests,
       failure := trace.failure? }, trace.calculator, writer.sink)

/-- Processes one more file. -/
def processNext (job : FileJob) (done : Processing κ σ) (path : String) : Processing κ σ :=
  let (report, calculator, sink) := job.processFile done.calculator done.sink path
  let reports := done.reports ++ [report]
  match report.failure with
  | none => { calculator, sink, reports, total := done.total + report.count, failed := done.failed }
  | some _ => { calculator, sink, reports, total := done.total, failed := done.failed ++ [path] }

/-- Processes files in order. -/
def processFiles (job : FileJob) (calculator : κ) (sink : σ) (paths : List String) :
    Processing κ σ :=
  paths.foldl job.processNext { calculator, sink }

end FileJob

namespace FileReport

/-- Did the file fail? -/
def failed (report : FileReport) : Bool :=
  report.failure.isSome

/-- What is said about a file that failed. -/
def complaint? (report : FileReport) : Option String :=
  report.failure.map fun failure => s!"Failed processing {report.path}: {failure.message}"

end FileReport

end SourceChunks
