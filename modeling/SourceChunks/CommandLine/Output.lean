import SourceChunks.CommandLine.Process

/-!
# The output of a run

A line for each chunk, in the order in which the chunks were delivered, and then a line
with a summary.  Each line is a JSON object.
-/

namespace SourceChunks

/-- What the summary of a run says. -/
structure Summary where
  files : Nat
  chunks : Nat
  failed : List String
  budget : Int
  calculator : String
  encoding : Option String
  deriving DecidableEq, Repr

/-- The record of a summary. -/
def Summary.record (summary : Summary) : Json :=
  .object [("summary", .object [
    ("files", .number summary.files), ("chunks", .number summary.chunks),
    ("failed", .ofStrings summary.failed), ("max_chunk_size", .number summary.budget),
    ("calculator", .string summary.calculator), ("encoding", .ofOption .string summary.encoding)])]

/-- The records of the chunks of files. -/
def FileReport.records (reports : List FileReport) : List Json :=
  reports.flatMap fun file => file.chunks.map (Chunk.record file.path)

/-- The lines of the chunks of files. -/
def FileReport.lines (reports : List FileReport) : List String :=
  (records reports).map outputLine

/-- What came of the files of a run. -/
structure RunReport where
  files : List FileReport
  total : Nat
  failed : List String
  budget : Int
  calculator : String
  encoding : Option String

namespace RunReport

/-- The summary of a run. -/
def summary (run : RunReport) : Summary where
  files := run.files.length
  chunks := run.total
  failed := run.failed
  budget := run.budget
  calculator := run.calculator
  encoding := run.encoding

/-- What was written of the chunks. -/
def output (run : RunReport) : String :=
  String.join (FileReport.lines run.files)

/-- What is complained of, file by file. -/
def complaints (run : RunReport) : List String :=
  run.files.filterMap FileReport.complaint?

/-- The grammars that were asked for, in order. -/
def requests (run : RunReport) : List String :=
  run.files.flatMap (·.requests)

/-- The exit code once the summary is written: nought if no file failed, and one otherwise. -/
def exitCode (run : RunReport) : Nat :=
  if run.failed.isEmpty then 0 else 1

end RunReport

end SourceChunks
