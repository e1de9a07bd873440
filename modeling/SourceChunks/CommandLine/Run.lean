import SourceChunks.CommandLine.Arguments
import SourceChunks.CommandLine.Help
import SourceChunks.CommandLine.Output

/-!
# Runs of the command

From the words of a command, an environment, the files that can be read and an output to write
to, what comes of it.  Words that make no sense, a budget that is no number and a calculator
that is not registered are all refused before any file is looked at.  A budget option with
nothing for its value is understood, but there is no run to be had from it.

Where the output refuses the line of a chunk, it is the file that fails.  Where it refuses the
summary, nobody is left to note it, and the run breaks off there.
-/

namespace SourceChunks

/-- What comes of a command. -/
inductive Outcome where
  /-- The files were processed; this was written of the summary. -/
  | ran (report : RunReport) (summary : Written)
  /-- Help was asked for; this was written of it. -/
  | helped (help : Written)
  /-- The words, or the settings that follow from them, make no sense. -/
  | refused
  /-- The words were understood, but the run broke off before the first file. -/
  | brokeOff (failure : Failure)

namespace Arguments

/-- The flags that bear on settings. -/
def settingFlags (arguments : Arguments) : Except Failure SettingFlags := do
  let budget ←
    match arguments.maxTokens with
    | none => Except.ok none
    | some (.number value) => Except.ok (some (RawBudget.number value))
    | some .nothing => Except.error Failure.budgetWanting
  return {
    budget
    calculator := arguments.calculator
    encoding := arguments.encoding
    coalesce := arguments.coalesceComments }

end Arguments

/-- The settings of a run, and its calculator. -/
def prepareRun (flags : SettingFlags) (environment : Environment) :
    Except Failure (Settings × Calculator) := do
  let settings ← Settings.resolve flags environment
  let calculator ← CalculatorRegistry.builtin.create settings.calculator settings.encoding
  return (settings, calculator)

/-- What the files of a run are chunked with. -/
def fileJob (read : String → Except Failure Bytes) (languages : Languages)
    (arguments : Arguments) (settings : Settings) : FileJob where
  read
  languages
  budget := settings.budget
  coalesce := settings.coalesce
  limit := arguments.limit

variable {σ : Type} [TextSink σ]

/-- Processes the files that are named; what comes of them, and the output afterwards. -/
def runFiles (encodings : EncodingSource) (read : String → Except Failure Bytes)
    (languages : Languages) (arguments : Arguments) (settings : Settings) (calculator : Calculator)
    (sink : σ) : RunReport × σ :=
  let job := fileJob read languages arguments settings
  let done := job.processFiles calculator sink arguments.paths
  ({ files := done.reports
     total := done.total
     failed := done.failed
     budget := settings.budget
     calculator := settings.calculator
     encoding := calculator.encodingName? }, done.sink)

/-- Does what a command says, with the given files, languages, environment and output. -/
def runCommand (encodings : EncodingSource) (read : String → Except Failure Bytes)
    (languages : Languages) (environment : Environment) (sink : σ) (texts : List String) :
    Outcome :=
  match Arguments.read texts with
  | .refused => .refused
  | .helpWanted => .helped (TextSink.tell sink Command.helpText)
  | .understood arguments =>
    match arguments.settingFlags with
    | .error failure => .brokeOff failure
    | .ok flags =>
      match prepareRun flags environment with
      | .error _ => .refused
      | .ok (settings, calculator) =>
        let (report, sink) := runFiles encodings read languages arguments settings calculator sink
        .ran report (TextSink.print sink report.summary.record.render)

namespace Outcome

/-- The exit code of a command.  A request for help that is not heard is none the worse. -/
def exitCode : Outcome → Nat
  | ran report ⟨_, none⟩ => report.exitCode
  | ran _ ⟨_, some _⟩ => 1
  | helped _ => 0
  | refused => 2
  | brokeOff _ => 1

/-- What a command writes. -/
def output : Outcome → String
  | ran report summary => report.output ++ summary.text
  | helped help => help.text
  | refused | brokeOff _ => ""

/-- What a command complains of. -/
def complaints : Outcome → List String
  | ran report summary => report.complaints ++ (summary.refusal.map Failure.message).toList
  | brokeOff failure => [failure.message]
  | helped _ | refused => []

/-- The grammars a command asks for. -/
def requests : Outcome → List String
  | ran report _ => report.requests
  | _ => []

end Outcome

end SourceChunks
