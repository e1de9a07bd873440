import SourceChunks.CommandLine.Run
import SourceChunks.Grammar.Standard
import SourceChunks.Json.Reader
import SourceChunks.SymbolRows
import SourceChunks.Workspace

/-!
# The command

Reads the files that are named, runs, and writes what comes of it.  The parse tree of a file
is read from the table beside it, whose name is that of the file with `.tree.json` after it;
a file without a table is one whose grammar is missing.
-/

namespace SourceChunks.Command

/-- Why a file could not be read. -/
def failureOf (path : String) : IO.Error → Failure
  | .inappropriateType none .. => .isADirectory (Workspace.shownPath path)
  | .inappropriateType (some _) .. => .notADirectory (Workspace.shownPath path)
  | _ => .noSuchFile (Workspace.shownPath path)

/-- Reads a file, or finds out why it cannot be read. -/
def readFile (path : String) : IO (Except Failure Bytes) := do
  try
    return .ok (← IO.FS.readBinFile (Workspace.shownPath path)).toList
  catch error => return .error (failureOf path error)

/-- The tree in the table beside a file, if there is one. -/
def readTree (path : String) : IO (Option (Tree Symbol)) := do
  match ← readFile (path ++ ".tree.json") with
  | .ok contents => return (Json.parse? (Utf8.decode contents)).bind treeOfJson?
  | .error _ => return none

/-- The paths that a command names. -/
def namedPaths (texts : List String) : List String :=
  match Arguments.read texts with
  | .understood arguments => arguments.paths
  | _ => []

/-- The variables that bear on settings. -/
def readEnvironment : IO Environment := do
  let names := [Settings.budgetVariable, Settings.calculatorVariable, Settings.encodingVariable,
    Settings.coalesceVariable]
  let values ← names.mapM fun name => return (name, ← IO.getEnv name)
  return fun name => (values.lookup name).join

end SourceChunks.Command

open SourceChunks Command

/-- Runs the command. -/
def main (texts : List String) : IO UInt32 := do
  let paths := namedPaths texts
  let read ← paths.mapM fun path => return (path, ← readFile path)
  let files ← read.filterMapM fun (path, result) => do
    match result with
    | .ok contents => return some { path, contents, tree := ← readTree path }
    | .error _ => return none
  let bare := files.filter (·.tree.isNone)
  let workspace : Workspace := {
    files
    missingGrammars := bare.filterMap fun file => Config.standard.languageOfPath? file.path }
  let outcome := runCommand .byteGroups
    (fun path => (read.lookup path).getD (.error (.noSuchFile (Workspace.shownPath path))))
    (workspace.languages Config.standard) (← readEnvironment) CharacterSet.unicode texts
  for complaint in outcome.complaints do
    IO.eprintln s!"ERROR chunk: {complaint}"
  if let .refused := outcome then
    for line in usageLines do
      IO.eprintln line
  IO.print outcome.output
  return outcome.exitCode.toUInt32
