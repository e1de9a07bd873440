import Mathlib.Data.List.Basic
import SourceChunks.CommandLine.Run
import SourceChunks.Grammar.Standard
import SourceChunks.Proofs.Json.RoundTrip
import SourceChunks.Workspace

/-!
# Reading what a run wrote

Whoever reads the output of a run cuts it at its line feeds, reads each line as a value, and
looks up the fields by their names (`Chunk.ofRecord?`, `Summary.ofRecord?`).  What they find is
what the run delivered, chunk by chunk and in order, and then the summary.

* `Text.lineChars_join_outputLine`: records that are written as lines are found on these lines,
  whatever stands in them.
* `Chunk.ofRecord?_record`, `Summary.ofRecord?_record`: the fields of a record give back what
  was recorded.
* `RunReport.told_print`: so the lines of a run are those of its chunks and, if its output takes
  it, of its summary, and after the last there is nothing.
* `Command.ofChars?_helpText`: no line of the help is a value, so nobody takes it for either.
* `runCommand_lines`: what a command writes is told by how it came out.

Not every command that is not refused has a summary (`help_and_unwritable_untold`).
-/

namespace SourceChunks

/-! ## Cutting a text at its separators -/

namespace Text

/-- Lines with a line feed after each, and a text without one, are these lines and that text. -/
theorem lineChars_flatMap_append {lines : List (List Char)} {rest : List Char}
    (h : ∀ line ∈ lines, '\n' ∉ line) (hrest : '\n' ∉ rest) :
    lineChars (lines.flatMap (· ++ ['\n']) ++ rest) = lines ++ [rest] := by
  induction lines with
  | nil => exact pieces_of_notMem hrest
  | cons line lines ih =>
    obtain ⟨hline, hlines⟩ := List.forall_mem_cons.1 h
    rw [List.flatMap_cons, List.append_assoc, List.append_assoc, List.singleton_append, lineChars,
      pieces_append_cons _ hline, ← lineChars, ih hlines, List.cons_append]

/-- **Each record is on its line.** -/
theorem lineChars_join_outputLine (records : List Json) {rest : String}
    (hrest : '\n' ∉ rest.toList) :
    lineChars (String.join (records.map outputLine) ++ rest).toList =
      records.map Json.chars ++ [rest.toList] := by
  have hjoin : (String.join (records.map outputLine)).toList =
      (records.map Json.chars).flatMap (· ++ ['\n']) := by
    simp [String.toList_join, List.flatMap_map, outputLine, Json.render]
  rw [String.toList_append, hjoin]
  exact lineChars_flatMap_append (List.forall_mem_map.2 fun json _ => json.newline_notMem_chars)
    hrest

end Text

/-! ## Looking up the fields -/

/-- The value that was written, if one was. -/
def Json.toOption? {α : Type} (read : Json → Option α) : Json → Option (Option α)
  | .null => some none
  | json => (read json).map some

/-- The chunk that a record tells of, after the path of its file. -/
def Chunk.ofRecord? (record : Json) : Option (String × Chunk) := do
  let path ← (record.field "path").string?
  let startLine ← (record.field "start_line").int?
  let stopLine ← (record.field "end_line").int?
  let content ← (record.field "content").string?
  return (path, { content, startLine, stopLine })

/-- The summary that a record gives. -/
def Summary.ofRecord? (record : Json) : Option Summary := do
  let summary := record.field "summary"
  let files ← (summary.field "files").nat?
  let chunks ← (summary.field "chunks").nat?
  let failed ← (summary.field "failed").strings?
  let budget ← (summary.field "max_chunk_size").int?
  let calculator ← (summary.field "calculator").string?
  let encoding ← (summary.field "encoding").toOption? Json.string?
  return { files, chunks, failed, budget, calculator, encoding }

theorem Json.strings?_ofStrings (texts : List String) :
    (Json.ofStrings texts).strings? = some texts := by
  show (texts.map Json.string).mapM Json.string? = some texts
  induction texts with
  | nil => rfl
  | cons text texts ih => rw [List.map_cons, List.mapM_cons, ih]; rfl

theorem Json.toOption?_ofOption (text : Option String) :
    (Json.ofOption Json.string text).toOption? Json.string? = some text := by
  cases text <;> rfl

/-- The record of a chunk gives back its path and the chunk. -/
theorem Chunk.ofRecord?_record (path : String) (chunk : Chunk) :
    Chunk.ofRecord? (chunk.record path) = some (path, chunk) := rfl

/-- The record of a summary gives back the summary. -/
theorem Summary.ofRecord?_record (summary : Summary) :
    Summary.ofRecord? summary.record = some summary := by
  show ((Json.ofStrings summary.failed).strings?.bind fun failed =>
    ((Json.ofOption Json.string summary.encoding).toOption? Json.string?).bind fun encoding =>
      some { summary with failed, encoding }) = some summary
  rw [Json.strings?_ofStrings, Json.toOption?_ofOption]
  rfl

/-! ## The lines of a run -/

/-- A line is written, or its output refuses it, or refuses its end. -/
theorem TextSink.print_cases {σ : Type} [TextSink σ] (sink : σ) (line : String) :
    print sink line = ⟨line ++ "\n", none⟩ ∨
      ∃ failure, print sink line = ⟨"", some failure⟩ ∨ print sink line = ⟨line, some failure⟩ := by
  unfold print
  split
  · exact .inr ⟨_, .inl rfl⟩
  · split
    · exact .inr ⟨_, .inr rfl⟩
    · exact .inl rfl

namespace RunReport

/-- The chunks of which a line was written, each after the path of its file. -/
def delivered (run : RunReport) : List (String × Chunk) :=
  run.files.flatMap fun file => file.chunks.map (file.path, ·)

/-- The lines of the chunks, without their ends. -/
def chunkLines (run : RunReport) : List (List Char) :=
  (FileReport.records run.files).map Json.chars

theorem lineChars_output (run : RunReport) {rest : String} (hrest : '\n' ∉ rest.toList) :
    Text.lineChars (run.output ++ rest).toList = run.chunkLines ++ [rest.toList] :=
  Text.lineChars_join_outputLine (FileReport.records run.files) hrest

/-- The lines of the chunks tell of them. -/
theorem map_chunkLines (run : RunReport) :
    run.chunkLines.map (fun line => (Json.ofChars? line).bind Chunk.ofRecord?) =
      run.delivered.map some := by
  simp only [chunkLines, FileReport.records, delivered, List.map_flatMap, List.map_map]
  congr 1
  funext file
  refine List.map_congr_left fun chunk _ => ?_
  simp only [Function.comp_apply, Json.ofChars?_chars, Option.bind_some, Chunk.ofRecord?_record]

/-- The text is cut into a line for each chunk of a run, one for its summary and an empty rest. -/
structure Told (run : RunReport) (text : String) (chunkLines : List (List Char))
    (summaryLine : List Char) : Prop where
  lines : Text.lineChars text.toList = chunkLines ++ [summaryLine, []]
  chunks : chunkLines.map (fun line => (Json.ofChars? line).bind Chunk.ofRecord?) =
    run.delivered.map some
  summary : (Json.ofChars? summaryLine).bind Summary.ofRecord? = some run.summary

/-- The text is cut into a line for each chunk of a run and a rest, which is empty, or the summary
without the end of its line. -/
structure ToldInPart (run : RunReport) (text : String) (chunkLines : List (List Char))
    (rest : List Char) : Prop where
  lines : Text.lineChars text.toList = chunkLines ++ [rest]
  chunks : chunkLines.map (fun line => (Json.ofChars? line).bind Chunk.ofRecord?) =
    run.delivered.map some
  rest : rest = [] ∨ (Json.ofChars? rest).bind Summary.ofRecord? = some run.summary

theorem summary_line (run : RunReport) :
    (Json.ofChars? run.summary.record.chars).bind Summary.ofRecord? = some run.summary := by
  rw [Json.ofChars?_chars, Option.bind_some, Summary.ofRecord?_record]

/-- **The output of a run** whose summary was written tells what was delivered. -/
theorem told_output (run : RunReport) :
    run.Told (run.output ++ (run.summary.record.render ++ "\n")) run.chunkLines
      run.summary.record.chars where
  lines := by
    have hlines := Text.lineChars_join_outputLine
      (FileReport.records run.files ++ [run.summary.record]) (show '\n' ∉ "".toList by simp)
    rw [List.map_append, String.join_append, List.map_append, List.append_assoc,
      String.append_empty] at hlines
    simpa [output, FileReport.lines, outputLine, chunkLines] using hlines
  chunks := run.map_chunkLines
  summary := run.summary_line

theorem toldInPart_output (run : RunReport) {rest : String} (hline : '\n' ∉ rest.toList)
    (hrest : rest.toList = [] ∨
      (Json.ofChars? rest.toList).bind Summary.ofRecord? = some run.summary) :
    run.ToldInPart (run.output ++ rest) run.chunkLines rest.toList where
  lines := run.lineChars_output hline
  chunks := run.map_chunkLines
  rest := hrest

/-- What a run tells depends on what became of its summary. -/
theorem told_print {σ : Type} [TextSink σ] (run : RunReport) (sink : σ) :
    let summary := TextSink.print sink run.summary.record.render
    (summary.refusal = none →
      run.Told (run.output ++ summary.text) run.chunkLines run.summary.record.chars) ∧
    (summary.refusal ≠ none →
      run.ToldInPart (run.output ++ summary.text) run.chunkLines summary.text.toList ∧
        (summary.text.toList = [] ∨ summary.text.toList = run.summary.record.chars)) := by
  obtain h | ⟨failure, h | h⟩ := TextSink.print_cases sink run.summary.record.render
  · rw [h]
    exact ⟨fun _ => run.told_output, fun hrefused => absurd rfl hrefused⟩
  · rw [h]
    exact ⟨nofun, fun _ => ⟨run.toldInPart_output (by simp) (.inl rfl), .inl rfl⟩⟩
  · rw [h]
    have hchars : run.summary.record.render.toList = run.summary.record.chars :=
      String.toList_ofList
    refine ⟨nofun, fun _ => ⟨run.toldInPart_output ?_ (.inr ?_), .inr hchars⟩⟩
    · rw [hchars]
      exact Json.newline_notMem_chars _
    · rw [hchars]
      exact run.summary_line

/-- A line that tells of a chunk tells of one that was delivered. -/
theorem mem_delivered {σ : Type} [TextSink σ] {run : RunReport} {sink : σ} {line : List Char}
    {path : String} {chunk : Chunk}
    (hline : line ∈ Text.lineChars
      (run.output ++ (TextSink.print sink run.summary.record.render).text).toList)
    (h : (Json.ofChars? line).bind Chunk.ofRecord? = some (path, chunk)) :
    (path, chunk) ∈ run.delivered := by
  obtain ⟨htaken, hrefused⟩ := run.told_print sink
  -- the lines are those of the chunks, and others that tell of none
  have hlines : ∃ rest, Text.lineChars
      (run.output ++ (TextSink.print sink run.summary.record.render).text).toList =
        run.chunkLines ++ rest ∧ ∀ line ∈ rest, line = [] ∨ line = run.summary.record.chars := by
    cases hrefusal : (TextSink.print sink run.summary.record.render).refusal with
    | none => exact ⟨_, (htaken hrefusal).lines, by simp⟩
    | some failure =>
      obtain ⟨htold, hrest⟩ := hrefused (by rw [hrefusal]; exact Option.some_ne_none failure)
      exact ⟨_, htold.lines, by simpa using hrest⟩
  obtain ⟨rest, hlines, hrest⟩ := hlines
  rw [hlines, List.mem_append] at hline
  rcases hline with hline | hline
  · have hmem := List.mem_map_of_mem
      (f := fun line => (Json.ofChars? line).bind Chunk.ofRecord?) hline
    rw [run.map_chunkLines, h] at hmem
    obtain ⟨entry, hentry, heq⟩ := List.mem_map.1 hmem
    rwa [← Option.some.inj heq]
  · rcases hrest line hline with rfl | rfl
    · exact absurd h nofun
    · rw [Json.ofChars?_chars] at h
      exact absurd h nofun

end RunReport

/-! ## The help -/

/-- **No line of the help** is a value. -/
theorem Command.ofChars?_helpText :
    ∀ line ∈ Text.lineChars Command.helpText.toList, Json.ofChars? line = none := by
  have hjoin : helpText.toList = (helpLines.map String.toList).flatMap (· ++ ['\n']) := by
    simp [helpText, String.toList_join, List.flatMap_map]
  have heach : ∀ line ∈ helpLines.map String.toList,
      '\n' ∉ line ∧ Json.ofChars? line = none := by decide +kernel
  have hlines : Text.lineChars helpText.toList = helpLines.map String.toList ++ [[]] := by
    rw [hjoin, ← List.append_nil (List.flatMap _ _)]
    exact Text.lineChars_flatMap_append (fun line hline => (heach line hline).1) List.not_mem_nil
  rw [hlines]
  intro line hline
  rcases List.mem_append.1 hline with hline | hline
  · exact (heach line hline).2
  · rw [List.mem_singleton.1 hline]
    rfl

/-! ## The command -/

/-- What a run went by that came to its files. -/
theorem exists_of_runCommand {encodings : EncodingSource} {σ : Type} [TextSink σ]
    {read : String → Except Failure Bytes} {languages : Languages} {environment : Environment}
    {sink : σ} {texts : List String} {report : RunReport} {summary : Written}
    (h : runCommand encodings read languages environment sink texts = .ran report summary) :
    ∃ arguments flags settings calculator, Arguments.read texts = .understood arguments ∧
      arguments.settingFlags = .ok flags ∧
      prepareRun flags environment = .ok (settings, calculator) ∧
      let done := runFiles encodings read languages arguments settings calculator sink
      report = done.1 ∧ summary = TextSink.print done.2 report.summary.record.render := by
  rw [runCommand] at h
  split at h
  · cases h
  · cases h
  · next arguments hread =>
    split at h
    · cases h
    · next flags hflags =>
      split at h
      · cases h
      · next settings calculator hprepared =>
        obtain ⟨rfl, rfl⟩ := Outcome.ran.inj h
        exact ⟨arguments, flags, settings, calculator, hread, hflags, hprepared, rfl, rfl⟩

/-- Help is written where it was asked for. -/
theorem helpWanted_of_helped {encodings : EncodingSource} {σ : Type} [TextSink σ]
    {read : String → Except Failure Bytes} {languages : Languages} {environment : Environment}
    {sink : σ} {texts : List String} {help : Written}
    (h : runCommand encodings read languages environment sink texts = .helped help) :
    Arguments.read texts = .helpWanted := by
  rw [runCommand] at h
  split at h
  · cases h
  · next hread => exact hread
  · split at h
    · cases h
    · split at h
      · cases h
      · cases h

/-- The calculator of a run is asked for by the name in the settings. -/
theorem create_of_prepareRun {flags : SettingFlags} {environment : Environment}
    {settings : Settings} {calculator : Calculator}
    (h : prepareRun flags environment = .ok (settings, calculator)) :
    CalculatorRegistry.builtin.create settings.calculator settings.encoding = .ok calculator := by
  rw [prepareRun] at h
  cases hresolved : Settings.resolve flags environment with
  | error failure =>
    rw [hresolved] at h
    cases h
  | ok resolved =>
    cases hcreated : CalculatorRegistry.builtin.create resolved.calculator resolved.encoding with
    | error failure =>
      simp only [hresolved, bind, Except.bind, hcreated] at h
      cases h
    | ok created =>
      simp only [hresolved, bind, Except.bind, hcreated] at h
      cases h
      exact hcreated

theorem Arguments.settingFlags_eq_error_iff {arguments : Arguments} {failure : Failure} :
    arguments.settingFlags = .error failure ↔
      failure = .budgetWanting ∧ arguments.maxTokens = some .nothing := by
  unfold settingFlags
  match arguments.maxTokens with
  | none => exact ⟨nofun, nofun⟩
  | some (.number value) => exact ⟨nofun, nofun⟩
  | some .nothing =>
    refine ⟨fun h => ⟨(Except.error.inj h).symm, rfl⟩, ?_⟩
    rintro ⟨rfl, -⟩
    rfl

/-- Words that are understood make a run, unless its settings are refused or its budget option
was given with nothing for its value. -/
theorem exists_runCommand_eq_ran {encodings : EncodingSource} {σ : Type} [TextSink σ]
    {read : String → Except Failure Bytes} {languages : Languages} {environment : Environment}
    {sink : σ} {texts : List String} {arguments : Arguments}
    (hread : Arguments.read texts = .understood arguments)
    (hbudget : arguments.maxTokens ≠ some .nothing)
    (hrefused : runCommand encodings read languages environment sink texts ≠ .refused) :
    ∃ report summary, runCommand encodings read languages environment sink texts =
      .ran report summary := by
  revert hrefused
  rw [runCommand, hread]
  dsimp only
  cases hflags : arguments.settingFlags with
  | error failure => exact absurd (Arguments.settingFlags_eq_error_iff.1 hflags).2 hbudget
  | ok flags =>
    dsimp only
    cases prepareRun flags environment with
    | error failure => exact fun hrefused => absurd rfl hrefused
    | ok prepared => exact fun _ => ⟨_, _, rfl⟩

/-- Asked for help, a command writes it or nothing, and no value in either case. -/
theorem output_of_helpWanted {encodings : EncodingSource} {σ : Type} [TextSink σ]
    {read : String → Except Failure Bytes} {languages : Languages} {environment : Environment}
    {sink : σ} {texts : List String} (hread : Arguments.read texts = .helpWanted) :
    let outcome := runCommand encodings read languages environment sink texts
    outcome.exitCode = 0 ∧ (outcome.output = Command.helpText ∨ outcome.output = "") ∧
      ∀ line ∈ Text.lineChars outcome.output.toList, Json.ofChars? line = none := by
  intro outcome
  have houtcome : outcome = .helped (TextSink.tell sink Command.helpText) := by
    unfold outcome
    rw [runCommand, hread]
  have houtput : outcome.output = Command.helpText ∨ outcome.output = "" := by
    rw [houtcome]
    show (TextSink.tell sink Command.helpText).text = _ ∨ _
    unfold TextSink.tell
    split
    · exact .inl rfl
    · exact .inr rfl
  refine ⟨by rw [houtcome]; rfl, houtput, ?_⟩
  obtain houtput | houtput := houtput
  · rw [houtput]
    exact Command.ofChars?_helpText
  · rw [houtput]
    intro line hline
    rw [List.mem_singleton.1 hline]
    rfl

/-- Lines that tell of a chunk are written by runs that delivered it. -/
theorem exists_delivered_of_line {encodings : EncodingSource} {σ : Type} [TextSink σ]
    {read : String → Except Failure Bytes} {languages : Languages} {environment : Environment}
    {sink : σ} {texts : List String} {line : List Char} {path : String} {chunk : Chunk}
    (hline : line ∈ Text.lineChars
      (runCommand encodings read languages environment sink texts).output.toList)
    (h : (Json.ofChars? line).bind Chunk.ofRecord? = some (path, chunk)) :
    ∃ report summary, runCommand encodings read languages environment sink texts =
      .ran report summary ∧ (path, chunk) ∈ report.delivered := by
  cases houtcome : runCommand encodings read languages environment sink texts with
  | ran report summary =>
    rw [houtcome] at hline
    obtain ⟨arguments, _, settings, calculator, -, -, -, -, hsummary⟩ :=
      exists_of_runCommand houtcome
    rw [hsummary] at hline
    exact ⟨report, summary, rfl, RunReport.mem_delivered hline h⟩
  | helped help =>
    have hread : Arguments.read texts = .helpWanted := helpWanted_of_helped houtcome
    rw [((output_of_helpWanted hread).2.2 line hline)] at h
    cases h
  | _ =>
    -- nothing was written, and an empty line tells of no chunk
    rw [houtcome] at hline
    rw [List.mem_singleton.1 hline] at h
    exact absurd h nofun

/-- **What a command writes.**  Words that are understood make a run.  If the output takes its
summary, a run writes a line for each chunk of which the line was taken and one for the summary,
and these lines give back the chunks, with the paths of their files and in order, and the summary.
If the output refuses the summary, the lines of the chunks are there all the same, and the run
fails.  Asked for help, a command writes the help instead, in which no line is a value. -/
theorem runCommand_lines (encodings : EncodingSource) {σ : Type} [TextSink σ]
    (read : String → Except Failure Bytes) (languages : Languages) (environment : Environment)
    (sink : σ) (texts : List String) :
    let outcome := runCommand encodings read languages environment sink texts
    (∀ arguments, Arguments.read texts = .understood arguments →
      arguments.maxTokens ≠ some .nothing → outcome ≠ .refused →
        ∃ report summary, outcome = .ran report summary) ∧
    (∀ report summary, outcome = .ran report summary →
      (summary.refusal = none → ∃ chunkLines summaryLine,
        report.Told outcome.output chunkLines summaryLine) ∧
      (summary.refusal ≠ none → outcome.exitCode = 1 ∧ ∃ chunkLines rest,
        report.ToldInPart outcome.output chunkLines rest)) ∧
    (Arguments.read texts = .helpWanted → outcome.exitCode = 0 ∧
      (outcome.output = Command.helpText ∨ outcome.output = "") ∧
      ∀ line ∈ Text.lineChars outcome.output.toList, Json.ofChars? line = none) := by
  intro outcome
  refine ⟨fun arguments => exists_runCommand_eq_ran, fun report summary hran => ?_,
    output_of_helpWanted⟩
  · obtain ⟨arguments, flags, settings, calculator, -, -, -, hreport, hsummary⟩ :=
      exists_of_runCommand hran
    have htold := report.told_print
      (runFiles encodings read languages arguments settings calculator sink).2
    rw [← hsummary] at htold
    rw [hran]
    refine ⟨fun htaken => ⟨_, _, htold.1 htaken⟩, fun hrefused => ⟨?_, _, _, (htold.2 hrefused).1⟩⟩
    obtain ⟨text, refusal⟩ := summary
    cases refusal with
    | none => exact absurd rfl hrefused
    | some failure => rfl

/-- A file whose name and contents hold what has to be escaped, and what ends a line elsewhere. -/
def quotedFile : Workspace where
  files := [{
    path := "\"\\\n.py"
    contents := "\"\\\n\r\t\x01\u0085\u2028\uFFFD𝄞".toUTF8.toList }]

theorem quotedFile_lines :
    let outcome := runCommand .byteGroups quotedFile.read (quotedFile.languages Config.standard)
      (fun _ => none) CharacterSet.unicode ["--calculator", "chars", "\"\\\n.py"]
    ∃ report summary chunkLines summaryLine, outcome = .ran report summary ∧
      summary.refusal = none ∧
      report.delivered = [("\"\\\n.py", ⟨"\"\\\n\r\t\x01\u0085\u2028\uFFFD𝄞", 0, 0⟩)] ∧
      report.Told outcome.output chunkLines summaryLine := by
  intro outcome
  have hread : Arguments.read ["--calculator", "chars", "\"\\\n.py"] =
      .understood { paths := ["\"\\\n.py"], calculator := some "chars" } := by decide +kernel
  let done := runFiles .byteGroups quotedFile.read (quotedFile.languages Config.standard)
    { paths := ["\"\\\n.py"], calculator := some "chars" } ⟨512, "chars", none, false⟩
    .characters CharacterSet.unicode
  have houtcome : outcome =
      .ran done.1 (TextSink.print done.2 done.1.summary.record.render) := by
    unfold outcome
    rw [runCommand, hread]
    rfl
  have htaken : (TextSink.print done.2 done.1.summary.record.render).refusal = none := by
    decide +kernel
  obtain ⟨-, htold, -⟩ := runCommand_lines .byteGroups quotedFile.read
    (quotedFile.languages Config.standard) (fun _ => none) CharacterSet.unicode
    ["--calculator", "chars", "\"\\\n.py"]
  obtain ⟨chunkLines, summaryLine, hlines⟩ := (htold _ _ houtcome).1 htaken
  exact ⟨_, _, chunkLines, summaryLine, houtcome, htaken, by decide +kernel, hlines⟩

theorem RunReport.Told.exists_line {run : RunReport} {text : String}
    {chunkLines : List (List Char)} {summaryLine : List Char}
    (h : run.Told text chunkLines summaryLine) :
    ∃ line ∈ Text.lineChars text.toList, (Json.ofChars? line).isSome = true := by
  refine ⟨summaryLine, by simp [h.lines], ?_⟩
  have hsummary := h.summary
  cases hvalue : Json.ofChars? summaryLine with
  | some json => rfl
  | none =>
    rw [hvalue] at hsummary
    cases hsummary

/-- Not every command that is not refused has a summary: one that asks for help has none, and
neither has a run whose output has no codes for what it says. -/
theorem help_and_unwritable_untold :
    let read := quotedFile.read
    let languages := quotedFile.languages Config.standard
    let help := runCommand .byteGroups read languages (fun _ => none) CharacterSet.unicode
      ["--help"]
    let unwritable := runCommand .byteGroups read languages (fun _ => none) CharacterSet.ascii
      ["é.py"]
    (help ≠ .refused ∧ ¬ ∃ report chunkLines summaryLine,
        RunReport.Told report help.output chunkLines summaryLine) ∧
      unwritable ≠ .refused ∧ unwritable.output = "" ∧ ¬ ∃ report chunkLines summaryLine,
        RunReport.Told report unwritable.output chunkLines summaryLine := by
  intro read languages help unwritable
  -- there is no line with a value, so none with a summary
  have huntold : ∀ {text}, (∀ line ∈ Text.lineChars text.toList, Json.ofChars? line = none) →
      ¬ ∃ report chunkLines summaryLine, RunReport.Told report text chunkLines summaryLine := by
    rintro text hnone ⟨report, chunkLines, summaryLine, htold⟩
    obtain ⟨line, hline, hvalue⟩ := htold.exists_line
    rw [hnone line hline] at hvalue
    cases hvalue
  have hasked : Arguments.read ["--help"] = .helpWanted := by decide +kernel
  obtain ⟨hhelpExit, -, hhelp⟩ : help.exitCode = 0 ∧ _ ∧
      ∀ line ∈ Text.lineChars help.output.toList, Json.ofChars? line = none :=
    output_of_helpWanted hasked
  obtain ⟨houtput, hexit⟩ : unwritable.output = "" ∧ unwritable.exitCode = 1 := by
    decide +kernel
  refine ⟨⟨?_, huntold hhelp⟩, ?_, houtput, huntold ?_⟩
  · intro hrefused
    rw [hrefused] at hhelpExit
    exact absurd hhelpExit (by decide)
  · intro hrefused
    rw [hrefused] at hexit
    exact absurd hexit (by decide)
  · rw [houtput]
    intro line hline
    rw [List.mem_singleton.1 hline]
    rfl

end SourceChunks
