import SourceChunks.Proofs.Calculator.Costs
import SourceChunks.Proofs.CommandLine.Files
import SourceChunks.Proofs.CommandLine.Output
import SourceChunks.Proofs.Walk.Lossless

/-!
# Files that fail have written nothing

Chunks are written while the file is still being chunked, so a failure could come too late.  Of
what can be in the way of a file nothing does.  It is met in a fixed order (`FileJob.obstacle?`):
the limit, the file itself, its language, the roles of its node types, its grammar, and last the
calculator.  The calculator is asked what the root costs before anything is delivered, and from
there on nothing fails any more but the writing of lines.

* `ChunkWalk.exists_chunks_eq_price`: every walk begins with the cost of the root.
* `FileJob.report_cases`: a file fails exactly with what is in its way, and then it has no
  chunks, or the output refuses a line of it.
* `FileJob.exists_lineRefused`: what is in the way of a path is the same each time that it is
  named, so one that failed though it delivered a chunk had a line refused.
* `runCommand_failed`: so no line of a run tells of a chunk of a path that failed, unless the
  output refused a line of that path.  That does happen (`accentedFile_told_and_failed`).
-/

namespace SourceChunks

/-! ## The first question of a walk -/

/-- **A walk begins with the cost of the root.** -/
theorem ChunkWalk.exists_chunks_eq_price (walk : ChunkWalk) {tree : Tree (Nat × Node)}
    (h : walk.arena.HasTree tree) :
    ∃ rest, walk.chunks = .price (walk.arena.nodeText tree.label.2) rest := by
  rw [walk.chunks_eq_visitTree_of_hasTree h]
  exact ⟨_, rfl⟩

/-- A file of a known language is walked as soon as its grammar was asked for: the walk begins
with a question, and comes to its end whatever the costs. -/
theorem Languages.exists_chunkFile_eq {languages : Languages} {path language : String}
    {profile : Profile} {parser : Bytes → Tree Symbol} {contents : Bytes} (budget : Int)
    (coalesce : Bool) (hblank : isBlankFile contents = false)
    (hlanguage : languages.config.languageOfPath? path = some language)
    (hprofile : languages.config.profile (some language) = .ok profile)
    (hparser : languages.parsers language = some parser) :
    ∃ text rest, languages.chunkFile budget coalesce path contents =
        .request language (.price text rest) ∧
      ∀ cost, ((Producer.price text rest).run none (CostFunction.mk cost)).ending = .done () := by
  obtain ⟨arena, tree, harena, -, htidy, -⟩ := Arena.exists_prepared contents (parser contents)
    (if coalesce then some (profile.types .comments) else none)
  rw [← ChunkWalk.prepared_ofParse] at harena
  let walk : ChunkWalk := ⟨arena, profile, budget⟩
  obtain ⟨rest, hwalk⟩ := walk.exists_chunks_eq_price htidy.hasTree
  refine ⟨walk.arena.nodeText tree.label.2, rest, ?_, fun cost => ?_⟩
  · rw [ChunkWalk.chunkFile_eq budget hlanguage hprofile hparser hblank harena, ← hwalk]
  · rw [← hwalk]
    exact (walk.run_eq_deliveries cost htidy.isTree).1

/-! ## What is in the way of a file -/

/-- Why the contents of a file cannot be chunked, if they cannot, where texts have these
costs. -/
def Languages.obstacle? (languages : Languages) (path : String) (contents : Bytes)
    (costs : Except Failure (String → Int)) : Option Failure :=
  if isBlankFile contents then none
  else
    match languages.config.languageOfPath? path with
    | none => some (.unsupportedFile path)
    | some language =>
      match languages.config.profile (some language), languages.parsers language, costs with
      | .error failure, _, _ => some failure
      | .ok _, none, _ => some (.noGrammar language)
      | .ok _, some _, .error failure => some failure
      | .ok _, some _, .ok _ => none

/-- Why a file cannot be processed, if it cannot.  A file of which no chunk is wanted is not even
looked for. -/
def FileJob.obstacle? (job : FileJob) (path : String) (costs : Except Failure (String → Int)) :
    Option Failure :=
  match chunkLimit job.limit with
  | .error failure => some failure
  | .ok (some 0) => none
  | .ok _ =>
    match job.read path with
    | .error failure => some failure
    | .ok contents => job.languages.obstacle? path contents costs

/-- A run ends with nothing in its way, or fails with what is in its way before any chunk. -/
def Trace.Meets {κ α : Type} (trace : Trace κ α) (obstacle : Option Failure) : Prop :=
  trace.failure? = obstacle ∧ (obstacle ≠ none → trace.chunks = [])

theorem Producer.meets_fail {κ α : Type} [TokenCalculator κ] (failure : Failure) (calculator : κ)
    {limit : Option Nat} (hlimit : limit ≠ some 0) :
    ((Producer.fail failure : Producer α).run limit calculator).Meets (some failure) := by
  rw [run, if_neg hlimit]
  exact ⟨rfl, fun _ => rfl⟩

theorem Producer.meets_request {κ α : Type} [TokenCalculator κ] {rest : Producer α}
    {calculator : κ} {limit : Option Nat} {obstacle : Option Failure} (language : String)
    (hlimit : limit ≠ some 0) (h : (rest.run limit calculator).Meets obstacle) :
    ((Producer.request language rest).run limit calculator).Meets obstacle := by
  rw [run, if_neg hlimit]
  exact h

/-- **The contents of a file** are chunked, or what is in the way shows before any chunk. -/
theorem Languages.meets_chunkFile [EncodingSource] (languages : Languages) (budget : Int)
    (coalesce : Bool) (path : String) (contents : Bytes) (calculator : Calculator)
    {limit : Option Nat} (hlimit : limit ≠ some 0) :
    ((languages.chunkFile budget coalesce path contents).run limit calculator).Meets
      (languages.obstacle? path contents calculator.costs) := by
  unfold obstacle?
  by_cases hblank : isBlankFile contents = true
  · rw [chunkFile, if_pos hblank, if_pos hblank, Producer.pure_eq, Producer.run, if_neg hlimit]
    exact ⟨rfl, fun h => absurd rfl h⟩
  · rw [if_neg hblank]
    cases hlanguage : languages.config.languageOfPath? path with
    | none =>
      rw [chunkFile, if_neg hblank, hlanguage]
      exact Producer.meets_fail _ calculator hlimit
    | some language =>
      dsimp only
      cases hprofile : languages.config.profile (some language) with
      | error failure =>
        rw [chunkFile, if_neg hblank, hlanguage]
        simp only [hprofile, Producer.ofExcept, Producer.fail_bind]
        exact Producer.meets_fail _ calculator hlimit
      | ok profile =>
        cases hparser : languages.parsers language with
        | none =>
          rw [chunkFile, if_neg hblank, hlanguage]
          simp only [hprofile, Producer.ofExcept, Producer.done_bind, Parsers.parse, hparser,
            Producer.request_bind, Producer.fail_bind]
          exact Producer.meets_request language hlimit (Producer.meets_fail _ calculator hlimit)
        | some parser =>
          obtain ⟨text, rest, hfile, hdone⟩ := exists_chunkFile_eq budget coalesce
            (Bool.eq_false_iff.2 hblank) hlanguage hprofile hparser
          rw [hfile]
          refine Producer.meets_request language hlimit ?_
          cases hcosts : calculator.costs with
          | error failure =>
            rw [Calculator.run_price_of_no_costs hcosts text rest hlimit]
            exact ⟨rfl, fun _ => rfl⟩
          | ok cost =>
            have hending := (Calculator.run_of_costs hcosts (.price text rest) none).2
            rw [hdone cost] at hending
            refine ⟨Producer.failure?_run ?_ limit, fun h => absurd rfl h⟩
            rw [Trace.failure?, hending]

namespace FileJob

variable [EncodingSource] {σ : Type} [TextSink σ]

/-- What delivers the chunks of a file does so, or shows what is in the way before any of them. -/
theorem meets_producer (job : FileJob) (path : String) (calculator : Calculator)
    {wanted limit : Option Nat} (hwanted : chunkLimit job.limit = .ok wanted)
    (hsome : wanted ≠ some 0) (hlimit : limit ≠ some 0) :
    ((job.producer path).run limit calculator).Meets (job.obstacle? path calculator.costs) := by
  have hobstacle : job.obstacle? path calculator.costs =
      match job.read path with
      | .error failure => some failure
      | .ok contents => job.languages.obstacle? path contents calculator.costs := by
    rw [obstacle?, hwanted]
    match wanted, hsome with
    | none, _ => rfl
    | some (_ + 1), _ => rfl
  rw [hobstacle, producer]
  cases job.read path with
  | error failure => exact Producer.meets_fail failure calculator hlimit
  | ok contents =>
    exact job.languages.meets_chunkFile job.budget job.coalesce path contents calculator hlimit

theorem report_of_chunkLimit (job : FileJob) (turn : Turn Calculator σ) {wanted : Option Nat}
    (hwanted : chunkLimit job.limit = .ok wanted) :
    let fed := (job.producer turn.path).feed (LineWriter.take turn.path) wanted turn.calculator
      { sink := turn.sink }
    job.report turn = ⟨turn.path, fed.1.chunks, fed.2.count, fed.1.requests, fed.1.failure?⟩ := by
  rw [report, processFile, hwanted]

/-- Nothing is in the way of the file, but the output refuses the line of a chunk, which is the
next after those that it took. -/
structure LineRefused (job : FileJob) (turn : Turn Calculator σ) (chunk : Chunk)
    (failure : Failure) : Prop where
  unobstructed : job.obstacle? turn.path turn.calculator.costs = none
  next : ((job.producer turn.path).run (some ((job.report turn).chunks.length + 1))
    turn.calculator).chunks = (job.report turn).chunks ++ [chunk]
  refused : ∃ before, Takes (LineWriter.take turn.path) { sink := turn.sink }
    (job.report turn).chunks before ∧
      (TextSink.write before.sink (outputLine (chunk.record turn.path))).1 = .error failure
  failed : (job.report turn).failure = some failure

/-- Where the line writer refuses a chunk of a file, nothing else was in its way. -/
theorem lineRefused_of_refuses {job : FileJob} {turn : Turn Calculator σ} {wanted : Option Nat}
    (hwanted : chunkLimit job.limit = .ok wanted) (hsome : wanted ≠ some 0) {chunk : Chunk}
    {failure : Failure} (h : (job.producer turn.path).Refuses (LineWriter.take turn.path) wanted
      turn.calculator { sink := turn.sink } ((job.producer turn.path).feed
        (LineWriter.take turn.path) wanted turn.calculator { sink := turn.sink }) chunk failure) :
    job.LineRefused turn chunk failure := by
  have hreport := job.report_of_chunkLimit turn hwanted
  dsimp only at hreport
  obtain ⟨before, htaken, hrefused⟩ := h.taken
  refine ⟨?_, ?_, ⟨before, ?_, ?_⟩, ?_⟩
  · -- the run that ends with the refused chunk has not failed
    obtain ⟨hfailure, -⟩ := job.meets_producer turn.path turn.calculator hwanted hsome
      (Option.some_inj.not.2 (Nat.succ_ne_zero _))
    rw [h.run] at hfailure
    exact hfailure.symm
  · rw [hreport, h.run]
    simp [Trace.chunks, Event.chunk?]
  · rw [hreport]
    exact htaken
  · rw [(LineWriter.write_of_refused hrefused).1]
  · rw [hreport]
    show Trace.failure? _ = _
    rw [Trace.failure?, h.ending]

/-- **How a file fares in its turn.**  It fails with what is in its way, and then it has no
chunks, or the output refuses a line. -/
theorem report_cases (job : FileJob) (turn : Turn Calculator σ) :
    (job.report turn).failure = job.obstacle? turn.path turn.calculator.costs ∧
        ((job.report turn).failed = true → (job.report turn).chunks = []) ∨
      ∃ chunk failure, job.LineRefused turn chunk failure := by
  cases hwanted : chunkLimit job.limit with
  | error failure =>
    left
    rw [report, processFile, obstacle?, hwanted]
    exact ⟨rfl, fun _ => rfl⟩
  | ok wanted =>
    have hreport := job.report_of_chunkLimit turn hwanted
    dsimp only at hreport
    by_cases hnone : wanted = some 0
    · left
      subst hnone
      rw [hreport, obstacle?, hwanted, Producer.feed_zero]
      exact ⟨rfl, fun _ => rfl⟩
    obtain ⟨hrun, -⟩ | ⟨chunk, failure, hrefuses⟩ := (job.producer turn.path).feed_cases
      (LineWriter.take turn.path) wanted turn.calculator { sink := turn.sink }
    · left
      obtain ⟨hfailure, hchunks⟩ :=
        job.meets_producer turn.path turn.calculator hwanted hnone hnone
      rw [← hrun] at hfailure hchunks
      rw [hreport]
      refine ⟨hfailure, fun hfailed => hchunks ?_⟩
      rw [← hfailure]
      exact Option.isSome_iff_ne_none.1 hfailed
    · exact .inr ⟨chunk, failure, lineRefused_of_refuses hwanted hnone hrefuses⟩

end FileJob

/-! ## The run -/

section

variable [EncodingSource] {σ : Type} [TextSink σ] {job : FileJob} {calculator : Calculator}
  {sink : σ} {paths : List String}

/-- A path that failed, though a chunk of it was delivered, had a line refused. -/
theorem FileJob.exists_lineRefused (hsteady : TokenCalculator.Steady calculator) {path : String}
    {file : FileReport} (hfailed : path ∈ (job.processFiles calculator sink paths).failed)
    (hfile : file ∈ (job.processFiles calculator sink paths).reports) (hpath : file.path = path)
    (hchunks : file.chunks ≠ []) :
    ∃ turn ∈ job.turns calculator sink paths, turn.path = path ∧
      ∃ chunk failure, job.LineRefused turn chunk failure := by
  rw [(job.sums_processFiles calculator sink paths).2, FileReport.failedPaths] at hfailed
  obtain ⟨other, hother, hotherPath⟩ := List.mem_map.1 hfailed
  obtain ⟨hother, hotherFails⟩ := List.mem_filter.1 hother
  rw [reports_eq_turns] at hfile hother
  obtain ⟨told, htold, rfl⟩ := List.mem_map.1 hfile
  obtain ⟨turn, hturn, rfl⟩ := List.mem_map.1 hother
  rw [path_report] at hpath hotherPath
  have hcosts := fun turn hmem => Calculator.costs_of_later
    (job.later_of_mem_turns hsteady .start sink paths turn hmem)
  -- what is in the way of the path is the same in both turns
  obtain ⟨hfailure, -⟩ | hrefused := job.report_cases turn
  · obtain ⟨htoldFailure, hnothing⟩ | hrefused := job.report_cases told
    · have hsame : (job.report told).failure = (job.report turn).failure := by
        rw [htoldFailure, hfailure, hpath, hotherPath, hcosts told htold, hcosts turn hturn]
      have htoldFails : (job.report told).failed = true := by
        rw [FileReport.failed, hsame]
        exact hotherFails
      exact absurd (hnothing htoldFails) hchunks
    · exact ⟨told, htold, hpath, hrefused⟩
  · exact ⟨turn, hturn, hotherPath, hrefused⟩

/-- What a job says of the failures of a run in which the files had these turns. -/
structure FileJob.AccountsFor (job : FileJob) (calculator : Calculator)
    (turns : List (Turn Calculator σ)) (run : RunReport) : Prop where
  files : run.files = turns.map job.report
  /-- A file fails with what is in its way when the run begins, and then it has no chunks, or the
  output refuses a line. -/
  fares : ∀ turn ∈ turns,
    (job.report turn).failure = job.obstacle? turn.path calculator.costs ∧
        ((job.report turn).failed = true → (job.report turn).chunks = []) ∨
      ∃ chunk failure, job.LineRefused turn chunk failure
  /-- Where a path failed of which a chunk was delivered, the output refused a line of it. -/
  refused : ∀ path chunk, (path, chunk) ∈ run.delivered → path ∈ run.summary.failed →
    ∃ turn ∈ turns, turn.path = path ∧ ∃ next failure, job.LineRefused turn next failure

theorem FileJob.accountsFor_runFiles (hsteady : TokenCalculator.Steady calculator)
    {read : String → Except Failure Bytes} {languages : Languages} {arguments : Arguments}
    {settings : Settings} :
    let job := fileJob read languages arguments settings
    job.AccountsFor calculator (job.turns calculator sink arguments.paths)
      (runFiles inferInstance read languages arguments settings calculator sink).1 := by
  intro job
  refine ⟨job.reports_eq_turns calculator sink arguments.paths, fun turn hturn => ?_, ?_⟩
  · rw [← Calculator.costs_of_later
      (job.later_of_mem_turns hsteady .start sink arguments.paths turn hturn)]
    exact job.report_cases turn
  · intro path chunk hdelivered hfailed
    obtain ⟨file, hfile, hchunk⟩ := List.mem_flatMap.1 hdelivered
    obtain ⟨told, htold, heq⟩ := List.mem_map.1 hchunk
    obtain ⟨hpath, -⟩ := Prod.mk.inj heq
    exact exists_lineRefused hsteady hfailed hfile hpath (List.ne_nil_of_mem htold)

/-- An output that takes every text refuses no line. -/
theorem FileJob.not_lineRefused (htakes : TextSink.TakesAll sink) {turn : Turn Calculator σ}
    (hturn : turn ∈ job.turns calculator sink paths) {chunk : Chunk} {failure : Failure} :
    ¬ job.LineRefused turn chunk failure := by
  intro h
  obtain ⟨before, htaken, hrefused⟩ := h.refused
  have hlater := (job.sink_of_mem_turns calculator sink paths turn hturn).trans
    (LineWriter.later_of_takes htaken)
  rw [htakes before.sink hlater] at hrefused
  cases hrefused

end

/-- The job of a run that came to its files accounts for their failures. -/
theorem accountsFor_of_runCommand {encodings : EncodingSource} {σ : Type} [TextSink σ]
    {read : String → Except Failure Bytes} {languages : Languages} {environment : Environment}
    {sink : σ} {texts : List String} {report : RunReport} {summary : Written}
    (h : runCommand encodings read languages environment sink texts = .ran report summary) :
    ∃ arguments flags settings calculator, Arguments.read texts = .understood arguments ∧
      arguments.settingFlags = .ok flags ∧
      prepareRun flags environment = .ok (settings, calculator) ∧
      let job := fileJob read languages arguments settings
      let turns := job.turns calculator sink arguments.paths
      turns.map Turn.path = arguments.paths ∧ job.AccountsFor calculator turns report := by
  obtain ⟨arguments, flags, settings, calculator, hread, hflags, hprepared, rfl, -⟩ :=
    exists_of_runCommand h
  have hsteady : TokenCalculator.Steady calculator := Calculator.steady_of_isFresh
    (CalculatorRegistry.isFresh_of_create (create_of_prepareRun hprepared))
  exact ⟨arguments, flags, settings, calculator, hread, hflags, hprepared,
    FileJob.map_path_turns _ calculator sink arguments.paths,
    FileJob.accountsFor_runFiles hsteady⟩

/-- **Files that fail have written nothing** if the output does not stop them.  Only a run that
comes to its files writes lines that tell of chunks.  Each file that was named has its turn, and
fails with what is in its way before it has delivered anything; or nothing is in its way, but the
output refuses the line of a chunk.  So where a line tells of a chunk of a path that the summary
counts among the failed, the output refused a line of that path, and there is no such line if
it refuses nothing. -/
theorem runCommand_failed (encodings : EncodingSource) {σ : Type} [TextSink σ]
    (read : String → Except Failure Bytes) (languages : Languages) (environment : Environment)
    (sink : σ) (texts : List String) :
    let outcome := runCommand encodings read languages environment sink texts
    (∀ line ∈ Text.lineChars outcome.output.toList, ∀ path chunk,
      (Json.ofChars? line).bind Chunk.ofRecord? = some (path, chunk) →
        ∃ report summary, outcome = .ran report summary ∧ (path, chunk) ∈ report.delivered ∧
          (TextSink.TakesAll sink → path ∉ report.summary.failed)) ∧
    ∀ report summary, outcome = .ran report summary →
      ∃ arguments flags settings calculator, Arguments.read texts = .understood arguments ∧
        arguments.settingFlags = .ok flags ∧
        prepareRun flags environment = .ok (settings, calculator) ∧
        let job := fileJob read languages arguments settings
        let turns := job.turns calculator sink arguments.paths
        turns.map Turn.path = arguments.paths ∧ job.AccountsFor calculator turns report := by
  intro outcome
  refine ⟨fun line hline path chunk hdecoded => ?_, fun report summary hran =>
    accountsFor_of_runCommand hran⟩
  obtain ⟨report, summary, hran, hdelivered⟩ := exists_delivered_of_line hline hdecoded
  refine ⟨report, summary, hran, hdelivered, fun htakes hfailed => ?_⟩
  obtain ⟨_, _, _, calculator, -, -, -, -, haccounts⟩ := accountsFor_of_runCommand hran
  obtain ⟨turn, hturn, -, next, failure, hline⟩ :=
    haccounts.refused path chunk hdelivered hfailed
  exact FileJob.not_lineRefused htakes hturn hline

/-- Two files, of which one has a language and the other does not. -/
def mixedFiles : Workspace where
  files := [{ path := "told.py", contents := "test".toUTF8.toList },
    { path := "untold.xyz", contents := "test".toUTF8.toList }]

theorem mixedFiles_failed :
    let outcome := runCommand .byteGroups mixedFiles.read (mixedFiles.languages Config.standard)
      (fun _ => none) CharacterSet.unicode ["told.py", "untold.xyz", "gone.py", "untold.xyz"]
    ∃ report summary, outcome = .ran report summary ∧
      report.delivered = [("told.py", ⟨"test", 0, 0⟩)] ∧
      report.summary.failed = ["untold.xyz", "gone.py", "untold.xyz"] ∧
      ∀ line ∈ Text.lineChars outcome.output.toList, ∀ path chunk,
        (Json.ofChars? line).bind Chunk.ofRecord? = some (path, chunk) →
          ∃ report summary, outcome = .ran report summary ∧ path ∉ report.summary.failed := by
  intro outcome
  have hread : Arguments.read ["told.py", "untold.xyz", "gone.py", "untold.xyz"] =
      .understood { paths := ["told.py", "untold.xyz", "gone.py", "untold.xyz"] } := by
    decide +kernel
  let done := runFiles .byteGroups mixedFiles.read (mixedFiles.languages Config.standard)
    { paths := ["told.py", "untold.xyz", "gone.py", "untold.xyz"] }
    ⟨512, "tiktoken", none, false⟩ (.ofEncoding none) CharacterSet.unicode
  have houtcome : outcome =
      .ran done.1 (TextSink.print done.2 done.1.summary.record.render) := by
    unfold outcome
    rw [runCommand, hread]
    rfl
  obtain ⟨hlines, -⟩ := runCommand_failed .byteGroups mixedFiles.read
    (mixedFiles.languages Config.standard) (fun _ => none) CharacterSet.unicode
    ["told.py", "untold.xyz", "gone.py", "untold.xyz"]
  have hcame : done.1.delivered = [("told.py", ⟨"test", 0, 0⟩)] ∧
      done.1.summary.failed = ["untold.xyz", "gone.py", "untold.xyz"] := by decide +kernel
  refine ⟨_, _, houtcome, hcame.1, hcame.2, ?_⟩
  intro line hline path chunk hdecoded
  obtain ⟨report, summary, hreport, -, hfailed⟩ := hlines line hline path chunk hdecoded
  exact ⟨report, summary, hreport, hfailed CharacterSet.takesAll_unicode⟩

/-- A file with two functions, of which the second has a letter that ASCII lacks. -/
def accentedFile : Workspace where
  files := [{
    path := "two.py"
    contents := "def f(): pass\ndef g(): return é".toUTF8.toList
    tree := some {
      label := ⟨"module", ⟨0, 32, ⟨0, 0⟩, ⟨1, 18⟩⟩⟩
      children := .ofTrees [
        ⟨⟨"function_definition", ⟨0, 13, ⟨0, 0⟩, ⟨0, 13⟩⟩⟩, .nil⟩,
        ⟨⟨"function_definition", ⟨14, 32, ⟨1, 0⟩, ⟨1, 18⟩⟩⟩, .nil⟩] } }]

/-- An output that lacks a letter of the second chunk has the line of the first, and then the
summary counts the file among the failed. -/
theorem accentedFile_told_and_failed :
    let outcome := runCommand .byteGroups accentedFile.read
      (accentedFile.languages Config.standard) (fun _ => none) CharacterSet.ascii
      ["--max-tokens", "20", "--calculator", "chars", "two.py"]
    ∃ report summary, outcome = .ran report summary ∧ summary.refusal = none ∧
      (∃ line ∈ Text.lineChars outcome.output.toList,
        (Json.ofChars? line).bind Chunk.ofRecord? = some ("two.py", ⟨"def f(): pass", 0, 0⟩)) ∧
      report.summary.failed = ["two.py"] ∧
      report.complaints = ["Failed processing two.py: 'ascii' codec can't encode character " ++
        "'\\xe9' in position 79: ordinal not in range(128)"] := by
  intro outcome
  have hread : Arguments.read ["--max-tokens", "20", "--calculator", "chars", "two.py"] =
      .understood {
        paths := ["two.py"], maxTokens := some (.number 20), calculator := some "chars" } := by
    decide +kernel
  let done := runFiles .byteGroups accentedFile.read (accentedFile.languages Config.standard)
    { paths := ["two.py"], maxTokens := some (.number 20), calculator := some "chars" }
    ⟨20, "chars", none, false⟩ .characters CharacterSet.ascii
  have houtcome : outcome =
      .ran done.1 (TextSink.print done.2 done.1.summary.record.render) := by
    unfold outcome
    rw [runCommand, hread]
    rfl
  refine ⟨_, _, houtcome, ?_⟩
  rw [houtcome]
  decide +kernel

end SourceChunks
