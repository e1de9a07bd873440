import SourceChunks.Proofs.Text.Numeral
import SourceChunks.Settings

/-!
# Where settings come from

A setting has a flag and a variable.  What it comes to depends on nothing else, and on the variable
only where the flag is absent (`SameSource`, `GoesBy`): other flags and variables may be anything,
and may be wrong.  What may be wrong is a budget, so a budget of one's own by flag also keeps a
malformed variable from being looked at.

A variable is stripped and then read, while a flag gives a number that was read before.  That
these agree on every spelling of a number is where the reading of numerals comes in
(`Text.integer?_strip`).  All of it together is `resolve_goesBySources`.
-/

namespace SourceChunks

/-- In the second environment the variable has more blanks around it, if anything. -/
def Environment.Padded (environment padded : Environment) (name : String) : Prop :=
  ∃ left right : String, (∀ char ∈ left.toList, Text.isBlank char = true) ∧
    (∀ char ∈ right.toList, Text.isBlank char = true) ∧
    (padded name).getD "" = left ++ (environment name).getD "" ++ right

/-- Two runs take a setting from the same source: they have the same flag for it and, if that is
absent, the same variable. -/
structure SameSource {α : Type} (Absent : α → Prop) (name : String) (given given' : α)
    (environment environment' : Environment) : Prop where
  flag : given = given'
  fallback : Absent given → environment name = environment' name

/-- The flag gives no text. -/
def GivesNoText (flag : Option String) : Prop :=
  flag = none ∨ flag = some ""

/-- What decides on the budget: the flag, if there is one, and else the variable. -/
def SettingFlags.rawBudget (flags : SettingFlags) (environment : Environment) : RawBudget :=
  flags.budget.getD (.text (environment.value Settings.budgetVariable))

namespace Environment

/-- Blanks around a variable are no part of its value. -/
theorem Padded.value_eq {environment padded : Environment} {name : String}
    (h : environment.Padded padded name) : padded.value name = environment.value name := by
  obtain ⟨left, right, hleft, hright, heq⟩ := h
  rw [value, heq, Text.strip_padded hleft hright, value]

end Environment

theorem firstText_of_text {text : String} (h : text ≠ "") (fallback : String) :
    firstText (some text) fallback = some text := by
  unfold firstText
  split
  · contradiction
  · next heq => exact absurd (Option.some.inj heq) h
  · next heq => exact heq.symm

theorem firstText_of_givesNoText {flag : Option String} (h : GivesNoText flag)
    (fallback : String) :
    firstText flag fallback = if fallback = "" then none else some fallback := by
  rcases h with rfl | rfl <;> rfl

/-- The text of a flag counts, and that of a variable only if the flag gives none. -/
theorem firstText_eq {flag flag' : Option String} {name : String}
    {environment environment' : Environment}
    (h : SameSource GivesNoText name flag flag' environment environment') :
    firstText flag (environment.value name) = firstText flag' (environment'.value name) := by
  obtain ⟨rfl, hfallback⟩ := h
  by_cases habsent : GivesNoText flag
  · rw [Environment.value, hfallback habsent, Environment.value]
  · cases flag with
    | none => exact absurd (Or.inl rfl) habsent
    | some text =>
      have hne : text ≠ "" := fun hempty => habsent (Or.inr (congrArg some hempty))
      rw [firstText_of_text hne, firstText_of_text hne]

namespace Settings

/-- A setting goes by its flag and its variable: two runs that have the same source for it come to
the same. -/
def GoesBy {α β : Type} (resolve : SettingFlags → Environment → Except Failure Settings)
    (setting : Settings → β) (flag : SettingFlags → α) (Absent : α → Prop) (name : String) : Prop :=
  ∀ (flags flags' : SettingFlags) (environment environment' : Environment)
    (settings settings' : Settings),
    SameSource Absent name (flag flags) (flag flags') environment environment' →
      resolve flags environment = .ok settings → resolve flags' environment' = .ok settings' →
        setting settings = setting settings'

/-- A text by flag is taken as it is, without one what the variable holds, and without either a
default. -/
structure TakesText (flag : Option String) (name : String) (environment : Environment)
    (default? taken? : Option String) : Prop where
  given : ∀ text, text ≠ "" → flag = some text → taken? = some text
  held : GivesNoText flag → environment.value name ≠ "" → taken? = some (environment.value name)
  default : GivesNoText flag → environment.value name = "" → taken? = default?

/-- How settings depend on flags and variables. -/
structure GoesBySources (resolve : SettingFlags → Environment → Except Failure Settings) :
    Prop where
  /-- Whether there is a budget, and which, depends on the source of the budget alone. -/
  budget : ∀ (flags flags' : SettingFlags) (environment environment' : Environment),
    SameSource (· = none) budgetVariable flags.budget flags'.budget environment environment' →
      (resolve flags environment).map (·.budget) = (resolve flags' environment').map (·.budget)
  calculator :
    GoesBy resolve Settings.calculator SettingFlags.calculator GivesNoText calculatorVariable
  encoding : GoesBy resolve Settings.encoding SettingFlags.encoding GivesNoText encodingVariable
  coalesce : GoesBy resolve Settings.coalesce SettingFlags.coalesce (· = false) coalesceVariable
  /-- What a run comes to that has a budget. -/
  taken : ∀ (flags : SettingFlags) (environment : Environment) (settings : Settings),
    resolve flags environment = .ok settings →
      TakesText flags.calculator calculatorVariable environment
          (some CalculatorRegistry.defaultName) (some settings.calculator) ∧
        TakesText flags.encoding encodingVariable environment none settings.encoding ∧
        (settings.coalesce = true ↔
          flags.coalesce = true ∨ environment.affirms coalesceVariable = true)
  /-- Blanks around the variables make no difference. -/
  blanks : ∀ (flags : SettingFlags) (environment padded : Environment),
    (∀ name ∈ [budgetVariable, calculatorVariable, encodingVariable, coalesceVariable],
      environment.Padded padded name) → resolve flags padded = resolve flags environment
  /-- A number by flag and any spelling of it by the variable are the same budget. -/
  numeral : ∀ (flags : SettingFlags) (environment : Environment) (value : Int) (spelling : String),
    Text.integer? spelling = some value → environment budgetVariable = some spelling →
      (resolve { flags with budget := none } environment).map (·.budget) = .ok value ∧
        resolve { flags with budget := some (.number value) } environment =
          resolve { flags with budget := none } environment
  unset : ∀ (flags : SettingFlags) (environment : Environment),
    flags.rawBudget environment = .text "" →
      (resolve flags environment).map (·.budget) = .ok defaultBudget
  /-- All that fails is a budget that is neither empty nor a number. -/
  failure : ∀ (flags : SettingFlags) (environment : Environment) (failure : Failure),
    resolve flags environment = .error failure ↔ ∃ text,
      flags.rawBudget environment = .text text ∧ text ≠ "" ∧ Text.integer? text = none ∧
        failure = .budgetNotAnInteger text

variable {flags : SettingFlags} {environment : Environment} {settings : Settings}

theorem takesText_firstText (flag : Option String) (name : String) (environment : Environment) :
    TakesText flag name environment none (firstText flag (environment.value name)) where
  given text hne hflag := by rw [hflag, firstText_of_text hne]
  held hnone hvalue := by rw [firstText_of_givesNoText hnone, if_neg hvalue]
  default hnone hvalue := by rw [firstText_of_givesNoText hnone, if_pos hvalue]

/-- Where nothing is taken there may be a default all the same. -/
theorem TakesText.getD {flag taken? : Option String} {name : String} {environment : Environment}
    (h : TakesText flag name environment none taken?) (default : String) :
    TakesText flag name environment (some default) (some (taken?.getD default)) where
  given text hne hflag := by rw [h.given text hne hflag, Option.getD_some]
  held hnone hvalue := by rw [h.held hnone hvalue, Option.getD_some]
  default hnone hvalue := by rw [h.default hnone hvalue, Option.getD_none]

theorem budgetOfText_of_integer? {text : String} {value : Int}
    (h : Text.integer? text = some value) : budgetOfText text = .ok value := by
  rw [budgetOfText, if_neg (Text.ne_empty_of_integer? h), h]

theorem budgetOfText_eq_error_iff {text : String} {failure : Failure} :
    budgetOfText text = .error failure ↔
      text ≠ "" ∧ Text.integer? text = none ∧ failure = .budgetNotAnInteger text := by
  unfold budgetOfText
  split
  · next hempty => exact ⟨nofun, fun h => absurd hempty h.1⟩
  · next hne =>
    cases Text.integer? text with
    | some value => exact ⟨nofun, nofun⟩
    | none =>
      rw [Except.error.injEq]
      exact ⟨fun h => ⟨hne, rfl, h.symm⟩, fun h => h.2.2.symm⟩

/-- The budget may fail, and all else only goes with it. -/
theorem resolve_eq (flags : SettingFlags) (environment : Environment) :
    resolve flags environment = (resolveBudget flags.budget environment).map fun budget => {
      budget
      calculator := (firstText flags.calculator (environment.value calculatorVariable)).getD
        CalculatorRegistry.defaultName
      encoding := firstText flags.encoding (environment.value encodingVariable)
      coalesce := flags.coalesce || environment.affirms coalesceVariable } := by
  rw [resolve]
  cases resolveBudget flags.budget environment <;> rfl

theorem map_budget_resolve (flags : SettingFlags) (environment : Environment) :
    (resolve flags environment).map (·.budget) = resolveBudget flags.budget environment := by
  rw [resolve_eq]
  cases resolveBudget flags.budget environment <;> rfl

theorem eq_of_resolve (h : resolve flags environment = .ok settings) :
    settings.calculator = (firstText flags.calculator (environment.value calculatorVariable)).getD
        CalculatorRegistry.defaultName ∧
      settings.encoding = firstText flags.encoding (environment.value encodingVariable) ∧
      settings.coalesce = (flags.coalesce || environment.affirms coalesceVariable) := by
  rw [resolve_eq] at h
  cases hbudget : resolveBudget flags.budget environment with
  | error failure =>
    rw [hbudget] at h
    cases h
  | ok budget =>
    rw [hbudget] at h
    obtain rfl := Except.ok.inj h
    exact ⟨rfl, rfl, rfl⟩

theorem resolve_eq_error_iff {failure : Failure} :
    resolve flags environment = .error failure ↔
      resolveBudget flags.budget environment = .error failure := by
  rw [resolve_eq]
  cases resolveBudget flags.budget environment with
  | error other => rw [Except.map, Except.error.injEq, Except.error.injEq]
  | ok budget => exact ⟨nofun, nofun⟩

/-- What decides on the budget is read, if it is a text. -/
theorem resolveBudget_eq (flags : SettingFlags) (environment : Environment) :
    resolveBudget flags.budget environment =
      match flags.rawBudget environment with
      | .number value => .ok value
      | .text text => budgetOfText text := by
  unfold resolveBudget SettingFlags.rawBudget
  cases flags.budget with
  | none => rfl
  | some raw => cases raw <;> rfl

theorem resolveBudget_eq_error_iff {failure : Failure} :
    resolveBudget flags.budget environment = .error failure ↔ ∃ text,
      flags.rawBudget environment = .text text ∧ text ≠ "" ∧ Text.integer? text = none ∧
        failure = .budgetNotAnInteger text := by
  rw [resolveBudget_eq]
  cases flags.rawBudget environment with
  | number value =>
    refine ⟨nofun, ?_⟩
    rintro ⟨text, heq, -⟩
    cases heq
  | text given =>
    refine budgetOfText_eq_error_iff.trans ⟨fun h => ⟨given, rfl, h⟩, ?_⟩
    rintro ⟨text, heq, h⟩
    obtain rfl := RawBudget.text.inj heq
    exact h

/-- **Flag and variable agree, and a flag silences its variable.**  For all flags and all
environments. -/
theorem resolve_goesBySources : GoesBySources resolve where
  budget flags flags' environment environment' h := by
    rw [map_budget_resolve, map_budget_resolve, ← h.flag]
    unfold resolveBudget
    split
    · rfl
    · rfl
    · next habsent => rw [Environment.value, h.fallback habsent, Environment.value]
  calculator flags flags' environment environment' settings settings' h hrun hrun' := by
    rw [(eq_of_resolve hrun).1, (eq_of_resolve hrun').1, firstText_eq h]
  encoding flags flags' environment environment' settings settings' h hrun hrun' := by
    rw [(eq_of_resolve hrun).2.1, (eq_of_resolve hrun').2.1, firstText_eq h]
  coalesce flags flags' environment environment' settings settings' h hrun hrun' := by
    rw [(eq_of_resolve hrun).2.2, (eq_of_resolve hrun').2.2, ← h.flag]
    cases hflag : flags.coalesce with
    | true => rw [Bool.true_or, Bool.true_or]
    | false =>
      rw [Environment.affirms, Environment.value, h.fallback hflag, Environment.affirms,
        Environment.value]
  taken flags environment settings hrun := by
    obtain ⟨hcalculator, hencoding, hcoalesce⟩ := eq_of_resolve hrun
    rw [hcalculator, hencoding, hcoalesce, Bool.or_eq_true]
    exact ⟨(takesText_firstText _ _ _).getD _, takesText_firstText _ _ _, Iff.rfl⟩
  blanks flags environment padded h := by
    simp only [List.forall_mem_cons, List.not_mem_nil, false_imp_iff, implies_true, and_true] at h
    obtain ⟨hbudget, hcalculator, hencoding, hcoalesce⟩ := h
    have hraw : resolveBudget flags.budget padded = resolveBudget flags.budget environment := by
      unfold resolveBudget
      rw [hbudget.value_eq]
    rw [resolve_eq, resolve_eq, hraw, hcalculator.value_eq, hencoding.value_eq,
      Environment.affirms, hcoalesce.value_eq, Environment.affirms]
  numeral flags environment value spelling hspelling hvariable := by
    have hvalue : environment.value budgetVariable = Text.strip spelling := by
      rw [Environment.value, hvariable, Option.getD_some]
    have hbudget : resolveBudget none environment = .ok value := by
      rw [resolveBudget, hvalue, budgetOfText_of_integer? (Text.integer?_strip hspelling)]
    refine ⟨(map_budget_resolve _ _).trans hbudget, ?_⟩
    rw [resolve_eq, resolve_eq, hbudget, resolveBudget]
  unset flags environment h := by
    rw [map_budget_resolve, resolveBudget_eq, h]
    rfl
  failure flags environment failure := resolve_eq_error_iff.trans resolveBudget_eq_error_iff

/-- Ten below nought in digits of another script, among blanks. -/
theorem resolve_tenBelow :
    (resolve {} fun name => if name = budgetVariable then some "\u2003-١_٠\n" else none).map
      (·.budget) = .ok (-10) :=
  (resolve_goesBySources.numeral {} _ (-10) "\u2003-١_٠\n" (by decide) rfl).1

end Settings

end SourceChunks
