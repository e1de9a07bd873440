import SourceChunks.Calculator.Registry
import SourceChunks.Text.Numeral

/-!
# Settings

A run has a token budget, a calculator, an encoding for it, and a wish about comments.
Each comes from a flag or, where the flag is absent, from a variable of the environment, or
is a default where that is absent too.  What counts as absent differs: a budget flag is
absent only if it was not given, the texts also if they are empty, and a variable if it
holds nothing but blanks.
-/

namespace SourceChunks

/-- A budget as a flag gives it. -/
inductive RawBudget where
  | number (value : Int)
  | text (value : String)
  deriving DecidableEq, Repr

/-- The flags that bear on settings. -/
structure SettingFlags where
  budget : Option RawBudget := none
  calculator : Option String := none
  encoding : Option String := none
  coalesce : Bool := false
  deriving DecidableEq, Repr

/-- The variables of the environment. -/
abbrev Environment := String → Option String

/-- The settings of a run. -/
structure Settings where
  budget : Int
  calculator : String
  encoding : Option String
  coalesce : Bool
  deriving DecidableEq, Repr

namespace Environment

/-- The value of a variable without blanks around it; nothing if it is not set. -/
def value (environment : Environment) (name : String) : String :=
  Text.strip ((environment name).getD "")

/-- Does a variable say yes? -/
def affirms (environment : Environment) (name : String) : Bool :=
  ["1", "true", "yes", "on"].contains (Text.lowercase (environment.value name))

end Environment

/-- The text of a flag or, where that is absent or empty, of its variable; an empty text is
none. -/
def firstText (flag : Option String) (fallback : String) : Option String :=
  match flag with
  | none | some "" => if fallback = "" then none else some fallback
  | some text => some text

namespace Settings

/-- The budget where none is set. -/
def defaultBudget : Int := 512

/-- The variable for the budget. -/
def budgetVariable : String := "CODE_CHUNKER_MAX_TOKENS"

/-- The variable for the calculator. -/
def calculatorVariable : String := "CODE_CHUNKER_CALCULATOR"

/-- The variable for the encoding. -/
def encodingVariable : String := "CODE_CHUNKER_ENCODING"

/-- The variable for the wish that runs of comments be put together. -/
def coalesceVariable : String := "CODE_CHUNKER_COALESCE_COMMENTS"

/-- The budget a text spells; an empty text sets none. -/
def budgetOfText (text : String) : Except Failure Int :=
  if text = "" then .ok defaultBudget
  else
    match Text.integer? text with
    | some budget => .ok budget
    | none => .error (.budgetNotAnInteger text)

/-- The budget, by its flag and its variable. -/
def resolveBudget (flag : Option RawBudget) (environment : Environment) : Except Failure Int :=
  match flag with
  | some (.number value) => .ok value
  | some (.text value) => budgetOfText value
  | none => budgetOfText (environment.value budgetVariable)

/-- The settings, by flags and environment. -/
def resolve (flags : SettingFlags) (environment : Environment) : Except Failure Settings := do
  let budget ← resolveBudget flags.budget environment
  return {
    budget
    calculator := (firstText flags.calculator (environment.value calculatorVariable)).getD
      CalculatorRegistry.defaultName
    encoding := firstText flags.encoding (environment.value encodingVariable)
    coalesce := flags.coalesce || environment.affirms coalesceVariable }

end Settings

end SourceChunks
