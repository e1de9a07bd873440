import Std.Data.TreeMap.Basic
import SourceChunks.Calculator.Basic
import SourceChunks.Text.Lowercase

/-!
# The registry of calculators

Calculators are made by factories, which are registered under names.  Blanks around a name
and its case do not matter; a blank name cannot be registered.  A factory gets the name of
an encoding if one was given, and may refuse.
-/

namespace SourceChunks

/-- Makes a calculator, for the encoding of that name if one is given. -/
abbrev CalculatorFactory := Option String → Except Failure Calculator

/-- Factories by name. -/
structure CalculatorRegistry where
  factories : Std.TreeMap String CalculatorFactory

namespace CalculatorRegistry

/-- The calculator that is made when none is named. -/
def defaultName : String := "tiktoken"

/-- Registers what was given as a factory, `none` if it makes no calculators.  A blank name
is refused before that. -/
def register (registry : CalculatorRegistry) (name : Option String)
    (factory : Option CalculatorFactory) : Except Failure CalculatorRegistry :=
  let key := Text.normalName name
  if key = "" then .error .blankCalculatorName
  else
    match factory with
    | none => .error .notAFactory
    | some factory => .ok ⟨registry.factories.insert key factory⟩

/-- Takes a name out of the registry, if it is in it. -/
def unregister (registry : CalculatorRegistry) (name : Option String) : CalculatorRegistry :=
  ⟨registry.factories.erase (Text.normalName name)⟩

/-- The factory registered under a name. -/
def get? (registry : CalculatorRegistry) (name : Option String) : Option CalculatorFactory :=
  registry.factories[Text.normalName name]?

/-- The names that are registered, in order. -/
def available (registry : CalculatorRegistry) : List String :=
  registry.factories.keys

/-- The name under which a calculator is looked up; a blank name means the default. -/
def keyFor (name : Option String) : String :=
  let key := Text.normalName name
  if key = "" then defaultName else key

/-- Makes a calculator. -/
def create (registry : CalculatorRegistry) (name encoding : Option String) :
    Except Failure Calculator :=
  match registry.get? (some (keyFor name)) with
  | some factory => factory encoding
  | none => .error (.unsupportedCalculator name)

/-- The names that are registered from the start. -/
def builtinFactories : List (String × CalculatorFactory) :=
  [("tiktoken", fun encoding => .ok (.ofEncoding encoding)),
    ("openai", fun encoding => .ok (.ofEncoding encoding)),
    ("chars", fun _ => .ok .characters),
    ("characters", fun _ => .ok .characters)]

/-- The registry as it is at the start. -/
def builtin : CalculatorRegistry :=
  ⟨.ofList builtinFactories⟩

end CalculatorRegistry

end SourceChunks
