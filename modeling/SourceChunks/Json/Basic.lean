/-!
# JSON values

The values of the data format in which settings are read and chunks are written.  Numbers
are whole, since nothing here is measured in fractions, and the fields of an object keep
their order, since later fields overrule earlier ones of the same name.
-/

namespace SourceChunks

/-- A JSON value. -/
inductive Json where
  | null
  | bool (value : Bool)
  | number (value : Int)
  | string (value : String)
  | array (items : List Json)
  | object (fields : List (String × Json))
  deriving Inhabited

namespace Json

/-- The name of the kind of a value. -/
def kind : Json → String
  | null => "NoneType"
  | bool _ => "bool"
  | number _ => "int"
  | string _ => "str"
  | array _ => "list"
  | object _ => "dict"

/-- Has the value no parts? -/
def isPlain : Json → Bool
  | array _ | object _ => false
  | _ => true

/-- The value of the last field of that name. -/
def field? (name : String) : Json → Option Json
  | object fields => (fields.reverse.find? (·.1 == name)).map (·.2)
  | _ => none

/-- The value of a field, or null if there is none. -/
def field (json : Json) (name : String) : Json :=
  (json.field? name).getD null

/-- The text of a string. -/
def string? : Json → Option String
  | string value => some value
  | _ => none

/-- The value of a number. -/
def int? : Json → Option Int
  | number value => some value
  | _ => none

/-- The value of a number that is not negative. -/
def nat? : Json → Option Nat
  | number (.ofNat value) => some value
  | _ => none

/-- The items of an array. -/
def array? : Json → Option (List Json)
  | array items => some items
  | _ => none

/-- The fields of an object. -/
def object? : Json → Option (List (String × Json))
  | object fields => some fields
  | _ => none

/-- The texts of an array of strings. -/
def strings? (json : Json) : Option (List String) := do
  (← json.array?).mapM string?

/-- A value that may be missing. -/
def ofOption {α : Type} (write : α → Json) : Option α → Json
  | some value => write value
  | none => null

/-- An array of strings. -/
def ofStrings (texts : List String) : Json :=
  array (texts.map string)

end Json

end SourceChunks
