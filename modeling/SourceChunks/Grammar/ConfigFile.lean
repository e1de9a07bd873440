import SourceChunks.Grammar.Config

/-!
# Configuration files

A configuration is read from an object with two fields, one for the extensions and one for
the tables; either may be missing.  An extension is put in lower case, and what stands for
its language is taken as a text, whatever it is.  What a field of a table lists is kept as
it is written.
-/

namespace SourceChunks

mutual

/-- The text a value has when it stands where a text is expected. -/
def Json.spelling : Json → String
  | .string value => value
  | .null => "None"
  | .bool true => "True"
  | .bool false => "False"
  | .number value => toString value
  | .array items => "[" ++ ", ".intercalate (Json.itemSpellings items) ++ "]"
  | .object fields => "\x7b" ++ ", ".intercalate (Json.fieldSpellings fields) ++ "\x7d"

/-- The texts of the items of an array, strings in quotes. -/
def Json.itemSpellings : List Json → List String
  | [] => []
  | .string value :: items => Text.quoted value :: Json.itemSpellings items
  | item :: items => item.spelling :: Json.itemSpellings items

/-- The texts of the fields of an object, strings in quotes. -/
def Json.fieldSpellings : List (String × Json) → List String
  | [] => []
  | (name, .string value) :: fields =>
    (Text.quoted name ++ ": " ++ Text.quoted value) :: Json.fieldSpellings fields
  | (name, value) :: fields =>
    (Text.quoted name ++ ": " ++ value.spelling) :: Json.fieldSpellings fields

end

namespace Config

/-- The entries a field gives.  A string gives its characters, and an object the names of its
fields. -/
def entriesOfJson : Json → Except Failure (List Json)
  | .array items => .ok items
  | .string value => .ok (value.toList.map fun char => .string (String.singleton char))
  | .object fields => .ok (fields.map fun field => .string field.1)
  | json => .error (.notAList json.kind)

/-- The fields of an object, where one is expected. -/
def fieldsOfJson (json : Json) : Except Failure (List (String × Json)) :=
  (json.object?.map .ok).getD (.error (.notATable json.kind))

/-- Reads a table of entries. -/
def tableOfJson (json : Json) : Except Failure TypeTable := do
  let fields ← fieldsOfJson json
  let entries ← fields.mapM fun (field, value) => (field, ·) <$> entriesOfJson value
  return .ofList entries

/-- Reads the tables of all languages. -/
def tablesOfJson (json : Json) : Except Failure (Std.TreeMap String TypeTable) := do
  let fields ← fieldsOfJson json
  let tables ← fields.mapM fun (language, table) => (language, ·) <$> tableOfJson table
  return .ofList tables

/-- Reads the extensions, in lower case; of two that agree in lower case the later wins. -/
def extensionsOfJson (json : Json) : Except Failure (Std.TreeMap String String) := do
  let fields ← fieldsOfJson json
  return .ofList (fields.map fun (name, language) => (Text.lowercase name, language.spelling))

/-- Reads a configuration, in which a table of defaults has to be. -/
def ofJson (json : Json) : Except Failure Config := do
  let _ ← fieldsOfJson json
  let extensions ← extensionsOfJson ((json.field? "extensions").getD (.object []))
  let tables ← tablesOfJson ((json.field? "profiles").getD (.object []))
  if tables.contains defaultTable then return { extensions, tables }
  else throw .noDefaultProfile

end Config

end SourceChunks
