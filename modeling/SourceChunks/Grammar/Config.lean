import Std.Data.TreeMap.Basic
import SourceChunks.Failure
import SourceChunks.Grammar.Path
import SourceChunks.Grammar.Profile

/-!
# The grammar configuration

Languages are data.  A configuration maps file extensions to languages and gives tables of
node types: one of defaults, and one for each language that departs from them.  The profile
of a language is the table of defaults with the fields of the language's own table put in
place of the default ones; a field that neither gives is empty.

Of what stands in a table only the texts name node types.  Numbers, truth values and nulls are
kept and name none; but no profile can be made of a field in which arrays or objects stand.

Extensions are kept in lower case and languages as they are written.  Whoever asks for a
profile may write the language with blanks around it and in any case: it is looked up
without blanks and in lower case.
-/

namespace SourceChunks

/-- The entries for a language, by field name. -/
abbrev TypeTable := Std.TreeMap String (List Json)

/-- Which language a file is in, and which node types play which role in a language. -/
structure Config where
  extensions : Std.TreeMap String String
  tables : Std.TreeMap String TypeTable

namespace TypeTable

/-- The table of these node types. -/
def ofTypes (fields : List (String × List String)) : TypeTable :=
  .ofList (fields.map fun (field, types) => (field, types.map Json.string))

/-- The table with the fields of another put in place of its own. -/
def overlaid (table own : TypeTable) : TypeTable :=
  table.insertMany own.toList

/-- The fields that name no role, in order. -/
def unknownFields (table : TypeTable) : List String :=
  table.keys.filter fun field => !(TypeRole.all.map TypeRole.fieldName).contains field

/-- The first of some entries of which no profile can be made. -/
def nestedEntry? (entries : List Json) : Option Json :=
  entries.find? fun entry => !entry.isPlain

/-- The profile that a table gives to a language, if one can be made of it. -/
def profile (table : TypeTable) (language : String) : Except Failure Profile :=
  let entries (role : TypeRole) : List Json := table.getD role.fieldName []
  if !table.unknownFields.isEmpty then .error (.unknownFields language table.unknownFields)
  else
    match nestedEntry? (TypeRole.all.flatMap entries) with
    | some entry => .error (.nestedEntry entry.kind)
    | none => .ok { language, entries }

end TypeTable

namespace Config

/-- The name of the table of defaults. -/
def defaultTable : String := "default"

/-- The table of that name; a language without one of its own departs from nothing. -/
def table (config : Config) (name : String) : TypeTable :=
  config.tables.getD name ∅

/-- The profile for a name that has no blanks around it and is in lower case. -/
def namedProfile (config : Config) (name : String) : Except Failure Profile :=
  ((config.table defaultTable).overlaid (config.table name)).profile name

/-- The profile of a language; no language at all has the empty name. -/
def profile (config : Config) (language : Option String) : Except Failure Profile :=
  config.namedProfile (Text.normalName language)

/-- The language of a file, judged by the extension of its path. -/
def languageOfPath? (config : Config) (path : String) : Option String :=
  config.extensions[Path.extension path]?

end Config

end SourceChunks
