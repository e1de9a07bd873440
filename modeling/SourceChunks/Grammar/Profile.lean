import SourceChunks.Json.Basic

/-!
# Grammar profiles

What the types of a grammar's nodes are good for.  A profile gives, for each of nine roles,
the types that play it; a type may play several, and a role need have none.

What is listed for a role was written by somebody, and need not be the name of a type.  It is
kept as it is, and since the type of a node is a text, whatever else is listed plays no role.
-/

namespace SourceChunks

/-- A role that a node type can play. -/
inductive TypeRole where
  /-- Comments, which are gathered into chunks of their own. -/
  | comments
  /-- Classes, which are outlined with their methods' bodies left out. -/
  | classes
  /-- Functions, which are outlined with their body left out. -/
  | functions
  /-- The part of a class that holds its methods. -/
  | classBodies
  /-- The members of a class body that count as methods. -/
  | functionDeclarations
  /-- The part of a method that an outline leaves out. -/
  | functionBodies
  /-- Bodies that stand in braces, and so does what replaces them. -/
  | braceBodies
  /-- What a method stands in directly. -/
  | methodContainers
  /-- What a method's container stands in when it is a class. -/
  | classContainers
  deriving DecidableEq, Repr

namespace TypeRole

/-- The roles, in the order in which tables give them. -/
def all : List TypeRole :=
  [comments, classes, functions, classBodies, functionDeclarations, functionBodies, braceBodies,
    methodContainers, classContainers]

/-- The name of the field that gives the types of a role. -/
def fieldName : TypeRole → String
  | comments => "comment_types"
  | classes => "class_types"
  | functions => "function_types"
  | classBodies => "class_body_types"
  | functionDeclarations => "function_declaration_types"
  | functionBodies => "function_body_types"
  | braceBodies => "brace_body_types"
  | methodContainers => "method_container_types"
  | classContainers => "class_container_types"

theorem mem_all (role : TypeRole) : role ∈ all := by
  cases role <;> decide

end TypeRole

/-- The two kinds of definition that can be outlined. -/
inductive DefinitionKind where
  | ofClass
  | ofFunction
  deriving DecidableEq, Repr

/-- Which node types of a grammar play which role. -/
structure Profile where
  language : String
  /-- What is listed for a role, as a set. -/
  entries : TypeRole → List Json

namespace Profile

/-- The node types that play a role. -/
def types (profile : Profile) (role : TypeRole) : List String :=
  (profile.entries role).filterMap Json.string?

/-- The profile in which nothing but node types is listed. -/
def ofTypes (language : String) (types : TypeRole → List String) : Profile where
  language
  entries role := (types role).map .string

@[simp] theorem types_ofTypes (language : String) (types : TypeRole → List String)
    (role : TypeRole) : (ofTypes language types).types role = types role := by
  rw [Profile.types, ofTypes, List.filterMap_map]
  exact List.filterMap_some

/-- Does the type play the role? -/
def plays (profile : Profile) (role : TypeRole) (type : String) : Bool :=
  (profile.types role).contains type

/-- The kind of definition that nodes of the type are; a class before a function. -/
def definition? (profile : Profile) (type : String) : Option DefinitionKind :=
  if profile.plays .classes type then some .ofClass
  else if profile.plays .functions type then some .ofFunction
  else none

/-- The profile with what is listed for one role replaced. -/
def withEntries (profile : Profile) (role : TypeRole) (entries : List Json) : Profile :=
  { profile with entries := fun other => if other = role then entries else profile.entries other }

end Profile

end SourceChunks
