/-!
# What a node of a syntax tree records

The parser reports a `Symbol`: a type and the place in the source.  An arena records an
`Element`, which is either such a symbol or a composite comment, a node that stands for a
run of comments and carries their joined text.  A composite answers to a type of its own,
which a parsed node may bear too; what a node is, is decided by its content and never by
the type.
-/

namespace SourceChunks

/-- A place in a text by row and column. -/
structure Point where
  row : Nat
  column : Nat
  deriving DecidableEq, Repr

/-- The range of a node in bytes, and the places of its ends. -/
structure Span where
  startByte : Nat
  stopByte : Nat
  startPoint : Point
  stopPoint : Point
  deriving DecidableEq, Repr

/-- What a parser reports of a node. -/
structure Symbol where
  type : String
  span : Span
  deriving DecidableEq, Repr

/-- What a node stands for. -/
inductive Content where
  /-- A node of the parser, whose text is the source between its ends. -/
  | parsed (type : String)
  /-- A run of comments, with their joined text. -/
  | composite (text : String)
  deriving DecidableEq, Repr

/-- The type to which composite comments answer. -/
def compositeType : String := "composite_comment"

/-- The type to which a node answers. -/
def Content.type : Content → String
  | parsed type => type
  | composite _ => compositeType

/-- Is the node a composite comment? -/
def Content.isComposite : Content → Bool
  | parsed _ => false
  | composite _ => true

/-- What an arena records of a node, its relatives apart. -/
structure Element where
  content : Content
  span : Span
  deriving DecidableEq, Repr

/-- The element for a symbol of the parser. -/
def Symbol.element (symbol : Symbol) : Element :=
  ⟨.parsed symbol.type, symbol.span⟩

end SourceChunks
