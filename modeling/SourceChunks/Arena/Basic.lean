import SourceChunks.Element
import SourceChunks.Failure
import SourceChunks.Forest
import SourceChunks.Text.Utf8

/-!
# Arenas

A syntax tree as a numbered list of nodes over a source.  A node knows its children and its
parent by number, so a node can be looked at from below as well as from above, and a
transformed tree is a new list of nodes.

Nothing is assumed of the numbers: a child or a parent may have no node, spans may disagree
with the tree, and parents with children.  Only the root is known to be a node.
-/

namespace SourceChunks

/-- A node of an arena. -/
structure Node where
  element : Element
  children : List Nat := []
  parent : Option Nat := none
  deriving DecidableEq, Repr

namespace Node

/-- The type to which the node answers. -/
def type (node : Node) : String :=
  node.element.content.type

/-- Is the node a composite comment? -/
def isComposite (node : Node) : Bool :=
  node.element.content.isComposite

/-- The range of the node. -/
def span (node : Node) : Span :=
  node.element.span

end Node

/-- A numbered syntax tree over a source. -/
structure Arena where
  source : Bytes
  nodes : Array Node
  root : Nat := 0
  root_lt : root < nodes.size

namespace Arena

/-- The arena of the given nodes, if the number of the root is that of a node. -/
def ofNodes (source : Bytes) (nodes : Array Node) (root : Int) : Except Failure Arena :=
  if h : 0 ≤ root ∧ root.toNat < nodes.size then .ok ⟨source, nodes, root.toNat, h.2⟩
  else .error (.rootOutOfRange root nodes.size)

/-- The number of nodes. -/
def size (arena : Arena) : Nat :=
  arena.nodes.size

/-- The number of a node that may also be counted from the end of so many nodes, the last of
them being `-1`.  Before the first there is as little as past the last. -/
def numberOf (size : Nat) (position : Int) : Nat :=
  if 0 ≤ position then position.toNat
  else if 0 ≤ position + size then (position + size).toNat
  else size

/-- The node of a number. -/
def node (arena : Arena) (index : Nat) : Except Failure Node :=
  match arena.nodes[index]? with
  | some node => .ok node
  | none => .error .noSuchNode

/-- The text of an element: what a composite carries, else the source between its ends. -/
def elementText (source : Bytes) (element : Element) : String :=
  match element.content with
  | .composite text => text
  | .parsed _ => Utf8.decode (source.slice element.span.startByte element.span.stopByte)

/-- The text of a node. -/
def nodeText (arena : Arena) (node : Node) : String :=
  elementText arena.source node.element

/-- The text of the node of a number. -/
def text (arena : Arena) (index : Nat) : Except Failure String :=
  arena.nodeText <$> arena.node index

/-- The first of the numbers whose node has one of the types. -/
def firstOfType (arena : Arena) (types : List String) : List Nat → Except Failure (Option Nat)
  | [] => .ok none
  | index :: rest => do
    if types.contains (← arena.node index).type then return some index
    arena.firstOfType types rest

/-- The first child of a node that has one of the types. -/
def firstChildOfType (arena : Arena) (index : Nat) (types : List String) :
    Except Failure (Option Nat) := do
  arena.firstOfType types (← arena.node index).children

/-- The children of a number; a number without a node has none. -/
def childrenOf (arena : Arena) (index : Nat) : List Nat :=
  match arena.nodes[index]? with
  | some node => node.children
  | none => []

/-- The trees that hang from the given numbers, cut off below `depth`.  A number without a
node is a leaf. -/
def unfold (arena : Arena) : Nat → List Nat → Forest Nat
  | 0, _ => .nil
  | depth + 1, indices =>
    indices.foldr (fun index => .cons index (arena.unfold depth (arena.childrenOf index))) .nil

theorem node_eq_ok_iff {arena : Arena} {index : Nat} {node : Node} :
    arena.node index = .ok node ↔ arena.nodes[index]? = some node := by
  unfold Arena.node
  split <;> simp_all

/-- A number is that of a node exactly when it is less than the size. -/
theorem node_eq_error_iff {arena : Arena} {index : Nat} {failure : Failure} :
    arena.node index = .error failure ↔ arena.size ≤ index ∧ failure = .noSuchNode := by
  unfold Arena.node
  split
  · next h =>
    have := (Array.getElem?_eq_some_iff.1 h).1
    simp only [reduceCtorEq, false_iff, not_and]
    intro hle
    exact absurd this (by simpa [size] using hle)
  · next h =>
    simp only [Array.getElem?_eq_none_iff] at h
    simp [size, h, eq_comm]

theorem unfold_succ_cons (arena : Arena) (depth index : Nat) (rest : List Nat) :
    arena.unfold (depth + 1) (index :: rest) =
      .cons index (arena.unfold depth (arena.childrenOf index)) (arena.unfold (depth + 1) rest) :=
  rfl

end Arena

end SourceChunks
