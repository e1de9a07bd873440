import SourceChunks.Arena.Basic

/-!
# The arena of a tree

A tree is copied into an arena by numbering its nodes in the order of the document, from
nought.  The number of a node's first child is the next one, and the number of a sibling
lies one past the last number below the node; so every number follows from the sizes of the
trees to the left, and the nodes can be written down in one pass.
-/

namespace SourceChunks

namespace Forest

variable {α : Type}

/-- The numbers of the roots of a forest whose first node has number `first`. -/
def rootNumbers (first : Nat) : Forest α → List Nat
  | nil => []
  | cons _ children siblings => first :: siblings.rootNumbers (first + children.size + 1)

end Forest

namespace Arena

/-- The nodes of a forest in the order of the document, the first of which has number
`first`; the roots get the given parent. -/
def layout (parent : Option Nat) (first : Nat) : Forest Element → List Node
  | .nil => []
  | .cons element children siblings =>
    { element, children := children.rootNumbers (first + 1), parent }
      :: (layout (some first) (first + 1) children
        ++ layout parent (first + children.size + 1) siblings)

/-- The nodes of a tree in the order of the document. -/
def nodesOf (tree : Tree Element) : List Node :=
  layout none 0 (.cons tree.label tree.children .nil)

theorem length_layout (parent : Option Nat) (first : Nat) (forest : Forest Element) :
    (layout parent first forest).length = forest.size := by
  induction forest generalizing parent first with
  | nil => rfl
  | cons element children siblings ihc ihs => simp [layout, Forest.size, ihc, ihs]

/-- The arena of a tree of elements over a source. -/
def ofTree (source : Bytes) (tree : Tree Element) : Arena where
  source
  nodes := (nodesOf tree).toArray
  root := 0
  root_lt := by simp [nodesOf, length_layout, Forest.size]

/-- The arena of a parser's tree over a source. -/
def ofParse (source : Bytes) (tree : Tree Symbol) : Arena :=
  ofTree source (tree.map Symbol.element)

end Arena

end SourceChunks
