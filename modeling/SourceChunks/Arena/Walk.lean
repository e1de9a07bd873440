import SourceChunks.Arena.Basic

/-!
# Walking an arena

The nodes below a number, in the order of the document: each before its children, and these
from left to right.  The walk keeps the numbers it has yet to visit on a stack.

The number of visits is known beforehand, as the size of the unfolding, and serves as the
bound of the walk.  It runs out only where the child numbers lead back to a node above: a
tree of `n` nodes is no more than `n` levels deep.
-/

namespace SourceChunks.Arena

/-- How many visits it takes to walk the trees that hang from the given numbers. -/
def visits (arena : Arena) (indices : List Nat) : Nat :=
  (arena.unfold (arena.size + 1) indices).size

/-- Visits the numbers on the stack and everything below them. -/
def walkStack (arena : Arena) : Nat → List Nat → Except Failure (List Nat)
  | _, [] => .ok []
  | 0, _ :: _ => .error .endlessTree
  | fuel + 1, index :: stack => do
    let node ← arena.node index
    let later ← arena.walkStack fuel (node.children ++ stack)
    return index :: later

/-- The numbers of a node and of everything below it, in the order of the document. -/
def walkFrom (arena : Arena) (index : Nat) : Except Failure (List Nat) :=
  arena.walkStack (arena.visits [index]) [index]

/-- The numbers of the nodes that can be reached from the root, in the order of the
document. -/
def walk (arena : Arena) : Except Failure (List Nat) :=
  arena.walkFrom arena.root

end SourceChunks.Arena
