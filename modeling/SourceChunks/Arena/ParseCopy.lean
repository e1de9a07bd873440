import SourceChunks.Arena.OfTree

/-!
# Copying a parser's tree

A parser hands out its tree node by node, and the copy gives out numbers as it goes.  Trees
that are still to be copied wait on a stack, each with the number of its parent.  The one on
top gets the next number and is entered among the children of its parent; then its own
children are put on the stack, the first of them on top.

What a node records and which children it has are kept apart until nothing waits any more,
for a node's children are known only after it.
-/

namespace SourceChunks

/-- A parser's tree that waits to be copied, and the number of its parent. -/
structure PendingParse where
  tree : Tree Symbol
  parent : Option Nat

/-- How many nodes there are in the trees that wait. -/
def PendingParse.count : List PendingParse → Nat
  | [] => 0
  | pending :: stack => pending.tree.size + count stack

theorem PendingParse.count_append (stack later : List PendingParse) :
    count (stack ++ later) = count stack + count later := by
  induction stack with
  | nil => simp [count]
  | cons pending stack ih => rw [List.cons_append, count, count, ih, Nat.add_assoc]

/-- The trees of a forest, with the number of their parent. -/
def PendingParse.ofForest (parent : Nat) (forest : Forest Symbol) : List PendingParse :=
  forest.trees.map (⟨·, some parent⟩)

@[simp] theorem PendingParse.count_ofForest (parent : Nat) (forest : Forest Symbol) :
    count (ofForest parent forest) = forest.size := by
  induction forest with
  | nil => rfl
  | cons symbol children siblings _ ih =>
    show children.size + 1 + count (ofForest parent siblings) = _
    rw [ih, Forest.size]
    omega

/-- What has been copied: of each number the symbol and the parent, and its children as far as
they have been met. -/
structure ParseCopy where
  records : Array (Symbol × Option Nat) := #[]
  children : Array (List Nat) := #[]

namespace ParseCopy

/-- Gives a symbol the next number, and enters it among the children of its parent. -/
def add (copy : ParseCopy) (symbol : Symbol) (parent : Option Nat) : ParseCopy where
  records := copy.records.push (symbol, parent)
  children :=
    match parent with
    | none => copy.children.push []
    | some upper => (copy.children.push []).modify upper (· ++ [copy.records.size])

/-- Copies what waits on the stack, and everything below it. -/
def addAll (copy : ParseCopy) : List PendingParse → ParseCopy
  | [] => copy
  | pending :: stack =>
    (copy.add pending.tree.label pending.parent).addAll
      (PendingParse.ofForest copy.records.size pending.tree.children ++ stack)
termination_by stack => PendingParse.count stack
decreasing_by
  rw [PendingParse.count_append, PendingParse.count_ofForest, PendingParse.count, Tree.size]
  omega

/-- The nodes that have been copied. -/
def nodes (copy : ParseCopy) : List Node :=
  List.zipWith
    (fun record children => { element := record.1.element, children, parent := record.2 })
    copy.records.toList copy.children.toList

end ParseCopy

/-- The arena that a parser's tree is copied to. -/
def Arena.copyParse (source : Bytes) (tree : Tree Symbol) : Except Failure Arena :=
  Arena.ofNodes source (ParseCopy.addAll {} [⟨tree, none⟩]).nodes.toArray 0

end SourceChunks
