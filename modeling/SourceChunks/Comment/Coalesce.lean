import SourceChunks.Arena.Walk
import SourceChunks.Text.Lines

/-!
# Composite comments

Coalescing copies an arena and puts one composite comment in the place of every run of two
or more comments that are neighbours under one parent.  What lies between two comments is
no node, so blank lines do not end a run.  A composite reaches from the start of the first
comment to the end of the last, carries their joined text, and has them as its children.
Below a composite nothing is put together any more.

The copy numbers its nodes as it reserves their places: the children of a node in order,
and with a composite at once its members.  Nodes whose place is reserved wait on a stack
until their record is written, so a node's children stand together in the copy, while what
is below them comes later.
-/

namespace SourceChunks

/-- The comment types where no profile says otherwise. -/
def defaultCommentTypes : List String := ["comment"]

/-- A node that waits to be copied: its number, the place reserved for its copy, the parent
of the copy, and whether runs of comments among its children are put together. -/
structure PendingCopy where
  index : Nat
  place : Nat
  parent : Option Nat
  merging : Bool
  deriving DecidableEq, Repr

/-- The places reserved in a copy, written or not; the places of the children of one node;
and what waits to be copied there. -/
structure SiblingPlaces where
  places : Array (Option Node)
  children : List Nat := []
  pending : List PendingCopy := []

/-- The places reserved in a copy, written or not, and all that waits to be copied. -/
structure CopyState where
  places : Array (Option Node)
  stack : List PendingCopy

namespace Arena

/-- The composite comment for a run of comments. -/
def compositeOf (arena : Arena) (first last : Node) (run : List Node) : Element where
  content := .composite (Text.joinLines (run.map arena.nodeText))
  span := {
    startByte := first.span.startByte
    stopByte := last.span.stopByte
    startPoint := first.span.startPoint
    stopPoint := last.span.stopPoint }

/-- Reserves a place for a group of neighbours: for a single node, which then waits to be
copied, or for a composite, which is written at once and whose members get the places after
it and wait. -/
def reserveGroup (arena : Arena) (parent : Nat) (merging : Bool) (siblings : SiblingPlaces) :
    List (Nat × Node) → SiblingPlaces
  | [] => siblings
  | [(index, _)] =>
    let place := siblings.places.size
    { places := siblings.places.push none
      children := siblings.children ++ [place]
      pending := siblings.pending ++ [⟨index, place, some parent, merging⟩] }
  | first :: second :: others =>
    let run := first :: second :: others
    let place := siblings.places.size
    let members := List.range' (place + 1) run.length
    let composite := {
      element := arena.compositeOf first.2 ((second :: others).getLast (by simp)).2 (run.map (·.2))
      children := members
      parent := some parent }
    { places := siblings.places.push (some composite) ++ Array.replicate run.length none
      children := siblings.children ++ [place]
      pending := siblings.pending ++
        List.zipWith (fun member copy => ⟨member.1, copy, some place, false⟩) run members }

/-- The given neighbours in groups: each longest run of comments, if runs are put together,
and every other node by itself. -/
def groups (types : List String) (merging : Bool) (nodes : List (Nat × Node)) :
    List (List (Nat × Node)) :=
  if merging then
    nodes.splitBy fun left right => types.contains left.2.type && types.contains right.2.type
  else nodes.map ([·])

/-- Copies one node to its place and reserves places for its children. -/
def copyNode (arena : Arena) (types : List String) (copy : PendingCopy) (state : CopyState) :
    Except Failure CopyState := do
  let node ← arena.node copy.index
  let merging := copy.merging && !node.isComposite
  let children ← node.children.mapM fun index => (index, ·) <$> arena.node index
  let siblings := (groups types merging children).foldl
    (arena.reserveGroup copy.place merging) { places := state.places }
  return {
    places := siblings.places.setIfInBounds copy.place
      (some { node with children := siblings.children, parent := copy.parent })
    stack := siblings.pending ++ state.stack }

/-- Copies what waits and everything below it. -/
def copyStack (arena : Arena) (types : List String) :
    Nat → CopyState → Except Failure (Array (Option Node))
  | _, ⟨places, []⟩ => .ok places
  | 0, ⟨_, _ :: _⟩ => .error .endlessTree
  | fuel + 1, ⟨places, copy :: stack⟩ => do
    arena.copyStack types fuel (← arena.copyNode types copy ⟨places, stack⟩)

/-- The copy of an arena in which runs of comments of the given types are put together. -/
def coalesce (arena : Arena) (types : List String) : Except Failure Arena := do
  let places ← arena.copyStack types (arena.visits [arena.root])
    ⟨#[none], [⟨arena.root, 0, none, true⟩]⟩
  match places.mapM id with
  | some nodes => ofNodes arena.source nodes 0
  | none => throw .endlessTree

/-- The numbers of the composite comments, in the order of the document. -/
def compositeComments (arena : Arena) : Except Failure (List Nat) := do
  (← arena.walk).filterM fun index => return (← arena.node index).isComposite

end Arena

end SourceChunks
