import SourceChunks.Outline.Placeholder

/-!
# Outlines of functions

A function without its body: everything up to the last child, and a placeholder for that
child.  A method is shown under the head of its class, with dots for the members between
and the method indented as it stands in the source.  A function without children has
nothing to leave out and is shown whole.
-/

namespace SourceChunks

/-- What stands for the members between the head of a class and one of its methods. -/
def memberElision : Bytes := Utf8.encode "...\n\n"

namespace Arena

/-- The head of the class in whose body a node stands directly. -/
def classHead? (arena : Arena) (profile : Profile) (node : Node) :
    Except Failure (Option Bytes) :=
  match node.parent with
  | none => .ok none
  | some containerIndex => do
    let container ← arena.node containerIndex
    match container.parent with
    | none => return none
    | some ownerIndex =>
      if profile.plays .methodContainers container.type then
        let owner ← arena.node ownerIndex
        if profile.plays .classContainers owner.type then
          return some (arena.source.slice owner.span.startByte container.span.startByte)
        else return none
      else return none

/-- The source of a node up to its body, with a placeholder for the body. -/
def signature (arena : Arena) (profile : Profile) (node body : Node) : Bytes :=
  arena.source.slice node.span.startByte body.span.startByte ++ profile.placeholder body.type

/-- A signature as it stands under the head of a class, if it does. -/
def underHead (head : Option Bytes) (column : Nat) (signature : Bytes) : Bytes :=
  match head with
  | some head => head ++ memberElision ++ List.replicate column 0x20 ++ signature
  | none => signature

/-- The outline of the function of a number. -/
def functionOutline (arena : Arena) (profile : Profile) (index : Nat) : Except Failure String := do
  let node ← arena.node index
  match node.children.getLast? with
  | none => return arena.nodeText node
  | some bodyIndex =>
    let body ← arena.node bodyIndex
    let head ← arena.classHead? profile node
    return Utf8.decode
      (underHead head node.span.startPoint.column (arena.signature profile node body))

end Arena

end SourceChunks
