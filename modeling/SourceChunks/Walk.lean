import SourceChunks.Arena.Walk
import SourceChunks.Comment.Buffer
import SourceChunks.Outline.Class
import SourceChunks.Outline.Function

/-!
# The chunk walk

The nodes of an arena are visited in the order of the document, and each visit decides what
becomes of the node:

* the root, and any class or function, is delivered whole if it costs less than the budget,
  and nothing below it is visited;
* otherwise a comment goes into the comment buffer;
* otherwise a class or a function is delivered as an outline;
* and except below composite comments the children are visited, so that what an outline
  leaves out comes by itself.

The buffer is sent off before a definition is delivered and at the end of the walk, so
comments never move past a definition.
-/

namespace SourceChunks

/-- What is chunked: an arena, the roles of its node types, and the budget of a chunk. -/
structure ChunkWalk where
  arena : Arena
  profile : Profile
  budget : Int

namespace ChunkWalk

/-- Is the node a comment, be it composite? -/
def isComment (walk : ChunkWalk) (node : Node) : Bool :=
  node.isComposite || walk.profile.plays .comments node.type

/-- The chunk that stands for a node. -/
def nodeChunk (node : Node) (content : String) : Chunk :=
  ⟨content, node.span.startPoint.row, node.span.stopPoint.row⟩

/-- Sends off what is waiting. -/
def flush (buffer : CommentBuffer) : Producer CommentBuffer := do
  let (flushed, emptied) := buffer.flush
  Producer.deliver? flushed
  return emptied

/-- Is the node one that may be delivered whole, and does it cost less than the budget? -/
def fits (walk : ChunkWalk) (isRoot : Bool) (node : Node) : Producer Bool :=
  if isRoot || (walk.profile.definition? node.type).isSome then
    return (← Producer.cost (walk.arena.nodeText node)) < walk.budget
  else return false

/-- The outline of a definition. -/
def outline (walk : ChunkWalk) (kind : DefinitionKind) (index : Nat) : Producer String :=
  match kind with
  | .ofClass => walk.arena.classOutline walk.profile walk.budget index
  | .ofFunction => Producer.ofExcept (walk.arena.functionOutline walk.profile index)

/-- What becomes of a node that is not delivered whole: the buffer after it, and the
children to visit. -/
def enter (walk : ChunkWalk) (index : Nat) (node : Node) (buffer : CommentBuffer) :
    Producer (CommentBuffer × List Nat) :=
  if walk.isComment node then do
    let text := walk.arena.nodeText node
    let cost ← Producer.cost text
    let (flushed, buffer) := buffer.add text cost walk.budget
    Producer.deliver? flushed
    return (buffer, if node.isComposite then [] else node.children)
  else
    match walk.profile.definition? node.type with
    | some kind => do
      let buffer ← flush buffer
      let content ← walk.outline kind index
      Producer.deliver (nodeChunk node content)
      return (buffer, node.children)
    | none => return (buffer, node.children)

/-- What becomes of the node of a number: the buffer after it, and the children to visit. -/
def visit (walk : ChunkWalk) (isRoot : Bool) (index : Nat) (buffer : CommentBuffer) :
    Producer (CommentBuffer × List Nat) := do
  let node ← Producer.ofExcept (walk.arena.node index)
  if ← walk.fits isRoot node then
    let buffer ← flush buffer
    Producer.deliver (nodeChunk node (walk.arena.nodeText node))
    return (buffer, [])
  else walk.enter index node buffer

/-- Visits the numbers on the stack, each marked as being the root or not, and all below
them; then sends off what is waiting. -/
def runStack (walk : ChunkWalk) : Nat → List (Nat × Bool) → CommentBuffer → Producer Unit
  | _, [], buffer => do
    let _ ← flush buffer
    return ()
  | 0, _ :: _, _ => .fail .endlessTree
  | fuel + 1, (index, isRoot) :: stack, buffer => do
    let (buffer, next) ← walk.visit isRoot index buffer
    walk.runStack fuel (next.map (·, false) ++ stack) buffer

/-- Delivers the chunks of the arena. -/
def chunks (walk : ChunkWalk) : Producer Unit :=
  walk.runStack (walk.arena.visits [walk.arena.root]) [(walk.arena.root, true)] {}

end ChunkWalk

end SourceChunks
