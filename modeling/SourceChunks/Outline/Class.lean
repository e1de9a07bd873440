import SourceChunks.Outline.Placeholder
import SourceChunks.Producer
import SourceChunks.Text.Lines

/-!
# Outlines of classes

A class with a placeholder for the body of each of its methods.  The bodies are replaced
from the last to the first, so the offsets of those still to come, which count from the
start of the file, stay good.  With each replacement the method up to its body, and the
placeholder, is noted as a fragment.

Where the outline still costs more than the budget, methods are taken out from the last one
on: the last fragment is looked up in the outline, from the end, and removed, until the
outline fits or no fragment is left.  A fragment at the very start is never removed.
-/

namespace SourceChunks

/-- Where a method and its body begin, where the body ends, and what stands for it. -/
structure BodyCut where
  methodStart : Nat
  bodyStart : Nat
  bodyStop : Nat
  placeholder : Bytes
  deriving DecidableEq, Repr

/-- A class with placeholders for bodies, and the fragment of each method in order. -/
structure ClassOutline where
  code : Bytes
  fragments : List Bytes := []
  deriving DecidableEq, Repr

/-- Replaces one body, and notes its method's fragment. -/
def ClassOutline.replaceBody (cut : BodyCut) (outline : ClassOutline) : ClassOutline where
  code := outline.code.replaceRange cut.bodyStart cut.bodyStop cut.placeholder
  fragments :=
    (outline.code.slice cut.methodStart cut.bodyStart ++ cut.placeholder) :: outline.fragments

namespace Arena

/-- The body of a method, if it has one. -/
def bodyCut? (arena : Arena) (profile : Profile) (method : Nat) :
    Except Failure (Option BodyCut) := do
  let node ← arena.node method
  match ← arena.firstOfType (profile.types .functionBodies) node.children with
  | none => return none
  | some bodyIndex =>
    let body ← arena.node bodyIndex
    return some {
      methodStart := node.span.startByte
      bodyStart := body.span.startByte
      bodyStop := body.span.stopByte
      placeholder := profile.placeholder body.type }

/-- The methods among the given numbers. -/
def methodsAmong (arena : Arena) (profile : Profile) (indices : List Nat) :
    Except Failure (List Nat) :=
  indices.filterM fun index =>
    return profile.plays .functionDeclarations (← arena.node index).type

/-- The bodies of the methods of a class, in order.  The methods stand in the class's first
child that can hold them. -/
def bodyCuts (arena : Arena) (profile : Profile) (node : Node) :
    Except Failure (List BodyCut) := do
  match ← arena.firstOfType (profile.types .classBodies) node.children with
  | none => return []
  | some bodyIndex =>
    let body ← arena.node bodyIndex
    let methods ← arena.methodsAmong profile body.children
    let cuts ← methods.mapM (arena.bodyCut? profile)
    return cuts.filterMap id

/-- The outline of a class before anything is taken out of it. -/
def outlineWith (arena : Arena) (node : Node) (cuts : List BodyCut) : ClassOutline :=
  let outline := cuts.foldr ClassOutline.replaceBody
    { code := arena.source.take node.span.stopByte }
  { outline with code := outline.code.drop node.span.startByte }

end Arena

/-- The code without the last occurrence of a fragment, unless it is at the very start. -/
def removeFragment (code fragment : Bytes) : Bytes :=
  match Bytes.lastIndexOf? fragment code with
  | some place =>
    if 0 < place then code.take place ++ code.drop (place + fragment.length) else code
  | none => code

/-- What is asked about when it has to be known whether an outline fits. -/
def outlineText (code : Bytes) : String :=
  Text.strip (Utf8.decode code)

/-- What is left of an outline when methods are taken out, last first, until it fits; and
whether any was taken out.  The fragments are given from the last to the first. -/
def pruneOutline (budget : Int) : List Bytes → Bytes → Producer (Bytes × Bool)
  | [], code => return (code, false)
  | fragment :: earlier, code => do
    if (← Producer.cost (outlineText code)) > budget then
      let (rest, _) ← pruneOutline budget earlier (removeFragment code fragment)
      return (rest, true)
    else return (code, false)

/-- The text of what is left of an outline; where methods were taken out, blank lines too
many are taken out too. -/
def tidyOutline (code : Bytes) (pruned : Bool) : String :=
  if pruned then Text.removeBlankRuns (Utf8.decode code) else Utf8.decode code

/-- The outline of the class of a number. -/
def Arena.classOutline (arena : Arena) (profile : Profile) (budget : Int) (index : Nat) :
    Producer String := do
  let node ← Producer.ofExcept (arena.node index)
  let cuts ← Producer.ofExcept (arena.bodyCuts profile node)
  let outline := arena.outlineWith node cuts
  let (code, pruned) ← pruneOutline budget outline.fragments.reverse outline.code
  return tidyOutline code pruned

end SourceChunks
