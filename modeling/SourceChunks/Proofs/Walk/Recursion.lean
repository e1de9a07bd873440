import SourceChunks.Proofs.Arena.Unfolding
import SourceChunks.Walk

/-!
# The chunk walk as a recursion

The walk keeps the numbers it has yet to visit on a stack.  Said over the tree of the
arena it is a plain recursion: what becomes of a node is decided by `visitNode`, and
`visitAll` visits trees from left to right.  Both are written here without the stack and
without the functions of the walk that decide a visit.

`chunks_eq_visitTree` equates the two as producers.  So they deliver the same chunks and
ask for the same costs, in the same order, for every calculator, also for one that gives
up; and where an outline fails, both fail at that place.

What carries the proof is what a stack stands for: the visits of the trees on it, one after
the other.  Pushing the children of a node in front of the rest is visiting them before the
rest (`visitAll_append`), and where nothing is pushed the node's trees are left out, so the
bound on the number of visits is only ever too large.
-/

namespace SourceChunks

namespace ChunkWalk

variable (walk : ChunkWalk)

/-- Visits a node that is not delivered whole, where `descend` is how its children are
visited.  A comment goes to the buffer, and its children are visited unless it is composite.
Any other definition is delivered as an outline, and its children are visited.  Of any other
node only the children are visited. -/
def enterNode (entry : Nat × Node) (descend : CommentBuffer → Producer CommentBuffer)
    (buffer : CommentBuffer) : Producer CommentBuffer := do
  let node := entry.2
  if node.isComposite || walk.profile.plays .comments node.type then
    let text := walk.arena.nodeText node
    let tokens ← Producer.cost text
    let (flushed, buffer) := buffer.add text tokens walk.budget
    Producer.deliver? flushed
    if node.isComposite then return buffer else descend buffer
  else
    match walk.profile.definition? node.type with
    | some kind =>
      let buffer ← flush buffer
      let content ← walk.outline kind entry.1
      Producer.deliver (nodeChunk node content)
      descend buffer
    | none => descend buffer

/-- Is the node to be delivered whole?  The root and definitions are, if they cost less than
the budget; of other nodes the cost is not asked. -/
def askWhole (isRoot : Bool) (node : Node) : Producer Bool :=
  if isRoot || (walk.profile.definition? node.type).isSome then
    (fun tokens => decide (tokens < walk.budget)) <$> Producer.cost (walk.arena.nodeText node)
  else pure false

/-- Visits a node.  Where it is delivered whole, its children are not visited. -/
def visitNode (isRoot : Bool) (entry : Nat × Node)
    (descend : CommentBuffer → Producer CommentBuffer) (buffer : CommentBuffer) :
    Producer CommentBuffer := do
  let isWhole ← walk.askWhole isRoot entry.2
  if isWhole then
    let buffer ← flush buffer
    Producer.deliver (nodeChunk entry.2 (walk.arena.nodeText entry.2))
    return buffer
  else walk.enterNode entry descend buffer

/-- Visits the trees of a forest from left to right, none of them at the root. -/
def visitAll : Forest (Nat × Node) → CommentBuffer → Producer CommentBuffer
  | .nil, buffer => return buffer
  | .cons entry children siblings, buffer => do
    let buffer ← walk.visitNode false entry (visitAll children) buffer
    visitAll siblings buffer

/-- Visits a tree from its root on, and sends off what is waiting at the end. -/
def visitTree (tree : Tree (Nat × Node)) : Producer Unit := do
  let buffer ← walk.visitNode true tree.label (walk.visitAll tree.children) {}
  let _ ← flush buffer
  return ()

theorem visitAll_append (forest later : Forest (Nat × Node)) (buffer : CommentBuffer) :
    walk.visitAll (forest ++ later) buffer =
      walk.visitAll forest buffer >>= walk.visitAll later := by
  induction forest generalizing buffer with
  | nil => rfl
  | cons entry children siblings _ ihSiblings =>
    rw [Forest.cons_append, visitAll, visitAll, bind_assoc]
    congr
    funext buffer
    exact ihSiblings buffer

section Visit

variable {walk} {node : Node} {next : CommentBuffer × List Nat → Producer Unit}
  {descend : CommentBuffer → Producer CommentBuffer} {rest : CommentBuffer → Producer Unit}

/-- What comes after a node is entered is the descent and then the rest, or the rest alone
where no children are pushed. -/
theorem enter_bind (pushed : ∀ buffer, next (buffer, node.children) = descend buffer >>= rest)
    (skipped : ∀ buffer, next (buffer, []) = rest buffer) (index : Nat) (buffer : CommentBuffer) :
    walk.enter index node buffer >>= next =
      walk.enterNode (index, node) descend buffer >>= rest := by
  unfold enter enterNode isComment
  by_cases hcomment : (node.isComposite || walk.profile.plays .comments node.type) = true
  · -- a comment: the question, the buffer and what it flushes are the same on both sides
    simp only [if_pos hcomment, bind_assoc]
    refine bind_congr fun tokens => bind_congr fun _ => ?_
    split
    · simp only [pure_bind, skipped]
    · simp only [pure_bind, pushed]
  · simp only [if_neg hcomment]
    cases walk.profile.definition? node.type with
    | some kind => simp only [bind_assoc, pure_bind, pushed]
    | none => simp only [pure_bind, pushed]

/-- **One visit.**  What comes after a visit on the stack is the descent and then the rest,
or the rest alone where no children are pushed. -/
theorem visit_bind {isRoot : Bool} {index : Nat} (found : walk.arena.nodes[index]? = some node)
    (pushed : ∀ buffer, next (buffer, node.children) = descend buffer >>= rest)
    (skipped : ∀ buffer, next (buffer, []) = rest buffer) (buffer : CommentBuffer) :
    walk.visit isRoot index buffer >>= next =
      walk.visitNode isRoot (index, node) descend buffer >>= rest := by
  have hnode : walk.arena.node index = .ok node := Arena.node_eq_ok_iff.2 found
  have hentered : walk.enter index node buffer >>= next = _ :=
    enter_bind pushed skipped index buffer
  unfold visit visitNode fits askWhole
  simp only [hnode, Producer.ofExcept, Producer.done_bind, bind_assoc]
  split
  · simp only [bind_assoc, map_eq_pure_bind, pure_bind]
    refine bind_congr fun tokens => ?_
    by_cases hfits : tokens < walk.budget
    · simp only [hfits, decide_true, if_true, bind_assoc, pure_bind, skipped]
    · simpa only [hfits, decide_false, Bool.false_eq_true, if_false] using hentered
  · simpa only [pure_bind, Bool.false_eq_true, if_false] using hentered

end Visit

/-- **The stack.**  A stack of numbers, none of them the root's, stands for the visits of
the trees that hang from them. -/
theorem runStack_eq_visitAll {fuel : Nat} {stack : List Nat} {forest : Forest (Nat × Node)}
    (h : walk.arena.Unfolds stack forest) (hfuel : forest.size ≤ fuel) (buffer : CommentBuffer) :
    walk.runStack fuel (stack.map (·, false)) buffer = do
      let buffer ← walk.visitAll forest buffer
      let _ ← flush buffer
      return () := by
  induction fuel generalizing stack forest buffer with
  | zero =>
    cases h with
    | nil => rfl
    | cons => simp [Forest.size] at hfuel
  | succ fuel ih =>
    cases h with
    | nil => rfl
    | @cons index node rest children siblings found below beside =>
      simp only [Forest.size] at hfuel
      rw [List.map_cons, runStack, visitAll, bind_assoc]
      refine visit_bind found ?_ ?_ buffer
      · intro buffer
        have hpushed := ih (below.append beside) (by rw [Forest.size_append]; omega) buffer
        rw [List.map_append, visitAll_append, bind_assoc] at hpushed
        exact hpushed
      · intro buffer
        exact ih beside (by omega) buffer

/-- **The walk is the recursion over the tree of the arena**, as a producer: it says the
same in the same order, whatever it is answered. -/
theorem chunks_eq_visitTree_of_hasTree {tree : Tree (Nat × Node)} (h : walk.arena.HasTree tree) :
    walk.chunks = walk.visitTree tree := by
  have hfuel : walk.arena.visits [walk.arena.root] = tree.children.size + 1 := by
    rw [Arena.visits_eq_size h, Tree.size_forest, Tree.size]
  obtain ⟨⟨index, node⟩, children⟩ := tree
  cases h with
  | cons found below beside =>
    rw [chunks, hfuel, runStack, visitTree]
    refine visit_bind found ?_ ?_ {}
    · intro buffer
      have hpushed := walk.runStack_eq_visitAll below (Nat.le_refl _) buffer
      simpa using hpushed
    · intro buffer
      exact walk.runStack_eq_visitAll .nil (Nat.zero_le _) buffer

/-- **The walk is the recursion.**  Where the child numbers are in range and acyclic from
the root on, the arena has a tree, and the walk is the recursion over it as a producer: for
every calculator, be it heard out or not, it delivers the same chunks between the same
questions.  A child that is listed twice is visited twice by both, once for each place that
it has in the tree. -/
theorem chunks_eq_visitTree (grounded : walk.arena.Grounded) :
    ∃ tree, walk.arena.HasTree tree ∧ walk.chunks = walk.visitTree tree := by
  obtain ⟨tree, htree⟩ := grounded.exists_hasTree
  exact ⟨tree, htree, walk.chunks_eq_visitTree_of_hasTree htree⟩

/-- A language with comments and functions. -/
def sampleProfile : Profile := .ofTypes "sample" fun
  | .comments => ["comment"]
  | .functions => ["function"]
  | _ => []

/-- A module that lists a comment, and then twice a function with a comment in it. -/
def sharedWalk : ChunkWalk where
  arena := {
    source := "#a\ndef f\n#b".toUTF8.toList
    nodes := #[
      { element := ⟨.parsed "module", ⟨0, 11, ⟨0, 0⟩, ⟨2, 2⟩⟩⟩, children := [1, 2, 2] },
      { element := ⟨.parsed "comment", ⟨0, 2, ⟨0, 0⟩, ⟨0, 2⟩⟩⟩, parent := some 0 },
      { element := ⟨.parsed "function", ⟨3, 11, ⟨1, 0⟩, ⟨2, 2⟩⟩⟩, children := [3]
        parent := some 0 },
      { element := ⟨.parsed "comment", ⟨9, 11, ⟨2, 0⟩, ⟨2, 2⟩⟩⟩, parent := some 2 }]
    root := 0
    root_lt := by decide }
  profile := sampleProfile
  budget := 5

/-- The function comes twice, each time after the comments before it. -/
theorem sharedWalk_chunks_eq : (∃ tree, sharedWalk.arena.HasTree tree ∧
      sharedWalk.chunks = sharedWalk.visitTree tree) ∧
    (sharedWalk.chunks.run none (CostFunction.mk fun text => text.length)).chunks =
      [⟨"#a", 1, 1⟩, ⟨"def f\n...", 1, 2⟩, ⟨"#b", 2, 2⟩, ⟨"def f\n...", 1, 2⟩,
        ⟨"#b", 3, 3⟩] := by
  refine ⟨sharedWalk.chunks_eq_visitTree ?_, by decide +kernel⟩
  have function : sharedWalk.arena.Unfolds [2, 2] _ :=
    .cons rfl (.cons rfl .nil .nil) (.cons rfl (.cons rfl .nil .nil) .nil)
  have root : sharedWalk.arena.Unfolds [0] _ :=
    .cons rfl (.cons rfl .nil function) .nil
  exact root.groundedAt

end ChunkWalk

end SourceChunks
