import SourceChunks.Proofs.Arena.Places
import SourceChunks.Proofs.Comment.Coalescing
import SourceChunks.Proofs.Outline.Defined

/-!
# Outlines without numbers

An outline looks at nodes by number: at the children of a node and at theirs, and from a
method up to its class.  Where the records agree with the place of the node (`Seated`), that
is to look at the tree that stands there and at what stands above it.  So outlines are given
here a second time, for trees of elements, and `Seated.outline_eq` says that they are the
same, as producers.

Two arenas with the same trees then have the same outlines, however they number their nodes.
-/

namespace SourceChunks

namespace Profile

variable (profile : Profile)

/-- The first of the trees whose type plays the role. -/
def first? (role : TypeRole) (trees : List (Tree Element)) : Option (Tree Element) :=
  trees.find? fun tree => profile.plays role tree.label.content.type

/-- The body of a method, if it has one. -/
def bodyCut? (method : Tree Element) : Option BodyCut :=
  (profile.first? .functionBodies method.children.trees).map fun body => {
    methodStart := method.label.span.startByte
    bodyStart := body.label.span.startByte
    bodyStop := body.label.span.stopByte
    placeholder := profile.placeholder body.label.content.type }

/-- The methods among trees. -/
def methods (trees : List (Tree Element)) : List (Tree Element) :=
  trees.filter fun tree => profile.plays .functionDeclarations tree.label.content.type

/-- The bodies of the methods of a class, in order. -/
def bodyCuts (tree : Tree Element) : List BodyCut :=
  match profile.first? .classBodies tree.children.trees with
  | none => []
  | some body => (profile.methods body.children.trees).filterMap profile.bodyCut?

/-- The head of the class in whose body stands what is below the given elements. -/
def classHead? (source : Bytes) : List Element → Option Bytes
  | container :: owner :: _ =>
    if profile.plays .methodContainers container.content.type
        ∧ profile.plays .classContainers owner.content.type then
      some (source.slice owner.span.startByte container.span.startByte)
    else none
  | _ => none

end Profile

namespace Tree

variable (source : Bytes) (profile : Profile)

/-- The outline of a class before anything is taken out of it. -/
def unpruned (tree : Tree Element) : ClassOutline :=
  let outline := (profile.bodyCuts tree).foldr ClassOutline.replaceBody
    { code := source.take tree.label.span.stopByte }
  { outline with code := outline.code.drop tree.label.span.startByte }

/-- The outline of a class. -/
def classOutline (budget : Int) (tree : Tree Element) : Producer String := do
  let outline := tree.unpruned source profile
  let (code, pruned) ← pruneOutline budget outline.fragments.reverse outline.code
  return tidyOutline code pruned

/-- The outline of a function below the given elements. -/
def functionOutline (above : List Element) (tree : Tree Element) : String :=
  match tree.children.trees.getLast? with
  | none => Arena.elementText source tree.label
  | some body =>
    Utf8.decode (Arena.underHead (profile.classHead? source above)
      tree.label.span.startPoint.column
      (source.slice tree.label.span.startByte body.label.span.startByte
        ++ profile.placeholder body.label.content.type))

/-- The outline of a definition below the given elements. -/
def outline (budget : Int) (kind : DefinitionKind) (above : List Element) (tree : Tree Element) :
    Producer String :=
  match kind with
  | .ofClass => tree.classOutline source profile budget
  | .ofFunction => .done (tree.functionOutline source profile above)

end Tree

namespace Arena

variable {arena : Arena}

/-! ## Looking at children -/

namespace Unfolds

variable {indices : List Nat} {forest : Forest (Nat × Node)}

/-- What stands at the root of each tree, and below it. -/
theorem found_of_mem_trees (h : arena.Unfolds indices forest) {tree : Tree (Nat × Node)}
    (hmem : tree ∈ forest.trees) :
    arena.node tree.label.1 = .ok tree.label.2 ∧
      arena.Unfolds tree.label.2.children tree.children := by
  obtain ⟨node, htree, found, below⟩ := (h.of_mem_trees hmem).exists_node
  rw [htree]
  exact ⟨node_eq_ok_iff.2 found, below⟩

theorem firstOfType_eq (h : arena.Unfolds indices forest) (types : List String) :
    arena.firstOfType types indices =
      .ok ((forest.trees.find? fun tree => types.contains tree.label.2.type).map (·.label.1)) := by
  induction h with
  | nil => rfl
  | @cons index node rest children siblings found below beside _ ih =>
    rw [firstOfType, node_eq_ok_iff.2 found, Forest.trees, List.find?_cons]
    simp only [bind, Except.bind]
    cases types.contains node.type with
    | true => rfl
    | false => exact ih

theorem methodsAmong_eq (h : arena.Unfolds indices forest) (profile : Profile) :
    arena.methodsAmong profile indices =
      .ok ((forest.trees.filter fun tree =>
        profile.plays .functionDeclarations tree.label.2.type).map (·.label.1)) := by
  have hfound : ∀ label ∈ forest.trees.map (·.label), arena.node label.1 = .ok label.2 :=
    List.forall_mem_map.2 fun tree htree => (h.found_of_mem_trees htree).1
  have hmethods := methodsAmong_map hfound profile
  rw [List.filter_map, List.map_map, List.map_map] at hmethods
  rw [← h.map_label_fst]
  exact hmethods

/-- The first tree of a role, looked up among the nodes and among the elements. -/
theorem first?_map (profile : Profile) (role : TypeRole) (forest : Forest (Nat × Node)) :
    profile.first? role (forest.map (·.2.element)).trees =
      (forest.trees.find? fun tree => (profile.types role).contains tree.label.2.type).map
        (Tree.map (·.2.element)) := by
  rw [Profile.first?, Forest.trees_map, List.find?_map]
  rfl

theorem bodyCut?_eq (h : arena.Unfolds indices forest) {method : Tree (Nat × Node)}
    (hmem : method ∈ forest.trees) (profile : Profile) :
    arena.bodyCut? profile method.label.1 =
      .ok (profile.bodyCut? (method.map (·.2.element))) := by
  obtain ⟨found, below⟩ := h.found_of_mem_trees hmem
  rw [bodyCut?, found, Profile.bodyCut?, Tree.map, first?_map]
  simp only [bind, Except.bind, below.firstOfType_eq]
  cases hbody : method.children.trees.find? fun tree =>
      (profile.types .functionBodies).contains tree.label.2.type with
  | none => rfl
  | some body =>
    simp only [Option.map_some, (below.found_of_mem_trees (List.mem_of_find?_eq_some hbody)).1]
    rfl

theorem mapM_bodyCut?_eq (h : arena.Unfolds indices forest) {methods : List (Tree (Nat × Node))}
    (hmem : ∀ method ∈ methods, method ∈ forest.trees) (profile : Profile) :
    (methods.map (·.label.1)).mapM (arena.bodyCut? profile) =
      .ok (methods.map fun method => profile.bodyCut? (method.map (·.2.element))) := by
  rw [List.mapM_map]
  exact mapM_eq_ok fun method hmethod => h.bodyCut?_eq (hmem method hmethod) profile

/-- **The bodies of a class** are those of its tree. -/
theorem bodyCuts_eq {node : Node} (h : arena.Unfolds node.children forest) (profile : Profile) :
    arena.bodyCuts profile node =
      .ok (profile.bodyCuts ⟨node.element, forest.map (·.2.element)⟩) := by
  rw [bodyCuts, Profile.bodyCuts, first?_map]
  simp only [bind, Except.bind, h.firstOfType_eq]
  cases hbody : forest.trees.find? fun tree =>
      (profile.types .classBodies).contains tree.label.2.type with
  | none => rfl
  | some body =>
    obtain ⟨found, below⟩ := h.found_of_mem_trees (List.mem_of_find?_eq_some hbody)
    simp only [Option.map_some, found, below.methodsAmong_eq,
      below.mapM_bodyCut?_eq (fun method hmethod => List.mem_of_mem_filter hmethod)]
    simp only [Profile.methods, Tree.map, Forest.trees_map, List.filter_map, List.filterMap_map]
    rfl

end Unfolds

/-! ## Outlines -/

namespace Seated

variable {above : List (Nat × Node)} {tree : Tree (Nat × Node)}

theorem found (h : arena.Seated above tree) : arena.node tree.label.1 = .ok tree.label.2 :=
  node_eq_ok_iff.2 h.line.1

theorem classHead?_eq (h : arena.Seated above tree) (profile : Profile) :
    arena.classHead? profile tree.label.2 =
      .ok (profile.classHead? arena.source (above.map (·.2.element))) := by
  obtain ⟨-, hparent, hline⟩ := h.line
  rw [classHead?, hparent]
  match above, hline with
  | [], _ => rfl
  | [container], ⟨found, hcontainer, _⟩ =>
    simp only [List.head?_cons, Option.map_some, node_eq_ok_iff.2 found, bind, Except.bind,
      hcontainer]
    rfl
  | container :: owner :: _, ⟨found, hcontainer, foundOwner, _⟩ =>
    simp only [List.head?_cons, Option.map_some, node_eq_ok_iff.2 found, bind, Except.bind,
      hcontainer, node_eq_ok_iff.2 foundOwner, Profile.classHead?, List.map_cons]
    by_cases hclass : profile.plays .methodContainers container.2.type = true
    · by_cases howner : profile.plays .classContainers owner.2.type = true
      · rw [if_pos hclass, if_pos howner, if_pos ⟨hclass, howner⟩]
        rfl
      · rw [if_pos hclass, if_neg howner, if_neg fun hboth => howner hboth.2]
        rfl
    · rw [if_neg hclass, if_neg fun hboth => hclass hboth.1]
      rfl

theorem functionOutline_eq (h : arena.Seated above tree) (profile : Profile) :
    arena.functionOutline profile tree.label.1 =
      .ok ((tree.map (·.2.element)).functionOutline arena.source profile
        (above.map (·.2.element))) := by
  have hlast : tree.label.2.children.getLast? =
      tree.children.trees.getLast?.map (·.label.1) := by
    rw [← h.below.map_label_fst, List.getLast?_map]
  rw [functionOutline, h.found, Tree.functionOutline, Tree.map]
  simp only [bind, Except.bind, hlast, Forest.trees_map, List.getLast?_map]
  cases hbody : tree.children.trees.getLast? with
  | none => rfl
  | some body =>
    obtain ⟨found, -⟩ := h.below.found_of_mem_trees (List.mem_of_getLast? hbody)
    simp only [Option.map_some, found, h.classHead?_eq]
    rfl

theorem classOutline_eq (h : arena.Seated above tree) (profile : Profile) (budget : Int) :
    arena.classOutline profile budget tree.label.1 =
      (tree.map (·.2.element)).classOutline arena.source profile budget := by
  rw [classOutline, h.found, Producer.ofExcept, Producer.done_bind, h.below.bodyCuts_eq,
    Producer.ofExcept, Producer.done_bind]
  rfl

/-- **An outline is that of the tree** that stands at the node's place. -/
theorem outline_eq {walk : ChunkWalk} (h : walk.arena.Seated above tree) (kind : DefinitionKind) :
    walk.outline kind tree.label.1 =
      (tree.map (·.2.element)).outline walk.arena.source walk.profile walk.budget kind
        (above.map (·.2.element)) := by
  cases kind with
  | ofClass => exact h.classOutline_eq walk.profile walk.budget
  | ofFunction =>
    exact congrArg Producer.ofExcept (h.functionOutline_eq walk.profile)

end Seated

end Arena

end SourceChunks
