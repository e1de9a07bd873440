import SourceChunks.Proofs.Comment.RunFree
import SourceChunks.Proofs.Walk.Interruption
import SourceChunks.Proofs.Walk.Pieces
import SourceChunks.Proofs.Walk.Prepared

/-!
# Coalescing only repacks comments

Whether runs of comments are put together before the walk makes a difference for the chunks of
comments only, and there only for how the comments are packed.

The walks are compared by the pieces of their trees.  Of a tree and its coalesced copy the
roots have one label, and become of it the same: where it is a definition, its outline looks
at children that are no comments, and these are found in the copy as in the tree
(`filter_children_coalesced`); only for the outline of a function the last child counts,
whatever it is, and that is the same where a run does not come last.  Below the roots, a run
has the pieces of its members, and the composite in its place has them in one.

What is needed of the grammar is that comments are nothing else (`Profile.CommentsApart`),
and of the parse that comments are leaves, and that no function ends with two
(`Tree.CommentsAside`).
-/

namespace SourceChunks

/-- Comment types play no other role, and composites play none. -/
structure Profile.CommentsApart (profile : Profile) : Prop where
  comments : ∀ type, profile.plays .comments type = true →
    ∀ role, role ≠ .comments → profile.plays role type = false
  composites : ∀ role, profile.plays role compositeType = false

/-- A comment has no children, and of the last two children of a function one is no comment, if
there are two. -/
structure Tree.CommentsAside {α : Type} (profile : Profile) (type : α → String) (tree : Tree α) :
    Prop where
  leaf : profile.plays .comments (type tree.label) = true → tree.children = .nil
  ending : profile.plays .functions (type tree.label) = true → 2 ≤ tree.children.trees.length →
    ∃ child ∈ tree.children.trees.drop (tree.children.trees.length - 2),
      profile.plays .comments (type child.label) = false

namespace Tree

variable {source : Bytes} {profile : Profile}

instance {α : Type} [DecidableEq α] (profile : Profile) (type : α → String) (tree : Tree α) :
    Decidable (tree.CommentsAside profile type) :=
  decidable_of_iff ((profile.plays .comments (type tree.label) = true → tree.children = .nil) ∧
      (profile.plays .functions (type tree.label) = true → 2 ≤ tree.children.trees.length →
        ∃ child ∈ tree.children.trees.drop (tree.children.trees.length - 2),
          profile.plays .comments (type child.label) = false))
    ⟨fun ⟨leaf, ending⟩ => ⟨leaf, ending⟩, fun h => ⟨h.leaf, h.ending⟩⟩

/-- So a function does not end with two comments. -/
theorem CommentsAside.not_pair {tree : Tree Element}
    (h : tree.CommentsAside profile (·.content.type))
    (hfunction : profile.plays .functions tree.label.content.type = true)
    (before : List (Tree Element)) (second last : Tree Element)
    (hsplit : tree.children.trees = before ++ [second, last]) :
    ¬ (isCommentOf (profile.types .comments) second = true ∧
      isCommentOf (profile.types .comments) last = true) := by
  rintro ⟨hsecond, hlast⟩
  obtain ⟨child, hchild, hother⟩ := h.ending hfunction (by simp [hsplit])
  have hcomment : profile.plays .comments child.label.content.type = true := by
    rw [hsplit, List.length_append, List.length_cons, List.length_singleton, Nat.add_sub_cancel,
      List.drop_left] at hchild
    rcases List.mem_cons.1 hchild with rfl | hchild
    · exact hsecond
    · rw [List.mem_singleton.1 hchild]
      exact hlast
  rw [hcomment] at hother
  exact Bool.noConfusion hother

/-- What stands in for groups, a test that comments and composites fail apart. -/
theorem filter_standIns {isComment test : Tree Element → Bool}
    {copy : Tree Element → Tree Element} (hcopy : ∀ child, test (copy child) = test child)
    (hcomments : ∀ child, isComment child = true → test child = false)
    (hcomposites : ∀ first others, test (composite source first others) = false)
    {groups : List (List (Tree Element))}
    (hgroups : ∀ group ∈ groups, (∃ item, group = [item]) ∨
      ∀ item ∈ group, isComment item = true) :
    (groups.filterMap (standIn source copy)).filter test =
      (groups.flatten.filter test).map copy := by
  induction groups with
  | nil => rfl
  | cons group rest ih =>
    obtain ⟨hgroup, hrest⟩ := List.forall_mem_cons.1 hgroups
    have hlater := ih hrest
    rw [List.flatten_cons, List.filter_append, List.map_append]
    match group, hgroup with
    | [], _ => exact hlater
    | [single], _ =>
      rw [List.filterMap_cons_some (by rfl : standIn source copy [single] = some (copy single)),
        List.filter_cons, hcopy, hlater]
      cases hsingle : test single <;> simp [hsingle]
    | first :: second :: others, hgroup =>
      have hmembers : ∀ item ∈ first :: second :: others, isComment item = true :=
        hgroup.resolve_left (by simp)
      have hnone : (first :: second :: others).filter test = [] :=
        List.filter_eq_nil_iff.2 fun item hitem => by simp [hcomments item (hmembers item hitem)]
      rw [List.filterMap_cons_some (by rfl : standIn source copy (first :: second :: others) =
          some (composite source first (second :: others))),
        List.filter_cons, hcomposites, hnone]
      exact hlater

/-- The children of a symbol in the coalesced tree. -/
theorem trees_children_coalesced (source : Bytes) (types : List String) {tree : Tree Element}
    (h : tree.label.content.isComposite = false) :
    (tree.coalesced source types true).children.trees =
      (grouped (isCommentOf types) true tree.children.trees).filterMap
        (standIn source (coalesced source types true)) := by
  rw [coalesced_eq]
  simp only [h, Bool.not_false, Bool.and_true, Forest.trees_ofTrees]

/-- **The children of another role** are the same in the coalesced tree, and coalesced. -/
theorem filter_children_coalesced (source : Bytes) (h : profile.CommentsApart) {role : TypeRole}
    (hrole : role ≠ .comments) {tree : Tree Element}
    (hparsed : tree.label.content.isComposite = false) :
    (tree.coalesced source (profile.types .comments) true).children.trees.filter
        (fun child => profile.plays role child.label.content.type) =
      (tree.children.trees.filter fun child => profile.plays role child.label.content.type).map
        (coalesced source (profile.types .comments) true) := by
  obtain ⟨-, hgroups, -⟩ := grouped_spec (isCommentOf (profile.types .comments))
    tree.children.trees
  rw [trees_children_coalesced source _ hparsed, filter_standIns ?_ ?_ ?_ hgroups,
    flatten_grouped]
  · intro child
    rw [label_coalesced]
  · exact fun child hcomment => h.comments _ hcomment role hrole
  · exact fun first others => h.composites role

/-- The first child of another role is the same, and coalesced. -/
theorem first?_children_coalesced (source : Bytes) (h : profile.CommentsApart) {role : TypeRole}
    (hrole : role ≠ .comments) {tree : Tree Element}
    (hparsed : tree.label.content.isComposite = false) :
    profile.first? role (tree.coalesced source (profile.types .comments) true).children.trees =
      (profile.first? role tree.children.trees).map
        (coalesced source (profile.types .comments) true) := by
  rw [Profile.first?, Profile.first?, ← List.head?_filter, ← List.head?_filter,
    filter_children_coalesced source h hrole hparsed, List.head?_map]

theorem bodyCut?_coalesced (source : Bytes) (h : profile.CommentsApart) {method : Tree Element}
    (hparsed : method.label.content.isComposite = false) :
    profile.bodyCut? (method.coalesced source (profile.types .comments) true) =
      profile.bodyCut? method := by
  rw [Profile.bodyCut?, first?_children_coalesced source h (by decide) hparsed, Option.map_map,
    Profile.bodyCut?]
  simp only [Function.comp_def, label_coalesced]

/-- **The bodies of a class** are the same in the coalesced tree. -/
theorem bodyCuts_coalesced (source : Bytes) (h : profile.CommentsApart) {tree : Tree Element}
    (hparsed : ∀ subtree ∈ tree.subtrees, subtree.label.content.isComposite = false) :
    profile.bodyCuts (tree.coalesced source (profile.types .comments) true) =
      profile.bodyCuts tree := by
  obtain ⟨hself, hchildren⟩ := forall_subtrees_iff.1 hparsed
  rw [Profile.bodyCuts, first?_children_coalesced source h (by decide) hself, Profile.bodyCuts]
  cases hbody : profile.first? .classBodies tree.children.trees with
  | none => rfl
  | some body =>
    obtain ⟨hbodyParsed, hmembers⟩ :=
      forall_subtrees_iff.1 (hchildren body (List.mem_of_find?_eq_some hbody))
    simp only [Option.map_some, Profile.methods]
    rw [filter_children_coalesced source h (by decide) hbodyParsed, List.filterMap_map]
    refine List.filterMap_congr fun method hmethod => ?_
    have hmethodParsed := hmembers method (List.mem_of_mem_filter hmethod)
    exact bodyCut?_coalesced source h (forall_subtrees_iff.1 hmethodParsed).1

/-- A list of two items or more ends with two. -/
theorem exists_eq_append_pair {α : Type} (first second : α) (others : List α) :
    ∃ before penultimate last, first :: second :: others = before ++ [penultimate, last] := by
  induction others generalizing first second with
  | nil => exact ⟨[], first, second, rfl⟩
  | cons third others ih =>
    obtain ⟨before, penultimate, last, heq⟩ := ih second third
    exact ⟨first :: before, penultimate, last, by rw [heq]; rfl⟩

/-- **The last child** keeps its label unless there is a run at the end. -/
theorem map_label_getLast?_coalesced (source : Bytes) (types : List String) {tree : Tree Element}
    (hparsed : tree.label.content.isComposite = false)
    (hending : ∀ before second last, tree.children.trees = before ++ [second, last] →
      ¬ (isCommentOf types second = true ∧ isCommentOf types last = true)) :
    (tree.coalesced source types true).children.trees.getLast?.map label =
      tree.children.trees.getLast?.map label := by
  obtain ⟨hnonempty, hgroups, -⟩ := grouped_spec (isCommentOf types) tree.children.trees
  have hflatten := flatten_grouped (isCommentOf types) true tree.children.trees
  rw [trees_children_coalesced source types hparsed]
  rcases List.eq_nil_or_concat (grouped (isCommentOf types) true tree.children.trees) with
    hnil | ⟨earlier, group, hconcat⟩
  · rw [hnil] at hflatten ⊢
    rw [← hflatten]
    rfl
  · rw [List.concat_eq_append] at hconcat
    rw [hconcat] at hflatten hnonempty hgroups ⊢
    rw [← hflatten, List.filterMap_append, List.flatten_append, List.flatten_singleton]
    match group with
    | [] => simp at hnonempty
    | [single] =>
      rw [List.filterMap_cons_some (by rfl : standIn source (coalesced source types true) [single] =
        some (single.coalesced source types true))]
      simp
    | first :: second :: others =>
      obtain ⟨before, penultimate, last, hend⟩ := exists_eq_append_pair first second others
      have hmembers : ∀ item ∈ first :: second :: others, isCommentOf types item = true :=
        (hgroups _ (by simp)).resolve_left (by simp)
      rw [hend] at hmembers
      refine absurd ⟨hmembers penultimate (by simp), hmembers last (by simp)⟩
        (hending (earlier.flatten ++ before) penultimate last ?_)
      rw [← hflatten, List.flatten_append, List.flatten_singleton, hend, List.append_assoc]

theorem functionOutline_coalesced (source : Bytes) (profile : Profile) {tree : Tree Element}
    (hparsed : tree.label.content.isComposite = false)
    (hending : ∀ before second last, tree.children.trees = before ++ [second, last] →
      ¬ (isCommentOf (profile.types .comments) second = true ∧
        isCommentOf (profile.types .comments) last = true)) (above : List Element) :
    (tree.coalesced source (profile.types .comments) true).functionOutline source profile above =
      tree.functionOutline source profile above := by
  have hlast := map_label_getLast?_coalesced source (profile.types .comments) hparsed hending
  rw [functionOutline, functionOutline, label_coalesced]
  cases hbody : tree.children.trees.getLast? with
  | none =>
    rw [hbody, Option.map_none, Option.map_eq_none_iff] at hlast
    rw [hlast]
  | some body =>
    rw [hbody, Option.map_some, Option.map_eq_some_iff] at hlast
    obtain ⟨copy, hcopy, hlabel⟩ := hlast
    rw [hcopy]
    simp only [hlabel]

/-- **The outline of a definition** is the same in the coalesced tree. -/
theorem outline_coalesced (source : Bytes) (h : profile.CommentsApart) {tree : Tree Element}
    (hparsed : ∀ subtree ∈ tree.subtrees, subtree.label.content.isComposite = false)
    (haside : tree.CommentsAside profile (·.content.type)) {kind : DefinitionKind}
    (hkind : profile.definition? tree.label.content.type = some kind) (budget : Int)
    (above : List Element) :
    (tree.coalesced source (profile.types .comments) true).outline source profile budget kind
        above = tree.outline source profile budget kind above := by
  cases kind with
  | ofClass =>
    have hunpruned : (tree.coalesced source (profile.types .comments) true).unpruned source
        profile = tree.unpruned source profile := by
      rw [unpruned, unpruned, bodyCuts_coalesced source h hparsed, label_coalesced]
    rw [outline, outline, classOutline, classOutline, hunpruned]
  | ofFunction =>
    have hfunction : profile.plays .functions tree.label.content.type = true := by
      unfold Profile.definition? at hkind
      split at hkind
      · simp at hkind
      · split at hkind
        · next hplays => exact hplays
        · simp at hkind
    exact congrArg Producer.done (functionOutline_coalesced source profile
      (forall_subtrees_iff.1 hparsed).1 (haside.not_pair hfunction) above)

end Tree

namespace TreeWalk

variable {walk : TreeWalk} {tree : Tree Element} {above : List Element}

/-- The coalesced tree, with the comments of the walk's own grammar. -/
def coalesced (walk : TreeWalk) (tree : Tree Element) : Tree Element :=
  tree.coalesced walk.source (walk.profile.types .comments) true

/-- What becomes of the root is the same in the coalesced tree. -/
theorem piece?_coalesced (h : walk.profile.CommentsApart)
    (hparsed : ∀ subtree ∈ tree.subtrees, subtree.label.content.isComposite = false)
    (haside : tree.CommentsAside walk.profile (·.content.type)) (above : List Element) :
    walk.piece? above (walk.coalesced tree) = walk.piece? above tree := by
  have hlabel : (walk.coalesced tree).label = tree.label := Tree.label_coalesced _ _ _ _
  rw [piece?, piece?, hlabel]
  split
  · rfl
  · split
    · rfl
    · cases hkind : walk.profile.definition? tree.label.content.type with
      | none => rfl
      | some kind =>
        have houtline := Tree.outline_coalesced walk.source h hparsed haside hkind walk.budget above
        simp only [Option.map_some, outlined]
        rw [coalesced, houtline]

/-- Below the root a comment is one piece, and nothing becomes of what is below it. -/
theorem treePieces_comment (h : walk.profile.CommentsApart) (habove : above ≠ [])
    (hcomment : walk.profile.plays .comments tree.label.content.type = true)
    (hleaf : tree.children = .nil) :
    walk.treePieces above tree = [.comment (Arena.elementText walk.source tree.label)] := by
  have hnone : walk.profile.definition? tree.label.content.type = none := by
    rw [Profile.definition?, h.comments _ hcomment .classes (by decide),
      h.comments _ hcomment .functions (by decide)]
    rfl
  have hwhole : walk.isWhole above tree.label = false := by
    rw [isWhole, hnone, List.isEmpty_eq_false_iff.2 habove]
    rfl
  rw [treePieces, piece?, hwhole, hcomment, Bool.or_true, hleaf]
  simp only [Bool.false_eq_true, if_false, if_true, pieces, ite_self]
  rfl

/-- So is a composite, with all of its text. -/
theorem treePieces_composite (h : walk.profile.CommentsApart) (habove : above ≠ [])
    (first : Tree Element) (others : List (Tree Element)) :
    walk.treePieces above (Tree.composite walk.source first others) =
      [.comment (Text.joinLines
        ((first :: others).map fun tree => Arena.elementText walk.source tree.label))] := by
  have hnone : walk.profile.definition? compositeType = none := by
    rw [Profile.definition?, h.composites .classes, h.composites .functions]
    rfl
  have htype : (Tree.composite walk.source first others).label.content.type = compositeType := rfl
  have hwhole : walk.isWhole above (Tree.composite walk.source first others).label = false := by
    rw [isWhole, List.isEmpty_eq_false_iff.2 habove, htype, hnone]
    rfl
  rw [treePieces, piece?, hwhole, isClosed, hwhole]
  rfl

/-- **What stands in for a group of neighbours** is spelled like the group: a single child by
assumption, and a run because the composite has the texts of its members. -/
theorem spelled_standIn (h : walk.profile.CommentsApart) (habove : above ≠ [])
    {group : List (Tree Element)}
    (hgroup : (∃ item, group = [item]) ∨
      ∀ item ∈ group, Tree.isCommentOf (walk.profile.types .comments) item = true)
    (hleaf : ∀ child ∈ group,
      walk.profile.plays .comments child.label.content.type = true → child.children = .nil)
    (hcopy : ∀ child ∈ group, Piece.spelled (walk.treePieces above (walk.coalesced child)) =
      Piece.spelled (walk.treePieces above child)) :
    Piece.spelled ((Tree.standIn walk.source walk.coalesced group).toList.flatMap
        (walk.treePieces above)) =
      Piece.spelled (group.flatMap (walk.treePieces above)) := by
  match group with
  | [] => rfl
  | [single] =>
    rw [List.flatMap_singleton, ← hcopy single (List.mem_singleton_self single)]
    exact congrArg Piece.spelled (List.flatMap_singleton _ _)
  | first :: second :: others =>
    have hmembers := hgroup.resolve_left (by simp)
    have hpieces : (first :: second :: others).flatMap (walk.treePieces above) =
        ((first :: second :: others).map fun member =>
          Arena.elementText walk.source member.label).map Piece.comment := by
      rw [List.map_map, List.map_eq_flatMap]
      exact List.flatMap_congr fun member hmember =>
        treePieces_comment h habove (hmembers member hmember)
          (hleaf member hmember (hmembers member hmember))
    have hstandIn : (Tree.standIn walk.source walk.coalesced
        (first :: second :: others)).toList.flatMap (walk.treePieces above) =
          [.comment (Text.joinLines ((first :: second :: others).map
            fun member => Arena.elementText walk.source member.label))] :=
      (List.flatMap_singleton _ _).trans (treePieces_composite h habove first (second :: others))
    rw [hstandIn, hpieces, Piece.spelled, List.flatMap_singleton]
    exact Piece.signs_comment_joinLines (by simp)

/-- If every group is spelled like what stands in for it, so are all together. -/
theorem spelled_standIns {copy : Tree Element → Tree Element} {f : Tree Element → List Piece}
    {groups : List (List (Tree Element))}
    (h : ∀ group ∈ groups,
      Piece.spelled ((Tree.standIn walk.source copy group).toList.flatMap f) =
        Piece.spelled (group.flatMap f)) :
    Piece.spelled ((groups.filterMap (Tree.standIn walk.source copy)).flatMap f) =
      Piece.spelled (groups.flatten.flatMap f) := by
  induction groups with
  | nil => rfl
  | cons group rest ih =>
    obtain ⟨hgroup, hrest⟩ := List.forall_mem_cons.1 h
    have hfirst : (group :: rest).filterMap (Tree.standIn walk.source copy) =
        (Tree.standIn walk.source copy group).toList ++
          rest.filterMap (Tree.standIn walk.source copy) := by
      cases hstandIn : Tree.standIn walk.source copy group <;> simp [hstandIn]
    rw [hfirst, List.flatten_cons, List.flatMap_append, List.flatMap_append,
      Piece.spelled_append, Piece.spelled_append, hgroup, ih hrest]

/-- **The coalesced tree is spelled like the tree.** -/
theorem spelled_coalesced (walk : TreeWalk) (h : walk.profile.CommentsApart) (tree : Tree Element)
    (hparsed : ∀ subtree ∈ tree.subtrees, subtree.label.content.isComposite = false)
    (haside : ∀ subtree ∈ tree.subtrees, subtree.CommentsAside walk.profile (·.content.type))
    (above : List Element) :
    Piece.spelled (walk.treePieces above (walk.coalesced tree)) =
      Piece.spelled (walk.treePieces above tree) := by
  obtain ⟨hself, hchildren⟩ := Tree.forall_subtrees_iff.1 hparsed
  obtain ⟨hselfAside, hchildrenAside⟩ := Tree.forall_subtrees_iff.1 haside
  obtain ⟨-, hgroups, -⟩ := grouped_spec (Tree.isCommentOf (walk.profile.types .comments))
    tree.children.trees
  have hlabel : (walk.coalesced tree).label = tree.label := Tree.label_coalesced _ _ _ _
  rw [treePieces, treePieces, piece?_coalesced h hparsed hselfAside, hlabel]
  split
  · rfl
  · have hbelow : Piece.spelled (((grouped (Tree.isCommentOf (walk.profile.types .comments)) true
        tree.children.trees).filterMap (Tree.standIn walk.source walk.coalesced)).flatMap
          (walk.treePieces (tree.label :: above))) =
        Piece.spelled (tree.children.trees.flatMap (walk.treePieces (tree.label :: above))) := by
      refine (spelled_standIns fun group hgroup => spelled_standIn h (List.cons_ne_nil _ _)
        (hgroups group hgroup) (fun child hchild => ?_) fun child hchild => ?_).trans
          (by rw [flatten_grouped])
      · have hmem := mem_of_mem_grouped hgroup hchild
        exact (Tree.forall_subtrees_iff.1 (hchildrenAside child hmem)).1.leaf
      · have hmem := mem_of_mem_grouped hgroup hchild
        have hsize : child.size < tree.size := Tree.size_lt_of_mem_trees hmem
        exact walk.spelled_coalesced h child (hchildren child hmem) (hchildrenAside child hmem)
          (tree.label :: above)
    rw [Piece.spelled_append, Piece.spelled_append, pieces_eq_flatMap, pieces_eq_flatMap, coalesced,
      Tree.trees_children_coalesced walk.source _ hself]
    exact congrArg _ hbelow
termination_by tree.size

end TreeWalk

/-! ## The two walks -/

namespace Tree

/-- The comments of a parse are aside in its elements. -/
theorem commentsAside_elements {profile : Profile} {parse : Tree Symbol}
    (h : ∀ subtree ∈ parse.subtrees, subtree.CommentsAside profile Symbol.type) :
    ∀ subtree ∈ (parse.map Symbol.element).subtrees,
      subtree.CommentsAside profile (·.content.type) := by
  rw [subtrees_map, List.forall_mem_map]
  intro subtree hsubtree
  obtain ⟨hleaf, hending⟩ := h subtree hsubtree
  refine ⟨fun hcomment => ?_, fun hfunction hlength => ?_⟩
  · rw [map, hleaf hcomment]
    rfl
  · rw [map, Forest.trees_map, List.length_map] at hlength ⊢
    obtain ⟨child, hchild, hother⟩ := hending hfunction hlength
    rw [← List.map_drop]
    exact ⟨child.map Symbol.element, List.mem_map_of_mem hchild, hother⟩

end Tree

namespace ChunkWalk

/-- **Coalescing only repacks comments.**  For every parse in which comments are aside, every
profile in which they are nothing else, every budget and all costs, the walk over the arena of
the parse and the walk over its copy with comments put together come to their ends, and deliver
the same chunks of nodes' own; and the comments before the first of these, between any two and
after the last, each joined, are the same texts. -/
theorem run_repacked (source : Bytes) (parse : Tree Symbol) (profile : Profile)
    (hprofile : profile.CommentsApart)
    (hparse : ∀ subtree ∈ parse.subtrees, subtree.CommentsAside profile Symbol.type)
    (budget : Int) (cost : String → Int) :
    ∃ coalesced tree copy,
      (Arena.ofParse source parse).coalesce (profile.types .comments) = .ok coalesced ∧
      (Arena.ofParse source parse).HasTree tree ∧ coalesced.HasTree copy ∧
      let walk : ChunkWalk := ⟨Arena.ofParse source parse, profile, budget⟩
      let other : ChunkWalk := ⟨coalesced, profile, budget⟩
      (walk.chunks.run none (CostFunction.mk cost)).ending = .done () ∧
        (walk.chunks.run none (CostFunction.mk cost)).chunks =
          (walk.deliveries cost tree).map (·.chunk) ∧
        (other.chunks.run none (CostFunction.mk cost)).ending = .done () ∧
        (other.chunks.run none (CostFunction.mk cost)).chunks =
          (other.deliveries cost copy).map (·.chunk) ∧
        Piece.digest ((other.deliveries cost copy).map Delivery.piece) =
          Piece.digest ((walk.deliveries cost tree).map Delivery.piece) := by
  obtain ⟨arena, tree, harena, hsource, htidy, htree⟩ := Arena.exists_prepared source parse none
  obtain ⟨coalesced, copy, hcoalesced, hsource', hcopyTidy, hcopy⟩ :=
    Arena.exists_prepared source parse (some (profile.types .comments))
  obtain rfl : Arena.ofParse source parse = arena := Except.ok.inj harena
  refine ⟨coalesced, tree, copy, hcoalesced, htidy.hasTree, hcopyTidy.hasTree, ?_⟩
  intro walk other
  obtain ⟨hending, hchunks⟩ := walk.run_eq_deliveries cost htidy.isTree
  obtain ⟨hending', hchunks'⟩ := other.run_eq_deliveries cost hcopyTidy.isTree
  refine ⟨hending, hchunks, hending', hchunks', Piece.digest_congr ?_⟩
  have hparsed : ∀ subtree ∈ (parse.map Symbol.element).subtrees,
      subtree.label.content.isComposite = false := by
    rw [Tree.subtrees_map, List.forall_mem_map]
    exact fun _ _ => rfl
  have hplain : (walk.reached cost tree).filterMap (walk.piece? cost) =
      (walk.overTrees cost).pieces [] (parse.map Symbol.element).forest := by
    rw [pieces_reached htidy, htree]
    rfl
  have hmerged : (other.reached cost copy).filterMap (other.piece? cost) =
      (walk.overTrees cost).pieces []
        ((walk.overTrees cost).coalesced (parse.map Symbol.element)).forest := by
    have hwalks : other.overTrees cost = walk.overTrees cost := by
      show TreeWalk.mk coalesced.source profile budget cost = ⟨source, profile, budget, cost⟩
      rw [hsource']
    rw [pieces_reached hcopyTidy, hwalks, hcopy]
    rfl
  rw [spelled_deliveries, spelled_deliveries, hplain, hmerged, TreeWalk.pieces_eq_flatMap,
    TreeWalk.pieces_eq_flatMap]
  show Piece.spelled ([(walk.overTrees cost).coalesced _].flatMap _) =
    Piece.spelled ([parse.map Symbol.element].flatMap _)
  rw [List.flatMap_singleton, List.flatMap_singleton]
  exact (walk.overTrees cost).spelled_coalesced hprofile (parse.map Symbol.element) hparsed
    (Tree.commentsAside_elements hparse) []

/-- Comments in front of a class, before, in and after its method. -/
def commentedText : String :=
  "#a\n#b\nclass C:\n #c\n #d\n def f:\n  #e\n  pass\n #g\n #h"

/-- What a parser reports of it. -/
def commentedParse : Tree Symbol where
  label := ⟨"module", ⟨0, 50, ⟨0, 0⟩, ⟨9, 3⟩⟩⟩
  children := .ofTrees [
    ⟨⟨"comment", ⟨0, 2, ⟨0, 0⟩, ⟨0, 2⟩⟩⟩, .nil⟩,
    ⟨⟨"comment", ⟨3, 5, ⟨1, 0⟩, ⟨1, 2⟩⟩⟩, .nil⟩,
    ⟨⟨"class", ⟨6, 50, ⟨2, 0⟩, ⟨9, 3⟩⟩⟩, .ofTrees [
      ⟨⟨"body", ⟨16, 50, ⟨3, 1⟩, ⟨9, 3⟩⟩⟩, .ofTrees [
        ⟨⟨"comment", ⟨16, 18, ⟨3, 1⟩, ⟨3, 3⟩⟩⟩, .nil⟩,
        ⟨⟨"comment", ⟨20, 22, ⟨4, 1⟩, ⟨4, 3⟩⟩⟩, .nil⟩,
        ⟨⟨"method", ⟨24, 42, ⟨5, 1⟩, ⟨7, 6⟩⟩⟩, .ofTrees [
          ⟨⟨"comment", ⟨33, 35, ⟨6, 2⟩, ⟨6, 4⟩⟩⟩, .nil⟩,
          ⟨⟨"block", ⟨38, 42, ⟨7, 2⟩, ⟨7, 6⟩⟩⟩, .nil⟩]⟩,
        ⟨⟨"comment", ⟨44, 46, ⟨8, 1⟩, ⟨8, 3⟩⟩⟩, .nil⟩,
        ⟨⟨"comment", ⟨48, 50, ⟨9, 1⟩, ⟨9, 3⟩⟩⟩, .nil⟩]⟩]⟩]

theorem commentedParse_repacked : membersProfile.CommentsApart ∧
    (∀ subtree ∈ commentedParse.subtrees, subtree.CommentsAside membersProfile Symbol.type) ∧
    ∃ coalesced tree copy,
      (Arena.ofParse (Utf8.encode commentedText) commentedParse).coalesce ["comment"] =
        .ok coalesced ∧
      (Arena.ofParse (Utf8.encode commentedText) commentedParse).HasTree tree ∧
      coalesced.HasTree copy ∧
      let walk : ChunkWalk :=
        ⟨Arena.ofParse (Utf8.encode commentedText) commentedParse, membersProfile, 8⟩
      let other : ChunkWalk := ⟨coalesced, membersProfile, 8⟩
      (walk.chunks.run none (CostFunction.mk fun text => text.length)).ending = .done () ∧
        (walk.chunks.run none (CostFunction.mk fun text => text.length)).chunks =
          (walk.deliveries (fun text => text.length) tree).map (·.chunk) ∧
        (other.chunks.run none (CostFunction.mk fun text => text.length)).ending = .done () ∧
        (other.chunks.run none (CostFunction.mk fun text => text.length)).chunks =
          (other.deliveries (fun text => text.length) copy).map (·.chunk) ∧
        Piece.digest ((other.deliveries (fun text => text.length) copy).map Delivery.piece) =
          Piece.digest ((walk.deliveries (fun text => text.length) tree).map Delivery.piece) := by
  have apart : membersProfile.CommentsApart := by
    refine ⟨fun type htype role hrole => ?_, fun role => by cases role <;> decide⟩
    obtain rfl : type = "comment" := by simpa [Profile.plays, membersProfile] using htype
    cases role <;> first | exact absurd rfl hrole | decide
  have aside : ∀ subtree ∈ commentedParse.subtrees,
      subtree.CommentsAside membersProfile Symbol.type := by decide
  exact ⟨apart, aside, run_repacked _ commentedParse membersProfile apart aside 8 _⟩

end ChunkWalk

end SourceChunks
