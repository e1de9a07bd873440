import SourceChunks.Proofs.Comment.Pieces
import SourceChunks.Proofs.Outline.TreeOutline
import SourceChunks.Proofs.Walk.Account

/-!
# The pieces of a walk

What a complete run delivers, its comments taken one by one, are the pieces of the nodes that
it comes to (`spelled_deliveries`).  The comment buffer is gone from that, for it only decides
how the comments are packed.

The numbers of the nodes can go as well.  `TreeWalk` has all that decides what becomes of a
node, but for the arena, and gives the pieces as a recursion over a tree of elements.  In an
arena that was made from a tree, the nodes that the walk comes to have just these pieces
(`pieces_reached`).  So walks over different arenas can be compared by their trees.
-/

namespace SourceChunks

/-- What a delivery is, whatever the nodes it was made of. -/
def Delivery.piece (delivery : Delivery) : Piece :=
  match delivery.origin with
  | .comments _ => .comment delivery.chunk.content
  | .whole _ | .outline _ => .own delivery.chunk

theorem Delivery.piece_of_node? {delivery : Delivery} {entry : Nat × Node}
    (h : delivery.node? = some entry) : delivery.piece = .own delivery.chunk := by
  obtain ⟨origin, chunk⟩ := delivery
  cases origin with
  | whole other => rfl
  | outline other => rfl
  | comments entries => simp [node?] at h

theorem Delivery.piece_of_comments? {delivery : Delivery} {group : List (Nat × Node)}
    (h : delivery.comments? = some group) : delivery.piece = .comment delivery.chunk.content := by
  obtain ⟨origin, chunk⟩ := delivery
  cases origin with
  | whole other => simp [comments?] at h
  | outline other => simp [comments?] at h
  | comments entries => rfl

namespace ChunkWalk

variable (walk : ChunkWalk) (cost : String → Int)

/-- What becomes of a node that the walk comes to. -/
def piece? (entry : Nat × Node) : Option Piece :=
  if walk.isBuffered cost entry then some (.comment (walk.arena.nodeText entry.2))
  else (walk.ownDelivery? cost entry).map fun own => .own own.chunk

variable {walk cost}

/-- A comment chunk has the texts of its comments. -/
theorem content_of_numbered {stream : List Delivery} {line : Int}
    (h : (stream.filter fun delivery => delivery.comments?.isSome).map (·.chunk) =
      walk.commentChunks line (stream.filterMap Delivery.comments?))
    {delivery : Delivery} (hmem : delivery ∈ stream) {group : List (Nat × Node)}
    (hgroup : delivery.comments? = some group) :
    delivery.chunk.content =
      Text.joinLines (group.map fun comment => walk.arena.nodeText comment.2) := by
  induction stream generalizing line with
  | nil => simp at hmem
  | cons first rest ih =>
    cases hfirst : first.comments? with
    | none =>
      have hne : delivery ≠ first := by
        rintro rfl
        rw [hgroup] at hfirst
        simp at hfirst
      rw [List.filter_cons, hfirst, List.filterMap_cons_none hfirst] at h
      exact ih h ((List.mem_cons.1 hmem).resolve_left hne)
    | some others =>
      rw [List.filter_cons, hfirst, List.filterMap_cons_some hfirst, commentChunks] at h
      obtain ⟨hchunk, hrest⟩ := List.cons.inj h
      rcases List.mem_cons.1 hmem with rfl | hmem
      · rw [hgroup, Option.some.injEq] at hfirst
        rw [hfirst]
        exact congrArg Chunk.content hchunk
      · exact ih hrest hmem

/-- A chunk of comments is spelled like its comments one by one. -/
theorem signs_of_comments? {tree : Tree (Nat × Node)} {delivery : Delivery}
    (h : delivery ∈ walk.deliveries cost tree) {group : List (Nat × Node)}
    (hgroup : delivery.comments? = some group) :
    delivery.piece.signs = Piece.spelled (delivery.entries.filterMap (walk.piece? cost)) := by
  obtain ⟨after, account, hempty⟩ := Account.deliveries walk cost tree
  have hmem : group ∈ (walk.deliveries cost tree).filterMap Delivery.comments? :=
    List.mem_filterMap.2 ⟨delivery, h, hgroup⟩
  have hne : group ≠ [] := fun heq => account.nonempty (heq ▸ hmem)
  have hbuffered : ∀ comment ∈ group, walk.isBuffered cost comment = true := by
    intro comment hcomment
    have hin : comment ∈ ((walk.deliveries cost tree).filterMap Delivery.comments?).flatten
        ++ after.entries := List.mem_append_left _ (List.mem_flatten.2 ⟨group, hmem, hcomment⟩)
    rw [account.buffered] at hin
    exact (List.mem_filter.1 hin).2
  have hpieces : group.filterMap (walk.piece? cost) =
      (group.map fun comment => walk.arena.nodeText comment.2).map .comment := by
    rw [List.map_map, ← List.filterMap_eq_map]
    refine List.filterMap_congr fun comment hcomment => ?_
    rw [piece?, if_pos (hbuffered comment hcomment)]
    rfl
  rw [Delivery.piece_of_comments? hgroup, Delivery.entries_of_comments? hgroup, hpieces,
    content_of_numbered account.numbered h hgroup]
  exact Piece.signs_comment_joinLines (by simpa using hne)

/-- A chunk of a node's own is the piece of that node. -/
theorem signs_of_node? {tree : Tree (Nat × Node)} {delivery : Delivery}
    (h : delivery ∈ walk.deliveries cost tree) {entry : Nat × Node}
    (hnode : delivery.node? = some entry) :
    delivery.piece.signs = Piece.spelled (delivery.entries.filterMap (walk.piece? cost)) := by
  obtain ⟨-, hown⟩ := (mem_deliveries_iff_of_node? hnode).1 h
  have hbuffered : walk.isBuffered cost entry = false := by
    rcases own_cases hown with ⟨hwhole, -⟩ | ⟨kind, -, hcomment, -, -⟩
    · rw [isBuffered, hwhole]
      rfl
    · rw [isBuffered, hcomment, Bool.and_false]
  have hpiece : walk.piece? cost entry = some (.own delivery.chunk) := by
    rw [piece?, hbuffered, if_neg Bool.false_ne_true, hown]
    rfl
  rw [Delivery.piece_of_node? hnode, (Delivery.entries_of_node? hnode).1,
    List.filterMap_cons_some hpiece]
  rfl

/-- **A delivery is spelled like the pieces of its nodes.** -/
theorem signs_piece {tree : Tree (Nat × Node)} {delivery : Delivery}
    (h : delivery ∈ walk.deliveries cost tree) :
    delivery.piece.signs = Piece.spelled (delivery.entries.filterMap (walk.piece? cost)) := by
  cases horigin : delivery.origin with
  | whole entry => exact signs_of_node? h (by rw [Delivery.node?, horigin])
  | outline entry => exact signs_of_node? h (by rw [Delivery.node?, horigin])
  | comments group => exact signs_of_comments? h (by rw [Delivery.comments?, horigin])

/-- Only of nodes that are handled something becomes. -/
theorem isHandled_of_piece? {entry : Nat × Node} {piece : Piece}
    (h : walk.piece? cost entry = some piece) : walk.isHandled cost entry = true := by
  unfold piece? at h
  rw [isHandled]
  split at h
  · next hbuffered => rw [hbuffered, Bool.true_or]
  · obtain ⟨own, hown, -⟩ := Option.map_eq_some_iff.1 h
    rw [hown, Option.isSome_some, Bool.or_true]

/-- **The stream, comment by comment**, are the pieces of the nodes that the walk comes to. -/
theorem spelled_deliveries (walk : ChunkWalk) (cost : String → Int) (tree : Tree (Nat × Node)) :
    Piece.spelled ((walk.deliveries cost tree).map Delivery.piece) =
      Piece.spelled ((walk.reached cost tree).filterMap (walk.piece? cost)) := by
  obtain ⟨after, account, hempty⟩ := Account.deliveries walk cost tree
  have hhandled := account.handled
  rw [hempty, List.append_nil] at hhandled
  have hpieces : ((walk.deliveries cost tree).flatMap Delivery.entries).filterMap
      (walk.piece? cost) = (walk.reached cost tree).filterMap (walk.piece? cost) := by
    rw [hhandled, List.nil_append, List.filterMap_filter]
    refine List.filterMap_congr fun entry _ => ?_
    cases hpiece : walk.piece? cost entry with
    | none => simp
    | some piece => rw [if_pos (isHandled_of_piece? hpiece)]
  rw [← hpieces, List.filterMap_flatMap, Piece.spelled, Piece.spelled, List.flatMap_map,
    List.flatMap_assoc]
  exact List.flatMap_congr fun delivery hdelivery => signs_piece hdelivery

end ChunkWalk

/-! ## Without numbers -/

/-- All that decides what becomes of a node, the arena apart. -/
structure TreeWalk where
  source : Bytes
  profile : Profile
  budget : Int
  cost : String → Int

/-- The walk over trees without numbers, at fixed costs. -/
def ChunkWalk.overTrees (walk : ChunkWalk) (cost : String → Int) : TreeWalk where
  source := walk.arena.source
  profile := walk.profile
  budget := walk.budget
  cost := cost

namespace TreeWalk

variable (walk : TreeWalk)

/-- Is the element, which stands below the given ones, delivered whole? -/
def isWhole (above : List Element) (element : Element) : Bool :=
  (above.isEmpty || (walk.profile.definition? element.content.type).isSome)
    && decide (walk.cost (Arena.elementText walk.source element) < walk.budget)

/-- Is what is below the element left out? -/
def isClosed (above : List Element) (element : Element) : Bool :=
  walk.isWhole above element || element.content.isComposite

/-- The chunk that stands for an element. -/
def elementChunk (element : Element) (content : String) : Chunk :=
  ⟨content, element.span.startPoint.row, element.span.stopPoint.row⟩

/-- The outline of a definition. -/
def outlined (kind : DefinitionKind) (above : List Element) (tree : Tree Element) : String :=
  ((tree.outline walk.source walk.profile walk.budget kind above).run none
    (CostFunction.mk walk.cost)).ending.value?.getD ""

/-- What becomes of the root of a tree. -/
def piece? (above : List Element) (tree : Tree Element) : Option Piece :=
  if walk.isWhole above tree.label then
    some (.own (elementChunk tree.label (Arena.elementText walk.source tree.label)))
  else if tree.label.content.isComposite ||
      walk.profile.plays .comments tree.label.content.type then
    some (.comment (Arena.elementText walk.source tree.label))
  else
    (walk.profile.definition? tree.label.content.type).map fun kind =>
      .own (elementChunk tree.label (walk.outlined kind above tree))

/-- What becomes of trees, and of what is below them. -/
def pieces (above : List Element) : Forest Element → List Piece
  | .nil => []
  | .cons label children siblings =>
    (walk.piece? above ⟨label, children⟩).toList
      ++ ((if walk.isClosed above label then [] else pieces (label :: above) children)
        ++ pieces above siblings)

/-- What becomes of a tree, and of what is below its root. -/
def treePieces (above : List Element) (tree : Tree Element) : List Piece :=
  (walk.piece? above tree).toList
    ++ (if walk.isClosed above tree.label then []
      else walk.pieces (tree.label :: above) tree.children)

theorem pieces_eq_flatMap (above : List Element) (forest : Forest Element) :
    walk.pieces above forest = forest.trees.flatMap (walk.treePieces above) := by
  induction forest with
  | nil => rfl
  | cons label children siblings _ ih =>
    rw [pieces, Forest.trees, List.flatMap_cons, treePieces, ih, List.append_assoc]

end TreeWalk

namespace ChunkWalk

variable {walk : ChunkWalk} {cost : String → Int} {above : List (Nat × Node)}
  {tree : Tree (Nat × Node)}

theorem isWhole_eq (h : walk.arena.Seated above tree) :
    walk.isWhole cost tree.label =
      (walk.overTrees cost).isWhole (above.map (·.2.element)) tree.label.2.element := by
  have hroot : (tree.label.1 == walk.arena.root) = (above.map (·.2.element)).isEmpty := by
    rw [Bool.eq_iff_iff, beq_iff_eq, h.root_iff, List.isEmpty_iff, List.map_eq_nil_iff]
  rw [isWhole, hroot]
  rfl

/-- What becomes of a node is what becomes of the tree at its place. -/
theorem piece?_eq (h : walk.arena.Seated above tree) :
    walk.piece? cost tree.label =
      (walk.overTrees cost).piece? (above.map (·.2.element)) (tree.map (·.2.element)) := by
  have houtlined : ∀ kind, walk.outlined cost kind tree.label.1 =
      (walk.overTrees cost).outlined kind (above.map (·.2.element)) (tree.map (·.2.element)) := by
    intro kind
    rw [outlined, h.outline_eq]
    rfl
  have hlabel : (tree.map (·.2.element)).label = tree.label.2.element := rfl
  rw [piece?, isBuffered, ownDelivery?, isWhole_eq h, TreeWalk.piece?, hlabel]
  cases (walk.overTrees cost).isWhole (above.map (·.2.element)) tree.label.2.element with
  | true => rfl
  | false =>
    have hcomment : walk.isComment tree.label.2 = (tree.label.2.element.content.isComposite ||
        (walk.overTrees cost).profile.plays .comments tree.label.2.element.content.type) := rfl
    rw [← hcomment]
    cases walk.isComment tree.label.2 with
    | true => rfl
    | false =>
      simp only [Bool.not_false, Bool.true_and, Bool.false_eq_true, if_false, Option.map_map]
      refine congrArg (Option.map · _) (funext fun kind => ?_)
      simp only [Function.comp, houtlined]
      rfl

/-- **The pieces of an arena are those of its tree.** -/
theorem pieces_visible {forest : Forest (Nat × Node)}
    (h : ∀ place ∈ forest.places above, walk.arena.Seated place.1 place.2) :
    (forest.visible (walk.isClosed cost)).filterMap (walk.piece? cost) =
      (walk.overTrees cost).pieces (above.map (·.2.element)) (forest.map (·.2.element)) := by
  induction forest generalizing above with
  | nil => rfl
  | cons label children siblings ihChildren ihSiblings =>
    obtain ⟨hself, hchildren, hsiblings⟩ := Forest.forall_places_cons.1 h
    have hclosed : walk.isClosed cost label =
        (walk.overTrees cost).isClosed (above.map (·.2.element)) label.2.element := by
      rw [isClosed, isWhole_eq hself]
      rfl
    have hpiece : walk.piece? cost label = (walk.overTrees cost).piece? (above.map (·.2.element))
        ⟨label.2.element, children.map (·.2.element)⟩ := piece?_eq hself
    have hbelow := ihChildren hchildren
    rw [List.map_cons] at hbelow
    have hfirst : ∀ rest, (label :: rest).filterMap (walk.piece? cost) =
        (walk.piece? cost label).toList ++ rest.filterMap (walk.piece? cost) := by
      intro rest
      cases h : walk.piece? cost label <;> simp [h]
    rw [Forest.visible, Forest.map, TreeWalk.pieces, ← hclosed, ← hbelow, ← ihSiblings hsiblings,
      ← hpiece, hfirst, List.filterMap_append]
    cases walk.isClosed cost label <;> rfl

theorem pieces_reached (h : walk.arena.Tidy tree) :
    (walk.reached cost tree).filterMap (walk.piece? cost) =
      (walk.overTrees cost).pieces [] (tree.map (·.2.element)).forest :=
  pieces_visible h.seated

end ChunkWalk

end SourceChunks
