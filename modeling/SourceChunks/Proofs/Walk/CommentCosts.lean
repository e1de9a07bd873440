import SourceChunks.Proofs.Calculator.Costs
import SourceChunks.Proofs.Comment.Packing
import SourceChunks.Proofs.Walk.Pieces

/-!
# What comment chunks cost

Along a walk the comment buffer is used as in `Proofs/Comment/Packing`: what waits in it are the
comments that came last, and it knows what they cost one by one (`Packs`).  So the comments of a
chunk are a single one, or cost at most the budget less the headroom (`fits_deliveries`).

The chunk has a line feed between each two of them, and these the buffer does not count.  Where
characters are counted, a chunk of several comments therefore costs what the comments do and one
less than there are (`run_comments_bounded`).  The headroom takes that up as long as there are at
most six comments, and not any more with seven (`not_bounded_of_crowded`).
-/

namespace SourceChunks

open PricedComment

/-- Texts, each with a line feed after it. -/
theorem length_closed (texts : List String) :
    ((Piece.closed texts).length : Int) =
      total (texts.map fun text => ⟨text, text.length⟩) + texts.length := by
  induction texts with
  | nil => rfl
  | cons text rest ih =>
    rw [Piece.closed, List.flatMap_cons, ← Piece.closed, List.length_append, List.length_append,
      String.length_toList, List.map_cons, total_cons, List.length_cons, List.length_cons,
      List.length_nil]
    dsimp only
    omega

/-- Texts joined as lines have their characters, and a line feed between each two. -/
theorem length_joinLines {texts : List String} (h : texts ≠ []) :
    ((Text.joinLines texts).length : Int) =
      total (texts.map fun text => ⟨text, text.length⟩) + (texts.length - 1) := by
  have hclosed := length_closed texts
  rw [← Piece.toList_joinLines_append h, List.length_append, String.length_toList,
    List.length_singleton] at hclosed
  omega

namespace ChunkWalk

variable (walk : ChunkWalk) (cost : String → Int)

/-- A node as a comment, with what its text costs. -/
def priced (entry : Nat × Node) : PricedComment :=
  ⟨walk.arena.nodeText entry.2, cost (walk.arena.nodeText entry.2)⟩

/-- The comments of each chunk in the stream fit, and so do those that wait after it, whose cost
is known. -/
structure Packs (stream : List Delivery) (after : Waiting) : Prop where
  waits : CommentBuffer.Waits walk.budget (after.entries.map (walk.priced cost)) after.buffer
  fits : ∀ delivery ∈ stream, ∀ group, delivery.comments? = some group →
    Fits walk.budget (group.map (walk.priced cost))

variable {walk cost} {waiting : Waiting}

/-- What is sent off of the comments that wait is all of them. -/
theorem fits_of_mem_sent
    (h : CommentBuffer.Waits walk.budget (waiting.entries.map (walk.priced cost)) waiting.buffer)
    {sent : List Chunk} {delivery : Delivery}
    (hmem : delivery ∈ sent.map fun chunk => Delivery.mk (.comments waiting.entries) chunk)
    {group : List (Nat × Node)} (hgroup : delivery.comments? = some group) :
    Fits walk.budget (group.map (walk.priced cost)) := by
  obtain ⟨chunk, -, rfl⟩ := List.mem_map.1 hmem
  exact Option.some.inj hgroup ▸ h.fits

namespace Packs

theorem flush
    (h : CommentBuffer.Waits walk.budget (waiting.entries.map (walk.priced cost)) waiting.buffer) :
    walk.Packs cost waiting.flush.1 waiting.flush.2 :=
  ⟨h.flush.2.2, fun _ hmem _ hgroup => fits_of_mem_sent h hmem hgroup⟩

/-- A comment that comes to the buffer. -/
theorem buffer
    (h : CommentBuffer.Waits walk.budget (waiting.entries.map (walk.priced cost)) waiting.buffer)
    {entry : Nat × Node} (hbuffered : walk.isBuffered cost entry = true) :
    walk.Packs cost (walk.handle cost entry waiting).1 (walk.handle cost entry waiting).2 := by
  rw [handle_of_buffered hbuffered]
  refine ⟨?_, fun _ hmem _ hgroup => fits_of_mem_sent h hmem hgroup⟩
  have hwaits := h.add (walk.priced cost entry)
  show CommentBuffer.Waits _ (((if _ then [] else waiting.entries) ++ [entry]).map _) _
  rw [List.map_append, apply_ite (List.map _)]
  exact hwaits

/-- One node that the walk comes to. -/
theorem handle
    (h : CommentBuffer.Waits walk.budget (waiting.entries.map (walk.priced cost)) waiting.buffer)
    (entry : Nat × Node) :
    walk.Packs cost (walk.handle cost entry waiting).1 (walk.handle cost entry waiting).2 := by
  cases hbuffered : walk.isBuffered cost entry with
  | true => exact buffer h hbuffered
  | false =>
    cases hown : walk.ownDelivery? cost entry with
    | none =>
      rw [handle_of_none hbuffered hown]
      exact ⟨h, fun _ hmem => absurd hmem List.not_mem_nil⟩
    | some own =>
      have hflush := flush h
      rw [handle_of_own hbuffered hown]
      refine ⟨hflush.waits, fun delivery hmem group hgroup => ?_⟩
      rcases List.mem_append.1 hmem with hmem | hmem
      · exact hflush.fits delivery hmem group hgroup
      · rw [List.mem_singleton.1 hmem, (Delivery.entries_of_node? (node?_of_own hown)).2] at hgroup
        exact absurd hgroup (Option.some_ne_none group).symm

/-- All nodes that the walk comes to, one after the other. -/
theorem handleAll
    (h : CommentBuffer.Waits walk.budget (waiting.entries.map (walk.priced cost)) waiting.buffer)
    (entries : List (Nat × Node)) :
    walk.Packs cost (walk.handleAll cost entries waiting).1
      (walk.handleAll cost entries waiting).2 := by
  induction entries generalizing waiting with
  | nil => exact ⟨h, fun _ hmem => absurd hmem List.not_mem_nil⟩
  | cons entry rest ih =>
    have hfirst := handle h entry
    have hrest := ih hfirst.waits
    rw [handleAll_cons]
    refine ⟨hrest.waits, fun delivery hmem => ?_⟩
    rcases List.mem_append.1 hmem with hmem | hmem
    · exact hfirst.fits delivery hmem
    · exact hrest.fits delivery hmem

end Packs

/-- **The comments of a chunk** are a single one, or leave the headroom free. -/
theorem fits_deliveries {tree : Tree (Nat × Node)} {delivery : Delivery}
    (h : delivery ∈ walk.deliveries cost tree) {group : List (Nat × Node)}
    (hgroup : delivery.comments? = some group) :
    Fits walk.budget (group.map (walk.priced cost)) := by
  have hstart : CommentBuffer.Waits walk.budget
      (({} : Waiting).entries.map (walk.priced cost)) ({} : Waiting).buffer :=
    CommentBuffer.waits_empty walk.budget
  have hall := Packs.handleAll hstart (walk.reached cost tree)
  rcases List.mem_append.1 h with hmem | hmem
  · exact hall.fits delivery hmem group hgroup
  · exact (Packs.flush hall.waits).fits delivery hmem group hgroup

/-- A comment chunk has at least one comment, and the texts of its comments. -/
theorem content_of_comments? {tree : Tree (Nat × Node)} {delivery : Delivery}
    (h : delivery ∈ walk.deliveries cost tree) {group : List (Nat × Node)}
    (hgroup : delivery.comments? = some group) :
    group ≠ [] ∧ delivery.chunk.content =
      Text.joinLines (group.map fun comment => walk.arena.nodeText comment.2) := by
  obtain ⟨after, account, -⟩ := Account.deliveries walk cost tree
  refine ⟨fun hnil => ?_, content_of_numbered account.numbered h hgroup⟩
  exact account.nonempty (List.mem_filterMap.2 ⟨delivery, h, hnil ▸ hgroup⟩)

/-- **What comment chunks cost.**  On an arena that is a tree, with characters counted, the run
comes to its end.  Each comment chunk costs what its comments do and a line feed between each two
of them.  If it has several, the comments leave the headroom free; and so the chunk stays within
the budget unless it has more line feeds than that. -/
theorem run_comments_bounded [EncodingSource] (walk : ChunkWalk) (tree : Tree (Nat × Node))
    (h : walk.arena.IsTree tree) :
    let cost : String → Int := fun text => text.length
    (walk.chunks.run none Calculator.characters).ending = .done () ∧
      (walk.chunks.run none Calculator.characters).chunks =
        (walk.deliveries cost tree).map (·.chunk) ∧
      ∀ delivery ∈ walk.deliveries cost tree, ∀ group, delivery.comments? = some group →
        (delivery.chunk.content.length : Int) =
            total (group.map (walk.priced cost)) + (group.length - 1) ∧
          (2 ≤ group.length →
            total (group.map (walk.priced cost)) ≤ walk.budget - CommentBuffer.headroom ∧
              ((group.length : Int) - 1 ≤ CommentBuffer.headroom →
                (delivery.chunk.content.length : Int) ≤ walk.budget)) := by
  intro cost
  obtain ⟨hending, hchunks⟩ := walk.run_eq_deliveries cost h
  have hcosts : Calculator.characters.costs = .ok cost := rfl
  obtain ⟨hevents, hended⟩ := Calculator.run_of_costs hcosts walk.chunks none
  refine ⟨hended.trans hending, ?_, fun delivery hmem group hgroup => ?_⟩
  · rw [← hchunks, Trace.chunks, Trace.chunks, hevents]
  · obtain ⟨hne, hcontent⟩ := content_of_comments? hmem hgroup
    have hlength : (delivery.chunk.content.length : Int) =
        total (group.map (walk.priced cost)) + (group.length - 1) := by
      rw [hcontent, length_joinLines (by simpa using hne), List.map_map, List.length_map]
      rfl
    refine ⟨hlength, fun hseveral => ?_⟩
    have hfits : total (group.map (walk.priced cost)) ≤ walk.budget - CommentBuffer.headroom := by
      refine (fits_deliveries hmem hgroup).resolve_left fun hsingle => ?_
      rw [List.length_map] at hsingle
      omega
    exact ⟨hfits, fun hfew => by omega⟩

/-- A module with seven short comments. -/
def crowdedArena : Arena where
  source := "#\n#\n#\n#\n#\n#\n#".toUTF8.toList
  nodes := #[
    { element := ⟨.parsed "module", ⟨0, 13, ⟨0, 0⟩, ⟨6, 1⟩⟩⟩, children := [1, 2, 3, 4, 5, 6, 7] },
    { element := ⟨.parsed "comment", ⟨0, 1, ⟨0, 0⟩, ⟨0, 1⟩⟩⟩, parent := some 0 },
    { element := ⟨.parsed "comment", ⟨2, 3, ⟨1, 0⟩, ⟨1, 1⟩⟩⟩, parent := some 0 },
    { element := ⟨.parsed "comment", ⟨4, 5, ⟨2, 0⟩, ⟨2, 1⟩⟩⟩, parent := some 0 },
    { element := ⟨.parsed "comment", ⟨6, 7, ⟨3, 0⟩, ⟨3, 1⟩⟩⟩, parent := some 0 },
    { element := ⟨.parsed "comment", ⟨8, 9, ⟨4, 0⟩, ⟨4, 1⟩⟩⟩, parent := some 0 },
    { element := ⟨.parsed "comment", ⟨10, 11, ⟨5, 0⟩, ⟨5, 1⟩⟩⟩, parent := some 0 },
    { element := ⟨.parsed "comment", ⟨12, 13, ⟨6, 0⟩, ⟨6, 1⟩⟩⟩, parent := some 0 }]
  root_lt := by decide

/-- The tree of the arena. -/
def crowdedTree : Tree (Nat × Node) where
  label := (0, crowdedArena.nodes[0])
  children := .ofTrees ([1, 2, 3, 4, 5, 6, 7].filterMap fun index =>
    crowdedArena.nodes[index]?.map fun node => ⟨(index, node), .nil⟩)

theorem crowdedArena_isTree : crowdedArena.IsTree crowdedTree where
  hasTree :=
    .cons rfl (.cons rfl .nil (.cons rfl .nil (.cons rfl .nil (.cons rfl .nil (.cons rfl .nil
      (.cons rfl .nil (.cons rfl .nil .nil))))))) .nil
  nodup := by decide
  parents := Arena.parentsInRange_iff.2 (by decide)

/-- The walk over it with a budget that the comments fit and the module does not. -/
def crowdedWalk : ChunkWalk := ⟨crowdedArena, sampleProfile, 12⟩

/-- The seven comments cost a character each, and their chunk also six line feeds. -/
theorem crowdedWalk_bounded :
    let _ : EncodingSource := .byteGroups
    crowdedArena.IsTree crowdedTree ∧
      (crowdedWalk.chunks.run none Calculator.characters).chunks =
        [⟨"#\n#\n#\n#\n#\n#\n#", 1, 7⟩] ∧
      ∀ delivery ∈ crowdedWalk.deliveries (fun text => text.length) crowdedTree, ∀ group,
        delivery.comments? = some group →
          (delivery.chunk.content.length : Int) =
            total (group.map (crowdedWalk.priced fun text => text.length)) +
              (group.length - 1) := by
  intro _
  obtain ⟨-, hchunks, hcosts⟩ := crowdedWalk.run_comments_bounded crowdedTree crowdedArena_isTree
  exact ⟨crowdedArena_isTree, hchunks.trans (by decide +kernel),
    fun delivery hmem group hgroup => (hcosts delivery hmem group hgroup).1⟩

/-- **A chunk of many short comments may cost more than the budget**, for its line feeds are not
counted. -/
theorem not_bounded_of_crowded :
    ¬ ∀ (walk : ChunkWalk) (tree : Tree (Nat × Node)), walk.arena.IsTree tree →
      (∀ entry ∈ tree.toList, entry.2.isComposite = false) →
      ∀ delivery ∈ walk.deliveries (fun text => text.length) tree, ∀ group,
        delivery.comments? = some group → 2 ≤ group.length →
          (delivery.chunk.content.length : Int) ≤ walk.budget := by
  intro hall
  have hsent : ∃ delivery ∈ crowdedWalk.deliveries (fun text => text.length) crowdedTree,
      (delivery.comments?.any fun group => decide (2 ≤ group.length)) = true ∧
        ¬ (delivery.chunk.content.length : Int) ≤ crowdedWalk.budget := by
    decide +kernel
  obtain ⟨delivery, hmem, hseveral, hdear⟩ := hsent
  cases hgroup : delivery.comments? with
  | none =>
    rw [hgroup] at hseveral
    exact Bool.noConfusion hseveral
  | some group =>
    rw [hgroup] at hseveral
    exact hdear (hall crowdedWalk crowdedTree crowdedArena_isTree (by decide) delivery hmem group
      hgroup (of_decide_eq_true hseveral))

end ChunkWalk

end SourceChunks
