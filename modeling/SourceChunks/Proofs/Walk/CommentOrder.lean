import SourceChunks.Proofs.Walk.Account

/-!
# Comments keep their order

The balance of a walk says that the nodes of its chunks, read off along the stream, are the
nodes handled in the order of the document.  Here that is read with the arena.

* `isReachedComment_iff`: which comments come to the buffer can be told from the chunks that
  were delivered whole above them.
* `run_commentsInOrder`: the comment chunks part these comments into groups that follow one
  another, number them, and stand between the chunks of the nodes around them.

The order of two chunks is the order of their nodes because the document has each node
once: if two chunks stood the other way round, so would their nodes
(`not_pair_sublist_swap`).
-/

namespace SourceChunks

section Sublists

variable {α : Type}

/-- Of a list without repetitions, sublists with the same members are the same. -/
theorem eq_of_sublist_of_mem_iff {list first second : List α} (hnodup : list.Nodup)
    (hfirst : first.Sublist list) (hsecond : second.Sublist list)
    (hmem : ∀ item, item ∈ first ↔ item ∈ second) : first = second := by
  induction list generalizing first second with
  | nil => rw [List.sublist_nil.1 hfirst, List.sublist_nil.1 hsecond]
  | cons head rest ih =>
    obtain ⟨hhead, hrest⟩ := List.nodup_cons.1 hnodup
    -- a sublist that does not begin with the head does not have it
    cases hfirst with
    | cons _ hfirst =>
      have hout : head ∉ first := fun hin => hhead (hfirst.subset hin)
      cases hsecond with
      | cons _ hsecond => exact ih hrest hfirst hsecond hmem
      | cons_cons _ _ => exact absurd ((hmem head).2 List.mem_cons_self) hout
    | @cons_cons first _ _ hfirst =>
      have hout : head ∉ first := fun hin => hhead (hfirst.subset hin)
      cases hsecond with
      | cons _ hsecond =>
        exact absurd (hsecond.subset ((hmem head).1 List.mem_cons_self)) hhead
      | @cons_cons second _ _ hsecond =>
        have hout' : head ∉ second := fun hin => hhead (hsecond.subset hin)
        refine congrArg (head :: ·) (ih hrest hfirst hsecond fun item => ?_)
        have hitem := hmem item
        rw [List.mem_cons, List.mem_cons] at hitem
        constructor
        · intro hin
          exact (hitem.1 (Or.inr hin)).resolve_left fun heq => hout (heq ▸ hin)
        · intro hin
          exact (hitem.2 (Or.inr hin)).resolve_left fun heq => hout' (heq ▸ hin)

/-- In a list without repetitions, two items stand in one order only. -/
theorem not_pair_sublist_swap {list : List α} (hnodup : list.Nodup) {first second : α}
    (h : [first, second].Sublist list) : ¬ [second, first].Sublist list := by
  intro h'
  have heq := eq_of_sublist_of_mem_iff hnodup h h' fun item => by simp [or_comm]
  have hpair : [first, second].Nodup := hnodup.sublist h
  rw [List.cons.injEq] at heq
  exact (List.nodup_cons.1 hpair).1 (by simp [heq.1])

/-- What comes from an earlier item of a list stands before what comes from a later one. -/
theorem pair_sublist_flatMap {β : Type} {list : List α} {f : α → List β} {i j : Nat} {a b : α}
    {x y : β} (hlt : i < j) (ha : list[i]? = some a) (hb : list[j]? = some b) (hx : x ∈ f a)
    (hy : y ∈ f b) : [x, y].Sublist (list.flatMap f) := by
  rw [← List.take_append_drop j list, List.flatMap_append]
  have hfirst : (list.take j)[i]? = some a := by rw [List.getElem?_take_of_lt hlt, ha]
  have hsecond : (list.drop j)[0]? = some b := by rw [List.getElem?_drop, Nat.add_zero, hb]
  have hx' : [x].Sublist ((list.take j).flatMap f) :=
    List.singleton_sublist.2 (List.mem_flatMap.2 ⟨a, List.mem_of_getElem? hfirst, hx⟩)
  have hy' : [y].Sublist ((list.drop j).flatMap f) :=
    List.singleton_sublist.2 (List.mem_flatMap.2 ⟨b, List.mem_of_getElem? hsecond, hy⟩)
  exact hx'.append hy'

end Sublists

namespace ChunkWalk

variable (walk : ChunkWalk) (cost : String → Int) (tree : Tree (Nat × Node))

/-- A comment that is not delivered whole, below no node that is, and below no composite. -/
structure IsReachedComment (stream : List Delivery) (entry : Nat × Node) : Prop where
  isComment : walk.isComment entry.2 = true
  notWhole : ¬ EmittedWhole stream entry
  above : ∀ upper ∈ tree.toList, walk.arena.Above upper.1 entry.1 →
    ¬ EmittedWhole stream upper ∧ upper.2.isComposite = false

open Classical in
/-- Comments keep their order in a stream: the comment chunks part the comments of the tree
that are reached into groups. -/
structure CommentsInOrder (stream : List Delivery) : Prop where
  /-- What is said to be delivered whole has its text for a chunk, and its rows. -/
  whole : ∀ delivery ∈ stream, ∀ entry, delivery.origin = .whole entry →
    delivery.chunk = nodeChunk entry.2 (walk.arena.nodeText entry.2)
  /-- What is said to be an outline is that of a definition, with its rows. -/
  outline : ∀ delivery ∈ stream, ∀ entry, delivery.origin = .outline entry →
    ∃ kind, walk.profile.definition? entry.2.type = some kind ∧
      delivery.chunk = nodeChunk entry.2 (walk.outlined cost kind entry.1)
  nonempty : [] ∉ stream.filterMap Delivery.comments?
  complete : (stream.filterMap Delivery.comments?).flatten =
    tree.toList.filter fun entry => walk.IsReachedComment tree stream entry
  /-- A comment chunk joins its comments, and its lines go on from the chunk before. -/
  numbered : ∀ (i : Nat) (group : List (Nat × Node)),
    (stream.filterMap Delivery.comments?)[i]? = some group →
    ((stream.filter fun delivery => delivery.comments?.isSome).map Delivery.chunk)[i]? =
      some ⟨Text.joinLines (group.map fun comment => walk.arena.nodeText comment.2),
        1 + ((stream.filterMap Delivery.comments?).take i).flatten.length,
        1 + ((stream.filterMap Delivery.comments?).take i).flatten.length + group.length - 1⟩
  /-- A comment chunk stands between the chunks of the nodes before and after its comments. -/
  between : ∀ (i j : Nat) (delivery other : Delivery) (group : List (Nat × Node))
      (comment entry : Nat × Node),
    stream[i]? = some delivery → delivery.comments? = some group → comment ∈ group →
    stream[j]? = some other → other.node? = some entry →
      ([entry, comment].Sublist tree.toList → j < i) ∧
        ([comment, entry].Sublist tree.toList → i < j)

variable {walk cost tree} {entry : Nat × Node}

/-- **Which comments wait.**  The comments that come to the buffer are those without a
composite above them and delivered whole neither themselves nor with a node above. -/
theorem isReachedComment_iff (h : walk.arena.IsTree tree) (hentry : entry ∈ tree.toList) :
    walk.IsReachedComment tree (walk.deliveries cost tree) entry ↔
      entry ∈ walk.reached cost tree ∧ walk.isBuffered cost entry = true := by
  constructor
  · intro hcomment
    have hreached : entry ∈ walk.reached cost tree := by
      refine h.mem_visible_iff.2 ⟨hentry, fun upper hupper habove => ?_⟩
      -- were one above closed, so would be one that the walk comes to
      by_contra hclosed
      obtain ⟨outer, houter, hclosed, habove⟩ :=
        h.exists_closed_above hentry hupper habove (Bool.not_eq_false _ ▸ hclosed)
      obtain ⟨hnot, hcomposite⟩ :=
        hcomment.above outer (h.mem_visible_iff.1 houter).1 habove
      rw [isClosed, hcomposite, Bool.or_false] at hclosed
      exact hnot (emittedWhole_iff.2 ⟨houter, hclosed⟩)
    refine ⟨hreached, ?_⟩
    have hwhole : walk.isWhole cost entry = false := by
      by_contra hwhole
      exact hcomment.notWhole (emittedWhole_iff.2 ⟨hreached, Bool.not_eq_false _ ▸ hwhole⟩)
    rw [isBuffered, hwhole, hcomment.isComment]
    rfl
  · rintro ⟨hreached, hbuffered⟩
    rw [isBuffered, Bool.and_eq_true, Bool.not_eq_true'] at hbuffered
    obtain ⟨hwhole, hcomment⟩ := hbuffered
    refine ⟨hcomment, fun hemitted => ?_, fun upper hupper habove => ?_⟩
    · rw [(emittedWhole_iff.1 hemitted).2] at hwhole
      exact absurd hwhole (by simp)
    · exact open_of_above_reached h hreached hupper habove

/-- The nodes of the chunks, along the stream, are in the order of the document. -/
theorem flatMap_entries_sublist (walk : ChunkWalk) (cost : String → Int)
    (tree : Tree (Nat × Node)) :
    ((walk.deliveries cost tree).flatMap Delivery.entries).Sublist tree.toList := by
  obtain ⟨after, account, hempty⟩ := Account.deliveries walk cost tree
  have hhandled := account.handled
  rw [hempty, List.append_nil] at hhandled
  rw [hhandled]
  exact List.filter_sublist.trans (walk.reached_sublist cost tree)

/-- **Chunks are in the order of their nodes.** -/
theorem lt_of_pair_sublist (h : walk.arena.IsTree tree) {i j : Nat} {delivery other : Delivery}
    {first second : Nat × Node} (hdelivery : (walk.deliveries cost tree)[i]? = some delivery)
    (hother : (walk.deliveries cost tree)[j]? = some other) (hfirst : first ∈ delivery.entries)
    (hsecond : second ∈ other.entries) (hne : i ≠ j)
    (horder : [first, second].Sublist tree.toList) : i < j := by
  rcases Nat.lt_or_gt_of_ne hne with hlt | hgt
  · exact hlt
  · have hswapped := pair_sublist_flatMap hgt hother hdelivery hsecond hfirst
    exact absurd (hswapped.trans (walk.flatMap_entries_sublist cost tree))
      (not_pair_sublist_swap h.nodup_toList horder)

open Classical in
/-- The comments that come to the buffer are those of the tree that are reached. -/
theorem filter_isBuffered_eq (cost : String → Int) (h : walk.arena.IsTree tree) :
    (walk.reached cost tree).filter (walk.isBuffered cost) =
      tree.toList.filter fun entry =>
        walk.IsReachedComment tree (walk.deliveries cost tree) entry := by
  have hreached := walk.reached_sublist cost tree
  refine eq_of_sublist_of_mem_iff h.nodup_toList (List.filter_sublist.trans hreached)
    List.filter_sublist fun entry => ?_
  rw [List.mem_filter, List.mem_filter, decide_eq_true_iff]
  constructor
  · intro hin
    have hentry := hreached.subset hin.1
    exact ⟨hentry, (isReachedComment_iff h hentry).2 hin⟩
  · rintro ⟨hentry, hcomment⟩
    exact (isReachedComment_iff h hentry).1 hcomment

/-- **Comments keep their order.**  On an arena that is a tree, whatever the profile, the
budget and the costs, the run comes to its end, and in its chunks no comment is lost, doubled,
moved, or carried past a definition. -/
theorem run_commentsInOrder (walk : ChunkWalk) (cost : String → Int) (tree : Tree (Nat × Node))
    (h : walk.arena.IsTree tree) :
    (walk.chunks.run none (CostFunction.mk cost)).ending = .done () ∧
      (walk.chunks.run none (CostFunction.mk cost)).chunks =
        (walk.deliveries cost tree).map (·.chunk) ∧
      walk.CommentsInOrder cost tree (walk.deliveries cost tree) := by
  obtain ⟨hending, hchunks⟩ := walk.run_eq_deliveries cost h
  obtain ⟨after, account, hempty⟩ := Account.deliveries walk cost tree
  refine ⟨hending, hchunks, ?_, ?_, account.nonempty, ?_, ?_, ?_⟩
  · intro delivery hmem entry horigin
    have hnode : delivery.node? = some entry := by rw [Delivery.node?, horigin]
    rcases own_cases ((mem_deliveries_iff_of_node? hnode).1 hmem).2 with
      ⟨-, rfl⟩ | ⟨kind, -, -, -, rfl⟩
    · rfl
    · simp at horigin
  · intro delivery hmem entry horigin
    have hnode : delivery.node? = some entry := by rw [Delivery.node?, horigin]
    rcases own_cases ((mem_deliveries_iff_of_node? hnode).1 hmem).2 with
      ⟨-, rfl⟩ | ⟨kind, -, -, hkind, rfl⟩
    · simp at horigin
    · exact ⟨kind, hkind, rfl⟩
  · have hbuffered := account.buffered
    rw [hempty, List.append_nil, List.nil_append] at hbuffered
    rw [hbuffered, filter_isBuffered_eq cost h]
  · intro i group hgroup
    rw [account.numbered]
    exact walk.getElem?_commentChunks hgroup
  · intro i j delivery other group comment entry hdelivery hgroup hcomment hother hnode
    have hin : comment ∈ delivery.entries := by
      rwa [Delivery.entries_of_comments? hgroup]
    have hin' : entry ∈ other.entries := by
      rw [(Delivery.entries_of_node? hnode).1]
      exact List.mem_singleton_self entry
    have hne : i ≠ j := by
      rintro rfl
      obtain rfl : delivery = other := Option.some.inj (hdelivery.symm.trans hother)
      rw [(Delivery.entries_of_node? hnode).2] at hgroup
      simp at hgroup
    exact ⟨lt_of_pair_sublist h hother hdelivery hin' hin hne.symm,
      lt_of_pair_sublist h hdelivery hother hin hin' hne⟩

/-- A module with a comment before, in and after a function. -/
def nestedWalk : ChunkWalk where
  arena := {
    source := "#a\ndef f\n#b\n#c".toUTF8.toList
    nodes := #[
      { element := ⟨.parsed "module", ⟨0, 14, ⟨0, 0⟩, ⟨3, 2⟩⟩⟩, children := [1, 2, 4] },
      { element := ⟨.parsed "comment", ⟨0, 2, ⟨0, 0⟩, ⟨0, 2⟩⟩⟩, parent := some 0 },
      { element := ⟨.parsed "function", ⟨3, 11, ⟨1, 0⟩, ⟨2, 2⟩⟩⟩, children := [3]
        parent := some 0 },
      { element := ⟨.parsed "comment", ⟨9, 11, ⟨2, 0⟩, ⟨2, 2⟩⟩⟩, parent := some 2 },
      { element := ⟨.parsed "comment", ⟨12, 14, ⟨3, 0⟩, ⟨3, 2⟩⟩⟩, parent := some 0 }]
    root := 0
    root_lt := by decide }
  profile := sampleProfile
  budget := 8

theorem nestedWalk_commentsInOrder : ∃ tree, nestedWalk.arena.IsTree tree ∧
    (nestedWalk.chunks.run none (CostFunction.mk fun text => text.length)).chunks =
      (nestedWalk.deliveries (fun text => text.length) tree).map (·.chunk) ∧
    nestedWalk.CommentsInOrder (fun text => text.length) tree
      (nestedWalk.deliveries (fun text => text.length) tree) ∧
    (nestedWalk.chunks.run none (CostFunction.mk fun text => text.length)).chunks =
      [⟨"#a", 1, 1⟩, ⟨"def f\n...", 1, 2⟩, ⟨"#b", 2, 2⟩, ⟨"#c", 3, 3⟩] := by
  have function : nestedWalk.arena.Unfolds [2, 4] _ :=
    .cons rfl (.cons rfl .nil .nil) (.cons rfl .nil .nil)
  have tree : nestedWalk.arena.HasTree ⟨(0, _), _⟩ :=
    .cons rfl (.cons rfl .nil function) .nil
  have isTree : nestedWalk.arena.IsTree _ :=
    ⟨tree, by decide, Arena.parentsInRange_iff.2 (by decide)⟩
  have ⟨_, chunks, inOrder⟩ :=
    nestedWalk.run_commentsInOrder (fun text => text.length) _ isTree
  exact ⟨_, isTree, chunks, inOrder, by decide +kernel⟩

end ChunkWalk

end SourceChunks
