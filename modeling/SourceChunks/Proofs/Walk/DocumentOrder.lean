import SourceChunks.Proofs.Walk.Prepared

/-!
# Definitions come out in the order of the document

Where a parser reports spans that agree with its tree, the order in which a tree is read is the
order of the source: of two nodes the later one lies inside the earlier one, or begins where that
ends or after it (`Forest.pairwise_precedes`).  A composite comment begins where its first member
does, so an arena has no starts but those the parser reports (`Tree.startsIn_prepared`), and rows
that grow with the bytes in the parse grow with them in the arena.

The walk has to deal with neither: its stack hands out the nodes in the order of the tree, some
of them left out, and the chunks of nodes' own come one from each (`Account.own`).  So both
orders are carried to the stream (`run_inDocumentOrder`).
-/

namespace SourceChunks

/-! ## The order of spans -/

namespace Span

/-- Of two spans the later one does not start first, and lies inside the earlier one or starts
at its end or after it. -/
def Precedes (earlier later : Span) : Prop :=
  earlier.startByte ≤ later.startByte ∧
    (earlier.Contains later ∨ earlier.stopByte ≤ later.startByte)

theorem Contains.precedes {outer inner : Span} (h : outer.Contains inner) :
    outer.Precedes inner :=
  ⟨h.1, Or.inl h⟩

theorem precedes_of_le {earlier later : Span} (horder : earlier.startByte ≤ earlier.stopByte)
    (hle : earlier.stopByte ≤ later.startByte) : earlier.Precedes later :=
  ⟨Nat.le_trans horder hle, Or.inr hle⟩

end Span

namespace Forest

variable {α : Type} {span : α → Span} {isCut : Nat → Prop}

/-- In a forest that is laid out, all labels lie between the two ends of the forest. -/
theorem within_of_mem {forest : Forest α} {low high : Nat}
    (horder : Span.InOrder high low (forest.trees.map (span ·.label)))
    (hlaid : ∀ subtree ∈ forest.subtrees, subtree.LaidOut span isCut) :
    ∀ label ∈ forest.toList, low ≤ (span label).startByte ∧
      (span label).startByte ≤ (span label).stopByte ∧ (span label).stopByte ≤ high := by
  induction forest generalizing low high with
  | nil => exact fun label hlabel => absurd hlabel List.not_mem_nil
  | cons label children siblings ihChildren ihSiblings =>
    obtain ⟨hstart, hstop, hsiblings⟩ := horder
    rw [subtrees, List.forall_mem_cons, List.forall_mem_append] at hlaid
    obtain ⟨hself, hbelow, hbeside⟩ := hlaid
    have hend := hsiblings.le
    rw [toList, List.forall_mem_cons, List.forall_mem_append]
    refine ⟨⟨hstart, hstop, hend⟩, fun other hother => ?_, fun other hother => ?_⟩
    · obtain ⟨hfirst, hown, hlast⟩ := ihChildren hself.children hbelow other hother
      exact ⟨hstart.trans hfirst, hown, hlast.trans hend⟩
    · obtain ⟨hfirst, hown, hlast⟩ := ihSiblings hsiblings hbeside other hother
      exact ⟨(hstart.trans hstop).trans hfirst, hown, hlast⟩

/-- **The order of a tree is that of the source.** -/
theorem pairwise_precedes {forest : Forest α} {low high : Nat}
    (horder : Span.InOrder high low (forest.trees.map (span ·.label)))
    (hlaid : ∀ subtree ∈ forest.subtrees, subtree.LaidOut span isCut) :
    forest.toList.Pairwise fun earlier later => (span earlier).Precedes (span later) := by
  induction forest generalizing low high with
  | nil => exact List.Pairwise.nil
  | cons label children siblings ihChildren ihSiblings =>
    obtain ⟨hstart, hstop, hsiblings⟩ := horder
    rw [subtrees, List.forall_mem_cons, List.forall_mem_append] at hlaid
    obtain ⟨hself, hbelow, hbeside⟩ := hlaid
    have hinside := within_of_mem hself.children hbelow
    have hafter := within_of_mem hsiblings hbeside
    rw [toList, List.pairwise_cons, List.forall_mem_append, List.pairwise_append]
    refine ⟨⟨fun child hchild => ?_, fun sibling hsibling => ?_⟩, ihChildren hself.children hbelow,
      ihSiblings hsiblings hbeside, fun child hchild sibling hsibling => ?_⟩
    · obtain ⟨hchildStart, -, hchildStop⟩ := hinside child hchild
      exact Span.Contains.precedes ⟨hchildStart, hchildStop⟩
    · exact Span.precedes_of_le hstop (hafter sibling hsibling).1
    · obtain ⟨-, hchildOrder, hchildStop⟩ := hinside child hchild
      exact Span.precedes_of_le hchildOrder (hchildStop.trans (hafter sibling hsibling).1)

end Forest

/-- The same of a tree with its root. -/
theorem Tree.pairwise_toList {α : Type} {span : α → Span} {isCut : Nat → Prop} {tree : Tree α}
    (hlaid : ∀ subtree ∈ tree.subtrees, subtree.LaidOut span isCut) :
    tree.toList.Pairwise fun earlier later => (span earlier).Precedes (span later) := by
  have hself := (forall_subtrees_iff.1 hlaid).1.children.le
  have hroot : Span.InOrder (span tree.label).stopByte (span tree.label).startByte
      (tree.forest.trees.map (span ·.label)) := ⟨Nat.le_refl _, hself, Nat.le_refl _⟩
  rw [← subtrees_forest] at hlaid
  rw [← toList_forest]
  exact Forest.pairwise_precedes hroot hlaid

/-! ## The starts of an arena -/

/-- Some symbol of the parse starts where the element does. -/
def Element.StartsIn (parse : Tree Symbol) (element : Element) : Prop :=
  ∃ symbol ∈ parse.toList, element.span.startByte = symbol.span.startByte ∧
    element.span.startPoint = symbol.span.startPoint

namespace Tree

/-- The rows in which symbols start grow with the bytes at which they do. -/
def RowsGrow (parse : Tree Symbol) : Prop :=
  ∀ first ∈ parse.toList, ∀ second ∈ parse.toList,
    first.span.startByte ≤ second.span.startByte →
      first.span.startPoint.row ≤ second.span.startPoint.row

instance : DecidablePred RowsGrow := fun parse =>
  inferInstanceAs (Decidable (∀ first ∈ parse.toList, ∀ second ∈ parse.toList, _ → _))

variable {parse : Tree Symbol}

/-- **Every node of an arena starts where a symbol does**, for a composite starts where its
first member does. -/
theorem startsIn_prepared (parse : Tree Symbol) (source : Bytes) (types? : Option (List String)) :
    ∀ element ∈ ((parse.map Symbol.element).prepared source types?).toList,
      element.StartsIn parse := by
  have hparsed : ∀ subtree ∈ (parse.map Symbol.element).subtrees,
      subtree.label.StartsIn parse := by
    rw [subtrees_map, List.forall_mem_map]
    intro subtree hsubtree
    refine ⟨subtree.label, ?_, rfl, rfl⟩
    rw [← map_label_subtrees]
    exact List.mem_map_of_mem hsubtree
  rw [← map_label_subtrees, List.forall_mem_map]
  cases types? with
  | none => exact hparsed
  | some types =>
    refine forall_subtrees_coalesced (p := fun tree => tree.label.StartsIn parse) ?_ ?_
      (fun _ hkept => hkept) true _ hparsed
    · intro tree _ _ hstart _ _
      exact hstart
    · intro _ _ first others _ _ _ hmembers
      exact hmembers first List.mem_cons_self

/-- Rows that grow in the parse grow in the arena. -/
theorem RowsGrow.row_le (h : RowsGrow parse) {first second : Element}
    (hfirst : first.StartsIn parse) (hsecond : second.StartsIn parse)
    (hle : first.span.startByte ≤ second.span.startByte) :
    first.span.startPoint.row ≤ second.span.startPoint.row := by
  obtain ⟨symbol, hsymbol, hbyte, hpoint⟩ := hfirst
  obtain ⟨other, hother, hbyte', hpoint'⟩ := hsecond
  rw [hbyte, hbyte'] at hle
  rw [hpoint, hpoint']
  exact h symbol hsymbol other hother hle

end Tree

/-- Of two nodes the later one starts in no earlier row, and at no earlier byte. -/
def Node.Precedes (earlier later : Node) : Prop :=
  earlier.span.startPoint.row ≤ later.span.startPoint.row ∧ earlier.span.Precedes later.span

/-- **The order of an arena's tree** is that of the source. -/
theorem Tree.pairwise_precedes {parse : Tree Symbol} {tree : Tree (Nat × Node)} {source : Bytes}
    {types? : Option (List String)}
    (hlaid : ∀ subtree ∈ parse.subtrees, subtree.LaidOut Symbol.span fun _ => True)
    (hrows : parse.RowsGrow)
    (htree : tree.map (·.2.element) = (parse.map Symbol.element).prepared source types?) :
    tree.toList.Pairwise fun earlier later => earlier.2.Precedes later.2 := by
  have hprepared := laidOut_prepared hlaid source types?
  have hstarts := startsIn_prepared parse source types?
  rw [← htree] at hprepared hstarts
  have hspans := pairwise_toList hprepared
  rw [toList_map, List.pairwise_map] at hspans
  rw [toList_map, List.forall_mem_map] at hstarts
  exact hspans.imp_of_mem fun hearlier hlater hprecedes =>
    ⟨hrows.row_le (hstarts _ hearlier) (hstarts _ hlater) hprecedes.1, hprecedes⟩

/-! ## The order of the stream -/

namespace ChunkWalk

/-- The chunks of nodes' own stand in the order of the document. -/
structure InDocumentOrder (walk : ChunkWalk) (cost : String → Int) (stream : List Delivery) :
    Prop where
  /-- A chunk of a node's own has the node's text or its outline, and the node's rows. -/
  own : ∀ delivery ∈ stream, ∀ entry, delivery.node? = some entry →
    walk.arena.nodes[entry.1]? = some entry.2 ∧
      (delivery.chunk = nodeChunk entry.2 (walk.arena.nodeText entry.2) ∨
        ∃ kind, walk.profile.definition? entry.2.type = some kind ∧
          delivery.chunk = nodeChunk entry.2 (walk.outlined cost kind entry.1))
  /-- All other chunks are made of comments. -/
  comments : ∀ delivery ∈ stream, delivery.node? = none → ∃ group,
    delivery.comments? = some group ∧ ∀ comment ∈ group, walk.isComment comment.2 = true
  /-- Of two chunks of nodes' own the later one starts on no earlier line, and its node lies
  inside that of the earlier one, or starts at its end or after it. -/
  ordered : stream.Pairwise fun earlier later => ∀ first second : Nat × Node,
    earlier.node? = some first → later.node? = some second →
      earlier.chunk.startLine ≤ later.chunk.startLine ∧
        (first.2.span.Contains second.2.span ∨
          first.2.span.stopByte ≤ second.2.span.startByte)

variable {walk : ChunkWalk} {cost : String → Int} {tree : Tree (Nat × Node)}

/-- A chunk of a node's own starts on the line of the node. -/
theorem startLine_of_own {entry : Nat × Node} {own : Delivery}
    (hown : walk.ownDelivery? cost entry = some own) :
    own.chunk.startLine = entry.2.span.startPoint.row := by
  rcases own_cases hown with ⟨-, rfl⟩ | ⟨kind, -, -, -, rfl⟩ <;> rfl

/-- What is true of any two nodes, in the order of the tree, is true of any two with chunks of
their own, in the order of the chunks. -/
theorem pairwise_own {related : Nat × Node → Nat × Node → Prop}
    (h : tree.toList.Pairwise related) :
    (walk.deliveries cost tree).Pairwise fun earlier later => ∀ first second,
      earlier.node? = some first → later.node? = some second → related first second := by
  obtain ⟨after, account, -⟩ := Account.deliveries walk cost tree
  have hreached := h.sublist (walk.reached_sublist cost tree)
  have howned : ((walk.deliveries cost tree).filter fun delivery => delivery.node?.isSome).Pairwise
      fun earlier later => ∀ first second,
        earlier.node? = some first → later.node? = some second → related first second := by
    rw [account.own, List.pairwise_filterMap]
    refine hreached.imp fun hrelated earlier hearlier later hlater first second hfirst hsecond => ?_
    rw [node?_of_own hearlier, Option.some.injEq] at hfirst
    rw [node?_of_own hlater, Option.some.injEq] at hsecond
    exact hfirst ▸ hsecond ▸ hrelated
  rw [List.pairwise_filter] at howned
  refine howned.imp fun hrelated first second hfirst hsecond => ?_
  exact hrelated (by rw [hfirst]; rfl) (by rw [hsecond]; rfl) first second hfirst hsecond

/-- A chunk that is no node's own is made of comments. -/
theorem isComment_of_mem_deliveries {delivery : Delivery}
    (hmem : delivery ∈ walk.deliveries cost tree) (hnode : delivery.node? = none) :
    ∃ group, delivery.comments? = some group ∧
      ∀ comment ∈ group, walk.isComment comment.2 = true := by
  obtain ⟨after, account, hafter⟩ := Account.deliveries walk cost tree
  obtain ⟨group, hgroup⟩ : ∃ group, delivery.comments? = some group := by
    obtain ⟨origin, chunk⟩ := delivery
    cases origin with
    | comments group => exact ⟨group, rfl⟩
    | whole entry | outline entry => cases hnode
  refine ⟨group, hgroup, fun comment hcomment => ?_⟩
  have hbuffered := account.buffered
  rw [hafter, List.append_nil] at hbuffered
  have hin : comment ∈ (walk.reached cost tree).filter (walk.isBuffered cost) := by
    rw [← List.nil_append (List.filter _ _), ← hbuffered]
    exact List.mem_flatten_of_mem (List.mem_filterMap.2 ⟨delivery, hmem, hgroup⟩) hcomment
  have hisBuffered := List.of_mem_filter hin
  rw [isBuffered, Bool.and_eq_true] at hisBuffered
  exact hisBuffered.2

/-- **The order of the stream**, where that of the tree is the order of the source. -/
theorem inDocumentOrder (hhas : walk.arena.HasTree tree)
    (horder : tree.toList.Pairwise fun earlier later => earlier.2.Precedes later.2) :
    walk.InDocumentOrder cost (walk.deliveries cost tree) where
  own := by
    intro delivery hmem entry hnode
    obtain ⟨hreached, hown⟩ := (mem_deliveries_iff_of_node? hnode).1 hmem
    refine ⟨hhas.found_of_mem (mem_toList_of_mem_reached hreached), ?_⟩
    rcases own_cases hown with ⟨-, rfl⟩ | ⟨kind, -, -, hkind, rfl⟩
    · exact Or.inl rfl
    · exact Or.inr ⟨kind, hkind, rfl⟩
  comments := fun delivery hmem hnode => isComment_of_mem_deliveries hmem hnode
  ordered := by
    refine (pairwise_own horder).imp_of_mem fun {earlier later} hearlier hlater hrelated first
      second hfirst hsecond => ?_
    obtain ⟨hrows, -, hspans⟩ := hrelated first second hfirst hsecond
    have hfirstOwn := ((mem_deliveries_iff_of_node? hfirst).1 hearlier).2
    have hsecondOwn := ((mem_deliveries_iff_of_node? hsecond).1 hlater).2
    refine ⟨?_, hspans⟩
    rw [startLine_of_own hfirstOwn, startLine_of_own hsecondOwn]
    exact Int.ofNat_le.2 hrows

/-- **Definitions come out in the order of the document.**  For every parse whose spans agree
with its tree and whose rows grow with the bytes, with comments put together or not, every
profile, every budget and all costs. -/
theorem run_inDocumentOrder (source : Bytes) (parse : Tree Symbol)
    (hlaid : ∀ subtree ∈ parse.subtrees, subtree.LaidOut Symbol.span fun _ => True)
    (hrows : parse.RowsGrow) (types? : Option (List String)) (profile : Profile) (budget : Int)
    (cost : String → Int) :
    ∃ arena tree, Arena.ofParseWith source parse types? = .ok arena ∧ arena.HasTree tree ∧
      let walk : ChunkWalk := ⟨arena, profile, budget⟩
      (walk.chunks.run none (CostFunction.mk cost)).ending = .done () ∧
        (walk.chunks.run none (CostFunction.mk cost)).chunks =
          (walk.deliveries cost tree).map (·.chunk) ∧
        walk.InDocumentOrder cost (walk.deliveries cost tree) := by
  obtain ⟨arena, tree, harena, -, htidy, htree⟩ := Arena.exists_prepared source parse types?
  have horder := Tree.pairwise_precedes hlaid hrows htree
  refine ⟨arena, tree, harena, htidy.hasTree, ?_⟩
  intro walk
  obtain ⟨hending, hchunks⟩ := walk.run_eq_deliveries cost htidy.isTree
  exact ⟨hending, hchunks, inDocumentOrder htidy.hasTree horder⟩

/-- A function in another one, and a function after two comments. -/
def nestedParse : Tree Symbol where
  label := ⟨"module", ⟨0, 26, ⟨0, 0⟩, ⟨4, 5⟩⟩⟩
  children := .ofTrees [
    ⟨⟨"function", ⟨0, 14, ⟨0, 0⟩, ⟨1, 7⟩⟩⟩, .ofTrees [
      ⟨⟨"function", ⟨9, 14, ⟨1, 2⟩, ⟨1, 7⟩⟩⟩, .nil⟩]⟩,
    ⟨⟨"comment", ⟨15, 17, ⟨2, 0⟩, ⟨2, 2⟩⟩⟩, .nil⟩,
    ⟨⟨"comment", ⟨18, 20, ⟨3, 0⟩, ⟨3, 2⟩⟩⟩, .nil⟩,
    ⟨⟨"function", ⟨21, 26, ⟨4, 0⟩, ⟨4, 5⟩⟩⟩, .nil⟩]

theorem nestedParse_inDocumentOrder :
    (∀ subtree ∈ nestedParse.subtrees, subtree.LaidOut Symbol.span fun _ => True) ∧
      nestedParse.RowsGrow ∧
      ∃ arena tree, Arena.ofParseWith "def f:\n  def g\n#a\n#b\ndef h".toUTF8.toList nestedParse
          (some ["comment"]) = .ok arena ∧ arena.HasTree tree ∧
        let walk : ChunkWalk := ⟨arena, sampleProfile, 8⟩
        (walk.chunks.run none (CostFunction.mk fun text => text.length)).ending = .done () ∧
          (walk.chunks.run none (CostFunction.mk fun text => text.length)).chunks =
            (walk.deliveries (fun text => text.length) tree).map (·.chunk) ∧
          walk.InDocumentOrder (fun text => text.length)
            (walk.deliveries (fun text => text.length) tree) := by
  have laidOut : ∀ subtree ∈ nestedParse.subtrees,
      subtree.LaidOut Symbol.span fun _ => True := by decide
  have rowsGrow : nestedParse.RowsGrow := by decide
  exact ⟨laidOut, rowsGrow,
    run_inDocumentOrder _ nestedParse laidOut rowsGrow (some ["comment"]) sampleProfile 8 _⟩

end ChunkWalk

end SourceChunks
