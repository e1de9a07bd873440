import SourceChunks.Proofs.Comment.Subtrees
import SourceChunks.Proofs.Outline.Substitution
import SourceChunks.Proofs.Outline.TreeOutline

/-!
# Spans that agree with the tree

What a parser reports is laid out (`LaidOut`): the children of a node stand one after the
other inside it, and all ends are offsets at which the source may be cut.  Of which offsets
that is true is left open here; for a text in bytes it is the ends of its characters.

Coalescing keeps it, since a composite reaches from the start of its first member to the end
of its last (`laidOut_coalesced`).  And in a class that is laid out, the bodies that its
outline replaces stand in order (`LaidOut.inOrder_bodyCuts`).
-/

namespace SourceChunks

namespace Span

/-- The inner span lies inside the outer one. -/
def Contains (outer inner : Span) : Prop :=
  outer.startByte ≤ inner.startByte ∧ inner.stopByte ≤ outer.stopByte

instance (outer inner : Span) : Decidable (outer.Contains inner) :=
  inferInstanceAs (Decidable (_ ∧ _))

/-- The spans stand one after the other between two offsets. -/
def InOrder (high : Nat) : Nat → List Span → Prop
  | low, [] => low ≤ high
  | low, span :: later =>
    low ≤ span.startByte ∧ span.startByte ≤ span.stopByte ∧ InOrder high span.stopByte later

instance decidableInOrder (high : Nat) :
    ∀ (low : Nat) (spans : List Span), Decidable (InOrder high low spans)
  | low, [] => inferInstanceAs (Decidable (low ≤ high))
  | low, span :: later =>
    have := decidableInOrder high span.stopByte later
    inferInstanceAs (Decidable (low ≤ span.startByte ∧ span.startByte ≤ span.stopByte ∧
      InOrder high span.stopByte later))

namespace InOrder

variable {low high : Nat} {spans : List Span}

theorem le (h : InOrder high low spans) : low ≤ high := by
  induction spans generalizing low with
  | nil => exact h
  | cons span later ih =>
    have := ih h.2.2
    have := h.1
    have := h.2.1
    omega

theorem mono (h : InOrder high low spans) {lower : Nat} (hle : lower ≤ low) :
    InOrder high lower spans := by
  cases spans with
  | nil => exact Nat.le_trans hle h
  | cons span later => exact ⟨Nat.le_trans hle h.1, h.2⟩

/-- Spans that are left out leave room. -/
theorem sublist (h : InOrder high low spans) {kept : List Span} (hsub : kept.Sublist spans) :
    InOrder high low kept := by
  induction hsub generalizing low with
  | slnil => exact h
  | cons span _ ih => exact ih (h.2.2.mono (Nat.le_trans h.1 h.2.1))
  | cons_cons span _ ih => exact ⟨h.1, h.2.1, ih h.2.2⟩

theorem append_iff {later : List Span} :
    InOrder high low (spans ++ later) ↔
      ∃ middle, InOrder middle low spans ∧ InOrder high middle later := by
  induction spans generalizing low with
  | nil => exact ⟨fun h => ⟨low, Nat.le_refl low, h⟩, fun ⟨_, hle, h⟩ => h.mono hle⟩
  | cons span rest ih =>
    rw [List.cons_append]
    constructor
    · rintro ⟨hstart, hstop, hrest⟩
      obtain ⟨middle, hfirst, hlater⟩ := ih.1 hrest
      exact ⟨middle, ⟨hstart, hstop, hfirst⟩, hlater⟩
    · rintro ⟨middle, ⟨hstart, hstop, hfirst⟩, hlater⟩
      exact ⟨hstart, hstop, ih.2 ⟨middle, hfirst, hlater⟩⟩

/-- Each span lies between the two offsets. -/
theorem of_mem (h : InOrder high low spans) {span : Span} (hmem : span ∈ spans) :
    low ≤ span.startByte ∧ span.startByte ≤ span.stopByte ∧ span.stopByte ≤ high := by
  obtain ⟨hstart, hstop, hlater⟩ := h.sublist (List.singleton_sublist.2 hmem)
  exact ⟨hstart, hstop, hlater⟩

/-- Spans in order end where the last of them does. -/
theorem of_getLast (h : InOrder high low spans) (hne : spans ≠ []) :
    InOrder (spans.getLast hne).stopByte low spans := by
  induction spans generalizing low with
  | nil => exact absurd rfl hne
  | cons span later ih =>
    refine ⟨h.1, h.2.1, ?_⟩
    cases later with
    | nil => exact Nat.le_refl _
    | cons next others =>
      have hlast := ih h.2.2 (List.cons_ne_nil next others)
      rwa [← List.getLast_cons_cons (a := span)] at hlast

end InOrder

end Span

namespace Tree

/-- The children of the tree stand one after the other inside it, and its ends are offsets at
which a cut may be made. -/
structure LaidOut {α : Type} (span : α → Span) (isCut : Nat → Prop) (tree : Tree α) : Prop where
  start : isCut (span tree.label).startByte
  stop : isCut (span tree.label).stopByte
  children : Span.InOrder (span tree.label).stopByte (span tree.label).startByte
    (tree.children.trees.map (span ·.label))

theorem laidOut_iff {α : Type} {span : α → Span} {isCut : Nat → Prop} {tree : Tree α} :
    tree.LaidOut span isCut ↔
      isCut (span tree.label).startByte ∧ isCut (span tree.label).stopByte ∧
        Span.InOrder (span tree.label).stopByte (span tree.label).startByte
          (tree.children.trees.map (span ·.label)) :=
  ⟨fun h => ⟨h.start, h.stop, h.children⟩, fun ⟨start, stop, children⟩ => ⟨start, stop, children⟩⟩

instance {α : Type} (span : α → Span) (isCut : Nat → Prop) [DecidablePred isCut] (tree : Tree α) :
    Decidable (tree.LaidOut span isCut) :=
  decidable_of_iff _ laidOut_iff.symm

variable {isCut : Nat → Prop} {source : Bytes} {types : List String}

/-! ## Coalescing -/

/-- A composite reaches from the start of its first member to the end of its last. -/
theorem inOrder_composite (source : Bytes) {first : Tree Element} {others : List (Tree Element)}
    {low high : Nat} (h : Span.InOrder high low ((first :: others).map (·.label.span))) :
    low ≤ (composite source first others).label.span.startByte ∧
      Span.InOrder (composite source first others).label.span.stopByte
        (composite source first others).label.span.startByte
        ((first :: others).map (·.label.span)) ∧
      (composite source first others).label.span.stopByte ≤ high := by
  have hne : (first :: others).map (fun tree => tree.label.span) ≠ [] := by simp
  have hlast := h.of_getLast hne
  have hstop := (h.of_mem (List.getLast_mem hne)).2.2
  rw [List.getLast_map] at hlast hstop
  exact ⟨h.1, ⟨Nat.le_refl _, hlast.2⟩, hstop⟩

/-- What stands in for groups of trees in order stands in order. -/
theorem inOrder_standIns {copy : Tree Element → Tree Element}
    (hcopy : ∀ child, (copy child).label = child.label) {low high : Nat}
    {groups : List (List (Tree Element))}
    (h : Span.InOrder high low (groups.flatten.map (·.label.span))) :
    Span.InOrder high low ((groups.filterMap (standIn source copy)).map (·.label.span)) := by
  induction groups generalizing low with
  | nil => exact h
  | cons group rest ih =>
    rw [List.flatten_cons, List.map_append, Span.InOrder.append_iff] at h
    obtain ⟨middle, hgroup, hrest⟩ := h
    match group, hgroup with
    | [], hgroup => exact (ih hrest).mono hgroup
    | [single], hgroup =>
      show Span.InOrder high low ((copy single).label.span :: _)
      rw [hcopy]
      exact ⟨hgroup.1, hgroup.2.1, (ih hrest).mono hgroup.2.2⟩
    | first :: second :: others, hgroup =>
      obtain ⟨hstart, hinside, hstop⟩ := inOrder_composite source hgroup
      exact ⟨hstart, hinside.le, (ih hrest).mono hstop⟩

/-- **Coalescing keeps the layout.** -/
theorem laidOut_coalesced (merging : Bool) {tree : Tree Element}
    (h : ∀ subtree ∈ tree.subtrees, subtree.LaidOut Element.span isCut) :
    ∀ subtree ∈ (tree.coalesced source types merging).subtrees,
      subtree.LaidOut Element.span isCut := by
  refine forall_subtrees_coalesced ?_ ?_ (fun _ hkept => hkept) merging tree h
  · intro tree groups copy hlaid hflatten hcopy
    refine ⟨hlaid.start, hlaid.stop, ?_⟩
    rw [Forest.trees_ofTrees]
    exact inOrder_standIns hcopy (hflatten ▸ hlaid.children)
  · intro tree before first others after hlaid hsplit hmembers
    have hchildren := hlaid.children
    rw [hsplit, List.map_append, Span.InOrder.append_iff] at hchildren
    obtain ⟨low, -, hrest⟩ := hchildren
    rw [List.map_append, Span.InOrder.append_iff] at hrest
    obtain ⟨high, hrun, -⟩ := hrest
    refine ⟨(hmembers first List.mem_cons_self).start,
      (hmembers _ (List.getLast_mem (List.cons_ne_nil first others))).stop, ?_⟩
    rw [composite, Forest.trees_ofTrees]
    exact (inOrder_composite source hrun).2.1

/-! ## The bodies of a class -/

end Tree

/-- The ends of the method and of its body are offsets at which a cut may be made, and what
stands for the body is one of the placeholders. -/
structure BodyCut.Marks (isCut : Nat → Prop) (cut : BodyCut) : Prop where
  methodStart : isCut cut.methodStart
  bodyStart : isCut cut.bodyStart
  bodyStop : isCut cut.bodyStop
  placeholder : cut.placeholder = bracePlaceholder ∨ cut.placeholder = dotsPlaceholder

/-- Bodies inside methods that stand one after the other do so too. -/
theorem BodyCut.inOrder_filterMap {α : Type} {span : α → Span} {cut? : α → Option BodyCut}
    {methods : List α} {low high : Nat} (horder : Span.InOrder high low (methods.map span))
    (h : ∀ method ∈ methods, ∀ cut, cut? method = some cut →
      cut.methodStart = (span method).startByte ∧ cut.methodStart ≤ cut.bodyStart ∧
        cut.bodyStart ≤ cut.bodyStop ∧ cut.bodyStop ≤ (span method).stopByte) :
    BodyCut.InOrder high low (methods.filterMap cut?) := by
  induction methods generalizing low with
  | nil => exact horder
  | cons method rest ih =>
    obtain ⟨hstart, hstop, hrest⟩ := horder
    obtain ⟨hmethod, hothers⟩ := List.forall_mem_cons.1 h
    have hlater := ih hrest hothers
    rw [List.filterMap_cons]
    cases hcut : cut? method with
    | none => exact hlater.mono (hstart.trans hstop)
    | some cut =>
      obtain ⟨hfirst, hinside, hordered, hend⟩ := hmethod cut hcut
      exact ⟨hfirst ▸ hstart, hinside, hordered, hlater.mono hend⟩

namespace Tree

variable {isCut : Nat → Prop}

theorem placeholder_cases (profile : Profile) (type : String) :
    profile.placeholder type = bracePlaceholder ∨ profile.placeholder type = dotsPlaceholder := by
  unfold Profile.placeholder
  split
  · exact Or.inl rfl
  · exact Or.inr rfl

/-- The body of a method that is laid out lies in it. -/
theorem bodyCut?_spec (profile : Profile) {method : Tree Element}
    (h : ∀ subtree ∈ method.subtrees, subtree.LaidOut Element.span isCut) {cut : BodyCut}
    (hcut : profile.bodyCut? method = some cut) :
    (cut.methodStart = method.label.span.startByte ∧ cut.methodStart ≤ cut.bodyStart ∧
      cut.bodyStart ≤ cut.bodyStop ∧ cut.bodyStop ≤ method.label.span.stopByte) ∧
        cut.Marks isCut := by
  obtain ⟨body, hbody, rfl⟩ := Option.map_eq_some_iff.1 hcut
  obtain ⟨hmethod, hchildren⟩ := forall_subtrees_iff.1 h
  have hmem := List.mem_of_find?_eq_some hbody
  have hlaid := (forall_subtrees_iff.1 (hchildren body hmem)).1
  obtain ⟨hinside, hordered, hend⟩ :=
    hmethod.children.of_mem (List.mem_map_of_mem (f := fun tree => tree.label.span) hmem)
  exact ⟨⟨rfl, hinside, hordered, hend⟩,
    ⟨hmethod.start, hlaid.start, hlaid.stop, placeholder_cases profile _⟩⟩

/-- **The bodies of a class** that is laid out stand in it one after the other. -/
theorem inOrder_bodyCuts (profile : Profile) {tree : Tree Element}
    (h : ∀ subtree ∈ tree.subtrees, subtree.LaidOut Element.span isCut) :
    BodyCut.InOrder tree.label.span.stopByte tree.label.span.startByte (profile.bodyCuts tree) ∧
      ∀ cut ∈ profile.bodyCuts tree, cut.Marks isCut := by
  obtain ⟨hlaid, hchildren⟩ := forall_subtrees_iff.1 h
  unfold Profile.bodyCuts
  cases hbody : profile.first? .classBodies tree.children.trees with
  | none => exact ⟨hlaid.children.le, by simp⟩
  | some body =>
    have hmem := List.mem_of_find?_eq_some hbody
    obtain ⟨hbodyLaid, hmembers⟩ := forall_subtrees_iff.1 (hchildren body hmem)
    obtain ⟨hinside, -, hend⟩ :=
      hlaid.children.of_mem (List.mem_map_of_mem (f := fun tree => tree.label.span) hmem)
    have hmethods : Span.InOrder body.label.span.stopByte body.label.span.startByte
        ((profile.methods body.children.trees).map (·.label.span)) :=
      hbodyLaid.children.sublist (List.filter_sublist.map _)
    have hbelow : ∀ method ∈ profile.methods body.children.trees,
        ∀ subtree ∈ method.subtrees, subtree.LaidOut Element.span isCut :=
      fun method hmethod => hmembers method (List.mem_of_mem_filter hmethod)
    have horder := BodyCut.inOrder_filterMap hmethods fun method hmethod cut hcut =>
      (bodyCut?_spec profile (hbelow method hmethod) hcut).1
    refine ⟨(horder.mono hinside).widen hend, fun cut hmem => ?_⟩
    obtain ⟨method, hmethod, hcut⟩ := List.mem_filterMap.1 hmem
    exact (bodyCut?_spec profile (hbelow method hmethod) hcut).2

end Tree

end SourceChunks
