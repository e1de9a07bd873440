import SourceChunks.Outline.Class

/-!
# Replacing the bodies of a class

The bodies of a class's methods are replaced one after the other, in one buffer, at offsets
that count in the source.  That is sound because the last one goes first: below the body at
hand, the buffer is still the source.  So what comes out is the source with all bodies
replaced at once (`substituted`), and the fragments are slices of the source
(`outlineWith_eq`).

What it takes is that the methods stand in the class one after the other, each with its body
inside it (`BodyCut.InOrder`).
-/

namespace SourceChunks

namespace Bytes

/-- Two slices that meet are one. -/
theorem slice_append_slice (bytes : Bytes) {start middle stop : Nat} (h : start ≤ middle)
    (h' : middle ≤ stop) :
    bytes.slice start middle ++ bytes.slice middle stop = bytes.slice start stop := by
  have htake : bytes.take middle = (bytes.take stop).take middle := by
    rw [List.take_take, Nat.min_eq_left h']
  have hdrop := congrArg (List.drop start) (List.take_append_drop middle (bytes.take stop))
  rw [List.drop_append] at hdrop
  rw [slice, slice, slice, htake, ← hdrop]
  congr 1
  rcases Nat.le_total middle (bytes.take stop).length with hle | hle
  · rw [List.length_take_of_le hle, Nat.sub_eq_zero_of_le h, List.drop_zero]
  · rw [List.drop_of_length_le hle, List.drop_nil]

/-- Where a byte string was found, it stands. -/
theorem exists_of_lastIndexOf? {needle bytes : Bytes} {place : Nat}
    (h : lastIndexOf? needle bytes = some place) :
    ∃ front back, bytes = front ++ (needle ++ back) ∧ front.length = place := by
  induction bytes generalizing place with
  | nil =>
    rw [lastIndexOf?] at h
    split at h
    · next hempty =>
      rw [List.isEmpty_iff.1 hempty]
      exact ⟨[], [], rfl, Option.some.inj h⟩
    · simp at h
  | cons byte rest ih =>
    rw [lastIndexOf?] at h
    split at h
    · next later hlater =>
      obtain ⟨front, back, hrest, hlength⟩ := ih hlater
      refine ⟨byte :: front, back, by rw [hrest]; rfl, ?_⟩
      rw [List.length_cons, hlength]
      exact Option.some.inj h
    · split at h
      · next hfront =>
        obtain ⟨back, hback⟩ := List.isPrefixOf_iff_prefix.1 hfront
        exact ⟨[], back, hback.symm, Option.some.inj h⟩
      · simp at h

end Bytes

/-- A fragment is taken out where it stands, or nothing is. -/
theorem removeFragment_cases (code fragment : Bytes) :
    removeFragment code fragment = code ∨
      ∃ front back, code = front ++ (fragment ++ back) ∧ front ≠ [] ∧
        removeFragment code fragment = front ++ back := by
  unfold removeFragment
  split
  · next place hplace =>
    split
    · next hpositive =>
      obtain ⟨front, back, rfl, rfl⟩ := Bytes.exists_of_lastIndexOf? hplace
      refine Or.inr ⟨front, back, rfl, List.ne_nil_of_length_pos hpositive, ?_⟩
      rw [List.take_left, ← List.drop_drop, List.drop_left, List.drop_left]
    · exact Or.inl rfl
  · exact Or.inl rfl

/-! ## All bodies at once -/

namespace BodyCut

/-- The methods stand one after the other between two offsets, each with its body inside. -/
def InOrder (high : Nat) : Nat → List BodyCut → Prop
  | low, [] => low ≤ high
  | low, cut :: later =>
    low ≤ cut.methodStart ∧ cut.methodStart ≤ cut.bodyStart ∧ cut.bodyStart ≤ cut.bodyStop ∧
      InOrder high cut.bodyStop later

variable {low high : Nat} {cuts : List BodyCut}

theorem InOrder.le (h : InOrder high low cuts) : low ≤ high := by
  induction cuts generalizing low with
  | nil => exact h
  | cons cut later ih =>
    obtain ⟨hmethod, hbody, hstop, hlater⟩ := h
    have := ih hlater
    omega

theorem InOrder.mono (h : InOrder high low cuts) {lower : Nat} (hle : lower ≤ low) :
    InOrder high lower cuts := by
  cases cuts with
  | nil => exact Nat.le_trans hle h
  | cons cut later => exact ⟨Nat.le_trans hle h.1, h.2⟩

theorem InOrder.widen (h : InOrder high low cuts) {higher : Nat} (hle : high ≤ higher) :
    InOrder higher low cuts := by
  induction cuts generalizing low with
  | nil => exact Nat.le_trans h hle
  | cons cut later ih => exact ⟨h.1, h.2.1, h.2.2.1, ih h.2.2.2⟩

/-- What is noted of a method: its source up to the body, and the placeholder. -/
def fragment (source : Bytes) (cut : BodyCut) : Bytes :=
  source.slice cut.methodStart cut.bodyStart ++ cut.placeholder

end BodyCut

/-- The source from one offset to another with all the bodies replaced. -/
def substituted (source : Bytes) (stop : Nat) : Nat → List BodyCut → Bytes
  | start, [] => source.slice start stop
  | start, cut :: later =>
    source.slice start cut.bodyStart ++ cut.placeholder
      ++ substituted source stop cut.bodyStop later

section Substituted

variable {source : Bytes} {low high : Nat} {cuts : List BodyCut}

/-- Before the first method the source is as it was. -/
theorem substituted_eq_append (h : BodyCut.InOrder high low cuts) {start middle : Nat}
    (hstart : start ≤ middle) (hmiddle : middle ≤ low) :
    substituted source high start cuts =
      source.slice start middle ++ substituted source high middle cuts := by
  cases cuts with
  | nil => exact (source.slice_append_slice hstart (Nat.le_trans hmiddle h)).symm
  | cons cut later =>
    have hbody : middle ≤ cut.bodyStart :=
      Nat.le_trans hmiddle (Nat.le_trans h.1 h.2.1)
    rw [substituted, substituted, ← source.slice_append_slice hstart hbody]
    simp only [List.append_assoc]

theorem take_substituted (h : BodyCut.InOrder high low cuts) (hhigh : high ≤ source.length)
    {middle : Nat} (hmiddle : middle ≤ low) :
    (substituted source high 0 cuts).take middle = source.take middle := by
  have hlength : (source.take middle).length = middle :=
    List.length_take_of_le (by have := h.le; omega)
  rw [substituted_eq_append h (Nat.zero_le middle) hmiddle]
  exact List.take_left' hlength

theorem drop_substituted (h : BodyCut.InOrder high low cuts) (hhigh : high ≤ source.length)
    {middle : Nat} (hmiddle : middle ≤ low) :
    (substituted source high 0 cuts).drop middle = substituted source high middle cuts := by
  have hlength : (source.take middle).length = middle :=
    List.length_take_of_le (by have := h.le; omega)
  rw [substituted_eq_append h (Nat.zero_le middle) hmiddle]
  exact List.drop_left' hlength

/-- **Replacing from the last body to the first** is replacing all at once. -/
theorem foldr_replaceBody (h : BodyCut.InOrder high low cuts) (hhigh : high ≤ source.length) :
    cuts.foldr ClassOutline.replaceBody { code := source.take high } =
      ⟨substituted source high 0 cuts, cuts.map (BodyCut.fragment source)⟩ := by
  induction cuts generalizing low with
  | nil => rfl
  | cons cut later ih =>
    obtain ⟨-, hmethod, hbody, hlater⟩ := h
    have htake := take_substituted hlater hhigh hbody
    rw [List.foldr_cons, ih hlater, ClassOutline.replaceBody]
    simp only [Bytes.replaceRange, Bytes.slice, htake,
      drop_substituted hlater hhigh (Nat.le_refl _)]
    rfl

/-- There is nothing to replace past the end of the source. -/
theorem substituted_min (source : Bytes) (stop start : Nat) (cuts : List BodyCut) :
    substituted source (min stop source.length) start cuts =
      substituted source stop start cuts := by
  induction cuts generalizing start with
  | nil =>
    rw [substituted, substituted, Bytes.slice, Bytes.slice, ← List.take_eq_take_min]
  | cons cut later ih => rw [substituted, substituted, ih]

/-- **The outline of a class** before anything is taken out of it is its source with all the
bodies replaced, and the fragments are its methods up to their bodies.  The class may reach past
the end of the source, but the methods may not. -/
theorem Arena.outlineWith_eq_of_inOrder {arena : Arena} {node : Node}
    (h : BodyCut.InOrder (min node.span.stopByte arena.source.length) node.span.startByte cuts) :
    arena.outlineWith node cuts =
      ⟨substituted arena.source node.span.stopByte node.span.startByte cuts,
        cuts.map (BodyCut.fragment arena.source)⟩ := by
  have hstop := Nat.min_le_right node.span.stopByte arena.source.length
  have hdrop := (drop_substituted h hstop (Nat.le_refl _)).trans (substituted_min _ _ _ _)
  rw [outlineWith, List.take_eq_take_min, foldr_replaceBody h hstop]
  exact congrArg (ClassOutline.mk · _) hdrop

theorem Arena.outlineWith_eq {arena : Arena} {node : Node}
    (h : BodyCut.InOrder node.span.stopByte node.span.startByte cuts)
    (hstop : node.span.stopByte ≤ arena.source.length) :
    arena.outlineWith node cuts =
      ⟨substituted arena.source node.span.stopByte node.span.startByte cuts,
        cuts.map (BodyCut.fragment arena.source)⟩ :=
  outlineWith_eq_of_inOrder (by rwa [Nat.min_eq_left hstop])

end Substituted

end SourceChunks
