import SourceChunks.Proofs.Outline.Pruning
import SourceChunks.Proofs.Text.Decoding

/-!
# How long an outline is

An outline has placeholders for bodies, so in characters it is as long as the class but for the
balance of these (`BodyCut.exists_length_substituted`).  There is one more item: where the end of a
body cuts a character, its parts are read one by one, and that makes up to three characters more.
Pruning and tidying only make a text shorter: a fragment ends with its placeholder, so a new
character begins behind it, and what is joined where it stood is read as no more characters than
before (`length_decode_removeFragment_le`).

So an outline is no longer than the class if the bodies are long enough for their placeholders
(`Arena.classOutline_length`), and a short body makes it longer (`Arena.not_never_longer`).
-/

namespace SourceChunks

namespace Bytes

/-- Does a continuation byte stand at the place, so that a cut there tears a character? -/
def isTornAt (bytes : Bytes) (place : Nat) : Bool :=
  bytes[place]?.any Utf8.isContinuation

theorem not_isContinuation_of_head?_slice {bytes : Bytes} {start stop : Nat}
    (h : bytes.isTornAt start = false) :
    ∀ byte ∈ (bytes.slice start stop).head?, Utf8.isContinuation byte = false := by
  intro byte hbyte
  rw [slice, List.head?_drop, List.getElem?_take] at hbyte
  split at hbyte
  · rw [isTornAt, Option.mem_def.1 hbyte] at h
    exact h
  · cases hbyte

/-- A slice and its two parts, as they are read. -/
theorem exists_length_decode_slice (bytes : Bytes) {start middle stop : Nat} (h : start ≤ middle)
    (h' : middle ≤ stop) :
    ∃ torn ≤ 3 * (if bytes.isTornAt middle then 1 else 0),
      (Utf8.decode (bytes.slice start middle)).length +
          (Utf8.decode (bytes.slice middle stop)).length =
        (Utf8.decode (bytes.slice start stop)).length + torn := by
  obtain ⟨torn, hfew, hlength, hnone⟩ :=
    Utf8.exists_length_decode_append (bytes.slice start middle) (bytes.slice middle stop)
  rw [bytes.slice_append_slice h h'] at hlength
  refine ⟨torn, ?_, hlength⟩
  cases htorn : bytes.isTornAt middle with
  | true => exact hfew
  | false => exact Nat.le_of_eq (hnone (not_isContinuation_of_head?_slice htorn))

end Bytes

/-! ## Placeholders -/

/-- The bytes are one of the placeholders. -/
def IsPlaceholder (bytes : Bytes) : Prop :=
  bytes = bracePlaceholder ∨ bytes = dotsPlaceholder

/-- A placeholder is read as itself, wherever it stands, and has as many characters as bytes. -/
theorem IsPlaceholder.length_decode {placeholder : Bytes} (h : IsPlaceholder placeholder)
    (front back : Bytes) :
    (Utf8.decode (front ++ (placeholder ++ back))).length =
      (Utf8.decode front).length + placeholder.length + (Utf8.decode back).length := by
  obtain ⟨text, rfl, hlength, hhead⟩ : ∃ text, Utf8.encode text = placeholder ∧
      (Utf8.encode text).length = text.toList.length ∧
        ∀ byte ∈ (Utf8.encode text ++ back).head?, Utf8.isContinuation byte = false := by
    rcases h with rfl | rfl
    · refine ⟨_, rfl, by decide, ?_⟩
      rintro byte ⟨⟩
      decide
    · refine ⟨_, rfl, by decide, ?_⟩
      rintro byte ⟨⟩
      decide
  simp only [Utf8.decode, String.length_ofList]
  rw [Utf8.decodeFrom_append_of_head front hhead, Utf8.encode, Utf8.decodeFrom_flatMap,
    ← Utf8.encode, hlength, List.length_append, List.length_append, Nat.add_assoc]

/-! ## Bodies and placeholders -/

namespace BodyCut

/-- The characters of the bodies, each read by itself. -/
def bodyChars (source : Bytes) (cuts : List BodyCut) : List Char :=
  cuts.flatMap fun cut => (Utf8.decode (source.slice cut.bodyStart cut.bodyStop)).toList

/-- What stands for the bodies. -/
def placeholders (cuts : List BodyCut) : Bytes :=
  cuts.flatMap BodyCut.placeholder

/-- At how many ends of bodies a character is torn. -/
def tornEnds (source : Bytes) (cuts : List BodyCut) : Nat :=
  (cuts.flatMap fun cut => [cut.bodyStart, cut.bodyStop]).countP source.isTornAt

/-- **What is substituted** is as long as the source with placeholders for bodies; each torn end
adds three characters at most. -/
theorem exists_length_substituted {source : Bytes} {low high : Nat} {cuts : List BodyCut}
    (h : InOrder high low cuts) (hplaceholders : ∀ cut ∈ cuts, IsPlaceholder cut.placeholder)
    {start : Nat} (hstart : start ≤ low) :
    ∃ torn ≤ 3 * tornEnds source cuts,
      (Utf8.decode (substituted source high start cuts)).length +
          (bodyChars source cuts).length =
        (Utf8.decode (source.slice start high)).length + (placeholders cuts).length + torn := by
  induction cuts generalizing low start with
  | nil => exact ⟨0, Nat.le_refl 0, rfl⟩
  | cons cut later ih =>
    obtain ⟨hmethod, hbody, hordered, hlater⟩ := h
    obtain ⟨hplaceholder, hothers⟩ := List.forall_mem_cons.1 hplaceholders
    have hfront : start ≤ cut.bodyStart := hstart.trans (hmethod.trans hbody)
    have hback : cut.bodyStop ≤ high := hlater.le
    obtain ⟨torn, htorn, hrest⟩ := ih hlater hothers (Nat.le_refl _)
    obtain ⟨tornStart, htornStart, hsplit⟩ :=
      source.exists_length_decode_slice hfront (hordered.trans hback)
    obtain ⟨tornStop, htornStop, hsplit'⟩ := source.exists_length_decode_slice hordered hback
    refine ⟨tornStart + tornStop + torn, ?_, ?_⟩
    · rw [tornEnds, List.flatMap_cons, List.countP_append, ← tornEnds, List.countP_cons,
        List.countP_singleton]
      omega
    · rw [substituted, List.append_assoc, hplaceholder.length_decode, bodyChars, placeholders,
        List.flatMap_cons, List.flatMap_cons, List.length_append, List.length_append,
        String.length_toList, ← bodyChars, ← placeholders]
      omega

end BodyCut

/-! ## Pruning and tidying -/

/-- **A removal makes no text longer.**  Behind what is taken out a new character begins, since a
placeholder was in front of it. -/
theorem length_decode_removeFragment_le {code signature placeholder : Bytes}
    (h : IsPlaceholder placeholder) :
    (Utf8.decode (removeFragment code (signature ++ placeholder))).length ≤
      (Utf8.decode code).length := by
  rcases removeFragment_cases code (signature ++ placeholder) with heq | ⟨front, back, rfl, -, heq⟩
  · rw [heq]
  · have hwhole := h.length_decode (front ++ signature) back
    have hfront := Utf8.length_decode_le_append front signature
    have hjoined := Utf8.length_decode_append_le front back
    rw [List.append_assoc] at hwhole
    rw [heq, List.append_assoc, hwhole]
    omega

theorem length_decode_foldl_removeFragment_le {fragments : List Bytes} (code : Bytes)
    (h : ∀ fragment ∈ fragments, ∃ signature placeholder,
      fragment = signature ++ placeholder ∧ IsPlaceholder placeholder) :
    (Utf8.decode (fragments.foldl removeFragment code)).length ≤ (Utf8.decode code).length := by
  induction fragments generalizing code with
  | nil => exact Nat.le_refl _
  | cons fragment later ih =>
    obtain ⟨⟨signature, placeholder, rfl, hplaceholder⟩, hlater⟩ := List.forall_mem_cons.1 h
    exact (ih _ hlater).trans (length_decode_removeFragment_le hplaceholder)

theorem length_tidyOutline_le (code : Bytes) (pruned : Bool) :
    (tidyOutline code pruned).length ≤ (Utf8.decode code).length := by
  cases pruned with
  | false => exact Nat.le_refl _
  | true => exact Text.length_removeBlankRuns_le _

namespace Arena

variable {arena : Arena} {profile : Profile} {index : Nat} {node : Node} {methods : List Method}

theorem isPlaceholder_of_mem_cuts {cut : BodyCut}
    (h : cut ∈ methods.filterMap (·.cut? profile)) : IsPlaceholder cut.placeholder := by
  obtain ⟨method, -, hcut⟩ := List.mem_filterMap.1 h
  obtain ⟨body, -, rfl⟩ := Option.map_eq_some_iff.1 hcut
  exact Tree.placeholder_cases profile body.type

/-- Before anything is taken out of it, the outline has the length of the class but for bodies and
placeholders. -/
theorem ClassWith.exists_length_outlineWith (h : arena.ClassWith profile node methods) :
    let cuts := methods.filterMap (·.cut? profile)
    ∃ torn ≤ 3 * BodyCut.tornEnds arena.source cuts,
      (Utf8.decode (arena.outlineWith node cuts).code).length +
          (BodyCut.bodyChars arena.source cuts).length =
        (Utf8.decode (arena.source.slice node.span.startByte node.span.stopByte)).length +
          (BodyCut.placeholders cuts).length + torn := by
  intro cuts
  cases h with
  | bodiless => exact ⟨0, Nat.le_refl 0, rfl⟩
  | ofBody hmethods hnested =>
    have horder := hnested.inOrder profile
    rw [outlineWith_eq_of_inOrder horder]
    exact BodyCut.exists_length_substituted (horder.widen (Nat.min_le_left _ _))
      (fun cut hcut => isPlaceholder_of_mem_cuts hcut) (Nat.le_refl _)

/-- What is left of an outline is not longer than it was. -/
theorem ClassWith.length_pruned_le (h : arena.ClassWith profile node methods) (count : Nat) :
    let outline := arena.outlineWith node (methods.filterMap (·.cut? profile))
    (Utf8.decode (outline.pruned count)).length ≤ (Utf8.decode outline.code).length := by
  intro outline
  have hfragments : outline.fragments = (methods.filterMap (·.cut? profile)).map
      (BodyCut.fragment arena.source) := congrArg ClassOutline.fragments h.outlineWith_eq
  refine length_decode_foldl_removeFragment_le _ fun fragment hfragment => ?_
  have hmem := List.mem_reverse.1 (List.mem_of_mem_take hfragment)
  rw [hfragments] at hmem
  obtain ⟨cut, hcut, rfl⟩ := List.mem_map.1 hmem
  exact ⟨_, _, rfl, isPlaceholder_of_mem_cuts hcut⟩

/-- **How long an outline is.**  Unpruned, it has as many characters as the class, with those of the
placeholders for those of the bodies; where bodies end inside characters, up to three more for each
such end.  Pruned, it has no more than that.  So it is not longer than the class if the bodies are
long enough for their placeholders, and if nothing is pruned, only then. -/
theorem classOutline_length (found : arena.nodes[index]? = some node)
    (hclass : arena.ClassWith profile node methods) :
    let cuts := methods.filterMap (·.cut? profile)
    let outline := arena.outlineWith node cuts
    let whole := Utf8.decode (arena.source.slice node.span.startByte node.span.stopByte)
    let bodies := (BodyCut.bodyChars arena.source cuts).length
    let placeholders := (BodyCut.placeholders cuts).length
    ∃ torn ≤ 3 * BodyCut.tornEnds arena.source cuts,
      (Utf8.decode outline.code).length + bodies = whole.length + placeholders + torn ∧
        ∀ (cost : String → Int) (budget : Int), ∃ text,
          ((arena.classOutline profile budget index).run none (CostFunction.mk cost)).ending =
              .done text ∧
            text.length + bodies ≤ whole.length + placeholders + torn ∧
            (placeholders + torn ≤ bodies → text.length ≤ whole.length) ∧
            (outline.removals cost budget = 0 → text = Utf8.decode outline.code ∧
              (text.length ≤ whole.length ↔ placeholders + torn ≤ bodies)) := by
  intro cuts outline whole bodies placeholders
  obtain ⟨torn, htorn, hlength⟩ := hclass.exists_length_outlineWith
  have hbalance : (Utf8.decode outline.code).length + bodies =
      whole.length + placeholders + torn := hlength
  refine ⟨torn, htorn, hbalance, fun cost budget => ?_⟩
  let count := outline.removals cost budget
  let text := tidyOutline (outline.pruned count) (decide (0 < count))
  have hended : ((arena.classOutline profile budget index).run none
      (CostFunction.mk cost)).ending = .done text :=
    congrArg Trace.ending (hclass.yields_classOutline found cost budget).run_eq
  have hshorter : text.length ≤ (Utf8.decode outline.code).length :=
    (length_tidyOutline_le _ _).trans (hclass.length_pruned_le count)
  refine ⟨text, hended, by omega, fun hlong => by omega, fun hnone => ?_⟩
  have hcount : count = 0 := hnone
  have htext : text = Utf8.decode outline.code := by
    show tidyOutline (outline.pruned count) (decide (0 < count)) = Utf8.decode outline.code
    rw [hcount]
    rfl
  refine ⟨htext, ?_⟩
  rw [htext]
  omega

/-- Both bodies are one character long, and so the outline is four longer than the class. -/
theorem repeatedArena_length :
    let node := bareNode "class_definition" 0 32 [1, 2]
    let cuts := repeatedMethods.filterMap (·.cut? pythonProfile)
    repeatedArena.nodes[0]? = some node ∧
      repeatedArena.ClassWith pythonProfile node repeatedMethods ∧
      (Utf8.decode (repeatedArena.source.slice 0 32)).length = 32 ∧
      (BodyCut.bodyChars repeatedArena.source cuts).length = 2 ∧
      (BodyCut.placeholders cuts).length = 6 ∧
      (repeatedArena.outlineWith node cuts).removals (fun text => text.length) 40 = 0 ∧
      ∃ text, ((repeatedArena.classOutline pythonProfile 40 0).run none
          (CostFunction.mk fun text => text.length)).ending = .done text ∧ text.length = 36 := by
  intro node cuts
  have found : repeatedArena.nodes[0]? = some node := rfl
  have hwhole : (Utf8.decode (repeatedArena.source.slice 0 32)).length = 32 := by decide +kernel
  have hbodies : (BodyCut.bodyChars repeatedArena.source cuts).length = 2 := by decide +kernel
  have hplaceholders : (BodyCut.placeholders cuts).length = 6 := by decide +kernel
  have hcount : (repeatedArena.outlineWith node cuts).removals (fun text => text.length) 40 = 0 := by
    decide +kernel
  have hends : BodyCut.tornEnds repeatedArena.source cuts = 0 := by decide +kernel
  refine ⟨found, repeatedArena_classWith, hwhole, hbodies, hplaceholders, hcount, ?_⟩
  obtain ⟨torn, htorn, hbalance, hruns⟩ := classOutline_length found repeatedArena_classWith
  obtain ⟨text, hended, -, -, hnone⟩ := hruns (fun text => text.length) 40
  obtain ⟨htext, -⟩ := hnone hcount
  refine ⟨text, hended, ?_⟩
  have hfew : torn ≤ 3 * 0 := hends ▸ htorn
  have htornNone : torn = 0 := by omega
  have hlength : (Utf8.decode (repeatedArena.outlineWith node cuts).code).length + 2 =
      32 + 6 + torn := by
    rw [← hbodies, ← hwhole, ← hplaceholders]
    exact hbalance
  rw [htornNone] at hlength
  exact (congrArg String.length htext).trans (Nat.add_right_cancel hlength)

/-- **An outline may be longer than its class**, as that of a class with short bodies is. -/
theorem not_never_longer :
    ¬ ∀ (arena : Arena) (profile : Profile) (index : Nat) (node : Node) (methods : List Method),
      arena.nodes[index]? = some node → arena.ClassWith profile node methods →
      ∀ (cost : String → Int) (budget : Int), ∃ text,
        ((arena.classOutline profile budget index).run none (CostFunction.mk cost)).ending =
            .done text ∧
          text.length ≤
            (Utf8.decode (arena.source.slice node.span.startByte node.span.stopByte)).length := by
  intro hall
  obtain ⟨text, hended, hle⟩ := hall repeatedArena pythonProfile 0
    (bareNode "class_definition" 0 32 [1, 2]) repeatedMethods rfl repeatedArena_classWith
    (fun text => text.length) 40
  have hcode : ((repeatedArena.classOutline pythonProfile 40 0).run none
      (CostFunction.mk fun text => text.length)).ending =
        .done "class A:\n def f(): ...\n def f(): ..." := by
    decide +kernel
  obtain rfl := Ending.done.inj (hcode.symm.trans hended)
  exact absurd hle (by decide +kernel)

end Arena

end SourceChunks
