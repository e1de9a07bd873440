import SourceChunks.Proofs.Outline.Removal
import SourceChunks.Proofs.Text.Thinning

/-!
# Classes without their last methods

The outline of a class is the source between its methods (`BodyCut.stretches`) with a fragment
for each method that has a body.  Pruning takes out fragments from the last one on, where it
finds them.

* `Arena.classOutline_stops`: each removal finds its fragment, not before the method's own place,
  and leaves what is before that; the loop stops at the first outline that fits.
* `Arena.pruneOutline_leaves`: what it leaves is the outline without its last methods, if none of
  these stands a second time behind itself.
* `Arena.not_whole_of_quoted`: if one does, in a string, it is taken out there, and the method
  stays.
-/

namespace SourceChunks

namespace BodyCut

/-- The source between the methods whose bodies are replaced, and before the first and after the
last. -/
def stretches (source : Bytes) (stop : Nat) : Nat → List BodyCut → List Bytes
  | start, [] => [source.slice start stop]
  | start, cut :: later =>
    source.slice start cut.methodStart :: stretches source stop cut.bodyStop later

theorem length_stretches (source : Bytes) (stop start : Nat) (cuts : List BodyCut) :
    (stretches source stop start cuts).length = cuts.length + 1 := by
  induction cuts generalizing start with
  | nil => rfl
  | cons cut later ih => rw [stretches, List.length_cons, ih, List.length_cons]

/-- **The outline is its fragments** with the source around them. -/
theorem substituted_eq_filled_stretches {source : Bytes} {low high : Nat} {cuts : List BodyCut}
    (h : InOrder high low cuts) {start : Nat} (hstart : start ≤ low) :
    substituted source high start cuts =
      filled (stretches source high start cuts) (cuts.map (fragment source)) := by
  induction cuts generalizing low start with
  | nil => exact (List.append_nil _).symm
  | cons cut later ih =>
    obtain ⟨hmethod, hbody, -, hlater⟩ := h
    rw [substituted, ih hlater (Nat.le_refl _), stretches, List.map_cons, filled, fragment,
      ← source.slice_append_slice (hstart.trans hmethod) hbody]
    simp only [List.append_assoc]

/-- If there is something of the class before its first method, the outline begins with it. -/
theorem exists_first_stretch {source : Bytes} {low high : Nat} {cuts : List BodyCut}
    (h : InOrder high low cuts) (hhigh : high ≤ source.length) (hne : cuts ≠ []) {start : Nat}
    (hstart : ∀ cut ∈ cuts, start < cut.methodStart) (stop : Nat) :
    ∃ first later, stretches source stop start cuts = first :: later ∧ first ≠ [] := by
  cases cuts with
  | nil => exact absurd rfl hne
  | cons cut later =>
    obtain ⟨-, hbody, hstop, hlater⟩ := h
    have hend := hlater.le
    have hbefore := hstart cut List.mem_cons_self
    refine ⟨_, _, rfl, List.ne_nil_of_length_pos ?_⟩
    rw [Bytes.length_slice]
    omega

end BodyCut

/-- Tidied and stripped, an outline is not longer than what was asked about. -/
theorem length_strip_tidyOutline_le (code : Bytes) (pruned : Bool) :
    (Text.strip (tidyOutline code pruned)).length ≤ (outlineText code).length := by
  cases pruned with
  | false => exact Nat.le_refl _
  | true => exact Text.length_strip_removeBlankRuns_le _

namespace Arena

/-- A class with the methods that its outline finds.  A class without a body has none; in a body
they lie as in a parse. -/
inductive ClassWith (arena : Arena) (profile : Profile) (node : Node) : List Method → Prop
  | bodiless (unfound : arena.Finds (profile.types .classBodies) node.children none) :
      ClassWith arena profile node []
  | ofBody {body : Node} {methods : List Method}
      (found : arena.HasMethods profile node body methods)
      (nested : Nested arena.source node body methods) : ClassWith arena profile node methods

namespace ClassWith

variable {arena : Arena} {profile : Profile} {node : Node} {methods : List Method}

theorem bodyCuts_eq (h : arena.ClassWith profile node methods) :
    arena.bodyCuts profile node = .ok (methods.filterMap (·.cut? profile)) := by
  cases h with
  | bodiless hnone =>
    simp only [bodyCuts, bind, Except.bind, firstOfType_of_finds_none hnone]
    rfl
  | ofBody hmethods => exact bodyCuts_of_hasMethods hmethods

theorem outlineWith_eq (h : arena.ClassWith profile node methods) :
    let cuts := methods.filterMap (·.cut? profile)
    let stretches := BodyCut.stretches arena.source node.span.stopByte node.span.startByte cuts
    let fragments := cuts.map (BodyCut.fragment arena.source)
    arena.outlineWith node cuts = ⟨filled stretches fragments, fragments⟩ := by
  intro cuts stretches fragments
  cases h with
  | bodiless =>
    exact congrArg (ClassOutline.mk · []) (List.append_nil _).symm
  | ofBody hmethods hnested =>
    have horder := hnested.inOrder profile
    rw [outlineWith_eq_of_inOrder horder, BodyCut.substituted_eq_filled_stretches
      (horder.widen (Nat.min_le_left _ _)) (Nat.le_refl _)]

theorem interleaves (h : arena.ClassWith profile node methods)
    (hfirst : ∀ method ∈ methods, node.span.startByte < method.node.span.startByte) :
    let cuts := methods.filterMap (·.cut? profile)
    (arena.outlineWith node cuts).Interleaves
      (BodyCut.stretches arena.source node.span.stopByte node.span.startByte cuts) := by
  intro cuts
  have houtline := h.outlineWith_eq
  have hfragments : (arena.outlineWith node cuts).fragments =
      cuts.map (BodyCut.fragment arena.source) := congrArg ClassOutline.fragments houtline
  refine ⟨?_, ?_, fun hne => ?_⟩
  · rw [hfragments, BodyCut.length_stretches, List.length_map]
  · rw [hfragments]
    exact congrArg ClassOutline.code houtline
  · rw [hfragments] at hne
    cases h with
    | bodiless => exact absurd rfl hne
    | ofBody hmethods hnested =>
      have hcuts : cuts ≠ [] := fun hnil => hne (congrArg _ hnil)
      refine BodyCut.exists_first_stretch (hnested.inOrder profile) (Nat.min_le_right _ _) hcuts
        (fun cut hcut => ?_) _
      obtain ⟨method, hmethod, hbody⟩ := List.mem_filterMap.1 hcut
      obtain ⟨body, -, rfl⟩ := Option.map_eq_some_iff.1 hbody
      exact hfirst method hmethod

/-- The outline of the class is what the loop leaves of it, tidied. -/
theorem yields_classOutline {index : Nat} (found : arena.nodes[index]? = some node)
    (h : arena.ClassWith profile node methods) (cost : String → Int) (budget : Int) :
    let outline := arena.outlineWith node (methods.filterMap (·.cut? profile))
    let count := outline.removals cost budget
    Producer.Yields cost (arena.classOutline profile budget index) (outline.asked cost budget)
      (tidyOutline (outline.pruned count) (decide (0 < count))) := by
  intro outline count
  rw [classOutline, node_eq_ok_iff.2 found, Producer.ofExcept, Producer.done_bind, h.bodyCuts_eq,
    Producer.ofExcept, Producer.done_bind, ← List.append_nil (outline.asked cost budget)]
  exact (outline.yields_prune cost budget).bind (.done _)

end ClassWith

variable {arena : Arena} {profile : Profile} {index : Nat} {node : Node} {methods : List Method}

/-- **Pruning goes on from the end and stops in time.**  A class whose first method is not at
its very start consists of fragments with the source around them.  Each removal takes out the last
fragment that is left, where it stands or further on, and nothing before that.  Removals go on
until what is left fits, or no fragment is left; so a greater budget makes for no more of them.
With characters counted, the text fits unless all fragments had to go. -/
theorem classOutline_stops [EncodingSource] (found : arena.nodes[index]? = some node)
    (hclass : arena.ClassWith profile node methods)
    (hfirst : ∀ method ∈ methods, node.span.startByte < method.node.span.startByte) :
    let cuts := methods.filterMap (·.cut? profile)
    let stretches := BodyCut.stretches arena.source node.span.stopByte node.span.startByte cuts
    let fragments := cuts.map (BodyCut.fragment arena.source)
    let outline := arena.outlineWith node cuts
    outline = ⟨filled stretches fragments, fragments⟩ ∧
      (∀ kept count fragment, fragments[kept]? = some fragment →
        kept + 1 + count = fragments.length →
          TakesOut fragment (leading stretches fragments kept) (outline.pruned count)
            (outline.pruned (count + 1))) ∧
      (∀ cost budget,
        let count := outline.removals cost budget
        outline.StopsAt cost budget count ∧
          ((pruneOutline budget outline.fragments.reverse outline.code).run none
            (CostFunction.mk cost)).ending = .done (outline.pruned count, decide (0 < count)) ∧
          (arena.classOutline profile budget index).run none (CostFunction.mk cost) =
            ⟨outline.asked cost budget,
              .done (tidyOutline (outline.pruned count) (decide (0 < count))), ⟨cost⟩⟩ ∧
          ∀ budget', budget ≤ budget' → outline.removals cost budget' ≤ count) ∧
      ∀ budget,
        let count := outline.removals (fun text => text.length) budget
        let text := tidyOutline (outline.pruned count) (decide (0 < count))
        ((arena.classOutline profile budget index).run none Calculator.characters).ending =
            .done text ∧
          (count < fragments.length → ((Text.strip text).length : Int) ≤ budget) := by
  intro cuts stretches fragments outline
  have hinterleaves : outline.Interleaves stretches := hclass.interleaves hfirst
  have hfragments : outline.fragments = fragments :=
    congrArg ClassOutline.fragments hclass.outlineWith_eq
  have hstops := outline.stopsAt_removals
  refine ⟨hclass.outlineWith_eq, fun kept count fragment => ?_, fun cost budget => ?_,
    fun budget => ?_⟩
  · rw [← hfragments]
    exact ClassOutline.takesOut_pruned hinterleaves
  · refine ⟨hstops cost budget, ?_, ?_, fun budget' => (hstops cost budget).antitone
      (hstops cost budget')⟩
    · exact congrArg Trace.ending (outline.yields_prune cost budget).run_eq
    · exact (hclass.yields_classOutline found cost budget).run_eq
  · intro count text
    have hcosts : Calculator.characters.costs = .ok fun text => (text.length : Int) := rfl
    have hrun := (hclass.yields_classOutline found (fun text => text.length) budget).run_eq
    refine ⟨?_, fun hlt => ?_⟩
    · exact (Calculator.run_of_costs hcosts _ none).2.trans (congrArg Trace.ending hrun)
    · rw [← hfragments] at hlt
      have hfits := (hstops _ budget).fits hlt
      have htidy := length_strip_tidyOutline_le (outline.pruned count) (decide (0 < count))
      exact Int.le_trans (Int.ofNat_le.2 htidy) hfits

/-- The types of a class, its methods and their bodies in one grammar. -/
def pythonProfile : Profile := .ofTypes "python" fun
  | .classes => ["class_definition"]
  | .classBodies | .functionBodies => ["block"]
  | .functionDeclarations => ["function_definition"]
  | _ => []

/-- A class with two methods that have one outline. -/
def repeatedArena : Arena where
  source := Utf8.encode "class A:\n def f(): 0\n def f(): 1"
  nodes := #[bareNode "class_definition" 0 32 [1, 2], bareNode "identifier" 6 7 [],
    bareNode "block" 10 32 [3, 4], bareNode "function_definition" 10 20 [5],
    bareNode "function_definition" 22 32 [6], bareNode "block" 19 20 [],
    bareNode "block" 31 32 []]
  root_lt := by decide

/-- Its methods. -/
def repeatedMethods : List Method :=
  [⟨3, bareNode "function_definition" 10 20 [5], some (bareNode "block" 19 20 [])⟩,
    ⟨4, bareNode "function_definition" 22 32 [6], some (bareNode "block" 31 32 [])⟩]

theorem repeatedArena_classWith :
    repeatedArena.ClassWith pythonProfile (bareNode "class_definition" 0 32 [1, 2])
      repeatedMethods := by
  refine .ofBody (⟨⟨[1], 2, [], rfl, ?_, rfl, by decide⟩,
    ⟨[(3, bareNode "function_definition" 10 20 [5]), (4, bareNode "function_definition" 22 32 [6])],
      rfl, by decide, by decide⟩, ?_⟩ :
      repeatedArena.HasMethods pythonProfile _ (bareNode "block" 10 32 [3, 4]) repeatedMethods)
    ⟨by decide, by decide, by decide, ?_⟩
  · simp only [List.mem_singleton, forall_eq]
    exact ⟨bareNode "identifier" 6 7 [], rfl, by decide⟩
  · simp only [repeatedMethods, List.forall_mem_cons]
    exact ⟨⟨[], 5, [], rfl, by simp, rfl, by decide⟩, ⟨[], 6, [], rfl, by simp, rfl, by decide⟩,
      by simp⟩
  · simp only [repeatedMethods, List.forall_mem_cons]
    refine ⟨?_, ?_, by simp⟩
    · rintro inner ⟨⟩
      decide
    · rintro inner ⟨⟩
      decide

/-- One of the methods has to go for the class to fit. -/
theorem repeatedArena_stops :
    let _ : EncodingSource := .byteGroups
    let node := bareNode "class_definition" 0 32 [1, 2]
    let outline := repeatedArena.outlineWith node (repeatedMethods.filterMap (·.cut? pythonProfile))
    repeatedArena.nodes[0]? = some node ∧
      repeatedArena.ClassWith pythonProfile node repeatedMethods ∧
      (∀ method ∈ repeatedMethods, node.span.startByte < method.node.span.startByte) ∧
      outline.removals (fun text => text.length) 30 = 1 ∧
      TakesOut (Utf8.encode "def f(): ...") (Utf8.encode "class A:\n def f(): ...\n ")
        (outline.pruned 0) (outline.pruned 1) ∧
      ((repeatedArena.classOutline pythonProfile 30 0).run none Calculator.characters).ending =
        .done "class A:\n def f(): ...\n " ∧
      ((Text.strip "class A:\n def f(): ...\n ").length : Int) ≤ 30 := by
  intro _ node outline
  have found : repeatedArena.nodes[0]? = some node := rfl
  have hfirst : ∀ method ∈ repeatedMethods, node.span.startByte < method.node.span.startByte := by
    decide
  obtain ⟨-, hout, -, hdone⟩ := classOutline_stops found repeatedArena_classWith hfirst
  have hcount : outline.removals (fun text => text.length) 30 = 1 := by decide +kernel
  have htext : tidyOutline (outline.pruned (outline.removals (fun text => text.length) 30))
      (decide (0 < outline.removals (fun text => text.length) 30)) =
        "class A:\n def f(): ...\n " := by
    rw [hcount]
    decide +kernel
  obtain ⟨hended, hfits⟩ := hdone 30
  have hlt : outline.removals (fun text => text.length) 30 < 2 := hcount ▸ Nat.one_lt_two
  refine ⟨found, repeatedArena_classWith, hfirst, hcount, hout 1 0 _ (by decide) (by decide),
    hended.trans (congrArg _ htext), ?_⟩
  rw [← htext]
  exact hfits hlt

/-- **What pruning leaves** of such a class is as long as the outline without its last methods,
and the same up to the first of these.  It is just that outline if the text of none of them
stands a second time in what is behind it, the later methods left out. -/
theorem pruneOutline_leaves (hclass : arena.ClassWith profile node methods)
    (hfirst : ∀ method ∈ methods, node.span.startByte < method.node.span.startByte)
    (cost : String → Int) (budget : Int) :
    let cuts := methods.filterMap (·.cut? profile)
    let stretches := BodyCut.stretches arena.source node.span.stopByte node.span.startByte cuts
    let fragments := cuts.map (BodyCut.fragment arena.source)
    let outline := arena.outlineWith node cuts
    let gone := outline.removals cost budget
    let kept := fragments.length - gone
    outline = ⟨filled stretches fragments, fragments⟩ ∧ gone ≤ fragments.length ∧
      ((pruneOutline budget outline.fragments.reverse outline.code).run none
        (CostFunction.mk cost)).ending = .done (outline.pruned gone, decide (0 < gone)) ∧
      (∃ rest, outline.pruned gone = leading stretches fragments kept ++ rest ∧
        rest.length = (stretches.drop (kept + 1)).flatten.length) ∧
      ((∀ place fragment, kept ≤ place → fragments[place]? = some fragment →
        Bytes.lastIndexOf? fragment (fragment ++ (stretches.drop (place + 1)).flatten) = some 0) →
          outline.pruned gone = filled stretches (fragments.take kept)) := by
  intro cuts stretches fragments outline gone kept
  have hinterleaves : outline.Interleaves stretches := hclass.interleaves hfirst
  have hfragments : outline.fragments = fragments :=
    congrArg ClassOutline.fragments hclass.outlineWith_eq
  have hle : gone ≤ outline.fragments.length := (outline.stopsAt_removals cost budget).le
  have hcount : kept + gone = outline.fragments.length := by
    rw [hfragments] at hle ⊢
    exact Nat.sub_add_cancel hle
  refine ⟨hclass.outlineWith_eq, hfragments ▸ hle,
    congrArg Trace.ending (outline.yields_prune cost budget).run_eq, ?_, ?_⟩
  · rw [← hfragments]
    exact ClassOutline.exists_pruned_eq hinterleaves hcount
  · rw [← hfragments]
    exact ClassOutline.pruned_eq_filled hinterleaves hcount

/-- The second method is found at its own place, since nothing is behind it. -/
theorem repeatedArena_leaves :
    let node := bareNode "class_definition" 0 32 [1, 2]
    let outline := repeatedArena.outlineWith node (repeatedMethods.filterMap (·.cut? pythonProfile))
    repeatedArena.ClassWith pythonProfile node repeatedMethods ∧
      (∀ method ∈ repeatedMethods, node.span.startByte < method.node.span.startByte) ∧
      outline.removals (fun text => text.length) 30 = 1 ∧
      outline.pruned (outline.removals (fun text => text.length) 30) =
        filled [Utf8.encode "class A:\n ", Utf8.encode "\n ", []] [Utf8.encode "def f(): ..."] := by
  intro node outline
  have hfirst : ∀ method ∈ repeatedMethods, node.span.startByte < method.node.span.startByte := by
    decide
  have hcount : outline.removals (fun text => text.length) 30 = 1 := by decide +kernel
  have hown : ∀ place < 2, ∀ fragment ∈ outline.fragments[place]?,
      Bytes.lastIndexOf? fragment (fragment ++ ([Utf8.encode "class A:\n ", Utf8.encode "\n ",
        []].drop (place + 1)).flatten) = some 0 := by
    decide +kernel
  obtain ⟨-, -, -, -, hleft⟩ :=
    pruneOutline_leaves repeatedArena_classWith hfirst (fun text => text.length) 30
  refine ⟨repeatedArena_classWith, hfirst, hcount,
    (hleft fun place fragment _ hfragment => ?_).trans ?_⟩
  · exact hown place (List.getElem?_eq_some_iff.1 hfragment).1 fragment hfragment
  · decide +kernel

/-- A class with a method, and a field that quotes what an outline has of the method. -/
def quotedArena : Arena where
  source := Utf8.encode "class A:\n def f(): return 1\n s = 'def f(): ...'"
  nodes := #[bareNode "class_definition" 0 47 [1, 2], bareNode "identifier" 6 7 [],
    bareNode "block" 10 47 [3, 4], bareNode "function_definition" 10 27 [5],
    bareNode "expression_statement" 29 47 [], bareNode "block" 19 27 []]
  root_lt := by decide

/-- Its only method. -/
def quotedMethods : List Method :=
  [⟨3, bareNode "function_definition" 10 27 [5], some (bareNode "block" 19 27 [])⟩]

theorem quotedArena_classWith :
    quotedArena.ClassWith pythonProfile (bareNode "class_definition" 0 47 [1, 2])
      quotedMethods := by
  refine .ofBody (⟨⟨[1], 2, [], rfl, ?_, rfl, by decide⟩,
    ⟨[(3, bareNode "function_definition" 10 27 [5]), (4, bareNode "expression_statement" 29 47 [])],
      rfl, by decide, by decide⟩, ?_⟩ :
      quotedArena.HasMethods pythonProfile _ (bareNode "block" 10 47 [3, 4]) quotedMethods)
    ⟨by decide, by decide, by decide, ?_⟩
  · simp only [List.mem_singleton, forall_eq]
    exact ⟨bareNode "identifier" 6 7 [], rfl, by decide⟩
  · simp only [quotedMethods, List.forall_mem_singleton]
    exact ⟨[], 5, [], rfl, by simp, rfl, by decide⟩
  · simp only [quotedMethods, List.forall_mem_singleton]
    rintro inner ⟨⟩
    decide

/-- **Another text may go** than the method's: here the string behind it loses its contents, and
the class keeps its only method. -/
theorem not_whole_of_quoted :
    ¬ ∀ (arena : Arena) (profile : Profile) (node : Node) (methods : List Method),
      arena.ClassWith profile node methods →
      (∀ method ∈ methods, node.span.startByte < method.node.span.startByte) →
      ∀ (cost : String → Int) (budget : Int),
        let cuts := methods.filterMap (·.cut? profile)
        let stretches := BodyCut.stretches arena.source node.span.stopByte node.span.startByte cuts
        let fragments := cuts.map (BodyCut.fragment arena.source)
        let outline := arena.outlineWith node cuts
        ∃ gone ≤ fragments.length, ∃ pruned,
          ((pruneOutline budget outline.fragments.reverse outline.code).run none
            (CostFunction.mk cost)).ending =
              .done (filled stretches (fragments.take (fragments.length - gone)), pruned) := by
  intro hall
  obtain ⟨gone, hgone, pruned, hended⟩ := hall quotedArena pythonProfile
    (bareNode "class_definition" 0 47 [1, 2]) quotedMethods quotedArena_classWith (by decide)
    (fun text => text.length) 30
  have hcode : ((pruneOutline 30 [Utf8.encode "def f(): ..."]
      (Utf8.encode "class A:\n def f(): ...\n s = 'def f(): ...'")).run none
        (CostFunction.mk fun text => text.length)).ending =
      .done (Utf8.encode "class A:\n def f(): ...\n s = ''", true) := by
    decide +kernel
  have hleft := (Prod.mk.inj (Ending.done.inj (hcode.symm.trans hended))).1
  match gone, hgone with
  | 0, _ => exact absurd hleft (by decide +kernel)
  | 1, _ => exact absurd hleft (by decide +kernel)

end Arena

end SourceChunks
