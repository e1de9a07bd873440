import SourceChunks.Proofs.Arena.LaidOut
import SourceChunks.Proofs.Text.WellFormed

/-!
# The outline of a class, byte by byte

Where an arena stores a tree, outlines can be told from the tree.  Here the arena is any: of a
class are known the nodes that its outline finds (`Arena.HasMethods`), and how their spans lie in
one another (`Arena.Nested`).

* `bodyCuts_of_hasMethods`: the bodies that are replaced are those of the methods that have one,
  in order.
* `substituted_eq_filled`, `flatten_gaps`: what comes out is placeholders with gaps between them,
  and the gaps are the bytes of the class that lie in no body.
* `classOutline_spliced`: so the outline is pruned from exactly that, and is that if it fits.

The class may reach past the end of the source, where there is nothing to cut; only the bodies
have to lie inside it (`substituted_min`).
-/

namespace SourceChunks

/-! ## Places in a byte string -/

namespace Bytes

/-- The bytes between two offsets that stand at places of some sort. -/
def kept (bytes : Bytes) (keep : Nat → Bool) (start stop : Nat) : Bytes :=
  ((List.range' start (stop - start)).filter keep).filterMap (bytes[·]?)

theorem kept_append_kept (bytes : Bytes) (keep : Nat → Bool) {start middle stop : Nat}
    (h : start ≤ middle) (h' : middle ≤ stop) :
    bytes.kept keep start middle ++ bytes.kept keep middle stop = bytes.kept keep start stop := by
  have hlength : stop - start = (middle - start) + (stop - middle) := by omega
  have hmiddle : start + (middle - start) = middle := by omega
  rw [kept, kept, kept, hlength, ← List.range'_append_1, hmiddle, List.filter_append,
    List.filterMap_append]

theorem kept_congr (bytes : Bytes) {keep keep' : Nat → Bool} {start stop : Nat}
    (h : ∀ place, start ≤ place → place < stop → keep place = keep' place) :
    bytes.kept keep start stop = bytes.kept keep' start stop := by
  rw [kept, kept]
  refine congrArg _ (List.filter_congr fun place hplace => ?_)
  rw [List.mem_range'_1] at hplace
  exact h place hplace.1 (by omega)

theorem filterMap_range' (bytes : Bytes) (start length : Nat) :
    (List.range' start length).filterMap (bytes[·]?) = (bytes.drop start).take length := by
  induction length generalizing start with
  | zero => rfl
  | succ length ih =>
    rw [List.range'_succ, List.filterMap_cons]
    by_cases hlt : start < bytes.length
    · rw [List.getElem?_eq_getElem hlt, ih, List.drop_eq_getElem_cons hlt, List.take_succ_cons]
    · rw [List.getElem?_eq_none (by omega), ih, List.drop_eq_nil_of_le (by omega),
        List.drop_eq_nil_of_le (by omega), List.take_nil, List.take_nil]

/-- All the bytes between two offsets are the slice between them. -/
theorem kept_all (bytes : Bytes) {keep : Nat → Bool} {start stop : Nat}
    (h : ∀ place, start ≤ place → place < stop → keep place = true) :
    bytes.kept keep start stop = bytes.slice start stop := by
  rw [bytes.kept_congr h, kept, List.filter_true, filterMap_range', slice,
    List.drop_take]

theorem kept_none (bytes : Bytes) {keep : Nat → Bool} {start stop : Nat}
    (h : ∀ place, start ≤ place → place < stop → keep place = false) :
    bytes.kept keep start stop = [] := by
  rw [bytes.kept_congr h, kept, List.filter_false, List.filterMap_nil]

end Bytes

/-! ## Gaps and placeholders -/

/-- Gaps with one filling after each, as long as there are fillings. -/
def filled : List Bytes → List Bytes → Bytes
  | gap :: gaps, filling :: fillings => gap ++ filling ++ filled gaps fillings
  | gaps, [] => gaps.flatten
  | [], _ => []

namespace BodyCut

/-- Does the place lie in no body? -/
def outside (cuts : List BodyCut) (place : Nat) : Bool :=
  cuts.all fun cut => place < cut.bodyStart || cut.bodyStop ≤ place

/-- What is between the bodies, and before the first and after the last. -/
def gaps (source : Bytes) (stop : Nat) : Nat → List BodyCut → List Bytes
  | start, [] => [source.slice start stop]
  | start, cut :: later => source.slice start cut.bodyStart :: gaps source stop cut.bodyStop later

variable {source : Bytes} {low high : Nat} {cuts : List BodyCut}

theorem substituted_eq_filled (source : Bytes) (stop start : Nat) (cuts : List BodyCut) :
    substituted source stop start cuts =
      filled (gaps source stop start cuts) (cuts.map (·.placeholder)) := by
  induction cuts generalizing start with
  | nil => exact (List.append_nil _).symm
  | cons cut later ih => rw [substituted, ih, gaps, List.map_cons, filled]

/-- Before the first method there is no body. -/
theorem InOrder.outside_of_lt (h : InOrder high low cuts) {place : Nat} (hlt : place < low) :
    outside cuts place = true := by
  induction cuts generalizing low with
  | nil => rfl
  | cons cut later ih =>
    obtain ⟨hmethod, hbody, hstop, hlater⟩ := h
    have hbefore : place < cut.bodyStart := by omega
    rw [outside, List.all_cons, decide_eq_true hbefore, Bool.true_or, Bool.true_and]
    exact ih hlater (by omega)

/-- **The gaps are what lies in no body.** -/
theorem flatten_gaps (h : InOrder high low cuts) {start : Nat} (hstart : start ≤ low) :
    (gaps source high start cuts).flatten = source.kept (outside cuts) start high := by
  -- the first gap begins where the body before ended, which need not be where a method starts
  induction cuts generalizing low start with
  | nil => exact (List.append_nil _).trans (source.kept_all fun place _ _ => rfl).symm
  | cons cut later ih =>
    obtain ⟨hmethod, hbody, hstop, hlater⟩ := h
    have hbefore : start ≤ cut.bodyStart := by omega
    have hrest := hlater.le
    have hgap : source.kept (outside (cut :: later)) start cut.bodyStart =
        source.slice start cut.bodyStart := by
      refine source.kept_all fun place _ hplace => ?_
      rw [outside, List.all_cons, decide_eq_true hplace, Bool.true_or, Bool.true_and]
      exact hlater.outside_of_lt (by omega)
    have hcut : source.kept (outside (cut :: later)) cut.bodyStart cut.bodyStop = [] := by
      refine source.kept_none fun place hfrom hto => ?_
      rw [outside, List.all_cons, decide_eq_false (by omega), decide_eq_false (by omega)]
      rfl
    have hafter : source.kept (outside (cut :: later)) cut.bodyStop high =
        source.kept (outside later) cut.bodyStop high := by
      refine source.kept_congr fun place hfrom _ => ?_
      rw [outside, List.all_cons, decide_eq_true hfrom, Bool.or_true, Bool.true_and]
      rfl
    rw [gaps, List.flatten_cons, ih hlater (Nat.le_refl _), ← hgap, ← hafter,
      ← source.kept_append_kept _ hbefore (hstop.trans hrest),
      ← source.kept_append_kept _ hstop hrest, hcut, List.nil_append]

end BodyCut

/-! ## What an outline finds -/

/-- A method of a class: its number and its node, and the node of its body, if it has one. -/
structure Method where
  index : Nat
  node : Node
  body? : Option Node

/-- What an outline replaces of a method. -/
def Method.cut? (profile : Profile) (method : Method) : Option BodyCut :=
  method.body?.map fun body => {
    methodStart := method.node.span.startByte
    bodyStart := body.span.startByte
    bodyStop := body.span.stopByte
    placeholder := profile.placeholder body.type }

namespace Arena

variable {arena : Arena} {profile : Profile} {types : List String} {indices : List Nat}

/-- The number is that of a node of another type. -/
def IsOther (arena : Arena) (types : List String) (index : Nat) : Prop :=
  ∃ node, arena.nodes[index]? = some node ∧ node.type ∉ types

/-- The first node of some numbers that has one of the types, or none if there is none. -/
def Finds (arena : Arena) (types : List String) (indices : List Nat) : Option Node → Prop
  | none => ∀ index ∈ indices, arena.IsOther types index
  | some node => ∃ before index after, indices = before ++ index :: after ∧
      (∀ earlier ∈ before, arena.IsOther types earlier) ∧
        arena.nodes[index]? = some node ∧ node.type ∈ types

/-- The body of a class is the first child of its node that can hold methods; the methods are
the members of the body that count as such, and their bodies are found in the same way. -/
structure HasMethods (arena : Arena) (profile : Profile) (node body : Node)
    (methods : List Method) : Prop where
  found : arena.Finds (profile.types .classBodies) node.children (some body)
  members : ∃ members : List (Nat × Node), body.children = members.map Prod.fst ∧
    (∀ member ∈ members, arena.nodes[member.1]? = some member.2) ∧
      methods.map (fun method => (method.index, method.node)) =
        members.filter fun member => profile.plays .functionDeclarations member.2.type
  bodies : ∀ method ∈ methods,
    arena.Finds (profile.types .functionBodies) method.node.children method.body?

theorem firstOfType_append {before after : List Nat}
    (h : ∀ earlier ∈ before, arena.IsOther types earlier) :
    arena.firstOfType types (before ++ after) = arena.firstOfType types after := by
  induction before with
  | nil => rfl
  | cons index rest ih =>
    obtain ⟨node, found, hother⟩ := h index List.mem_cons_self
    rw [List.cons_append, firstOfType, node_eq_ok_iff.2 found]
    simp only [bind, Except.bind, List.contains_iff_mem, hother, if_false]
    exact ih fun earlier hearlier => h earlier (List.mem_cons_of_mem _ hearlier)

theorem firstOfType_of_finds_none (h : arena.Finds types indices none) :
    arena.firstOfType types indices = .ok none := by
  have hall : arena.firstOfType types (indices ++ []) = .ok none := firstOfType_append h
  rw [List.append_nil] at hall
  exact hall

theorem firstOfType_of_finds_some {node : Node} (h : arena.Finds types indices (some node)) :
    ∃ index, arena.firstOfType types indices = .ok (some index) ∧
      arena.node index = .ok node := by
  obtain ⟨before, index, after, rfl, hbefore, found, htype⟩ := h
  refine ⟨index, ?_, node_eq_ok_iff.2 found⟩
  rw [firstOfType_append hbefore, firstOfType, node_eq_ok_iff.2 found]
  simp only [bind, Except.bind, List.contains_iff_mem, htype, if_true]
  rfl

theorem bodyCut?_of_finds {method : Method} (found : arena.nodes[method.index]? = some method.node)
    (h : arena.Finds (profile.types .functionBodies) method.node.children method.body?) :
    arena.bodyCut? profile method.index = .ok (method.cut? profile) := by
  rw [bodyCut?, node_eq_ok_iff.2 found, Method.cut?]
  cases hbody : method.body? with
  | none =>
    rw [hbody] at h
    simp only [bind, Except.bind, firstOfType_of_finds_none h]
    rfl
  | some body =>
    rw [hbody] at h
    obtain ⟨index, hfirst, hnode⟩ := firstOfType_of_finds_some h
    simp only [bind, Except.bind, hfirst, hnode]
    rfl

/-- **The bodies that are replaced** are those of the methods that have one. -/
theorem bodyCuts_of_hasMethods {node body : Node} {methods : List Method}
    (h : arena.HasMethods profile node body methods) :
    arena.bodyCuts profile node = .ok (methods.filterMap (·.cut? profile)) := by
  obtain ⟨bodyIndex, hfirst, hnode⟩ := firstOfType_of_finds_some h.found
  obtain ⟨members, hchildren, hfound, hmethods⟩ := h.members
  have hmembers : arena.methodsAmong profile body.children = .ok (methods.map (·.index)) := by
    rw [hchildren, methodsAmong_map fun member hmember => node_eq_ok_iff.2 (hfound member hmember),
      ← hmethods, List.map_map]
    rfl
  have hcuts : (methods.map (·.index)).mapM (arena.bodyCut? profile) =
      .ok (methods.map (·.cut? profile)) := by
    rw [List.mapM_map]
    refine mapM_eq_ok fun method hmethod => bodyCut?_of_finds ?_ (h.bodies method hmethod)
    have hmem : (method.index, method.node) ∈ members.filter fun member =>
        profile.plays .functionDeclarations member.2.type := by
      rw [← hmethods]
      exact List.mem_map_of_mem hmethod
    exact hfound _ (List.mem_of_mem_filter hmem)
  simp only [bodyCuts, bind, Except.bind, hfirst, hnode, hmembers, hcuts]
  rw [List.filterMap_map]
  rfl

/-! ## The outline -/

/-- The body of a class lies in the class and ends inside the source; its methods stand in it one
after the other, each with its own body inside. -/
structure Nested (source : Bytes) (node body : Node) (methods : List Method) : Prop where
  inside : node.span.Contains body.span
  stop : body.span.stopByte ≤ source.length
  ordered : Span.InOrder body.span.stopByte body.span.startByte (methods.map (·.node.span))
  bodies : ∀ method ∈ methods, ∀ inner, method.body? = some inner →
    method.node.span.Contains inner.span ∧ inner.span.startByte ≤ inner.span.stopByte

theorem Nested.inOrder {source : Bytes} {node body : Node} {methods : List Method}
    (h : Nested source node body methods) (profile : Profile) :
    BodyCut.InOrder (min node.span.stopByte source.length) node.span.startByte
      (methods.filterMap (·.cut? profile)) := by
  have horder : BodyCut.InOrder body.span.stopByte body.span.startByte
      (methods.filterMap (·.cut? profile)) := by
    refine BodyCut.inOrder_filterMap h.ordered fun method hmethod cut hcut => ?_
    obtain ⟨inner, hinner, rfl⟩ := Option.map_eq_some_iff.1 hcut
    obtain ⟨⟨hfirst, hlast⟩, hordered⟩ := h.bodies method hmethod inner hinner
    exact ⟨rfl, hfirst, hordered, hlast⟩
  exact (horder.mono h.inside.1).widen (Nat.le_min.2 ⟨h.inside.2, h.stop⟩)

end Arena

/-- What fits is not pruned. -/
theorem yields_pruneOutline_of_fits {cost : String → Int} {budget : Int} {code : Bytes}
    (h : cost (outlineText code) ≤ budget) (fragments : List Bytes) :
    ∃ events, Producer.Yields cost (pruneOutline budget fragments code) events (code, false) := by
  cases fragments with
  | nil => exact ⟨[], .done _⟩
  | cons fragment earlier =>
    have hcheap : ¬ cost (outlineText code) > budget := Int.not_lt.2 h
    refine ⟨_, (Producer.Yields.priced cost (outlineText code)).bind
      (?_ : Producer.Yields cost _ [] (code, false))⟩
    rw [if_neg hcheap]
    exact .done _

/-- **Replacing the bodies of a class.**  Where the nodes that an outline finds lie in one
another, it is pruned from the source of the class with placeholders in the places of the bodies
of its methods, and from the methods up to their bodies.  Between the placeholders are all the
bytes of the class that lie in no body.  If that fits, it is the outline. -/
theorem Arena.classOutline_spliced {arena : Arena} {profile : Profile} {index : Nat}
    {node body : Node} {methods : List Method} (found : arena.nodes[index]? = some node)
    (hmethods : arena.HasMethods profile node body methods)
    (hnested : Nested arena.source node body methods) (budget : Int) :
    let source := arena.source
    let cuts := methods.filterMap (·.cut? profile)
    let code := substituted source node.span.stopByte node.span.startByte cuts
    let fragments := cuts.map (BodyCut.fragment source)
    let gaps := BodyCut.gaps source node.span.stopByte node.span.startByte cuts
    arena.bodyCuts profile node = .ok cuts ∧ arena.outlineWith node cuts = ⟨code, fragments⟩ ∧
      code = filled gaps (cuts.map (·.placeholder)) ∧
      gaps.flatten =
        source.kept (BodyCut.outside cuts) node.span.startByte node.span.stopByte ∧
      arena.classOutline profile budget index = (do
        let (rest, pruned) ← pruneOutline budget fragments.reverse code
        return tidyOutline rest pruned) ∧
      ∀ cost : String → Int, cost (outlineText code) ≤ budget →
        ((arena.classOutline profile budget index).run none (CostFunction.mk cost)).ending =
          .done (Utf8.decode code) := by
  intro source cuts code fragments gaps
  have hcuts : arena.bodyCuts profile node = .ok cuts := bodyCuts_of_hasMethods hmethods
  have horder : BodyCut.InOrder (min node.span.stopByte source.length) node.span.startByte cuts :=
    hnested.inOrder profile
  have houtline : arena.outlineWith node cuts = ⟨code, fragments⟩ :=
    outlineWith_eq_of_inOrder horder
  have hpruned : arena.classOutline profile budget index = (do
      let (rest, pruned) ← pruneOutline budget fragments.reverse code
      return tidyOutline rest pruned) := by
    rw [classOutline, node_eq_ok_iff.2 found, Producer.ofExcept, Producer.done_bind, hcuts,
      Producer.ofExcept, Producer.done_bind, houtline]
  refine ⟨hcuts, houtline, BodyCut.substituted_eq_filled _ _ _ _, ?_, hpruned, fun cost hfits => ?_⟩
  · exact BodyCut.flatten_gaps (horder.widen (Nat.min_le_left _ _)) (Nat.le_refl _)
  · obtain ⟨events, hyields⟩ := yields_pruneOutline_of_fits hfits fragments.reverse
    have hrun : Producer.Yields cost (arena.classOutline profile budget index) (events ++ [])
        (tidyOutline code false) := by
      rw [hpruned]
      exact hyields.bind (.done _)
    exact congrArg Trace.ending hrun.run_eq

namespace Arena

/-- A profile of classes with methods. -/
def methodsProfile : Profile := .ofTypes "methods" fun
  | .classes => ["class"]
  | .classBodies => ["body"]
  | .functionDeclarations => ["method"]
  | .functionBodies => ["block"]
  | _ => []

/-- A node of that type and that range. -/
def bareNode (type : String) (startByte stopByte : Nat) (children : List Nat) : Node where
  element := ⟨.parsed type, ⟨startByte, stopByte, ⟨0, startByte⟩, ⟨0, stopByte⟩⟩⟩
  children := children

/-- A class with a body that is shorter than what replaces it, a field, a method without a body,
and a body that is longer. -/
def fieldArena : Arena where
  source := Utf8.encode "class A: f() 0; x; g(); h() return 1"
  nodes := #[bareNode "class" 0 36 [1, 2], bareNode "name" 6 7 [], bareNode "body" 9 36 [3, 4, 5, 6],
    bareNode "method" 9 14 [7], bareNode "field" 16 17 [], bareNode "method" 19 22 [],
    bareNode "method" 24 36 [8], bareNode "block" 13 14 [], bareNode "block" 28 36 []]
  root_lt := by decide

/-- Its methods. -/
def fieldMethods : List Method :=
  [⟨3, bareNode "method" 9 14 [7], some (bareNode "block" 13 14 [])⟩,
    ⟨5, bareNode "method" 19 22 [], none⟩,
    ⟨6, bareNode "method" 24 36 [8], some (bareNode "block" 28 36 [])⟩]

theorem fieldArena_spliced :
    fieldArena.nodes[0]? = some (bareNode "class" 0 36 [1, 2]) ∧
      fieldArena.HasMethods methodsProfile (bareNode "class" 0 36 [1, 2])
        (bareNode "body" 9 36 [3, 4, 5, 6]) fieldMethods ∧
      Nested fieldArena.source (bareNode "class" 0 36 [1, 2])
        (bareNode "body" 9 36 [3, 4, 5, 6]) fieldMethods ∧
      fieldArena.outlineWith (bareNode "class" 0 36 [1, 2])
          (fieldMethods.filterMap (·.cut? methodsProfile)) =
        ⟨Utf8.encode "class A: f() ...; x; g(); h() ...",
          [Utf8.encode "f() ...", Utf8.encode "h() ..."]⟩ ∧
      ((fieldArena.classOutline methodsProfile 40 0).run none (CostFunction.mk fun _ => 33)).ending =
        .done "class A: f() ...; x; g(); h() ..." := by
  have hmethods : fieldArena.HasMethods methodsProfile (bareNode "class" 0 36 [1, 2])
      (bareNode "body" 9 36 [3, 4, 5, 6]) fieldMethods := by
    refine ⟨⟨[1], 2, [], rfl, ?_, rfl, by decide⟩,
      ⟨[(3, bareNode "method" 9 14 [7]), (4, bareNode "field" 16 17 []),
        (5, bareNode "method" 19 22 []), (6, bareNode "method" 24 36 [8])], rfl, by decide,
        by decide⟩, ?_⟩
    · simp only [List.mem_singleton, forall_eq]
      exact ⟨bareNode "name" 6 7 [], rfl, by decide⟩
    · simp only [fieldMethods, List.forall_mem_cons]
      refine ⟨⟨[], 7, [], rfl, by simp, rfl, by decide⟩, ?_,
        ⟨[], 8, [], rfl, by simp, rfl, by decide⟩, by simp⟩
      exact fun index hindex => absurd hindex List.not_mem_nil
  have hnested : Nested fieldArena.source (bareNode "class" 0 36 [1, 2])
      (bareNode "body" 9 36 [3, 4, 5, 6]) fieldMethods := by
    refine ⟨by decide, by decide, by decide, ?_⟩
    simp only [fieldMethods, List.forall_mem_cons]
    refine ⟨?_, ?_, ?_, by simp⟩
    · rintro inner ⟨⟩
      decide
    · rintro inner ⟨⟩
    · rintro inner ⟨⟩
      decide
  have found : fieldArena.nodes[0]? = some (bareNode "class" 0 36 [1, 2]) := rfl
  obtain ⟨-, houtline, -, -, -, hdone⟩ := classOutline_spliced found hmethods hnested 40
  have hcode : substituted fieldArena.source 36 0 (fieldMethods.filterMap
      (·.cut? methodsProfile)) = Utf8.encode "class A: f() ...; x; g(); h() ..." := by decide
  refine ⟨found, hmethods, hnested, houtline.trans (by decide), ?_⟩
  refine (hdone (fun _ => 33) (by decide)).trans (congrArg _ ?_)
  exact (congrArg Utf8.decode hcode).trans (Utf8.decode_encode _)

end Arena

end SourceChunks
