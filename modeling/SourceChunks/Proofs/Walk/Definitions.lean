import Mathlib.Logic.Basic
import SourceChunks.Proofs.Arena.Layout
import SourceChunks.Proofs.Comment.Coalescing
import SourceChunks.Proofs.Walk.Account

/-!
# Every definition surfaces once

A definition that the walk comes to has one chunk of its own; one that it does not come to
lies in a node that was delivered whole.  Here that is said of all definitions of an arena
that was made from a parse, with its comments put together or not.

* `not_above_of_emittedWhole`: no node that is delivered whole lies in another.
* `surfacesItself`, `surfacesAbove`: a definition without a composite above it is of the one
  sort or of the other, as the walk comes to it or not.
* `run_definitionsSurface`: so every definition surfaces in exactly one of the two ways.

What matters of the profile is that a node is either a definition or a comment, if anything
(`Profile.Separate`): a comment that is also a function would wait in the buffer.
-/

namespace SourceChunks

/-- No type is that of both a comment and a definition, and composites are no definitions. -/
structure Profile.Separate (profile : Profile) : Prop where
  comments : ∀ type, profile.plays .comments type = true →
    profile.plays .classes type = false ∧ profile.plays .functions type = false
  composites : profile.plays .classes compositeType = false ∧
    profile.plays .functions compositeType = false

/-- The arena of a parse, with runs of comments of the given types put together, if types are
given. -/
def Arena.ofParseWith (source : Bytes) (parse : Tree Symbol) (types? : Option (List String)) :
    Except Failure Arena :=
  match types? with
  | none => .ok (.ofParse source parse)
  | some types => (Arena.ofParse source parse).coalesce types

/-- The arena of a parse can always be made, and is tidy. -/
theorem Arena.exists_ofParseWith (source : Bytes) (parse : Tree Symbol)
    (types? : Option (List String)) :
    ∃ arena tree, Arena.ofParseWith source parse types? = .ok arena ∧ arena.Tidy tree := by
  obtain ⟨tree, htidy, -⟩ := exists_tidy_ofTree source (parse.map Symbol.element)
  cases types? with
  | none => exact ⟨_, tree, rfl, htidy⟩
  | some types =>
    obtain ⟨copied, copy, hcoalesce, -, -, -, hcopy, -⟩ := exists_coalesce types htidy.hasTree
    exact ⟨copied, copy, hcoalesce, hcopy⟩

namespace ChunkWalk

variable (walk : ChunkWalk) (cost : String → Int)

/-- Is the node's type that of a class or of a function? -/
def IsDefinition (node : Node) : Prop :=
  walk.profile.plays .classes node.type = true ∨ walk.profile.plays .functions node.type = true

/-- A definition below the root that no composite comment contains. -/
structure IsOpenDefinition (entry : Nat × Node) : Prop where
  found : walk.arena.nodes[entry.1]? = some entry.2
  ne_root : entry.1 ≠ walk.arena.root
  isDefinition : walk.IsDefinition entry.2
  above : ∀ upper : Nat × Node, walk.arena.nodes[upper.1]? = some upper.2 →
    walk.arena.Above upper.1 entry.1 → upper.2.isComposite = false

/-- The definition has one chunk of its own, with its rows: its text if that costs less than
the budget, and else its outline.  No node above it is delivered whole. -/
structure SurfacesItself (stream : List Delivery) (entry : Nat × Node) : Prop where
  chunk : ∃ delivery content,
    stream.filter (fun other => other.node? = some entry) = [delivery] ∧
      delivery.chunk = nodeChunk entry.2 content ∧
      (cost (walk.arena.nodeText entry.2) < walk.budget →
        delivery.origin = .whole entry ∧ content = walk.arena.nodeText entry.2) ∧
      (¬ cost (walk.arena.nodeText entry.2) < walk.budget →
        delivery.origin = .outline entry ∧
          ∃ kind, walk.profile.definition? entry.2.type = some kind ∧
            ((walk.outline kind entry.1).run none (CostFunction.mk cost)).ending = .done content)
  above : ∀ upper : Nat × Node, walk.arena.Above upper.1 entry.1 → ¬ EmittedWhole stream upper

/-- The definition has no chunk of its own, and lies below one node that is delivered whole. -/
structure SurfacesAbove (stream : List Delivery) (entry : Nat × Node) : Prop where
  chunk : ∀ delivery ∈ stream, delivery.node? ≠ some entry
  above : ∃! upper : Nat × Node, EmittedWhole stream upper ∧ walk.arena.Above upper.1 entry.1

/-- Every definition surfaces once in a stream. -/
structure DefinitionsSurface (stream : List Delivery) : Prop where
  apart : ∀ upper lower, EmittedWhole stream upper → EmittedWhole stream lower →
    ¬ walk.arena.Above upper.1 lower.1
  once : ∀ entry, walk.IsOpenDefinition entry →
    Xor (walk.SurfacesItself cost stream entry) (walk.SurfacesAbove stream entry)
  /-- All chunks but those of comments are those of definitions, or of the root. -/
  owned : ∀ delivery ∈ stream, ∀ entry, delivery.node? = some entry →
    walk.arena.nodes[entry.1]? = some entry.2 ∧
      (entry.1 = walk.arena.root ∨ walk.IsOpenDefinition entry)

variable {walk cost} {tree : Tree (Nat × Node)} {entry : Nat × Node}

theorem isSome_definition?_iff {type : String} {profile : Profile} :
    (profile.definition? type).isSome = true ↔
      profile.plays .classes type = true ∨ profile.plays .functions type = true := by
  unfold Profile.definition?
  cases profile.plays .classes type <;> cases profile.plays .functions type <;> simp

/-- **No node that is delivered whole lies in another.**  The walk does not look below what it
delivers whole. -/
theorem not_above_of_emittedWhole (h : walk.arena.IsTree tree) {upper lower : Nat × Node}
    (hupper : EmittedWhole (walk.deliveries cost tree) upper)
    (hlower : EmittedWhole (walk.deliveries cost tree) lower) :
    ¬ walk.arena.Above upper.1 lower.1 := by
  intro habove
  have hmem := mem_toList_of_mem_reached (emittedWhole_iff.1 hupper).1
  exact (open_of_above_reached h (emittedWhole_iff.1 hlower).1 hmem habove).1 hupper

/-- A definition is no comment, where a profile keeps the two apart. -/
theorem IsOpenDefinition.isComment_eq (h : walk.IsOpenDefinition entry)
    (hseparate : walk.profile.Separate) : walk.isComment entry.2 = false := by
  have hcomposite : entry.2.isComposite = false := by
    by_contra hcomposite
    have htype : entry.2.type = compositeType := by
      unfold Node.isComposite Content.isComposite at hcomposite
      unfold Node.type Content.type
      split at hcomposite <;> simp_all
    have hdefinition := h.isDefinition
    rw [IsDefinition, htype, hseparate.composites.1, hseparate.composites.2] at hdefinition
    simp at hdefinition
  have hcomment : walk.profile.plays .comments entry.2.type = false := by
    by_contra hcomment
    obtain ⟨hclass, hfunction⟩ := hseparate.comments _ (Bool.not_eq_false _ ▸ hcomment)
    have hdefinition := h.isDefinition
    rw [IsDefinition, hclass, hfunction] at hdefinition
    simp at hdefinition
  rw [isComment, hcomposite, hcomment]
  rfl

/-- A definition is delivered whole if it fits. -/
theorem IsOpenDefinition.isWhole_eq (cost : String → Int) (h : walk.IsOpenDefinition entry) :
    walk.isWhole cost entry = decide (cost (walk.arena.nodeText entry.2) < walk.budget) := by
  rw [isWhole, isSome_definition?_iff.2 h.isDefinition, Bool.or_true, Bool.true_and]

/-- Of the chunks of nodes' own, the ones of a node that is come to once are one. -/
theorem filter_filterMap_own {entries : List (Nat × Node)} {own : Delivery}
    (hnodup : entries.Nodup) (hmem : entry ∈ entries)
    (hown : walk.ownDelivery? cost entry = some own) :
    (entries.filterMap (walk.ownDelivery? cost)).filter
      (fun other => other.node? = some entry) = [own] := by
  have hnone : ∀ others : List (Nat × Node), entry ∉ others →
      (others.filterMap (walk.ownDelivery? cost)).filter
        (fun other => other.node? = some entry) = [] := by
    intro others hout
    rw [List.filter_eq_nil_iff]
    intro delivery hdelivery hnode
    obtain ⟨other, hother, hown'⟩ := List.mem_filterMap.1 hdelivery
    have heq := (node?_of_own hown').symm.trans (of_decide_eq_true hnode)
    exact hout (Option.some.inj heq ▸ hother)
  obtain ⟨before, after, rfl⟩ := List.append_of_mem hmem
  rw [List.nodup_append, List.nodup_cons] at hnodup
  obtain ⟨-, ⟨hafter, -⟩, hapart⟩ := hnodup
  have hbefore : entry ∉ before := fun hin => hapart entry hin entry List.mem_cons_self rfl
  rw [List.filterMap_append, List.filterMap_cons, hown, List.filter_append, hnone before hbefore]
  simp [hnone after hafter, node?_of_own hown]

/-- A definition that the walk comes to has one chunk of its own. -/
theorem surfacesItself (h : walk.arena.Tidy tree) (hseparate : walk.profile.Separate)
    (hopen : walk.IsOpenDefinition entry) (hreached : entry ∈ walk.reached cost tree) :
    walk.SurfacesItself cost (walk.deliveries cost tree) entry := by
  have hfilter : ∀ own, walk.ownDelivery? cost entry = some own →
      (walk.deliveries cost tree).filter (fun other => other.node? = some entry) = [own] := by
    intro own hown
    obtain ⟨after, account, -⟩ := Account.deliveries walk cost tree
    have hnodup : (walk.reached cost tree).Nodup :=
      (walk.reached_sublist cost tree).nodup h.isTree.nodup_toList
    rw [← filter_filterMap_own hnodup hreached hown, ← account.own, List.filter_filter]
    refine List.filter_congr fun other _ => ?_
    cases hnode : other.node? <;> simp
  refine ⟨?_, fun upper habove hemitted => ?_⟩
  · have hwhole := hopen.isWhole_eq cost
    by_cases hfits : cost (walk.arena.nodeText entry.2) < walk.budget
    · rw [decide_eq_true hfits] at hwhole
      exact ⟨_, _, hfilter _ (ownDelivery?_of_whole hwhole), rfl, fun _ => ⟨rfl, rfl⟩,
        fun hnot => absurd hfits hnot⟩
    · rw [decide_eq_false hfits] at hwhole
      obtain ⟨kind, hkind⟩ := Option.isSome_iff_exists.1
        (isSome_definition?_iff.2 hopen.isDefinition)
      have hreach := h.hasTree.reaches_of_mem (mem_toList_of_mem_reached hreached)
      obtain ⟨asked, content, hcontent, -⟩ :=
        exists_outline cost h.hasTree.grounded h.isTree.parents hreach kind
      have hown : walk.ownDelivery? cost entry =
          some ⟨.outline entry, nodeChunk entry.2 content⟩ := by
        rw [ownDelivery?, if_neg (by simp [hwhole]),
          if_neg (by simp [hopen.isComment_eq hseparate]), hkind, Option.map_some, outlined,
          hcontent.run_eq]
        rfl
      refine ⟨_, content, hfilter _ hown, rfl, fun hfits' => absurd hfits' hfits, fun _ => ?_⟩
      exact ⟨rfl, kind, hkind, by rw [hcontent.run_eq]⟩
  · -- the walk does not come to what lies in a node that is delivered whole
    have hmem := mem_toList_of_mem_reached (emittedWhole_iff.1 hemitted).1
    exact (open_of_above_reached h.isTree hreached hmem habove).1 hemitted

/-- A definition that the walk does not come to lies in one node that is delivered whole. -/
theorem surfacesAbove (h : walk.arena.Tidy tree) (hopen : walk.IsOpenDefinition entry)
    (hreached : entry ∉ walk.reached cost tree) :
    walk.SurfacesAbove (walk.deliveries cost tree) entry := by
  have hentry : entry ∈ tree.toList := h.mem_of_found hopen.found
  refine ⟨fun delivery hmem hnode => ?_, ?_⟩
  · exact hreached ((mem_deliveries_iff_of_node? hnode).1 hmem).1
  · obtain ⟨upper, hupper, habove, hclosed⟩ : ∃ upper ∈ tree.toList,
        walk.arena.Above upper.1 entry.1 ∧ walk.isClosed cost upper = true := by
      by_contra hnone
      refine hreached (h.isTree.mem_visible_iff.2 ⟨hentry, fun upper hupper habove => ?_⟩)
      by_contra hclosed
      exact hnone ⟨upper, hupper, habove, Bool.not_eq_false _ ▸ hclosed⟩
    obtain ⟨outer, houter, hclosed, habove⟩ :=
      h.isTree.exists_closed_above hentry hupper habove hclosed
    have hmem : outer ∈ tree.toList := mem_toList_of_mem_reached houter
    have hcomposite := hopen.above outer (h.hasTree.found_of_mem hmem) habove
    rw [isClosed, hcomposite, Bool.or_false] at hclosed
    have hemitted := emittedWhole_iff.2 ⟨houter, hclosed⟩
    refine ⟨outer, ⟨hemitted, habove⟩, fun other hother => ?_⟩
    -- two such nodes would lie one in the other
    have hmem' := mem_toList_of_mem_reached (emittedWhole_iff.1 hother.1).1
    rcases h.isTree.above_or_above hentry hmem' hmem hother.2 habove with heq | hin | hin
    · exact heq
    · exact absurd hin (not_above_of_emittedWhole h.isTree hother.1 hemitted)
    · exact absurd hin (not_above_of_emittedWhole h.isTree hemitted hother.1)

/-- A node with a chunk of its own is the root or a definition without a composite above. -/
theorem owned_of_mem_deliveries (h : walk.arena.Tidy tree) {delivery : Delivery}
    (hmem : delivery ∈ walk.deliveries cost tree) (hnode : delivery.node? = some entry) :
    walk.arena.nodes[entry.1]? = some entry.2 ∧
      (entry.1 = walk.arena.root ∨ walk.IsOpenDefinition entry) := by
  obtain ⟨hreached, hown⟩ := (mem_deliveries_iff_of_node? hnode).1 hmem
  have found := h.hasTree.found_of_mem (mem_toList_of_mem_reached hreached)
  refine ⟨found, ?_⟩
  by_cases hroot : entry.1 = walk.arena.root
  · exact Or.inl hroot
  · refine Or.inr ⟨found, hroot, ?_, fun upper hupper habove => ?_⟩
    · refine isSome_definition?_iff.1 ?_
      rcases own_cases hown with ⟨hwhole, -⟩ | ⟨kind, -, -, hkind, -⟩
      · rw [isWhole, beq_eq_false_iff_ne.2 hroot, Bool.false_or, Bool.and_eq_true] at hwhole
        exact hwhole.1
      · rw [hkind]
        rfl
    · exact (open_of_above_reached h.isTree hreached (h.mem_of_found hupper) habove).2

/-- **Every definition surfaces once.**  For every parse, with comments put together or not,
every profile that keeps comments and definitions apart, every budget and all costs. -/
theorem run_definitionsSurface (source : Bytes) (parse : Tree Symbol)
    (types? : Option (List String)) (profile : Profile) (hseparate : profile.Separate)
    (budget : Int) (cost : String → Int) :
    ∃ arena tree, Arena.ofParseWith source parse types? = .ok arena ∧ arena.HasTree tree ∧
      let walk : ChunkWalk := ⟨arena, profile, budget⟩
      (walk.chunks.run none (CostFunction.mk cost)).ending = .done () ∧
        (walk.chunks.run none (CostFunction.mk cost)).chunks =
          (walk.deliveries cost tree).map (·.chunk) ∧
        walk.DefinitionsSurface cost (walk.deliveries cost tree) := by
  obtain ⟨arena, tree, harena, htidy⟩ := Arena.exists_ofParseWith source parse types?
  refine ⟨arena, tree, harena, htidy.hasTree, ?_⟩
  intro walk
  obtain ⟨hending, hchunks⟩ := walk.run_eq_deliveries cost htidy.isTree
  refine ⟨hending, hchunks, ?_, fun entry hopen => ?_, ?_⟩
  · intro upper lower hupper hlower
    exact not_above_of_emittedWhole htidy.isTree hupper hlower
  · by_cases hreached : entry ∈ walk.reached cost tree
    · have hitself := surfacesItself htidy hseparate hopen hreached
      refine Or.inl ⟨hitself, fun habove => ?_⟩
      obtain ⟨delivery, content, hfilter, -⟩ := hitself.chunk
      have hmem : delivery ∈ (walk.deliveries cost tree).filter
          fun other => other.node? = some entry := by
        rw [hfilter]
        exact List.mem_singleton_self delivery
      rw [List.mem_filter, decide_eq_true_iff] at hmem
      exact habove.chunk delivery hmem.1 hmem.2
    · have habove := surfacesAbove htidy hopen hreached
      refine Or.inr ⟨habove, fun hitself => ?_⟩
      obtain ⟨upper, ⟨hemitted, hupper⟩, -⟩ := habove.above
      exact hitself.above upper hupper hemitted
  · exact fun delivery hmem entry hnode => owned_of_mem_deliveries htidy hmem hnode

/-- Two comments, and three functions of which each but the last contains the next. -/
def nestedFunctions : Tree Symbol where
  label := ⟨"module", ⟨0, 26, ⟨0, 0⟩, ⟨4, 7⟩⟩⟩
  children := .ofTrees [
    ⟨⟨"comment", ⟨0, 2, ⟨0, 0⟩, ⟨0, 2⟩⟩⟩, .nil⟩,
    ⟨⟨"comment", ⟨3, 5, ⟨1, 0⟩, ⟨1, 2⟩⟩⟩, .nil⟩,
    ⟨⟨"function", ⟨6, 26, ⟨2, 0⟩, ⟨4, 7⟩⟩⟩, .ofTrees [
      ⟨⟨"function", ⟨13, 26, ⟨3, 1⟩, ⟨4, 7⟩⟩⟩, .ofTrees [
        ⟨⟨"function", ⟨21, 26, ⟨4, 2⟩, ⟨4, 7⟩⟩⟩, .nil⟩]⟩]⟩]

/-- The first of the functions has an outline, the second its text, and the third lies in that. -/
theorem run_definitionsSurface_sample : sampleProfile.Separate ∧
    ∃ arena tree, Arena.ofParseWith "#a\n#b\ndef f\n def g\n  def h".toUTF8.toList
        nestedFunctions (some ["comment"]) = .ok arena ∧
      arena.HasTree tree ∧
      let walk : ChunkWalk := ⟨arena, sampleProfile, 14⟩
      (walk.chunks.run none (CostFunction.mk fun text => text.length)).ending = .done () ∧
        (walk.chunks.run none (CostFunction.mk fun text => text.length)).chunks =
          (walk.deliveries (fun text => text.length) tree).map (·.chunk) ∧
        walk.DefinitionsSurface (fun text => text.length)
          (walk.deliveries (fun text => text.length) tree) ∧
        (walk.chunks.run none (CostFunction.mk fun text => text.length)).chunks =
          [⟨"#a\n#b", 1, 1⟩, ⟨"def f\n ...", 2, 4⟩, ⟨"def g\n  def h", 3, 4⟩] := by
  have separate : sampleProfile.Separate := by
    refine ⟨fun type hplays => ?_, by decide⟩
    obtain rfl : type = "comment" := by simpa [Profile.plays, sampleProfile] using hplays
    decide
  obtain ⟨arena, tree, harena, htree, hending, hchunks, hsurface⟩ := run_definitionsSurface
    "#a\n#b\ndef f\n def g\n  def h".toUTF8.toList nestedFunctions (some ["comment"])
    sampleProfile separate 14 fun text => text.length
  have hcame : (Arena.ofParseWith "#a\n#b\ndef f\n def g\n  def h".toUTF8.toList nestedFunctions
      (some ["comment"])).map (fun arena => (chunks ⟨arena, sampleProfile, 14⟩).run none
        (CostFunction.mk fun text => text.length) |>.chunks) =
      .ok [⟨"#a\n#b", 1, 1⟩, ⟨"def f\n ...", 2, 4⟩, ⟨"def g\n  def h", 3, 4⟩] := by
    decide +kernel
  rw [harena] at hcame
  exact ⟨separate, arena, tree, harena, htree, hending, hchunks, hsurface, Except.ok.inj hcame⟩

end ChunkWalk

end SourceChunks
