import SourceChunks.Grammar.Standard
import SourceChunks.Proofs.Arena.ParseCopy
import SourceChunks.Proofs.Text.Characters
import SourceChunks.Proofs.Text.WellFormed
import SourceChunks.Proofs.Walk.Interruption
import SourceChunks.Proofs.Walk.Prepared
import SourceChunks.Proofs.Walk.Texts
import SourceChunks.SourceFile

/-!
# Nothing is lost in reading

All cuts are made in bytes, and texts are read only afterwards.  The reader is lenient: had a
cut gone through a character, a replacement character would stand in its place.  Here it is
shown that this never happens where the source is a text and what the parser reports is laid
out along its characters.

* `Decodes` lists the byte strings that a run reads: the sources of nodes, the signatures of
  functions under the heads of their classes, and the outlines of classes, after any number
  of removals.
* `Written` is what may be made of the texts read, and `says_written` says that a run says
  nothing else.
* `spells_of_decodes`: every byte string that is read is that of a text with characters of
  the source, and of ASCII.  Slices are cut between characters; bodies are replaced in order,
  so the offsets are those of the source; and a fragment is taken out where it is found, which
  is between characters wherever that is.

So every reading is undone by writing (`run_lossless`).
-/

namespace SourceChunks

namespace ChunkWalk

variable {walk : ChunkWalk}

/-- The byte strings that a run reads as texts. -/
inductive Decodes (walk : ChunkWalk) : Bytes → Prop
  /-- The source of a node. -/
  | node {index : Nat} {node : Node} (found : walk.arena.node index = .ok node) :
      Decodes walk (walk.arena.source.slice node.span.startByte node.span.stopByte)
  /-- The signature of a function, under the head of its class if it has one. -/
  | signature {index bodyIndex : Nat} {node body : Node} {head : Option Bytes}
      (found : walk.arena.node index = .ok node)
      (last : node.children.getLast? = some bodyIndex)
      (foundBody : walk.arena.node bodyIndex = .ok body)
      (headed : walk.arena.classHead? walk.profile node = .ok head) :
      Decodes walk (Arena.underHead head node.span.startPoint.column
        (walk.arena.signature walk.profile node body))
  /-- The outline of a class, from which a number of fragments was taken, last first. -/
  | outline {index : Nat} {node : Node} {cuts : List BodyCut} (removed : Nat)
      (found : walk.arena.node index = .ok node)
      (bodies : walk.arena.bodyCuts walk.profile node = .ok cuts) :
      Decodes walk (((walk.arena.outlineWith node cuts).fragments.reverse.take removed).foldl
        removeFragment (walk.arena.outlineWith node cuts).code)

/-- What is made of the texts that are read. -/
inductive Written (walk : ChunkWalk) : String → Prop
  | read {bytes : Bytes} (h : walk.Decodes bytes) : Written walk (Utf8.decode bytes)
  | stripped {text : String} (h : Written walk text) : Written walk (Text.strip text)
  | tidied {text : String} (h : Written walk text) : Written walk (Text.removeBlankRuns text)
  | joined {texts : List String} (h : ∀ text ∈ texts, Written walk text) :
      Written walk (Text.joinLines texts)

/-! ## What a run says is made of what it reads -/

theorem written_of_parsed {index : Nat} {node : Node} (found : walk.arena.node index = .ok node)
    (hparsed : node.element.content.isComposite = false) :
    walk.Written (walk.arena.nodeText node) := by
  cases hcontent : node.element.content with
  | parsed type =>
    rw [Arena.nodeText, Arena.elementText, hcontent]
    exact .read (.node found)
  | composite text =>
    rw [hcontent] at hparsed
    exact Bool.noConfusion hparsed

/-- Pruning asks for the texts of the outline as it stands, and ends with one. -/
theorem says_pruneOutline {late : List Bytes} {code : Bytes}
    (h : ∀ removed, walk.Decodes ((late.take removed).foldl removeFragment code)) (budget : Int) :
    (pruneOutline budget late code).Says walk.Written fun result => walk.Decodes result.1 := by
  induction late generalizing code with
  | nil => exact h 0
  | cons fragment earlier ih =>
    have hread : walk.Decodes code := h 0
    have hasked : walk.Written (outlineText code) := .stripped (.read hread)
    refine (Producer.Says.cost hasked).bind fun tokens _ => ?_
    split
    · exact (ih fun removed => h (removed + 1)).bind fun result hresult => hresult
    · exact hread

theorem written_of_functionOutline {index : Nat} {content : String}
    (htexts : ∀ index node, walk.arena.node index = .ok node →
      walk.Written (walk.arena.nodeText node))
    (h : walk.arena.functionOutline walk.profile index = .ok content) : walk.Written content := by
  unfold Arena.functionOutline at h
  cases found : walk.arena.node index with
  | error failure => simp [found, bind, Except.bind] at h
  | ok node =>
    simp only [found, bind, Except.bind] at h
    cases last : node.children.getLast? with
    | none =>
      simp only [last, pure, Except.pure, Except.ok.injEq] at h
      exact h ▸ htexts index node found
    | some bodyIndex =>
      cases foundBody : walk.arena.node bodyIndex with
      | error failure => simp [last, foundBody] at h
      | ok body =>
        cases headed : walk.arena.classHead? walk.profile node with
        | error failure => simp [last, foundBody, headed] at h
        | ok head =>
          simp only [last, foundBody, headed, pure, Except.pure, Except.ok.injEq] at h
          exact h ▸ .read (.signature found last foundBody headed)

theorem says_outline (htexts : ∀ index node, walk.arena.node index = .ok node →
    walk.Written (walk.arena.nodeText node)) (kind : DefinitionKind) (index : Nat) :
    (walk.outline kind index).Says walk.Written walk.Written := by
  cases kind with
  | ofClass =>
    have hfound : (Producer.ofExcept (walk.arena.node index)).Says walk.Written
        (walk.arena.node index = .ok ·) := .ofExcept fun _ h => h
    refine hfound.bind fun node found => ?_
    have hbodies : (Producer.ofExcept (walk.arena.bodyCuts walk.profile node)).Says walk.Written
        (walk.arena.bodyCuts walk.profile node = .ok ·) := .ofExcept fun _ h => h
    refine hbodies.bind fun cuts bodies => ?_
    refine (says_pruneOutline (fun removed => .outline removed found bodies) walk.budget).bind ?_
    rintro ⟨code, pruned⟩ hread
    show walk.Written (tidyOutline code pruned)
    unfold tidyOutline
    split
    · exact .tidied (.read hread)
    · exact .read hread
  | ofFunction =>
    exact Producer.Says.ofExcept fun content hcontent =>
      written_of_functionOutline htexts hcontent

/-- **What a run says** is made of what it reads. -/
theorem says_written {tree : Tree (Nat × Node)} (h : walk.arena.HasTree tree)
    (htexts : ∀ index node, walk.arena.node index = .ok node →
      walk.Written (walk.arena.nodeText node)) :
    walk.chunks.Says walk.Written fun _ => True := by
  rw [walk.chunks_eq_visitTree_of_hasTree h]
  refine says_visitTree (fun texts => .joined) fun entry hentry => ⟨?_, fun kind => ?_⟩
  · exact htexts entry.1 entry.2 (Arena.node_eq_ok_iff.2 (h.found_of_mem hentry))
  · exact says_outline htexts kind entry.1

/-! ## What is read are the bytes of a text -/

/-- The characters that stand in a chunk of the text: its own and those of ASCII. -/
def IsSpelling (text : String) (char : Char) : Prop :=
  char ∈ text.toList ∨ char.toNat < 0x80

section Spells

variable {text : String}

theorem spells_ascii (ascii : String) (h : ascii.toList.all (·.toNat < 0x80) = true) :
    Utf8.Spells (IsSpelling text) (Utf8.encode ascii) :=
  .encode fun char hmem => Or.inr (of_decide_eq_true (List.all_eq_true.1 h char hmem))

theorem spells_placeholder (text : String) {placeholder : Bytes}
    (h : placeholder = bracePlaceholder ∨ placeholder = dotsPlaceholder) :
    Utf8.Spells (IsSpelling text) placeholder ∧ placeholder ≠ [] := by
  rcases h with rfl | rfl
  · exact ⟨spells_ascii _ (by decide), by decide⟩
  · exact ⟨spells_ascii _ (by decide), by decide⟩

theorem spells_indent (column : Nat) :
    Utf8.Spells (IsSpelling text) (List.replicate column 0x20) := by
  induction column with
  | zero => exact spells_ascii "" (by decide)
  | succ column ih =>
    exact (spells_ascii " " (by decide)).append ih

theorem spells_source {start stop : Nat} (hstart : Utf8.IsBoundary text start)
    (hstop : Utf8.IsBoundary text stop) :
    Utf8.Spells (IsSpelling text) ((Utf8.encode text).slice start stop) :=
  (Utf8.spells_slice hstart hstop).mono fun _ => Or.inl

theorem spells_underHead {head : Option Bytes} {signature : Bytes}
    (hhead : ∀ bytes, head = some bytes → Utf8.Spells (IsSpelling text) bytes)
    (h : Utf8.Spells (IsSpelling text) signature) (column : Nat) :
    Utf8.Spells (IsSpelling text) (Arena.underHead head column signature) := by
  cases head with
  | none => exact h
  | some bytes =>
    exact (((hhead bytes rfl).append (spells_ascii _ (by decide))).append
      (spells_indent column)).append h

/-- All bodies are replaced between characters. -/
theorem spells_substituted {cuts : List BodyCut} {start stop : Nat}
    (hstart : Utf8.IsBoundary text start) (hstop : Utf8.IsBoundary text stop)
    (hcuts : ∀ cut ∈ cuts, cut.Marks (Utf8.IsBoundary text)) :
    Utf8.Spells (IsSpelling text) (substituted (Utf8.encode text) stop start cuts) := by
  induction cuts generalizing start with
  | nil => exact spells_source hstart hstop
  | cons cut later ih =>
    obtain ⟨hcut, hlater⟩ := List.forall_mem_cons.1 hcuts
    exact ((spells_source hstart hcut.bodyStart).append
      (spells_placeholder text hcut.placeholder).1).append (ih hcut.bodyStop hlater)

/-- A fragment is the bytes of a text, and not none. -/
theorem spells_fragment {cut : BodyCut} (h : cut.Marks (Utf8.IsBoundary text)) :
    Utf8.Spells (IsSpelling text) (cut.fragment (Utf8.encode text)) ∧
      cut.fragment (Utf8.encode text) ≠ [] := by
  obtain ⟨hspells, hne⟩ := spells_placeholder text h.placeholder
  exact ⟨(spells_source h.methodStart h.bodyStart).append hspells,
    List.append_ne_nil_of_right_ne_nil _ hne⟩

/-- Taking fragments out leaves the bytes of a text. -/
theorem spells_foldl_removeFragment {fragments : List Bytes} {code : Bytes}
    (hcode : Utf8.Spells (IsSpelling text) code)
    (h : ∀ fragment ∈ fragments, Utf8.Spells (IsSpelling text) fragment ∧ fragment ≠ []) :
    Utf8.Spells (IsSpelling text) (fragments.foldl removeFragment code) := by
  induction fragments generalizing code with
  | nil => exact hcode
  | cons fragment later ih =>
    obtain ⟨hfragment, hlater⟩ := List.forall_mem_cons.1 h
    refine ih ?_ hlater
    rcases removeFragment_cases code fragment with heq | ⟨front, back, rfl, -, heq⟩
    · rw [heq]
      exact hcode
    · rw [heq]
      exact hcode.remove hfragment.1 hfragment.2

end Spells

/-- The arena stores a tree over the bytes of the text, laid out along its characters, in
which composites are gathered. -/
structure OfText (text : String) (arena : Arena) (tree : Tree (Nat × Node)) : Prop where
  source : arena.source = Utf8.encode text
  tidy : arena.Tidy tree
  laidOut : ∀ subtree ∈ (tree.map (·.2.element)).subtrees,
    subtree.LaidOut Element.span (Utf8.IsBoundary text)
  gathered : ∀ subtree ∈ (tree.map (·.2.element)).subtrees, subtree.Gathered arena.source

namespace OfText

variable {text : String} {tree : Tree (Nat × Node)}

/-- A node is seated above a tree that is laid out. -/
theorem exists_seat (h : OfText text walk.arena tree) {index : Nat} {node : Node}
    (found : walk.arena.node index = .ok node) :
    ∃ above subtree, subtree.label = (index, node) ∧ walk.arena.Seated above subtree ∧
      (∀ other ∈ (subtree.map (·.2.element)).subtrees,
        other.LaidOut Element.span (Utf8.IsBoundary text)) ∧
      (subtree.map (·.2.element)).Gathered walk.arena.source := by
  obtain ⟨above, subtree, hsubtree, hlabel, hseated⟩ :=
    h.tidy.exists_seat (Arena.node_eq_ok_iff.1 found)
  have hmem : subtree.map (·.2.element) ∈ (tree.map (·.2.element)).subtrees := by
    rw [Tree.subtrees_map]
    exact List.mem_map_of_mem hsubtree
  refine ⟨above, subtree, hlabel, hseated, ?_, h.gathered _ hmem⟩
  have hforest : ∀ other ∈ (Forest.ofTrees [tree.map (·.2.element)]).subtrees,
      other.LaidOut Element.span (Utf8.IsBoundary text) :=
    Tree.forall_subtrees_ofTrees.2 (List.forall_mem_singleton.2 h.laidOut)
  refine Tree.forall_subtrees_of_mem hforest ?_
  rw [Forest.ofTrees, Forest.subtrees, Forest.ofTrees, Forest.subtrees, List.append_nil]
  exact hmem

theorem isBoundary (h : OfText text walk.arena tree) {index : Nat} {node : Node}
    (found : walk.arena.node index = .ok node) :
    Utf8.IsBoundary text node.span.startByte ∧ Utf8.IsBoundary text node.span.stopByte := by
  obtain ⟨above, subtree, hlabel, -, hlaid, -⟩ := h.exists_seat found
  have hself := (Tree.forall_subtrees_iff.1 hlaid).1
  have hnode : (subtree.map (·.2.element)).label = node.element := by rw [Tree.map, hlabel]
  have hstart := hself.start
  have hstop := hself.stop
  rw [hnode] at hstart hstop
  exact ⟨hstart, hstop⟩

theorem spells_classHead (h : OfText text walk.arena tree) {node : Node} {head : Bytes}
    (hhead : walk.arena.classHead? walk.profile node = .ok (some head)) :
    Utf8.Spells (IsSpelling text) head := by
  unfold Arena.classHead? at hhead
  cases hparent : node.parent with
  | none => simp [hparent] at hhead
  | some container =>
    cases foundContainer : walk.arena.node container with
    | error failure => simp [hparent, foundContainer, bind, Except.bind] at hhead
    | ok containerNode =>
      simp only [hparent, foundContainer, bind, Except.bind] at hhead
      cases howner : containerNode.parent with
      | none => simp [howner, pure, Except.pure] at hhead
      | some owner =>
        cases foundOwner : walk.arena.node owner with
        | error failure =>
          simp only [howner, foundOwner] at hhead
          split at hhead <;> simp [pure, Except.pure] at hhead
        | ok ownerNode =>
          simp only [howner, foundOwner] at hhead
          split at hhead
          · split at hhead
            · rw [← Option.some.inj (Except.ok.inj hhead), h.source]
              exact spells_source (h.isBoundary foundOwner).1 (h.isBoundary foundContainer).1
            · simp [pure, Except.pure] at hhead
          · simp [pure, Except.pure] at hhead

/-- **All that is read** are the bytes of a text. -/
theorem spells_of_decodes (h : OfText text walk.arena tree) {bytes : Bytes}
    (hbytes : walk.Decodes bytes) : Utf8.Spells (IsSpelling text) bytes := by
  cases hbytes with
  | node found =>
    rw [h.source]
    exact spells_source (h.isBoundary found).1 (h.isBoundary found).2
  | @signature index bodyIndex node body head found last foundBody headed =>
    refine spells_underHead (fun bytes hhead => h.spells_classHead (hhead ▸ headed)) ?_ _
    rw [Arena.signature, h.source]
    exact (spells_source (h.isBoundary found).1 (h.isBoundary foundBody).1).append
      (spells_placeholder text (Tree.placeholder_cases walk.profile body.type)).1
  | @outline index node cuts removed found bodies =>
    obtain ⟨above, subtree, hlabel, hseated, hlaid, -⟩ := h.exists_seat found
    have hbelow := hseated.below
    rw [hlabel] at hbelow
    have helement : subtree.map (·.2.element) =
        ⟨node.element, subtree.children.map (·.2.element)⟩ := by rw [Tree.map, hlabel]
    rw [helement] at hlaid
    obtain rfl : walk.profile.bodyCuts ⟨node.element, subtree.children.map (·.2.element)⟩ = cuts :=
      Except.ok.inj ((hbelow.bodyCuts_eq walk.profile).symm.trans bodies)
    obtain ⟨horder, hmarks⟩ := Tree.inOrder_bodyCuts walk.profile hlaid
    obtain ⟨hstart, hstop⟩ := h.isBoundary found
    have hlength : node.span.stopByte ≤ walk.arena.source.length := by
      obtain ⟨before, after, htext, hbefore⟩ := hstop
      rw [h.source, htext, Utf8.encode_append, List.length_append, hbefore]
      omega
    rw [walk.arena.outlineWith_eq horder hlength, h.source]
    refine spells_foldl_removeFragment (spells_substituted hstart hstop hmarks) ?_
    intro fragment hfragment
    obtain ⟨cut, hcut, rfl⟩ :=
      List.mem_map.1 (List.mem_reverse.1 (List.mem_of_mem_take hfragment))
    exact spells_fragment (hmarks cut hcut)

/-- The texts of nodes are read, or were joined from texts that are read. -/
theorem written_nodeText (h : OfText text walk.arena tree) {index : Nat} {node : Node}
    (found : walk.arena.node index = .ok node) : walk.Written (walk.arena.nodeText node) := by
  cases hcontent : node.element.content with
  | parsed type => exact written_of_parsed found (by rw [hcontent]; rfl)
  | composite joined =>
    obtain ⟨above, subtree, hlabel, hseated, -, hgathered⟩ := h.exists_seat found
    have hbelow := hseated.below
    rw [hlabel] at hbelow
    obtain ⟨rfl, hparsed⟩ := hgathered joined (by rw [Tree.map, hlabel]; exact hcontent)
    rw [Arena.nodeText, Arena.elementText, hcontent]
    rw [Tree.map, Forest.trees_map] at hparsed ⊢
    refine .joined fun text htext => ?_
    rw [List.map_map] at htext
    obtain ⟨child, hchild, rfl⟩ := List.mem_map.1 htext
    exact written_of_parsed (hbelow.found_of_mem_trees hchild).1
      (hparsed _ (List.mem_map_of_mem hchild))

/-- What is made of the texts read has characters of the text and of ASCII. -/
theorem isSpelling_of_written (h : OfText text walk.arena tree) {content : String}
    (hwritten : walk.Written content) : ∀ char ∈ content.toList, IsSpelling text char := by
  have hfeed : IsSpelling text '\n' := Or.inr (by decide)
  induction hwritten with
  | read hread => exact fun char hmem => (h.spells_of_decodes hread).allowed_of_mem hmem
  | stripped _ ih => exact fun char hmem => ih char (Text.mem_of_mem_strip hmem)
  | tidied _ ih =>
    intro char hmem
    rcases Text.mem_of_mem_removeBlankRuns hmem with rfl | hmem
    · exact hfeed
    · exact ih char hmem
  | joined _ ih =>
    intro char hmem
    rcases Text.mem_of_mem_joinLines hmem with rfl | ⟨line, hline, hmem⟩
    · exact hfeed
    · exact ih line hline char hmem

end OfText

/-! ## A root that fits -/

/-- A root that costs less than the budget is the only chunk. -/
theorem yields_visitTree_of_fits (walk : ChunkWalk) (cost : String → Int)
    (tree : Tree (Nat × Node))
    (h : cost (walk.arena.nodeText tree.label.2) < walk.budget) : ∃ events,
    Producer.Yields cost (walk.visitTree tree) events () ∧
      events.filterMap Event.chunk? =
        [nodeChunk tree.label.2 (walk.arena.nodeText tree.label.2)] := by
  have hasked : Producer.Yields cost (walk.askWhole true tree.label.2)
      [.cost (walk.arena.nodeText tree.label.2) (cost (walk.arena.nodeText tree.label.2))]
      true := by
    rw [askWhole, Bool.true_or, if_pos rfl, map_eq_pure_bind, ← decide_eq_true h]
    exact (Producer.Yields.priced cost _).bind (.pure _)
  have hwhole : Producer.Yields cost (walk.visitTree tree) _ () :=
    (hasked.bind (.emit (.done _))).bind (.done ())
  exact ⟨_, hwhole, rfl⟩

/-- What holds of a run over the bytes of a text when nothing is lost in reading. -/
structure Lossless {κ α : Type} (walk : ChunkWalk) (text : String) (trace : Trace κ α) :
    Prop where
  /-- Every reading is undone by writing. -/
  readings : ∀ bytes, walk.Decodes bytes → Utf8.encode (Utf8.decode bytes) = bytes
  /-- The chunks are made of what is read. -/
  chunks : ∀ chunk ∈ trace.chunks, walk.Written chunk.content
  /-- So are the texts whose cost is asked. -/
  questions : ∀ question ∈ trace.questions, walk.Written question.1
  /-- A replacement character in a chunk is one of the text. -/
  replacements : ∀ chunk ∈ trace.chunks, Utf8.replacement ∈ chunk.content.toList →
    Utf8.replacement ∈ text.toList

theorem OfText.lossless {text : String} {tree : Tree (Nat × Node)}
    (h : OfText text walk.arena tree) {κ : Type} [TokenCalculator κ] (limit : Option Nat)
    (calculator : κ) : walk.Lossless text (walk.chunks.run limit calculator) := by
  obtain ⟨hchunks, hquestions⟩ := (says_written h.tidy.hasTree fun _ _ found =>
    h.written_nodeText found).run limit calculator
  refine ⟨fun bytes hbytes => (h.spells_of_decodes hbytes).encode_decode, hchunks, hquestions, ?_⟩
  intro chunk hchunk hmem
  rcases h.isSpelling_of_written (hchunks chunk hchunk) _ hmem with hsource | hascii
  · exact hsource
  · exact absurd hascii (by decide)

/-- The arena of a parse that is laid out along the characters of a text, whatever comments
are put together. -/
theorem exists_ofText (text : String) {parse : Tree Symbol}
    (hparse : ∀ subtree ∈ parse.subtrees, subtree.LaidOut Symbol.span (Utf8.IsBoundary text))
    (types? : Option (List String)) :
    ∃ arena tree, Arena.ofParseWith (Utf8.encode text) parse types? = .ok arena ∧
      OfText text arena tree ∧ tree.label.2.element = parse.label.element := by
  obtain ⟨arena, tree, harena, hsource, htidy, htree⟩ :=
    Arena.exists_prepared (Utf8.encode text) parse types?
  refine ⟨arena, tree, harena, ⟨hsource, htidy, ?_, ?_⟩, ?_⟩
  · rw [htree]
    exact Tree.laidOut_prepared hparse _ types?
  · rw [htree, hsource]
    exact Tree.gathered_prepared parse _ types?
  · have hlabel := congrArg Tree.label htree
    rw [Tree.label_prepared] at hlabel
    exact hlabel

/-- The arena that is walked is made from the parse. -/
theorem prepared_ofParse (source : Bytes) (parse : Tree Symbol) (profile : Profile)
    (coalesce : Bool) :
    (Arena.ofParse source parse).prepared profile coalesce =
      Arena.ofParseWith source parse
        (if coalesce then some (profile.types .comments) else none) := by
  cases coalesce <;> rfl

/-- A file of a known language is walked, once its grammar was asked for, in the arena that is
made of what its parser reports. -/
theorem chunkFile_eq {languages : Languages} {path language : String}
    {profile : Profile} {parser : Bytes → Tree Symbol} {source : Bytes} {coalesce : Bool}
    {arena : Arena} (budget : Int)
    (hlanguage : languages.config.languageOfPath? path = some language)
    (hprofile : languages.config.profile (some language) = .ok profile)
    (hparser : languages.parsers language = some parser) (hblank : isBlankFile source = false)
    (harena : (Arena.ofParse source (parser source)).prepared profile coalesce = .ok arena) :
    languages.chunkFile budget coalesce path source =
      .request language (ChunkWalk.mk arena profile budget).chunks := by
  rw [Languages.chunkFile, hblank, if_neg Bool.false_ne_true, hlanguage]
  simp only [hprofile, Producer.ofExcept, Producer.done_bind, Parsers.parse, hparser,
    Arena.copyParse_eq, Producer.request_bind, harena]

theorem yields_chunkFile {cost : String → Int} {languages : Languages} {path language : String}
    {profile : Profile} {parser : Bytes → Tree Symbol} {source : Bytes} {coalesce : Bool}
    {arena : Arena} {budget : Int} {events : List Event}
    (hlanguage : languages.config.languageOfPath? path = some language)
    (hprofile : languages.config.profile (some language) = .ok profile)
    (hparser : languages.parsers language = some parser) (hblank : isBlankFile source = false)
    (harena : (Arena.ofParse source (parser source)).prepared profile coalesce = .ok arena)
    (hwalk : Producer.Yields cost (ChunkWalk.mk arena profile budget).chunks events ()) :
    Producer.Yields cost (languages.chunkFile budget coalesce path source)
      (.request language :: events) () := by
  rw [chunkFile_eq budget hlanguage hprofile hparser hblank harena]
  exact .request hwalk

/-- **Nothing is lost in reading.**  Where the source is a text, and what the parser reports is
laid out along its characters, a run reads only the bytes of texts, whatever the profile, the
budget and the costs, and with comments put together or not.  And a text that is not blank,
that the root covers and that fits, is the only chunk of its file. -/
theorem run_lossless (text : String) (parse : Tree Symbol)
    (hparse : ∀ subtree ∈ parse.subtrees, subtree.LaidOut Symbol.span (Utf8.IsBoundary text))
    (profile : Profile) (budget : Int) (cost : String → Int) :
    (∀ types?, ∃ arena, Arena.ofParseWith (Utf8.encode text) parse types? = .ok arena ∧
      let walk : ChunkWalk := ⟨arena, profile, budget⟩
      (walk.chunks.run none (CostFunction.mk cost)).ending = .done () ∧
        walk.Lossless text (walk.chunks.run none (CostFunction.mk cost))) ∧
    ∀ (languages : Languages) (path language : String) (parser : Bytes → Tree Symbol)
      (coalesce : Bool), languages.config.languageOfPath? path = some language →
      languages.config.profile (some language) = .ok profile →
      languages.parsers language = some parser → parser (Utf8.encode text) = parse →
      parse.label.span.startByte = 0 → parse.label.span.stopByte = (Utf8.encode text).length →
      isBlankFile (Utf8.encode text) = false → cost text < budget →
      let trace := (languages.chunkFile budget coalesce path (Utf8.encode text)).run none
        (CostFunction.mk cost)
      trace.ending = .done () ∧ trace.chunks =
        [⟨text, parse.label.span.startPoint.row, parse.label.span.stopPoint.row⟩] := by
  constructor
  · intro types?
    obtain ⟨arena, tree, harena, hof, -⟩ := exists_ofText text hparse types?
    refine ⟨arena, harena, ?_⟩
    intro walk
    have hof' : OfText text walk.arena tree := hof
    exact ⟨(walk.run_eq_deliveries cost hof.tidy.isTree).1, hof'.lossless none _⟩
  · intro languages path language parser coalesce hlanguage hprofile hparser hreport hstart hstop
      hblank hfits
    obtain ⟨arena, tree, harena, hof, hlabel⟩ := exists_ofText text hparse
      (if coalesce then some (profile.types .comments) else none)
    let walk : ChunkWalk := ⟨arena, profile, budget⟩
    have htext : walk.arena.nodeText tree.label.2 = text := by
      rw [Arena.nodeText, hlabel, hof.source]
      show Utf8.decode ((Utf8.encode text).slice parse.label.span.startByte
        parse.label.span.stopByte) = text
      rw [hstart, hstop, Bytes.slice, List.take_length, List.drop_zero, Utf8.decode_encode]
    obtain ⟨events, hyields, hchunks⟩ := yields_visitTree_of_fits walk cost tree
      (by rw [htext]; exact hfits)
    have hprepared : (Arena.ofParse (Utf8.encode text) (parser (Utf8.encode text))).prepared
        profile coalesce = .ok arena := by
      rw [hreport, prepared_ofParse, harena]
    have hwalk : Producer.Yields cost walk.chunks events () := by
      rw [walk.chunks_eq_visitTree_of_hasTree hof.tidy.hasTree]
      exact hyields
    have hfile := yields_chunkFile hlanguage hprofile hparser hblank hprepared hwalk
    intro trace
    have hspan : tree.label.2.span = parse.label.span := congrArg Element.span hlabel
    refine ⟨congrArg Trace.ending hfile.run_eq, ?_⟩
    show ((languages.chunkFile budget coalesce path (Utf8.encode text)).run none
      (CostFunction.mk cost)).chunks = _
    rw [hfile.run_eq, Trace.chunks, List.filterMap_cons_none rfl, hchunks, htext, nodeChunk, hspan]

/-- Two comments, and a class with two methods, with characters of two to four bytes. -/
def accentedText : String := "#ä\n#→\nclass Ö:\n def é: “x”\n def ß: 𝄞"

/-- What a parser reports of it. -/
def accentedParse : Tree Symbol where
  label := ⟨"module", ⟨0, 49, ⟨0, 0⟩, ⟨4, 12⟩⟩⟩
  children := .ofTrees [
    ⟨⟨"comment", ⟨0, 3, ⟨0, 0⟩, ⟨0, 3⟩⟩⟩, .nil⟩,
    ⟨⟨"comment", ⟨4, 8, ⟨1, 0⟩, ⟨1, 4⟩⟩⟩, .nil⟩,
    ⟨⟨"class", ⟨9, 49, ⟨2, 0⟩, ⟨4, 12⟩⟩⟩, .ofTrees [
      ⟨⟨"body", ⟨20, 49, ⟨3, 1⟩, ⟨4, 12⟩⟩⟩, .ofTrees [
        ⟨⟨"method", ⟨20, 35, ⟨3, 1⟩, ⟨3, 16⟩⟩⟩, .ofTrees [
          ⟨⟨"block", ⟨28, 35, ⟨3, 9⟩, ⟨3, 16⟩⟩⟩, .nil⟩]⟩,
        ⟨⟨"method", ⟨37, 49, ⟨4, 1⟩, ⟨4, 12⟩⟩⟩, .ofTrees [
          ⟨⟨"block", ⟨45, 49, ⟨4, 9⟩, ⟨4, 12⟩⟩⟩, .nil⟩]⟩]⟩]⟩]

theorem accentedParse_lossless :
    (∀ subtree ∈ accentedParse.subtrees,
      subtree.LaidOut Symbol.span (Utf8.IsBoundary accentedText)) ∧
    (∃ arena, Arena.ofParseWith (Utf8.encode accentedText) accentedParse (some ["comment"]) =
        .ok arena ∧
      let walk : ChunkWalk := ⟨arena, membersProfile, 8⟩
      (walk.chunks.run none (CostFunction.mk fun text => text.length)).ending = .done () ∧
        walk.Lossless accentedText
          (walk.chunks.run none (CostFunction.mk fun text => text.length))) ∧
    let languages : Languages := ⟨.standard, fun _ => some fun _ => accentedParse⟩
    let trace := (languages.chunkFile 1000 true "Ö.java" (Utf8.encode accentedText)).run none
      (CostFunction.mk fun text => text.length)
    trace.ending = .done () ∧ trace.chunks = [⟨accentedText, 0, 4⟩] := by
  have laidOut : ∀ subtree ∈ accentedParse.subtrees,
      subtree.LaidOut Symbol.span (Utf8.IsBoundary accentedText) := by decide
  have known : Config.standard.languageOfPath? "Ö.java" = some "java" := by decide
  have described : ∃ profile, Config.standard.profile (some "java") = .ok profile := by
    have made : (Config.standard.profile (some "java")).isOk = true := by decide +kernel
    cases hprofile : Config.standard.profile (some "java") with
    | ok profile => exact ⟨profile, rfl⟩
    | error failure =>
      rw [hprofile] at made
      cases made
  obtain ⟨profile, hprofile⟩ := described
  refine ⟨laidOut, ?_, ?_⟩
  · exact (run_lossless accentedText accentedParse laidOut membersProfile 8 _).1 (some ["comment"])
  · exact (run_lossless accentedText accentedParse laidOut profile 1000 _).2 _ "Ö.java" "java" _
      true known hprofile rfl rfl rfl (by decide) (by decide) (by decide)

end ChunkWalk

end SourceChunks
