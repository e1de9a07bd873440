import SourceChunks.Proofs.Arena.ParseCopy
import SourceChunks.Proofs.Text.Decoding
import SourceChunks.Proofs.Walk.Prepared

/-!
# A whole chunk has the lines of its rows

A parser counts rows in the bytes: the row of a place is the number of line feeds in front of it.  A
chunk counts them in characters, after a reading that puts up with any bytes.  Both counts agree,
for the reader neither takes a line feed for a part of another character nor makes one of other
bytes (`Utf8.count_decode`).  It does not matter whether the bytes are a text, or whether the
ends of a node cut a character.

* `Span.CountsRows`: what is asked of the parser, span by span.
* `Span.CountsRows.count_decode`: the text of such a span has as many line feeds as there are rows
  between its ends.
* `run_wholeRows`: so has every chunk that is a node's text.
-/

namespace SourceChunks

/-- The byte that ends a row. -/
def lineFeed : UInt8 := 0x0A

/-- What stands in front of a range and what stands in it stand in front of its end. -/
theorem Bytes.count_slice (bytes : Bytes) {start stop : Nat} (horder : start ≤ stop)
    (byte : UInt8) :
    (bytes.take start).count byte + (bytes.slice start stop).count byte =
      (bytes.take stop).count byte := by
  have hfront : (bytes.take stop).take start = bytes.take start := by
    rw [List.take_take, Nat.min_eq_left horder]
  rw [slice, ← hfront, ← List.count_append, List.take_append_drop]

namespace Span

/-- The span lies in the source, and the row of each end is the number of line feeds in front of
it. -/
structure CountsRows (source : Bytes) (span : Span) : Prop where
  order : span.startByte ≤ span.stopByte
  inside : span.stopByte ≤ source.length
  start : span.startPoint.row = (source.take span.startByte).count lineFeed
  stop : span.stopPoint.row = (source.take span.stopByte).count lineFeed

instance (source : Bytes) : DecidablePred (CountsRows source) := fun span =>
  decidable_of_iff
    (span.startByte ≤ span.stopByte ∧ span.stopByte ≤ source.length ∧
      span.startPoint.row = (source.take span.startByte).count lineFeed ∧
      span.stopPoint.row = (source.take span.stopByte).count lineFeed)
    ⟨fun h => ⟨h.1, h.2.1, h.2.2.1, h.2.2.2⟩, fun h => ⟨h.order, h.inside, h.start, h.stop⟩⟩

/-- **The text of a span has the lines of its rows**, whatever bytes it is read from. -/
theorem CountsRows.count_decode {source : Bytes} {span : Span} (h : span.CountsRows source) :
    ((Utf8.decode (source.slice span.startByte span.stopByte)).toList.count '\n' : Int) =
      (span.stopPoint.row : Int) - span.startPoint.row := by
  have hread : (Utf8.decode (source.slice span.startByte span.stopByte)).toList.count '\n' =
      (source.slice span.startByte span.stopByte).count lineFeed :=
    Utf8.count_decode (by decide) _
  have hslice := Bytes.count_slice source h.order lineFeed
  rw [← h.start, ← h.stop] at hslice
  rw [hread]
  omega

end Span

namespace ChunkWalk

/-- Every chunk that is a node's text has as many line feeds as there are rows from its first line
to its last. -/
def WholeRows (stream : List Delivery) : Prop :=
  ∀ delivery ∈ stream, ∀ entry, delivery.origin = .whole entry →
    (delivery.chunk.content.toList.count '\n' : Int) =
      delivery.chunk.stopLine - delivery.chunk.startLine

variable {walk : ChunkWalk} {cost : String → Int} {tree : Tree (Nat × Node)}

/-- The stream of an arena whose nodes are all a parser's, with rows that were counted. -/
theorem wholeRows (hparsed : ∀ entry ∈ tree.toList, ∃ symbol : Symbol,
    entry.2.element = symbol.element ∧ symbol.span.CountsRows walk.arena.source) :
    WholeRows (walk.deliveries cost tree) := by
  intro delivery hmem entry horigin
  have hnode : delivery.node? = some entry := by rw [Delivery.node?, horigin]
  obtain ⟨hreached, hown⟩ := (mem_deliveries_iff_of_node? hnode).1 hmem
  obtain ⟨symbol, hsymbol, hrows⟩ := hparsed entry (mem_toList_of_mem_reached hreached)
  rcases own_cases hown with ⟨-, rfl⟩ | ⟨kind, -, -, -, rfl⟩
  · show ((Arena.elementText walk.arena.source entry.2.element).toList.count '\n' : Int) =
      (entry.2.element.span.stopPoint.row : Int) - entry.2.element.span.startPoint.row
    rw [hsymbol]
    exact hrows.count_decode
  · simp at horigin

/-- **A whole chunk has the lines of its rows.**  For all bytes, every parse of them in which rows
were counted, every profile, every budget and all costs. -/
theorem run_wholeRows (source : Bytes) (parse : Tree Symbol)
    (hrows : ∀ symbol ∈ parse.toList, symbol.span.CountsRows source) (profile : Profile)
    (budget : Int) (cost : String → Int) :
    ∃ arena tree, Arena.copyParse source parse = .ok arena ∧ arena.HasTree tree ∧
      let walk : ChunkWalk := ⟨arena, profile, budget⟩
      (walk.chunks.run none (CostFunction.mk cost)).ending = .done () ∧
        (walk.chunks.run none (CostFunction.mk cost)).chunks =
          (walk.deliveries cost tree).map (·.chunk) ∧
        WholeRows (walk.deliveries cost tree) := by
  obtain ⟨arena, tree, harena, hsource, htidy, htree⟩ := Arena.exists_prepared source parse none
  refine ⟨arena, tree, (Arena.copyParse_eq source parse).trans harena, htidy.hasTree, ?_⟩
  intro walk
  obtain ⟨hending, hchunks⟩ := walk.run_eq_deliveries cost htidy.isTree
  refine ⟨hending, hchunks, wholeRows fun entry hentry => ?_⟩
  -- the nodes of the arena are the symbols of the parse
  have hmem : entry.2.element ∈ (tree.map (·.2.element)).toList := by
    rw [Tree.toList_map]
    exact List.mem_map_of_mem hentry
  have helements : tree.map (·.2.element) = parse.map Symbol.element := htree
  rw [helements, Tree.toList_map] at hmem
  obtain ⟨symbol, hsymbol, helement⟩ := List.mem_map.1 hmem
  refine ⟨symbol, helement.symm, ?_⟩
  rw [show walk.arena.source = source from hsource]
  exact hrows symbol hsymbol

/-- A function that ends inside a character of three bytes, behind a line feed that follows the
beginning of another one. -/
def tornParse : Tree Symbol where
  label := ⟨"module", ⟨0, 9, ⟨0, 0⟩, ⟨2, 1⟩⟩⟩
  children := .ofTrees [⟨⟨"function", ⟨1, 5, ⟨0, 1⟩, ⟨1, 2⟩⟩⟩, .nil⟩]

theorem tornParse_wholeRows :
    (∀ symbol ∈ tornParse.toList,
        symbol.span.CountsRows [0x23, 0xE2, 0x0A, 0xE2, 0x82, 0xAC, 0xC0, 0x0A, 0x8A]) ∧
      ∃ arena tree, Arena.copyParse [0x23, 0xE2, 0x0A, 0xE2, 0x82, 0xAC, 0xC0, 0x0A, 0x8A]
          tornParse = .ok arena ∧ arena.HasTree tree ∧
        let walk : ChunkWalk := ⟨arena, sampleProfile, 5⟩
        (walk.chunks.run none (CostFunction.mk fun text => text.length)).ending = .done () ∧
          (walk.chunks.run none (CostFunction.mk fun text => text.length)).chunks =
            (walk.deliveries (fun text => text.length) tree).map (·.chunk) ∧
          WholeRows (walk.deliveries (fun text => text.length) tree) ∧
          (walk.chunks.run none (CostFunction.mk fun text => text.length)).chunks =
            [⟨"\uFFFD\n\uFFFD", 0, 1⟩] := by
  have rows : ∀ symbol ∈ tornParse.toList,
      symbol.span.CountsRows [0x23, 0xE2, 0x0A, 0xE2, 0x82, 0xAC, 0xC0, 0x0A, 0x8A] := by decide
  obtain ⟨arena, tree, harena, htree, hending, hchunks, hrows⟩ :=
    run_wholeRows _ tornParse rows sampleProfile 5 fun text => text.length
  have hcame : (Arena.copyParse [0x23, 0xE2, 0x0A, 0xE2, 0x82, 0xAC, 0xC0, 0x0A, 0x8A]
      tornParse).map (fun arena => (chunks ⟨arena, sampleProfile, 5⟩).run none
        (CostFunction.mk fun text => text.length) |>.chunks) = .ok [⟨"\uFFFD\n\uFFFD", 0, 1⟩] := by
    decide +kernel
  rw [harena] at hcame
  exact ⟨rows, arena, tree, harena, htree, hending, hchunks, hrows, Except.ok.inj hcame⟩

end ChunkWalk

end SourceChunks
