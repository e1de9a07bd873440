import SourceChunks.Element
import SourceChunks.Forest
import SourceChunks.Json.Basic

/-!
# Parse trees as tables

A parser's tree can be handed over as a table with a row for each node: its type, the range
in bytes, the rows and columns of its ends, and the row numbers of its children.  Row nought
is the root; the other rows stand in any order.
-/

namespace SourceChunks

/-- A row of the table of a tree. -/
structure SymbolRow where
  symbol : Symbol
  children : List Nat

namespace SymbolRow

/-- The forest that hangs from the given row numbers, cut off below `depth`. -/
def forest (rows : Array SymbolRow) : Nat → List Nat → Forest Symbol
  | 0, _ => .nil
  | depth + 1, indices =>
    indices.foldr
      (fun index later =>
        match rows[index]? with
        | some row => .cons row.symbol (forest rows depth row.children) later
        | none => later)
      .nil

/-- The tree of a table. -/
def tree? (rows : Array SymbolRow) : Option (Tree Symbol) := do
  let top ← rows[0]?
  return ⟨top.symbol, forest rows rows.size top.children⟩

/-- Reads six numbers as a span. -/
def span? : List Json → Option Span
  | [startByte, stopByte, startRow, startColumn, stopRow, stopColumn] => do
    return {
      startByte := ← startByte.nat?
      stopByte := ← stopByte.nat?
      startPoint := ⟨← startRow.nat?, ← startColumn.nat?⟩
      stopPoint := ⟨← stopRow.nat?, ← stopColumn.nat?⟩ }
  | _ => none

/-- Reads a row. -/
def ofJson? : Json → Option SymbolRow
  | .array [type, a, b, c, d, e, f, children] => do
    return ⟨⟨← type.string?, ← span? [a, b, c, d, e, f]⟩, ← (← children.array?).mapM Json.nat?⟩
  | _ => none

end SymbolRow

/-- Reads the tree of a parser from its table. -/
def treeOfJson? (json : Json) : Option (Tree Symbol) := do
  SymbolRow.tree? (← (← json.array?).mapM SymbolRow.ofJson?).toArray

end SourceChunks
