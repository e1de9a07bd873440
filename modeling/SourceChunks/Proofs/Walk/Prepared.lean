import SourceChunks.Proofs.Arena.LaidOut
import SourceChunks.Proofs.Walk.Definitions

/-!
# The arenas that are walked

An arena is made of what a parser reports, and its comments are put together or not.  Either
way it stores one tree, which is given here from the parse (`Tree.prepared`), so that what is
known of the parse can be carried over to the arena.
-/

namespace SourceChunks

namespace Tree

/-- The tree with runs of comments of the given types put together, if types are given. -/
def prepared (source : Bytes) (types? : Option (List String)) (tree : Tree Element) :
    Tree Element :=
  match types? with
  | none => tree
  | some types => tree.coalesced source types true

/-- The root stays as it is. -/
theorem label_prepared (source : Bytes) (types? : Option (List String)) (tree : Tree Element) :
    (tree.prepared source types?).label = tree.label := by
  cases types? with
  | none => rfl
  | some types => rw [prepared, coalesced_eq]

/-- The layout that the parser reports is that of the arena. -/
theorem laidOut_prepared {isCut : Nat → Prop} {parse : Tree Symbol}
    (h : ∀ subtree ∈ parse.subtrees, subtree.LaidOut Symbol.span isCut) (source : Bytes)
    (types? : Option (List String)) :
    ∀ subtree ∈ ((parse.map Symbol.element).prepared source types?).subtrees,
      subtree.LaidOut Element.span isCut := by
  have helements : ∀ subtree ∈ (parse.map Symbol.element).subtrees,
      subtree.LaidOut Element.span isCut := by
    rw [subtrees_map, List.forall_mem_map]
    intro subtree hsubtree
    obtain ⟨hstart, hstop, hchildren⟩ := h subtree hsubtree
    refine ⟨hstart, hstop, ?_⟩
    rw [Tree.map, Forest.trees_map, List.map_map]
    exact hchildren
  cases types? with
  | none => exact helements
  | some types => exact laidOut_coalesced true helements

/-- Every composite of the arena was put together of symbols. -/
theorem gathered_prepared (parse : Tree Symbol) (source : Bytes)
    (types? : Option (List String)) :
    ∀ subtree ∈ ((parse.map Symbol.element).prepared source types?).subtrees,
      subtree.Gathered source := by
  have hparsed : ∀ subtree ∈ (parse.map Symbol.element).subtrees,
      subtree.label.content.isComposite = false := by
    rw [subtrees_map, List.forall_mem_map]
    exact fun _ _ => rfl
  cases types? with
  | none =>
    intro subtree hsubtree text htext
    have hsymbol := hparsed subtree hsubtree
    rw [htext] at hsymbol
    exact Bool.noConfusion hsymbol
  | some types => exact gathered_coalesced source types true hparsed

end Tree

/-- **The arena of a parse** can always be made, and stores the tree that the parse gives. -/
theorem Arena.exists_prepared (source : Bytes) (parse : Tree Symbol)
    (types? : Option (List String)) :
    ∃ arena tree, Arena.ofParseWith source parse types? = .ok arena ∧ arena.source = source ∧
      arena.Tidy tree ∧
      tree.map (·.2.element) = (parse.map Symbol.element).prepared source types? := by
  obtain ⟨tree, htidy, htree⟩ := exists_tidy_ofTree source (parse.map Symbol.element)
  cases types? with
  | none => exact ⟨_, tree, rfl, rfl, htidy, htree⟩
  | some types =>
    obtain ⟨copied, copy, hcoalesce, hsource, -, -, hcopy, hlabels⟩ :=
      exists_coalesce types htidy.hasTree
    rw [htree] at hlabels
    exact ⟨copied, copy, hcoalesce, hsource, hcopy, hlabels⟩

end SourceChunks
