import SourceChunks.Proofs.Arena.Places
import SourceChunks.Proofs.Comment.CoalescedTree

/-!
# What coalescing keeps

Coalescing makes new trees in three ways: it puts new children below a label, it puts a
composite above a run, and below a composite it leaves trees as they are.  What holds of all
trees in a tree, and is carried over in each of these ways, holds of all trees in the
coalesced tree (`forall_subtrees_coalesced`).
-/

namespace SourceChunks

section Lists

variable {α : Type}

/-- An item of a list of lists stands in their join in one piece. -/
theorem exists_append_of_mem_flatten {lists : List (List α)} {list : List α}
    (h : list ∈ lists) : ∃ before after, lists.flatten = before ++ (list ++ after) := by
  obtain ⟨before, after, rfl⟩ := List.append_of_mem h
  exact ⟨before.flatten, after.flatten, by rw [List.flatten_append, List.flatten_cons]⟩

end Lists

namespace Tree

variable {source : Bytes} {types : List String} {p q : Tree Element → Prop}

/-- **What coalescing keeps.**  The groups are those of the children, a copy has the label of
what it copies, and a run is a piece of the children of one tree. -/
theorem forall_subtrees_coalesced
    (rebuilt : ∀ (tree : Tree Element) (groups : List (List (Tree Element)))
      (copy : Tree Element → Tree Element), p tree → groups.flatten = tree.children.trees →
      (∀ child, (copy child).label = child.label) →
      q ⟨tree.label, .ofTrees (groups.filterMap (standIn source copy))⟩)
    (merged : ∀ (tree : Tree Element) (before : List (Tree Element)) (first : Tree Element)
      (others after : List (Tree Element)), p tree →
      tree.children.trees = before ++ (first :: others ++ after) →
      (∀ member ∈ first :: others, p member) → q (composite source first others))
    (kept : ∀ tree, p tree → q tree) (merging : Bool) (tree : Tree Element)
    (h : ∀ subtree ∈ tree.subtrees, p subtree) :
    ∀ subtree ∈ (tree.coalesced source types merging).subtrees, q subtree := by
  cases merging with
  | false =>
    rw [coalesced_false]
    exact fun subtree hsubtree => kept subtree (h subtree hsubtree)
  | true =>
    obtain ⟨hself, hbelow⟩ := forall_subtrees_iff.1 h
    rw [coalesced_eq]
    simp only [Bool.true_and]
    set merging := !tree.label.content.isComposite with hmerging
    have hflatten := flatten_grouped (isCommentOf types) merging tree.children.trees
    refine List.forall_mem_cons.2 ⟨rebuilt tree _ _ hself hflatten fun child => ?_, ?_⟩
    · rw [coalesced_eq]
    · rw [forall_subtrees_ofTrees]
      intro child hchild
      obtain ⟨group, hgroup, hstandIn⟩ := List.mem_filterMap.1 hchild
      rcases standIn_cases hstandIn with ⟨single, rfl, rfl⟩ | ⟨first, second, others, rfl, rfl⟩
      · have hsingle := mem_of_mem_grouped hgroup (List.mem_singleton_self single)
        have hsize : single.size < tree.size := size_lt_of_mem_trees hsingle
        exact forall_subtrees_coalesced rebuilt merged kept merging single (hbelow single hsingle)
      · have hmembers : ∀ member ∈ first :: second :: others,
            ∀ subtree ∈ member.subtrees, p subtree :=
          fun member hmember => hbelow member (mem_of_mem_grouped hgroup hmember)
        obtain ⟨before, after, hsplit⟩ := exists_append_of_mem_flatten hgroup
        refine List.forall_mem_cons.2 ⟨merged tree before first (second :: others) after hself
          (hflatten.symm.trans hsplit) fun member hmember =>
            (forall_subtrees_iff.1 (hmembers member hmember)).1, fun subtree hsubtree => ?_⟩
        exact kept subtree (forall_subtrees_ofTrees.2 hmembers subtree hsubtree)
termination_by tree.size

/-- A composite has the texts of its children for its text, and these are no composites. -/
def Gathered (source : Bytes) (tree : Tree Element) : Prop :=
  ∀ text, tree.label.content = .composite text →
    text = Text.joinLines
        (tree.children.trees.map fun child => Arena.elementText source child.label) ∧
      ∀ child ∈ tree.children.trees, child.label.content.isComposite = false

/-- Composites that coalescing puts into a tree without composites are gathered. -/
theorem gathered_coalesced (source : Bytes) (types : List String) (merging : Bool)
    {tree : Tree Element}
    (h : ∀ subtree ∈ tree.subtrees, subtree.label.content.isComposite = false) :
    ∀ subtree ∈ (tree.coalesced source types merging).subtrees, subtree.Gathered source := by
  refine forall_subtrees_coalesced ?_ ?_ ?_ merging tree h
  · intro tree groups copy hparsed _ _ text htext
    rw [show tree.label.content = .composite text from htext] at hparsed
    exact Bool.noConfusion hparsed
  · intro tree before first others after _ _ hmembers text htext
    rw [composite, Forest.trees_ofTrees]
    exact ⟨(Content.composite.inj htext).symm, hmembers⟩
  · intro tree hparsed text htext
    rw [htext] at hparsed
    exact Bool.noConfusion hparsed

end Tree

end SourceChunks
