import SourceChunks.Arena.OfTree
import SourceChunks.Proofs.Arena.Tidy

/-!
# The arena of a tree is tidy

The nodes of a tree are written down in the order of the document, and their numbers follow
from the sizes of the trees to the left.  So the trees of a forest stand at the numbers of
its roots, wherever in the list of all nodes its own begin (`stands_layout`), and the arena
of a tree stores the tree and nothing else (`exists_tidy_ofTree`).
-/

namespace SourceChunks.Arena

/-- The trees of a forest stand where its nodes are laid out, and take up one number after
the other. -/
theorem stands_layout (parent : Option Nat) (first : Nat) (forest : Forest Element)
    (before after : List Node) (hlength : before.length = first) :
    Stands ((before ++ (layout parent first forest ++ after))[·]?)
      ((forest.rootNumbers first).map (·, parent)) forest.trees
      (List.range' first forest.size) := by
  induction forest generalizing parent first before after with
  | nil => exact .nil
  | cons element children siblings ihChildren ihSiblings =>
    let node : Node := { element, children := children.rootNumbers (first + 1), parent }
    let below := layout (some first) (first + 1) children
    let beside := layout parent (first + children.size + 1) siblings
    have hnodes : before ++ (layout parent first (.cons element children siblings) ++ after) =
        before ++ node :: (below ++ (beside ++ after)) := by
      rw [layout, List.cons_append, List.append_assoc]
    have found : (before ++ node :: (below ++ (beside ++ after)))[first]? = some node := by
      rw [List.getElem?_append_right (by omega), hlength, Nat.sub_self, List.getElem?_cons_zero]
    have hbelow := ihChildren (some first) (first + 1) (before ++ [node]) (beside ++ after)
      (by simp [hlength])
    have hbefore : (before ++ node :: below).length = first + children.size + 1 := by
      rw [List.length_append, List.length_cons, length_layout, hlength, Nat.add_assoc]
    have hbeside := ihSiblings parent _ (before ++ node :: below) after hbefore
    rw [List.append_assoc, List.singleton_append] at hbelow
    rw [List.append_assoc, List.cons_append] at hbeside
    have hnumbers : List.range' first (children.size + siblings.size + 1) =
        first :: (List.range' (first + 1) children.size ++
          List.range' (first + children.size + 1) siblings.size) := by
      rw [List.range'_succ, Nat.add_right_comm first, List.range'_append_1]
    rw [Forest.size, hnumbers, hnodes]
    exact .cons found hbelow hbeside

/-- In the arena of a tree, the tree stands at the root and takes up the numbers one after the
other. -/
theorem stands_ofTree (source : Bytes) (tree : Tree Element) :
    Stands ((ofTree source tree).nodes[·]?) [((ofTree source tree).root, none)] [tree]
      (List.range (ofTree source tree).size) := by
  let forest : Forest Element := .cons tree.label tree.children .nil
  have hstands := stands_layout none 0 forest [] [] rfl
  have hlook : (fun index : Nat => ([] ++ (layout none 0 forest ++ []))[index]?) =
      fun index => (ofTree source tree).nodes[index]? := by
    funext index
    rw [List.nil_append, List.append_nil]
    exact List.getElem?_toArray.symm
  have hsize : (ofTree source tree).size = forest.size := by
    rw [size, ofTree, List.size_toArray]
    exact length_layout none 0 forest
  rwa [hlook, ← List.range_eq_range', ← hsize] at hstands

/-- **The arena of a tree** stores the tree and nothing else. -/
theorem exists_tidy_ofTree (source : Bytes) (tree : Tree Element) :
    ∃ copy, (ofTree source tree).Tidy copy ∧ copy.map (·.2.element) = tree :=
  (stands_ofTree source tree).exists_tidy (List.Perm.refl _)

end SourceChunks.Arena
