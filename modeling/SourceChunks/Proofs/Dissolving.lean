import SourceChunks.Proofs.Arena.Places

/-!
# Taking nodes out of a forest

A node is taken out of a forest alone: its children step into its place, in order
(`Forest.dissolve`).  So nothing else is lost, and what is left keeps the order of the
document (`toList_dissolve`).  Nodes may be taken out one set after the other
(`dissolve_dissolve`), and before or after the labels are changed (`dissolve_map`).

Of a tree only what is below the root can be taken out (`Tree.dissolve`).
-/

namespace SourceChunks

namespace Forest

variable {α β γ : Type}

/-- The forest without the marked nodes, whose children stand in their places. -/
def dissolve (marked : α → Bool) : Forest α → Forest α
  | nil => nil
  | cons label children siblings =>
    if marked label then children.dissolve marked ++ siblings.dissolve marked
    else cons label (children.dissolve marked) (siblings.dissolve marked)

theorem dissolve_append (marked : α → Bool) (forest later : Forest α) :
    (forest ++ later).dissolve marked = forest.dissolve marked ++ later.dissolve marked := by
  induction forest with
  | nil => rfl
  | cons label children siblings _ ih =>
    rw [cons_append, dissolve, dissolve, ih]
    split
    · rw [append_assoc]
    · rfl

/-- **What is left** are the other nodes, in the order of the document. -/
@[simp] theorem toList_dissolve (marked : α → Bool) (forest : Forest α) :
    (forest.dissolve marked).toList = forest.toList.filter fun label => !marked label := by
  induction forest with
  | nil => rfl
  | cons label children siblings ihChildren ihSiblings =>
    rw [dissolve, toList, List.filter_cons, List.filter_append, ← ihChildren, ← ihSiblings]
    cases marked label with
    | true => exact toList_append _ _
    | false => rfl

theorem dissolve_map (f : α → β) (marked : β → Bool) (forest : Forest α) :
    (forest.map f).dissolve marked = (forest.dissolve (marked ∘ f)).map f := by
  induction forest with
  | nil => rfl
  | cons label children siblings ihChildren ihSiblings =>
    rw [map, dissolve, dissolve, ihChildren, ihSiblings, Function.comp]
    split
    · rw [map_append]
    · rfl

theorem dissolve_dissolve (first second : α → Bool) (forest : Forest α) :
    (forest.dissolve first).dissolve second =
      forest.dissolve fun label => first label || second label := by
  induction forest with
  | nil => rfl
  | cons label children siblings ihChildren ihSiblings =>
    rw [dissolve, dissolve, ← ihChildren, ← ihSiblings]
    cases first label with
    | true => exact dissolve_append _ _ _
    | false => rfl

theorem dissolve_congr {first second : α → Bool} {forest : Forest α}
    (h : ∀ label ∈ forest.toList, first label = second label) :
    forest.dissolve first = forest.dissolve second := by
  induction forest with
  | nil => rfl
  | cons label children siblings ihChildren ihSiblings =>
    rw [toList, List.forall_mem_cons, List.forall_mem_append] at h
    rw [dissolve, dissolve, h.1, ihChildren h.2.1, ihSiblings h.2.2]

/-- Where no node is marked, the forest stays as it is. -/
theorem dissolve_eq_self {marked : α → Bool} {forest : Forest α}
    (h : ∀ label ∈ forest.toList, marked label = false) : forest.dissolve marked = forest := by
  induction forest with
  | nil => rfl
  | cons label children siblings ihChildren ihSiblings =>
    rw [toList, List.forall_mem_cons, List.forall_mem_append] at h
    rw [dissolve, h.1, ihChildren h.2.1, ihSiblings h.2.2]
    rfl

/-- Marks on one of two forests of the same shape can be put on the other. -/
theorem exists_map_eq {f : α → β} {forest : Forest α} {marked : Forest (β × γ)}
    (h : forest.map f = marked.map Prod.fst) :
    ∃ both : Forest (α × γ), both.map Prod.fst = forest ∧ both.map (Prod.map f id) = marked := by
  induction forest generalizing marked with
  | nil =>
    cases marked with
    | nil => exact ⟨.nil, rfl, rfl⟩
    | cons => simp [map] at h
  | cons label children siblings ihChildren ihSiblings =>
    cases marked with
    | nil => simp [map] at h
    | cons entry below beside =>
      obtain ⟨hlabel, hbelow, hbeside⟩ := Forest.cons.inj h
      obtain ⟨lower, rfl, rfl⟩ := ihChildren hbelow
      obtain ⟨others, rfl, rfl⟩ := ihSiblings hbeside
      refine ⟨.cons (label, entry.2) lower others, rfl, ?_⟩
      rw [map, Prod.map, hlabel]
      rfl

end Forest

namespace Tree

variable {α β : Type}

/-- The tree without the marked nodes below its root. -/
def dissolve (marked : α → Bool) (tree : Tree α) : Tree α :=
  ⟨tree.label, tree.children.dissolve marked⟩

theorem dissolve_map (f : α → β) (marked : β → Bool) (tree : Tree α) :
    (tree.map f).dissolve marked = (tree.dissolve (marked ∘ f)).map f :=
  congrArg (Tree.mk (f tree.label)) (Forest.dissolve_map f marked tree.children)

end Tree

end SourceChunks
