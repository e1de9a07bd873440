import Mathlib.Data.List.Nodup
import SourceChunks.Forest

/-!
# Ancestors in a forest

A recursion that goes down only where it may decides the same as a test of all that stands
above a node.  This file says so for forests without numbers.

* `withAncestors` lists the labels in the order of the document, each with the labels
  above it, the nearest first.
* `visible` lists the labels that a reader meets who does not look below closed ones.
* `visible_eq`: the visible labels are those with no closed label above them, in the order
  of the document.

A label may stand at several places; what is said here is said of places.
-/

namespace SourceChunks

namespace Tree

variable {α : Type}

/-- The forest of a single tree. -/
def forest (tree : Tree α) : Forest α :=
  .cons tree.label tree.children .nil

@[simp] theorem toList_forest (tree : Tree α) : tree.forest.toList = tree.toList := by
  simp [forest, Forest.toList, toList]

@[simp] theorem size_forest (tree : Tree α) : tree.forest.size = tree.size := by
  simp [forest, Forest.size, size]

theorem label_mem_toList (tree : Tree α) : tree.label ∈ tree.toList :=
  List.mem_cons_self

end Tree

namespace Forest

variable {α : Type}

/-- The labels in the order of the document, each with those above it, nearest first;
`above` is what stands above the forest. -/
def withAncestors (above : List α) : Forest α → List (List α × α)
  | nil => []
  | cons label children siblings =>
    (above, label)
      :: (children.withAncestors (label :: above) ++ siblings.withAncestors above)

/-- The labels that are met in the order of the document when nothing below a closed label
is looked at. -/
def visible (closed : α → Bool) : Forest α → List α
  | nil => []
  | cons label children siblings =>
    label :: ((if closed label then [] else children.visible closed) ++ siblings.visible closed)

@[simp] theorem map_snd_withAncestors (above : List α) (forest : Forest α) :
    (forest.withAncestors above).map Prod.snd = forest.toList := by
  induction forest generalizing above with
  | nil => rfl
  | cons label children siblings ihc ihs => simp [withAncestors, toList, ihc, ihs]

/-- Every label has ancestors. -/
theorem exists_mem_withAncestors {forest : Forest α} {label : α} (h : label ∈ forest.toList)
    (above : List α) : ∃ ancestors, (ancestors, label) ∈ forest.withAncestors above := by
  rw [← map_snd_withAncestors above, List.mem_map] at h
  obtain ⟨⟨ancestors, other⟩, hmem, rfl⟩ := h
  exact ⟨ancestors, hmem⟩

theorem mem_of_mem_withAncestors {forest : Forest α} {above ancestors : List α} {label : α}
    (h : (ancestors, label) ∈ forest.withAncestors above) : label ∈ forest.toList := by
  rw [← map_snd_withAncestors above]
  exact List.mem_map_of_mem h

/-- What stands above a place stands in the forest, or above it. -/
theorem mem_or_mem_of_mem_ancestors {forest : Forest α} {above ancestors : List α} {label : α}
    (h : (ancestors, label) ∈ forest.withAncestors above) {ancestor : α}
    (hancestor : ancestor ∈ ancestors) : ancestor ∈ forest.toList ∨ ancestor ∈ above := by
  induction forest generalizing above with
  | nil => simp [withAncestors] at h
  | cons first children siblings ihc ihs =>
    simp only [withAncestors, toList, List.mem_cons, List.mem_append] at h ⊢
    rcases h with h | h | h
    · obtain ⟨rfl, -⟩ := Prod.mk.inj h
      exact Or.inr hancestor
    · rcases ihc h with hmem | hmem
      · exact Or.inl (Or.inr (Or.inl hmem))
      · rcases List.mem_cons.1 hmem with rfl | hmem
        · exact Or.inl (Or.inl rfl)
        · exact Or.inr hmem
    · rcases ihs h with hmem | hmem
      · exact Or.inl (Or.inr (Or.inr hmem))
      · exact Or.inr hmem

theorem mem_of_mem_ancestors {forest : Forest α} {ancestors : List α} {label : α}
    (h : (ancestors, label) ∈ forest.withAncestors []) {ancestor : α}
    (hancestor : ancestor ∈ ancestors) : ancestor ∈ forest.toList :=
  (mem_or_mem_of_mem_ancestors h hancestor).resolve_right List.not_mem_nil

/-- Where no label stands twice, a label has its ancestors once. -/
theorem ancestors_unique {forest : Forest α} (hnodup : forest.toList.Nodup)
    {above ancestors others : List α} {label : α}
    (h : (ancestors, label) ∈ forest.withAncestors above)
    (h' : (others, label) ∈ forest.withAncestors above) : ancestors = others := by
  rw [← map_snd_withAncestors above] at hnodup
  have heq := List.inj_on_of_nodup_map hnodup h h' rfl
  exact congrArg Prod.fst heq

/-- **What is visible.**  A label is met exactly where none of its ancestors is closed. -/
theorem filterMap_withAncestors_eq (closed : α → Bool) (above : List α) (forest : Forest α) :
    (forest.withAncestors above).filterMap
        (fun place => if place.1.any closed then none else some place.2) =
      if above.any closed then [] else forest.visible closed := by
  induction forest generalizing above with
  | nil => simp [withAncestors, visible]
  | cons label children siblings ihc ihs =>
    rw [withAncestors, List.filterMap_cons, List.filterMap_append, ihc, ihs, List.any_cons]
    by_cases habove : above.any closed = true
    · simp [habove]
    · by_cases hlabel : closed label = true
      · simp [habove, hlabel, visible]
      · simp [habove, hlabel, visible]

theorem visible_eq (closed : α → Bool) (forest : Forest α) :
    forest.visible closed = (forest.withAncestors []).filterMap
      (fun place => if place.1.any closed then none else some place.2) := by
  rw [filterMap_withAncestors_eq]
  simp

theorem mem_visible_iff {closed : α → Bool} {forest : Forest α} {label : α} :
    label ∈ forest.visible closed ↔
      ∃ ancestors, (ancestors, label) ∈ forest.withAncestors [] ∧
        ∀ ancestor ∈ ancestors, closed ancestor = false := by
  rw [visible_eq, List.mem_filterMap]
  constructor
  · rintro ⟨⟨ancestors, other⟩, hmem, heq⟩
    by_cases hany : ancestors.any closed = true
    · simp [hany] at heq
    · obtain rfl : other = label := by simpa [hany] using heq
      refine ⟨ancestors, hmem, fun ancestor hancestor => ?_⟩
      simpa using fun hclosed => hany (List.any_eq_true.2 ⟨ancestor, hancestor, hclosed⟩)
  · rintro ⟨ancestors, hmem, hopen⟩
    refine ⟨(ancestors, label), hmem, ?_⟩
    have hany : ancestors.any closed = false := by
      rw [List.any_eq_false]
      intro ancestor hancestor
      simp [hopen ancestor hancestor]
    simp [hany]

/-- What is met is met in the order of the document. -/
theorem visible_sublist (closed : α → Bool) (forest : Forest α) :
    (forest.visible closed).Sublist forest.toList := by
  induction forest with
  | nil => exact List.Sublist.refl _
  | cons label children siblings ihc ihs =>
    rw [visible, toList]
    refine List.Sublist.cons_cons label (List.Sublist.append ?_ ihs)
    split
    · exact List.nil_sublist _
    · exact ihc

/-- A closed label between a place and the top of the forest hides it, and the outermost of
them is met. -/
theorem exists_closed_visible (closed : α → Bool) {forest : Forest α} {above ancestors : List α}
    {label : α} (h : (ancestors, label) ∈ forest.withAncestors above) :
    ∃ between, ancestors = between ++ above ∧
      (between.any closed = true →
        ∃ outer ∈ between, closed outer = true ∧ outer ∈ forest.visible closed) := by
  induction forest generalizing above with
  | nil => simp [withAncestors] at h
  | cons first children siblings ihc ihs =>
    simp only [withAncestors, List.mem_cons, List.mem_append] at h
    rcases h with h | h | h
    · exact ⟨[], congrArg Prod.fst h, by simp⟩
    · obtain ⟨between, hbetween, hclosed⟩ := ihc h
      refine ⟨between ++ [first], by simp [hbetween], fun hany => ?_⟩
      by_cases hfirst : closed first = true
      · exact ⟨first, by simp, hfirst, List.mem_cons_self⟩
      · obtain ⟨outer, hmem, houter, hvisible⟩ := hclosed (by simpa [hfirst] using hany)
        refine ⟨outer, by simp [hmem], houter, ?_⟩
        simp [visible, hfirst, hvisible]
    · obtain ⟨between, hbetween, hclosed⟩ := ihs h
      refine ⟨between, hbetween, fun hany => ?_⟩
      obtain ⟨outer, hmem, houter, hvisible⟩ := hclosed hany
      exact ⟨outer, hmem, houter, by simp [visible, hvisible]⟩

end Forest

end SourceChunks
