import SourceChunks.Proofs.Calculator.Costs
import SourceChunks.Proofs.Outline.Splicing

/-!
# Taking methods out of an outline

An outline that is too dear loses the fragments of its methods, the last one first.  Each is
looked up from the end of what is left, so what is found need not be the method itself: the
text of the fragment may stand once more behind it.  But it cannot be found before it, and that
is what keeps the loop in order.

* `removeFragment_append`: a fragment that stands behind a head is found there or further on,
  and the head stays.
* `ClassOutline.takesOut_pruned`: so before each removal the fragments that are still to come
  stand where they stood at first, and each removal takes its fragment's length.
* `ClassOutline.pruned_eq_filled`: if no fragment stands a second time behind itself, what is left
  is the outline without its last methods.
* `ClassOutline.stopsAt_removals`: the loop ends at the first outline that fits.
-/

namespace SourceChunks

namespace Bytes

/-- Bytes in front move the place where a needle is found. -/
theorem lastIndexOf?_append {needle bytes : Bytes} {place : Nat}
    (h : lastIndexOf? needle bytes = some place) (front : Bytes) :
    lastIndexOf? needle (front ++ bytes) = some (front.length + place) := by
  induction front with
  | nil => rw [List.nil_append, h, List.length_nil, Nat.zero_add]
  | cons byte front ih =>
    rw [List.cons_append, lastIndexOf?, ih, List.length_cons, Nat.add_right_comm]

/-- A needle at the front is found there or further on. -/
theorem exists_lastIndexOf?_append (needle back : Bytes) :
    ∃ place, lastIndexOf? needle (needle ++ back) = some place := by
  cases hbytes : needle ++ back with
  | nil =>
    rw [(List.append_eq_nil_iff.1 hbytes).1]
    exact ⟨0, rfl⟩
  | cons byte rest =>
    rw [lastIndexOf?]
    have hfront : needle.isPrefixOf (byte :: rest) = true :=
      List.isPrefixOf_iff_prefix.2 ⟨back, hbytes⟩
    split
    · exact ⟨_, rfl⟩
    · rw [if_pos hfront]
      exact ⟨0, rfl⟩

/-- Where a needle was found there is room for it. -/
theorem add_length_le_of_lastIndexOf? {needle bytes : Bytes} {place : Nat}
    (h : lastIndexOf? needle bytes = some place) : place + needle.length ≤ bytes.length := by
  obtain ⟨front, back, rfl, rfl⟩ := exists_of_lastIndexOf? h
  rw [List.length_append, List.length_append]
  omega

end Bytes

/-! ## One removal -/

theorem removeFragment_of_found {code fragment : Bytes} {place : Nat}
    (h : Bytes.lastIndexOf? fragment code = some place) (hpositive : 0 < place) :
    removeFragment code fragment = code.take place ++ code.drop (place + fragment.length) := by
  rw [removeFragment, h]
  exact if_pos hpositive

/-- A removal does not reach before a place where the fragment stands. -/
theorem removeFragment_append {head fragment back : Bytes} {place : Nat} (hhead : head ≠ [])
    (h : Bytes.lastIndexOf? fragment (fragment ++ back) = some place) :
    removeFragment (head ++ (fragment ++ back)) fragment =
      head ++ ((fragment ++ back).take place ++
        (fragment ++ back).drop (place + fragment.length)) := by
  have hpositive : 0 < head.length + place :=
    Nat.add_pos_left (List.length_pos_iff.2 hhead) _
  rw [removeFragment_of_found (Bytes.lastIndexOf?_append h head) hpositive,
    List.take_length_add_append, Nat.add_assoc, ← List.drop_drop, List.drop_left,
    List.append_assoc]

/-- The fragment stands behind the head; it is found there or further on, and not at the very
start; and what goes is one piece of the fragment's length, from where it was found. -/
structure TakesOut (fragment head code rest : Bytes) : Prop where
  stands : head ++ fragment <+: code
  found : ∃ place, Bytes.lastIndexOf? fragment code = some place ∧ 0 < place ∧
    head.length ≤ place ∧ rest = code.take place ++ code.drop (place + fragment.length)
  shorter : rest.length + fragment.length = code.length
  kept : head <+: rest

theorem takesOut_removeFragment {head fragment back : Bytes} (hhead : head ≠ []) :
    TakesOut fragment head (head ++ (fragment ++ back))
      (removeFragment (head ++ (fragment ++ back)) fragment) := by
  obtain ⟨place, hplace⟩ := Bytes.exists_lastIndexOf?_append fragment back
  have hfound := Bytes.lastIndexOf?_append hplace head
  have hpositive : 0 < head.length + place :=
    Nat.add_pos_left (List.length_pos_iff.2 hhead) _
  have hroom := Bytes.add_length_le_of_lastIndexOf? hfound
  have hrest := removeFragment_of_found hfound hpositive
  refine ⟨⟨back, List.append_assoc _ _ _⟩, ⟨_, hfound, hpositive, Nat.le_add_right _ _, hrest⟩, ?_,
    ?_⟩
  · rw [hrest, List.length_append, List.length_take, List.length_drop]
    omega
  · rw [removeFragment_append hhead hplace]
    exact List.prefix_append _ _

/-! ## Gaps and fragments -/

/-- What stands before a fragment: as many fragments as come before it, and the gaps around
them. -/
def leading (gaps fragments : List Bytes) (count : Nat) : Bytes :=
  filled (gaps.take (count + 1)) (fragments.take count)

/-- Behind the fragments that are kept, the gaps are all there is. -/
theorem filled_take (gaps fragments : List Bytes) (count : Nat) :
    filled gaps (fragments.take count) =
      leading gaps fragments count ++ (gaps.drop (count + 1)).flatten := by
  induction count generalizing gaps fragments with
  | zero =>
    rw [leading, List.take_zero, filled, filled, ← List.flatten_append, List.take_append_drop]
  | succ count ih =>
    cases gaps with
    | nil => cases fragments <;> rfl
    | cons gap gaps =>
      cases fragments with
      | nil =>
        rw [leading, List.take_nil, filled, filled, ← List.flatten_append, List.take_append_drop]
      | cons fragment fragments =>
        rw [leading, List.take_succ_cons, List.take_succ_cons, filled, filled, ih, leading,
          List.drop_succ_cons, ← List.append_assoc]

theorem leading_succ {gaps fragments : List Bytes} {count : Nat} {fragment gap : Bytes}
    (hfragment : fragments[count]? = some fragment) (hgap : gaps[count + 1]? = some gap) :
    leading gaps fragments (count + 1) = leading gaps fragments count ++ (fragment ++ gap) := by
  induction count generalizing gaps fragments with
  | zero =>
    obtain ⟨later, rfl⟩ := List.head?_eq_some_iff.1 (List.head?_eq_getElem?.trans hfragment)
    cases gaps with
    | nil => cases hgap
    | cons first gaps =>
      obtain ⟨rest, rfl⟩ := List.head?_eq_some_iff.1 (List.head?_eq_getElem?.trans hgap)
      simp only [leading, List.take_succ_cons, List.take_zero, filled, List.flatten_cons,
        List.flatten_nil, List.append_nil, List.append_assoc]
  | succ count ih =>
    cases gaps with
    | nil => cases hgap
    | cons first gaps =>
      cases fragments with
      | nil => cases hfragment
      | cons other fragments =>
        have hlater : leading gaps fragments (count + 1) =
            leading gaps fragments count ++ (fragment ++ gap) := ih hfragment hgap
        simp only [leading, List.take_succ_cons, filled] at hlater ⊢
        rw [hlater, List.append_assoc (first ++ other)]

theorem leading_ne_nil {first : Bytes} (h : first ≠ []) (gaps fragments : List Bytes)
    (count : Nat) : leading (first :: gaps) fragments count ≠ [] := by
  cases count with
  | zero => simpa [leading, filled] using h
  | succ count =>
    cases fragments with
    | nil => simp [leading, filled, h]
    | cons fragment fragments => simp [leading, filled, h]

namespace ClassOutline

/-- What is left when so many fragments have been taken out. -/
def pruned (outline : ClassOutline) (count : Nat) : Bytes :=
  (outline.fragments.reverse.take count).foldl removeFragment outline.code

/-- The code is the fragments with gaps around them, and does not begin with a fragment. -/
structure Interleaves (outline : ClassOutline) (gaps : List Bytes) : Prop where
  count : gaps.length = outline.fragments.length + 1
  code : outline.code = filled gaps outline.fragments
  headed : outline.fragments ≠ [] → ∃ first later, gaps = first :: later ∧ first ≠ []

variable {outline : ClassOutline} {gaps : List Bytes} {kept count : Nat} {fragment : Bytes}

theorem Interleaves.leading_ne_nil (h : outline.Interleaves gaps)
    (hfragment : outline.fragments[kept]? = some fragment) (place : Nat) :
    leading gaps outline.fragments place ≠ [] := by
  have hne : outline.fragments ≠ [] := by
    rintro hnil
    rw [hnil] at hfragment
    cases hfragment
  obtain ⟨first, later, rfl, hfirst⟩ := h.headed hne
  exact SourceChunks.leading_ne_nil hfirst _ _ _

/-- Behind a fragment is a gap, and then the later gaps. -/
theorem Interleaves.exists_gap (h : outline.Interleaves gaps)
    (hfragment : outline.fragments[kept]? = some fragment) :
    ∃ gap, gaps[kept + 1]? = some gap ∧
      (gaps.drop (kept + 1)).flatten = gap ++ (gaps.drop (kept + 1 + 1)).flatten := by
  obtain ⟨hlt, -⟩ := List.getElem?_eq_some_iff.1 hfragment
  have hgap : kept + 1 < gaps.length := by
    have := h.count
    omega
  refine ⟨gaps[kept + 1], List.getElem?_eq_getElem hgap, ?_⟩
  rw [List.drop_eq_getElem_cons hgap, List.flatten_cons]

/-- The next fragment to go is the last of those that are kept. -/
theorem pruned_succ (hfragment : outline.fragments[kept]? = some fragment)
    (hcount : kept + 1 + count = outline.fragments.length) :
    outline.pruned (count + 1) = removeFragment (outline.pruned count) fragment := by
  have hlast : outline.fragments.reverse[count]? = some fragment := by
    have hkept : outline.fragments.length - 1 - count = kept := by omega
    rw [List.getElem?_reverse (by omega), hkept, hfragment]
  rw [pruned, List.take_add_one, hlast, Option.toList_some, List.foldl_append, List.foldl_cons,
    List.foldl_nil, pruned]

/-- Where everything up to the last kept fragment stands as at first, it goes on so. -/
theorem Interleaves.takesOut_of_eq (h : outline.Interleaves gaps)
    (hfragment : outline.fragments[kept]? = some fragment)
    (hcount : kept + 1 + count = outline.fragments.length) {rest : Bytes}
    (heq : outline.pruned count = leading gaps outline.fragments (kept + 1) ++ rest) :
    TakesOut fragment (leading gaps outline.fragments kept) (outline.pruned count)
      (outline.pruned (count + 1)) := by
  obtain ⟨gap, hgap, -⟩ := h.exists_gap hfragment
  rw [pruned_succ hfragment hcount, heq, leading_succ hfragment hgap, List.append_assoc,
    List.append_assoc]
  exact takesOut_removeFragment (h.leading_ne_nil hfragment kept)

/-- **What is left** is as long as the outline without its last methods, and the same up to the
one that was taken out last. -/
theorem exists_pruned_eq (h : outline.Interleaves gaps)
    (hcount : kept + count = outline.fragments.length) :
    ∃ rest, outline.pruned count = leading gaps outline.fragments kept ++ rest ∧
      rest.length = (gaps.drop (kept + 1)).flatten.length := by
  induction count generalizing kept with
  | zero =>
    have hall : outline.fragments.take kept = outline.fragments :=
      List.take_of_length_le (by omega)
    refine ⟨_, ?_, rfl⟩
    rw [← filled_take, hall]
    exact h.code
  | succ count ih =>
    obtain ⟨rest, heq, hlength⟩ := ih (by omega : kept + 1 + count = outline.fragments.length)
    have hlt : kept < outline.fragments.length := by omega
    have hfragment := List.getElem?_eq_getElem hlt
    obtain ⟨gap, hgap, hbehind⟩ := h.exists_gap hfragment
    have hout := h.takesOut_of_eq hfragment (by omega) heq
    obtain ⟨left, hleft⟩ := hout.kept
    have hshorter := hout.shorter
    rw [← hleft, heq, leading_succ hfragment hgap] at hshorter
    simp only [List.length_append] at hshorter
    refine ⟨left, hleft.symm, ?_⟩
    rw [hbehind, List.length_append]
    omega

/-- **Each removal** takes out the length of the last method that is still there, and nothing
before it. -/
theorem takesOut_pruned (h : outline.Interleaves gaps)
    (hfragment : outline.fragments[kept]? = some fragment)
    (hcount : kept + 1 + count = outline.fragments.length) :
    TakesOut fragment (leading gaps outline.fragments kept) (outline.pruned count)
      (outline.pruned (count + 1)) := by
  obtain ⟨rest, heq, -⟩ := exists_pruned_eq h hcount
  exact h.takesOut_of_eq hfragment hcount heq

/-- **Whole methods go**, and nothing else, where none of them stands a second time behind
itself. -/
theorem pruned_eq_filled (h : outline.Interleaves gaps)
    (hcount : kept + count = outline.fragments.length)
    (hown : ∀ place fragment, kept ≤ place → outline.fragments[place]? = some fragment →
      Bytes.lastIndexOf? fragment (fragment ++ (gaps.drop (place + 1)).flatten) = some 0) :
    outline.pruned count = filled gaps (outline.fragments.take kept) := by
  induction count generalizing kept with
  | zero =>
    rw [List.take_of_length_le (by omega)]
    exact h.code
  | succ count ih =>
    have hlt : kept < outline.fragments.length := by omega
    have hfragment := List.getElem?_eq_getElem hlt
    obtain ⟨gap, hgap, hbehind⟩ := h.exists_gap hfragment
    have hlater : outline.pruned count = filled gaps (outline.fragments.take (kept + 1)) :=
      ih (by omega) fun place fragment hplace => hown place fragment (by omega)
    have hbefore : outline.pruned count = leading gaps outline.fragments kept ++
        (outline.fragments[kept] ++ (gaps.drop (kept + 1)).flatten) := by
      rw [hlater, filled_take, leading_succ hfragment hgap, List.append_assoc, List.append_assoc,
        ← hbehind]
    rw [pruned_succ hfragment (by omega), hbefore,
      removeFragment_append (h.leading_ne_nil hfragment kept)
        (hown kept _ (Nat.le_refl kept) hfragment),
      List.take_zero, List.nil_append, Nat.zero_add, List.drop_left, filled_take]

/-! ## When the loop ends -/

/-- How many fragments are taken out until what is left fits. -/
def rounds (cost : String → Int) (budget : Int) : List Bytes → Bytes → Nat
  | [], _ => 0
  | fragment :: earlier, code =>
    if cost (outlineText code) > budget then
      rounds cost budget earlier (removeFragment code fragment) + 1
    else 0

/-- How many methods an outline loses. -/
def removals (outline : ClassOutline) (cost : String → Int) (budget : Int) : Nat :=
  rounds cost budget outline.fragments.reverse outline.code

/-- It is the least number of removals after which the outline fits, or that of all fragments if
there is none. -/
structure StopsAt (outline : ClassOutline) (cost : String → Int) (budget : Int) (count : Nat) :
    Prop where
  le : count ≤ outline.fragments.length
  dear : ∀ fewer < count, budget < cost (outlineText (outline.pruned fewer))
  fits : count < outline.fragments.length → cost (outlineText (outline.pruned count)) ≤ budget

/-- A greater budget takes out no more. -/
theorem StopsAt.antitone {cost : String → Int} {budget budget' : Int} {count' : Nat}
    (h : outline.StopsAt cost budget count) (h' : outline.StopsAt cost budget' count')
    (hle : budget ≤ budget') : count' ≤ count := by
  by_contra hlt
  have hdear := h'.dear count (by omega)
  have hfits := h.fits (by have := h'.le; omega)
  omega

theorem rounds_spec (cost : String → Int) (budget : Int) (late : List Bytes) (code : Bytes) :
    let left : Nat → Bytes := fun count => (late.take count).foldl removeFragment code
    let count := rounds cost budget late code
    count ≤ late.length ∧ (∀ fewer < count, budget < cost (outlineText (left fewer))) ∧
      (count < late.length → cost (outlineText (left count)) ≤ budget) := by
  induction late generalizing code with
  | nil =>
    exact ⟨Nat.le_refl 0, fun _ hlt => absurd hlt (Nat.not_lt_zero _),
      fun hlt => absurd hlt (Nat.lt_irrefl 0)⟩
  | cons fragment earlier ih =>
    obtain ⟨hle, hdear, hfits⟩ := ih (removeFragment code fragment)
    intro left count
    by_cases h : cost (outlineText code) > budget
    · have hcount : count = rounds cost budget earlier (removeFragment code fragment) + 1 :=
        if_pos h
      rw [hcount]
      refine ⟨Nat.succ_le_succ hle, fun fewer hfewer => ?_, fun hlt => ?_⟩
      · cases fewer with
        | zero => exact h
        | succ fewer => exact hdear fewer (Nat.lt_of_succ_lt_succ hfewer)
      · exact hfits (Nat.lt_of_succ_lt_succ hlt)
    · have hcount : count = 0 := if_neg h
      rw [hcount]
      exact ⟨Nat.zero_le _, fun _ hlt => absurd hlt (Nat.not_lt_zero _), fun _ => Int.not_lt.1 h⟩

/-- **The loop stops** at the first outline that fits. -/
theorem stopsAt_removals (outline : ClassOutline) (cost : String → Int) (budget : Int) :
    outline.StopsAt cost budget (outline.removals cost budget) := by
  obtain ⟨hle, hdear, hfits⟩ := rounds_spec cost budget outline.fragments.reverse outline.code
  rw [List.length_reverse] at hle hfits
  exact ⟨hle, hdear, hfits⟩

/-- What the loop asks, and where it ends. -/
theorem yields_pruneOutline (cost : String → Int) (budget : Int) (late : List Bytes)
    (code : Bytes) :
    let left : Nat → Bytes := fun count => (late.take count).foldl removeFragment code
    let count := rounds cost budget late code
    Producer.Yields cost (pruneOutline budget late code)
      ((List.range (min (count + 1) late.length)).map fun fewer =>
        .cost (outlineText (left fewer)) (cost (outlineText (left fewer))))
      (left count, decide (0 < count)) := by
  induction late generalizing code with
  | nil => exact .done _
  | cons fragment earlier ih =>
    intro left count
    have hasked := Producer.Yields.priced cost (outlineText code)
    by_cases h : cost (outlineText code) > budget
    · have hcount : count = rounds cost budget earlier (removeFragment code fragment) + 1 :=
        if_pos h
      rw [hcount, List.length_cons, Nat.add_min_add_right, List.range_succ_eq_map, List.map_cons,
        List.map_map, decide_eq_true (Nat.succ_pos _)]
      refine hasked.bind ?_
      rw [if_pos h, ← List.append_nil (List.map _ _)]
      exact (ih (removeFragment code fragment)).bind (.done _)
    · have hcount : count = 0 := if_neg h
      rw [hcount, List.length_cons, Nat.add_min_add_right, Nat.zero_min]
      refine hasked.bind (?_ : Producer.Yields cost _ [] _)
      rw [if_neg h]
      exact .done _

/-- The questions of the loop: one about each outline that it looks at. -/
def asked (outline : ClassOutline) (cost : String → Int) (budget : Int) : List Event :=
  (List.range (min (outline.removals cost budget + 1) outline.fragments.length)).map fun count =>
    .cost (outlineText (outline.pruned count)) (cost (outlineText (outline.pruned count)))

/-- **The loop** leaves what is left after as many removals. -/
theorem yields_prune (outline : ClassOutline) (cost : String → Int) (budget : Int) :
    Producer.Yields cost (pruneOutline budget outline.fragments.reverse outline.code)
      (outline.asked cost budget)
      (outline.pruned (outline.removals cost budget),
        decide (0 < outline.removals cost budget)) := by
  have hyields := yields_pruneOutline cost budget outline.fragments.reverse outline.code
  rw [List.length_reverse] at hyields
  exact hyields

end ClassOutline

end SourceChunks
