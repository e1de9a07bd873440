import SourceChunks.Proofs.Text.Stripping
import SourceChunks.Text.Numeral

/-!
# Numerals among blanks

A numeral may stand among blanks, but fewer characters are blank to it than to a text: the four
information separators are not.  So a numeral that has been stripped as a text could be one that was
none before; but one that was a numeral before has lost only blanks that it skips by itself,
since none of its own characters is blank to either (`not_isBlank_of_signed?`).  It spells the
number that it did (`integer?_strip`).
-/

namespace SourceChunks.Text

/-- The whole number that characters with no blanks around them spell. -/
def signed? : List Char → Option Int
  | '-' :: digits => (magnitude? digits).map fun size => -(size : Int)
  | '+' :: digits => (magnitude? digits).map fun size => (size : Int)
  | digits => (magnitude? digits).map fun size => (size : Int)

theorem integer?_eq (text : String) :
    integer? text = signed? (stripBy isNumeralBlank text.toList) := by
  rw [integer?, signed?.eq_def]
  rfl

/-- No digit of any script is blank. -/
theorem not_isBlank_of_digitValue? {char : Char} {value : Nat} (h : digitValue? char = some value) :
    isBlank char = false := by
  have htable : ∀ nought ∈ zeroDigits, ∀ digit < 10,
      isBlank (Char.ofNat (nought + digit)) = false := by decide +kernel
  obtain ⟨nought, hfind, -⟩ := Option.map_eq_some_iff.1 h
  have hmem := List.mem_of_find?_eq_some hfind
  have hrange := List.find?_some hfind
  rw [Bool.and_eq_true, decide_eq_true_eq, decide_eq_true_eq] at hrange
  have hchar := htable nought hmem (char.toNat - nought) (by omega)
  rwa [Nat.add_sub_cancel' hrange.1, Char.ofNat_toNat] at hchar

/-- What spells digits is digits and low lines. -/
theorem not_isBlank_of_digitValues? {chars : List Char} {values : List Nat}
    (h : digitValues? chars = some values) : ∀ char ∈ chars, isBlank char = false := by
  induction chars using digitValues?.induct generalizing values with
  | case1 => exact nofun
  | case2 char rest ih =>
    rw [digitValues?.eq_def] at h
    obtain ⟨value, hvalue, hrest⟩ := Option.bind_eq_some_iff.1 h
    refine List.forall_mem_cons.2 ⟨not_isBlank_of_digitValue? hvalue, ?_⟩
    split at hrest
    · exact nofun
    · obtain ⟨others, hothers, -⟩ := Option.map_eq_some_iff.1 hrest
      exact List.forall_mem_cons.2 ⟨rfl, ih hothers⟩
    · next hother =>
      obtain ⟨others, hothers, -⟩ := Option.map_eq_some_iff.1 hrest
      split at ih
      · contradiction
      · next heq => exact absurd (List.cons.inj heq).1 hother
      · next heq =>
        obtain ⟨rfl, rfl⟩ := List.cons.inj heq
        exact ih hothers

theorem not_isBlank_of_signed? {chars : List Char} {value : Int} (h : signed? chars = some value) :
    ∀ char ∈ chars, isBlank char = false := by
  have hmagnitude : ∀ {digits : List Char} {sign : Int → Int},
      ((magnitude? digits).bind fun size => some (size : Int)).map sign = some value →
        ∀ char ∈ digits, isBlank char = false := by
    intro digits sign hsize
    obtain ⟨lifted, hlifted, -⟩ := Option.map_eq_some_iff.1 hsize
    obtain ⟨size, hsize, -⟩ := Option.bind_eq_some_iff.1 hlifted
    obtain ⟨values, hvalues, -⟩ := Option.bind_eq_some_iff.1 hsize
    exact not_isBlank_of_digitValues? hvalues
  unfold signed? at h
  split at h
  · exact List.forall_mem_cons.2 ⟨rfl, hmagnitude h⟩
  · exact List.forall_mem_cons.2 ⟨rfl, hmagnitude h⟩
  · exact hmagnitude h

/-- **A numeral stays one when it is stripped as a text**, and spells the same number. -/
theorem integer?_strip {text : String} {value : Int} (h : integer? text = some value) :
    integer? (strip text) = some value := by
  rw [integer?_eq] at h
  have hskipped : ∀ char, isNumeralBlank char = true → isBlank char = true := fun char hchar =>
    ((Bool.and_eq_true _ _).mp hchar).1
  obtain ⟨left, right, htext, hleft, hright⟩ := exists_eq_stripBy isNumeralBlank text.toList
  generalize stripBy isNumeralBlank text.toList = numeral at h htext
  have hnone := not_isBlank_of_signed? h
  have hnone' : ∀ char ∈ numeral, isNumeralBlank char = false := by
    intro char hchar
    rw [isNumeralBlank, hnone char hchar, Bool.false_and]
  have hstrip : stripBy isBlank text.toList = numeral := by
    rw [htext, stripBy_padded (fun char hchar => hskipped char (hleft char hchar))
      fun char hchar => hskipped char (hright char hchar), stripBy_of_none hnone]
  have hchars : (strip text).toList = numeral := String.toList_ofList.trans hstrip
  rw [integer?_eq, hchars, stripBy_of_none hnone', h]

/-- An empty text is no numeral. -/
theorem ne_empty_of_integer? {text : String} {value : Int} (h : integer? text = some value) :
    text ≠ "" := by
  rintro rfl
  cases h

end SourceChunks.Text
