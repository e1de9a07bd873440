import Mathlib.Tactic.SplitIfs
import SourceChunks.Proofs.Text.Stripping
import SourceChunks.Text.Lowercase

/-!
# Normal names stay as they are

A name that was brought into its normal form is its own normal form (`normalName_normalName`),
for names over all characters.  So it makes no difference how often a name is brought into it.

Lower case settles a character for good (`Settled`): no lower-case form of the table is moved
again by the table, and none of them is a capital sigma, the only character whose form depends
on where it stands.  And lower case makes nothing blank, so there is nothing to strip from a
text that was stripped before.
-/

namespace SourceChunks.Text

/-! ## The lower-case forms of the table -/

namespace CaseRun

/-- The number of the lower-case form of a character of the run. -/
def lowered (run : CaseRun) (code : Nat) : Nat :=
  (code + run.shift).toNat

/-- Do the lower-case forms of a run keep clear of another run?  They lie below it, or above it,
or in its gaps. -/
def clears (run other : CaseRun) : Bool :=
  Nat.blt (run.lowered run.last) other.first || Nat.blt other.last (run.lowered run.first) ||
    ((run.first == run.last || run.step % 2 == 0) && other.step % 2 == 0 &&
      Nat.blt 0 (run.lowered run.first) && (run.lowered run.first + other.first) % 2 == 1)

theorem holds_iff {run : CaseRun} {code : Nat} : run.holds code = true ↔
    run.first ≤ code ∧ code ≤ run.last ∧ run.step ∣ code - run.first := by
  simp [holds, Nat.dvd_iff_mod_eq_zero, and_assoc]

/-- A run that keeps clear of another one moves no character into it. -/
theorem holds_lowered {run other : CaseRun} (hclears : run.clears other = true) {code : Nat}
    (h : run.holds code = true) : other.holds (run.lowered code) = false := by
  rw [← Bool.not_eq_true, holds_iff]
  rintro ⟨hfirst, hlast, hgap⟩
  obtain ⟨hlow, hhigh, hstep⟩ := holds_iff.1 h
  simp only [clears, Nat.blt_eq, Bool.or_eq_true, Bool.and_eq_true, beq_iff_eq] at hclears
  unfold lowered at hclears hfirst hlast hgap
  rcases hclears with (hbelow | habove) | ⟨⟨⟨hrun, hother⟩, hpos⟩, hodd⟩
  · omega
  · omega
  · -- the members of the other run are all even or all odd, and the forms are of the other kind
    have heven : 2 ∣ code - run.first := by
      rcases hrun with hsingle | hrun
      · exact ⟨0, by omega⟩
      · exact Nat.dvd_trans (Nat.dvd_of_mod_eq_zero hrun) hstep
    have hgap := Nat.dvd_trans (Nat.dvd_of_mod_eq_zero hother) hgap
    omega

end CaseRun

/-- The blank characters, and the dotted capital I, whose lower-case form is not in the table. -/
def singledOut : List CaseRun :=
  [⟨0x09, 0x0D, 1, 0⟩, ⟨0x1C, 0x20, 1, 0⟩, ⟨0x85, 0x85, 1, 0⟩, ⟨0xA0, 0xA0, 1, 0⟩,
    ⟨0x1680, 0x1680, 1, 0⟩, ⟨0x2000, 0x200A, 1, 0⟩, ⟨0x2028, 0x2029, 1, 0⟩,
    ⟨0x202F, 0x202F, 1, 0⟩, ⟨0x205F, 0x205F, 1, 0⟩, ⟨0x3000, 0x3000, 1, 0⟩, ⟨0x130, 0x130, 1, 0⟩]

/-- No lower-case form of the table is moved again, or is singled out. -/
theorem clears_lowercaseRuns : (lowercaseRuns.all fun run =>
    (lowercaseRuns ++ singledOut).all run.clears) = true := by
  decide +kernel

theorem not_singledOut {char : Char} (h : ∀ run ∈ singledOut, run.holds char.toNat = false) :
    isBlank char = false ∧ char ≠ 'İ' := by
  simp only [singledOut, List.forall_mem_cons, CaseRun.holds, Nat.mod_one, beq_self_eq_true,
    Bool.and_eq_false_iff, decide_eq_false_iff_not, Bool.true_eq_false, or_false] at h
  constructor
  · simp only [isBlank, Bool.or_eq_false_iff, Bool.and_eq_false_iff, decide_eq_false_iff_not,
      beq_eq_false_iff_ne]
    omega
  · rintro rfl
    exact absurd h (by decide)

/-! ## Settled characters -/

/-- The character is its own lower-case form, wherever it stands. -/
def Settled (char : Char) : Prop :=
  char ≠ 'Σ' ∧ lowercaseChar char = [char]

instance (char : Char) : Decidable (Settled char) :=
  inferInstanceAs (Decidable (_ ∧ _))

/-- A character that is in no run of the table and is not singled out is settled. -/
theorem settled_of_not_holds {char : Char}
    (h : ∀ run ∈ lowercaseRuns ++ singledOut, run.holds char.toNat = false) :
    Settled char ∧ isBlank char = false := by
  rw [List.forall_mem_append] at h
  obtain ⟨hblank, hdotted⟩ := not_singledOut h.2
  refine ⟨⟨?_, ?_⟩, hblank⟩
  · rintro rfl
    exact absurd h.1 (by decide)
  · have hfind : lowercaseRuns.find? (·.holds char.toNat) = none := by
      rw [List.find?_eq_none]
      exact fun run hrun => Bool.eq_false_iff.1 (h.1 run hrun)
    rw [lowercaseChar, if_neg hdotted, hfind]

/-- What lower case makes of a character is settled, and not blank unless the character is. -/
theorem settled_of_mem_lowercaseChar {char lower : Char} (hsigma : char ≠ 'Σ')
    (h : lower ∈ lowercaseChar char) :
    Settled lower ∧ (isBlank char = false → isBlank lower = false) := by
  by_cases hdotted : char = 'İ'
  · subst hdotted
    have hlower : lower ∈ ['i', '\u0307'] := h
    rw [List.mem_cons, List.mem_singleton] at hlower
    rcases hlower with rfl | rfl
    · exact ⟨by decide, fun _ => by decide⟩
    · exact ⟨by decide, fun _ => by decide⟩
  · rw [lowercaseChar, if_neg hdotted] at h
    cases hfind : lowercaseRuns.find? (·.holds char.toNat) with
    | none =>
      rw [hfind] at h
      obtain rfl := List.mem_singleton.1 h
      exact ⟨⟨hsigma, by rw [lowercaseChar, if_neg hdotted, hfind]⟩, id⟩
    | some run =>
      rw [hfind] at h
      obtain rfl := List.mem_singleton.1 h
      have hholds : run.holds char.toNat = true := by
        simpa using List.find?_some hfind
      have hclears : ∀ other ∈ lowercaseRuns ++ singledOut,
          other.holds (run.lowered char.toNat) = false := fun other hother =>
        CaseRun.holds_lowered
          (List.all_eq_true.1 (List.all_eq_true.1 clears_lowercaseRuns run
            (List.mem_of_find?_eq_some hfind)) other hother) hholds
      suffices hlower : Settled (Char.ofNat (run.lowered char.toNat)) ∧
          isBlank (Char.ofNat (run.lowered char.toNat)) = false from
        ⟨hlower.1, fun _ => hlower.2⟩
      by_cases hvalid : (run.lowered char.toNat).isValidChar
      · have htoNat : (Char.ofNat (run.lowered char.toNat)).toNat = run.lowered char.toNat := by
          rw [Char.ofNat, dif_pos hvalid]
          rfl
        refine settled_of_not_holds ?_
        rwa [htoNat]
      · rw [show Char.ofNat (run.lowered char.toNat) = Char.ofNat 0 from ?_]
        · decide
        · rw [Char.ofNat, dif_neg hvalid]
          rfl

/-! ## Lower case, twice -/

/-- What stands for a character in the lower-case form of a text. -/
def lowercaseAt (before : List Char) (char : Char) (rest : List Char) : List Char :=
  if char = 'Σ' then [if endsWord before rest then 'ς' else 'σ'] else lowercaseChar char

theorem lowercaseAfter_cons (before : List Char) (char : Char) (rest : List Char) :
    lowercaseAfter before (char :: rest) =
      lowercaseAt before char rest ++ lowercaseAfter (char :: before) rest := rfl

theorem settled_of_mem_lowercaseAt {before rest : List Char} {char lower : Char}
    (h : lower ∈ lowercaseAt before char rest) :
    Settled lower ∧ (isBlank char = false → isBlank lower = false) := by
  unfold lowercaseAt at h
  split_ifs at h with hsigma hends
  · obtain rfl := List.mem_singleton.1 h
    exact ⟨by decide, fun _ => by decide⟩
  · obtain rfl := List.mem_singleton.1 h
    exact ⟨by decide, fun _ => by decide⟩
  · exact settled_of_mem_lowercaseChar hsigma h

theorem lowercaseAt_ne_nil (before : List Char) (char : Char) (rest : List Char) :
    lowercaseAt before char rest ≠ [] := by
  by_cases hsigma : char = 'Σ'
  · rw [lowercaseAt, if_pos hsigma]
    exact List.cons_ne_nil _ _
  · rw [lowercaseAt, if_neg hsigma, lowercaseChar]
    split
    · exact List.cons_ne_nil _ _
    · split <;> exact List.cons_ne_nil _ _

theorem settled_of_mem_lowercaseAfter {before chars : List Char} {lower : Char}
    (h : lower ∈ lowercaseAfter before chars) : Settled lower := by
  induction chars generalizing before with
  | nil => exact absurd h List.not_mem_nil
  | cons char rest ih =>
    rw [lowercaseAfter_cons, List.mem_append] at h
    exact h.elim (fun h => (settled_of_mem_lowercaseAt h).1) ih

/-- Settled characters stay as they are, whatever comes before them. -/
theorem lowercaseAfter_of_settled {chars : List Char} (h : ∀ char ∈ chars, Settled char)
    (before : List Char) : lowercaseAfter before chars = chars := by
  induction chars generalizing before with
  | nil => rfl
  | cons char rest ih =>
    obtain ⟨⟨hsigma, hchar⟩, hrest⟩ := List.forall_mem_cons.1 h
    rw [lowercaseAfter_cons, lowercaseAt, if_neg hsigma, hchar, ih hrest, List.singleton_append]

/-! ## Stripping, twice -/

/-- The characters neither begin nor end with a blank. -/
def Trimmed (chars : List Char) : Prop :=
  (∀ char ∈ chars.head?, isBlank char = false) ∧ ∀ char ∈ chars.getLast?, isBlank char = false

theorem not_isBlank_of_mem_head?_dropWhile {chars : List Char} {char : Char}
    (h : char ∈ (chars.dropWhile isBlank).head?) : isBlank char = false := by
  have hhead := List.head?_dropWhile_not isBlank chars
  rw [Option.mem_def.1 h] at hhead
  exact hhead

theorem trimmed_stripChars (chars : List Char) : Trimmed (stripChars chars) := by
  unfold Trimmed stripChars
  rw [List.head?_reverse, List.getLast?_reverse]
  refine ⟨fun char hchar => ?_, fun char hchar => not_isBlank_of_mem_head?_dropWhile hchar⟩
  -- what is left at the front ends where the whole ends, seen from behind
  obtain ⟨dropped, hsuffix⟩ :
      (chars.dropWhile isBlank).reverse.dropWhile isBlank <:+ (chars.dropWhile isBlank).reverse :=
    List.dropWhile_suffix isBlank
  have hhead : (chars.dropWhile isBlank).head? = some char := by
    rw [← List.getLast?_reverse, ← hsuffix, List.getLast?_append, Option.mem_def.1 hchar,
      Option.some_or]
  exact not_isBlank_of_mem_head?_dropWhile hhead

theorem stripChars_of_trimmed {chars : List Char} (h : Trimmed chars) :
    stripChars chars = chars :=
  stripBy_of_ends h.1 h.2

theorem Trimmed.lowercaseAfter {chars : List Char} (h : Trimmed chars) (before : List Char) :
    Trimmed (lowercaseAfter before chars) := by
  constructor
  · cases chars with
    | nil => simp [Text.lowercaseAfter]
    | cons char rest =>
      obtain ⟨first, others, hfirst⟩ :=
        List.exists_cons_of_ne_nil (lowercaseAt_ne_nil before char rest)
      have hmem : first ∈ lowercaseAt before char rest := hfirst ▸ List.mem_cons_self
      rw [lowercaseAfter_cons, hfirst]
      rintro _ ⟨⟩
      exact (settled_of_mem_lowercaseAt hmem).2 (h.1 char rfl)
  · have hlast := h.2
    clear h
    induction chars generalizing before with
    | nil => simp [Text.lowercaseAfter]
    | cons char rest ih =>
      intro lower hlower
      rw [lowercaseAfter_cons, List.getLast?_append] at hlower
      cases rest with
      | nil =>
        have hmem : lower ∈ lowercaseAt before char [] := List.mem_of_mem_getLast? hlower
        exact (settled_of_mem_lowercaseAt hmem).2 (hlast char rfl)
      | cons next others =>
        have hne : Text.lowercaseAfter (char :: before) (next :: others) ≠ [] := by
          rw [lowercaseAfter_cons]
          exact List.append_ne_nil_of_left_ne_nil (lowercaseAt_ne_nil _ _ _) _
        refine ih (char :: before) (fun last hmem => hlast last ?_) lower ?_
        · rwa [List.getLast?_cons_cons]
        · rw [List.getLast?_eq_some_getLast hne] at hlower ⊢
          exact hlower

/-- **A normal name is its own normal form.** -/
@[simp] theorem normalName_normalName (name : Option String) :
    normalName (some (normalName name)) = normalName name := by
  have htrimmed := (trimmed_stripChars (name.getD "").toList).lowercaseAfter []
  have hsettled : ∀ char ∈ lowercaseAfter [] (stripChars (name.getD "").toList), Settled char :=
    fun _ hmem => settled_of_mem_lowercaseAfter hmem
  simp only [normalName, Option.getD_some, lowercase, strip, String.toList_ofList,
    stripChars_of_trimmed htrimmed, lowercaseAfter_of_settled hsettled]

end SourceChunks.Text
