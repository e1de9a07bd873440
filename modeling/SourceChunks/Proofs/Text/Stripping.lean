import Mathlib.Data.List.DropRight
import SourceChunks.Text.Blank

/-!
# What is skipped at the ends

Texts and numerals are both stripped, but not of the same characters.  What stripping does is
said here for characters of any kind that may be skipped (`stripBy`): the text falls into what
is skipped in front, what is left, and what is skipped behind (`exists_eq_stripBy`), more of it
at the ends makes no difference (`stripBy_padded`), and where none stands at an end nothing is
stripped (`stripBy_of_ends`).
-/

namespace SourceChunks.Text

/-- The characters without those at either end that are skipped. -/
def stripBy (skipped : Char → Bool) (chars : List Char) : List Char :=
  ((chars.dropWhile skipped).reverse.dropWhile skipped).reverse

variable {skipped : Char → Bool} {chars : List Char}

theorem dropWhile_of_head (h : ∀ char ∈ chars.head?, skipped char = false) :
    chars.dropWhile skipped = chars := by
  cases chars with
  | nil => rfl
  | cons char rest => rw [List.dropWhile_cons_of_neg (by simp [h char rfl])]

theorem stripBy_of_ends (hhead : ∀ char ∈ chars.head?, skipped char = false)
    (hlast : ∀ char ∈ chars.getLast?, skipped char = false) : stripBy skipped chars = chars := by
  have hbehind : chars.reverse.dropWhile skipped = chars.reverse :=
    dropWhile_of_head (by rw [List.head?_reverse]; exact hlast)
  rw [stripBy, dropWhile_of_head hhead, hbehind, List.reverse_reverse]

theorem stripBy_of_none (h : ∀ char ∈ chars, skipped char = false) :
    stripBy skipped chars = chars :=
  stripBy_of_ends (fun char hchar => h char (List.mem_of_mem_head? hchar))
    fun char hchar => h char (List.mem_of_mem_getLast? hchar)

/-- More to be skipped around a text makes no difference. -/
theorem stripBy_padded {left right : List Char} (hleft : ∀ char ∈ left, skipped char = true)
    (hright : ∀ char ∈ right, skipped char = true) :
    stripBy skipped (left ++ chars ++ right) = stripBy skipped chars := by
  have hright' : ∀ char ∈ right.reverse, skipped char = true := fun char hchar =>
    hright char (List.mem_reverse.1 hchar)
  rw [stripBy, List.append_assoc, List.dropWhile_append_of_pos hleft, List.dropWhile_append, stripBy]
  split
  · next hempty =>
    -- all of the text is skipped, and so is what stands behind it
    rw [List.isEmpty_iff.1 hempty, List.dropWhile_eq_nil_iff.2 hright]
  · rw [List.reverse_append, List.dropWhile_append_of_pos hright']

/-- What stripping leaves stands between characters that are skipped. -/
theorem exists_eq_stripBy (skipped : Char → Bool) (chars : List Char) :
    ∃ left right, chars = left ++ stripBy skipped chars ++ right ∧
      (∀ char ∈ left, skipped char = true) ∧ ∀ char ∈ right, skipped char = true := by
  let inner := (chars.dropWhile skipped).reverse
  have hinner : chars.dropWhile skipped =
      (inner.dropWhile skipped).reverse ++ (inner.takeWhile skipped).reverse := by
    rw [← List.reverse_append, List.takeWhile_append_dropWhile, List.reverse_reverse]
  refine ⟨chars.takeWhile skipped, (inner.takeWhile skipped).reverse, ?_, fun char hchar => ?_,
    fun char hchar => ?_⟩
  · rw [List.append_assoc, stripBy, ← hinner, List.takeWhile_append_dropWhile]
  · exact List.mem_takeWhile_imp hchar
  · exact List.mem_takeWhile_imp (List.mem_reverse.1 hchar)

/-- Blanks around a text are stripped with its own. -/
theorem strip_padded {left text right : String} (hleft : ∀ char ∈ left.toList, isBlank char = true)
    (hright : ∀ char ∈ right.toList, isBlank char = true) :
    strip (left ++ text ++ right) = strip text := by
  rw [strip, strip, String.toList_append, String.toList_append]
  exact congrArg String.ofList (stripBy_padded hleft hright)

end SourceChunks.Text
