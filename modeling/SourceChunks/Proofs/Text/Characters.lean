import SourceChunks.Text.Lines

/-!
# Where the characters of tidied texts come from

Stripping a text, taking blank lines out of it and joining texts as lines make no characters
but line feeds.  Of the lines of a text, those that stay when blank runs go are a part, in
order (`keptLines_sublist`).
-/

namespace SourceChunks.Text

section Lists

variable {α : Type} {separator : α} {lists : List (List α)} {item : α}

/-- What stands in joined lists is the separator, or stands in one of them. -/
theorem mem_intercalate (h : item ∈ [separator].intercalate lists) :
    item = separator ∨ ∃ list ∈ lists, item ∈ list := by
  induction lists with
  | nil => simp [List.intercalate] at h
  | cons list rest ih =>
    cases rest with
    | nil => exact Or.inr ⟨list, List.mem_singleton_self list, by simpa [List.intercalate] using h⟩
    | cons next others =>
      rw [List.intercalate_cons_cons, List.mem_append, List.mem_append, List.mem_singleton] at h
      rcases h with (h | h) | h
      · exact Or.inr ⟨list, List.mem_cons_self, h⟩
      · exact Or.inl h
      · exact (ih h).imp_right fun ⟨other, hother, hmem⟩ =>
          ⟨other, List.mem_cons_of_mem _ hother, hmem⟩

/-- What stands in a list stands in the lists joined. -/
theorem mem_intercalate_of_mem {list : List α} (hlist : list ∈ lists) (h : item ∈ list) :
    item ∈ [separator].intercalate lists := by
  induction lists with
  | nil => simp at hlist
  | cons first rest ih =>
    cases rest with
    | nil =>
      rw [List.mem_singleton.1 hlist] at h
      simpa [List.intercalate] using h
    | cons next others =>
      rw [List.intercalate_cons_cons, List.mem_append, List.mem_append]
      rcases List.mem_cons.1 hlist with rfl | hlist
      · exact Or.inl (Or.inl h)
      · exact Or.inr (ih hlist)

end Lists

/-- The lines that are kept are a part of the lines, in order. -/
theorem keptLines_sublist (lines : List (List Char)) : (keptLines lines).Sublist lines := by
  unfold keptLines
  dsimp only
  induction lines with
  | nil => exact List.Sublist.refl _
  | cons line rest ih =>
    rw [List.foldr_cons, BlankScan.up]
    split
    · exact ih.cons_cons line
    · refine List.Sublist.cons_cons line ?_
      split
      · exact (List.sublist_append_right _ _).trans ih
      · exact ih

variable {char : Char} {text : String}

theorem mem_of_mem_strip (h : char ∈ (strip text).toList) : char ∈ text.toList := by
  rw [strip, String.toList_ofList, stripChars, List.mem_reverse] at h
  have hdropped := (List.dropWhile_sublist isBlank).subset h
  rw [List.mem_reverse] at hdropped
  exact (List.dropWhile_sublist isBlank).subset hdropped

theorem mem_of_mem_removeBlankRuns (h : char ∈ (removeBlankRuns text).toList) :
    char = '\n' ∨ char ∈ text.toList := by
  rw [removeBlankRuns, String.toList_ofList] at h
  refine (mem_intercalate h).imp_right fun ⟨line, hline, hmem⟩ => ?_
  rw [← intercalate_pieces '\n' text.toList]
  exact mem_intercalate_of_mem ((keptLines_sublist _).subset hline) hmem

theorem mem_of_mem_joinLines {lines : List String} (h : char ∈ (joinLines lines).toList) :
    char = '\n' ∨ ∃ line ∈ lines, char ∈ line.toList := by
  rw [joinLines, String.toList_intercalate] at h
  refine (mem_intercalate h).imp_right fun ⟨chars, hchars, hmem⟩ => ?_
  obtain ⟨line, hline, rfl⟩ := List.mem_map.1 hchars
  exact ⟨line, hline, hmem⟩

end SourceChunks.Text
