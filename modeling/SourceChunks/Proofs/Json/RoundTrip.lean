import Mathlib.Tactic.SplitIfs
import SourceChunks.Json.Reader
import SourceChunks.Json.Writer

/-!
# Written values can be read

The written form of a value is read as that value, whatever texts stand in it
(`ofChars?_chars`), and holds no line feed (`newline_notMem_chars`), so that a text of lines
can be cut into its values again.

A value is read out of the middle of a text, so the statement that goes through the
induction is about a value with more after it (`Reads`).  What follows is told apart from the
value by its first character (`Closes`): a digit, say, would be taken for one of the number
before it.  The bound on the steps is counted against the characters that are written, two
for each, since every second step consumes one.
-/

namespace SourceChunks.Json

/-- What holds of a value if it holds of its parts, holds of every value. -/
@[elab_as_elim]
theorem inductionOn {motive : Json → Prop} (json : Json) (null : motive null)
    (bool : ∀ value, motive (bool value)) (number : ∀ value, motive (number value))
    (string : ∀ value, motive (string value))
    (array : ∀ items, (∀ item ∈ items, motive item) → motive (array items))
    (object : ∀ fields, (∀ field ∈ fields, motive field.2) → motive (object fields)) :
    motive json :=
  match json with
  | .null => null
  | .bool value => bool value
  | .number value => number value
  | .string value => string value
  | .array items => array items fun item _ =>
    inductionOn item null bool number string array object
  | .object fields => object fields fun field _ =>
    inductionOn field.2 null bool number string array object
termination_by sizeOf json
decreasing_by
  · have := List.sizeOf_lt_of_mem ‹item ∈ items›
    simp only [Json.array.sizeOf_spec]
    omega
  · have := List.sizeOf_lt_of_mem ‹field ∈ fields›
    have : sizeOf field.2 < sizeOf field := by
      obtain ⟨name, value⟩ := field
      simp only [Prod.mk.sizeOf_spec]
      omega
    simp only [Json.object.sizeOf_spec]
    omega

/-! ## Strings -/

theorem StringPrefix.settle_push (before : StringPrefix) (char : Char) :
    (before.push char).settle = char :: before.settle := rfl

/-- Four hexadecimal digits of a control character are read as its number. -/
theorem unit?_hexDigits {code : Nat} (h : code < 0x20) :
    unit? (Text.hexDigit (code / 16 / 16 / 16 % 16)) (Text.hexDigit (code / 16 / 16 % 16))
      (Text.hexDigit (code / 16 % 16)) (Text.hexDigit (code % 16)) = some code := by
  revert code
  decide

/-- A character that is neither a quote nor a backslash nor a control character stands for
itself. -/
theorem readString_cons (before : StringPrefix) {char : Char} (rest : List Char)
    (hquote : char ≠ '"') (hbackslash : char ≠ '\\') (hcontrol : ¬ char.toNat < 0x20) :
    readString before (char :: rest) = readString (before.push char) rest := by
  rw [readString]
  · exact if_neg hcontrol
  · exact hquote
  · exact fun _ _ _ _ _ h => absurd h hbackslash
  · exact fun _ _ h => absurd h hbackslash

/-- An escaped character is read as the character. -/
theorem readString_escapedChar (before : StringPrefix) (char : Char) (rest : List Char) :
    readString before (escapedChar char ++ rest) = readString (before.push char) rest := by
  unfold escapedChar
  split_ifs with hquote hbackslash hfeed hreturn htab hback hform hcontrol
  · subst hquote; rfl
  · subst hbackslash; rfl
  · subst hfeed; rfl
  · subst hreturn; rfl
  · subst htab; rfl
  · subst hback; rfl
  · subst hform; rfl
  · have hpush : before.pushUnit char.toNat = before.push char := by
      rw [StringPrefix.pushUnit, if_neg (by omega), if_neg (by omega), Char.ofNat_toNat]
    simp only [Text.hexDigits, List.nil_append, List.cons_append]
    rw [readString, unit?_hexDigits hcontrol]
    dsimp only
    rw [hpush]
  · exact readString_cons before rest hquote hbackslash hcontrol

/-- What follows the quote of a written string is read as its characters. -/
theorem readString_flatMap (before : StringPrefix) (chars rest : List Char) :
    readString before (chars.flatMap escapedChar ++ '"' :: rest) =
      some (String.ofList (before.settle.reverse ++ chars), rest) := by
  induction chars generalizing before with
  | nil => simp [readString]
  | cons char chars ih =>
    rw [List.flatMap_cons, List.append_assoc, readString_escapedChar, ih,
      StringPrefix.settle_push, List.reverse_cons, List.append_assoc, List.singleton_append]

/-- A written string is read as its text. -/
theorem readString_stringChars (text : String) (rest : List Char) :
    readString {} (text.toList.flatMap escapedChar ++ '"' :: rest) = some (text, rest) := by
  rw [readString_flatMap]
  simp [StringPrefix.settle]

/-! ## What stands around a value -/

/-- Nothing follows, or a sign that ends the value before it. -/
def Closes (rest : List Char) : Prop :=
  ∀ char ∈ rest.head?, char = ',' ∨ char = ']' ∨ char = '\x7d'

theorem closes_nil : Closes [] := by
  simp [Closes]

theorem closes_cons {char : Char} (rest : List Char)
    (h : char = ',' ∨ char = ']' ∨ char = '\x7d') : Closes (char :: rest) := by
  simpa [Closes] using h

/-- A written value begins with a sign that is no blank and ends no array. -/
theorem exists_chars_eq_cons (json : Json) :
    ∃ head tail, json.chars = head :: tail ∧ head ∉ [' ', '\n', '\t', '\r', ']'] := by
  cases json with
  | null => exact ⟨_, _, rfl, by decide⟩
  | bool value => cases value <;> exact ⟨_, _, rfl, by decide⟩
  | number value =>
    cases value with
    | ofNat size =>
      obtain ⟨head, tail, hdigits⟩ := List.exists_cons_of_ne_nil (Nat.toDigits_ne_nil (n := size))
      refine ⟨head, tail, hdigits, fun hmem => ?_⟩
      have hdigit := Nat.isDigit_of_mem_toDigits (by decide) (by decide)
        (hdigits ▸ List.mem_cons_self : head ∈ Nat.toDigits 10 size)
      simp only [List.mem_cons, List.not_mem_nil, or_false] at hmem
      rcases hmem with rfl | rfl | rfl | rfl | rfl <;> exact absurd hdigit (by decide)
    | negSucc size => exact ⟨_, _, rfl, by decide⟩
  | string value => exact ⟨_, _, rfl, by decide⟩
  | array items => exact ⟨_, _, rfl, by decide⟩
  | object fields => exact ⟨_, _, rfl, by decide⟩

theorem skipBlanks_cons {char : Char} (rest : List Char)
    (h : char ∉ [' ', '\n', '\t', '\r']) : skipBlanks (char :: rest) = char :: rest := by
  simp only [List.mem_cons, List.not_mem_nil, or_false, not_or] at h
  simp [skipBlanks, h]

theorem skipBlanks_chars (json : Json) (rest : List Char) :
    skipBlanks (json.chars ++ rest) = json.chars ++ rest := by
  obtain ⟨head, tail, hchars, hhead⟩ := json.exists_chars_eq_cons
  rw [hchars, List.cons_append]
  exact skipBlanks_cons _ fun hmem => hhead (List.mem_append_left [']'] hmem)

/-! ## Numbers -/

/-- A number is read up to the sign that ends it. -/
theorem readDigits_append {digits rest : List Char} (hne : digits ≠ [])
    (hdigits : ∀ char ∈ digits, char.isDigit = true) (h : Closes rest) :
    readDigits (digits ++ rest) = some (Nat.ofDigitChars 10 digits 0, rest) := by
  have hvalue : digits.foldl (fun value digit => value * 10 + (digit.toNat - '0'.toNat)) 0 =
      Nat.ofDigitChars 10 digits 0 := by
    simp only [Nat.ofDigitChars_eq_foldl, Nat.mul_comm 10]
  have hempty : digits.isEmpty = false := List.isEmpty_eq_false_iff.2 hne
  have hstop : rest.takeWhile Char.isDigit = [] ∧ rest.dropWhile Char.isDigit = rest := by
    cases rest with
    | nil => exact ⟨rfl, rfl⟩
    | cons char rest => rcases h char rfl with rfl | rfl | rfl <;> exact ⟨rfl, rfl⟩
  rw [readDigits, List.takeWhile_append_of_pos hdigits, List.dropWhile_append_of_pos hdigits,
    hstop.1, hstop.2, List.append_nil, hvalue]
  simp only [hempty, Bool.false_eq_true, if_false]
  cases rest with
  | nil => rfl
  | cons char rest => rcases h char rfl with rfl | rfl | rfl <;> rfl

theorem readDigits_toDigits (size : Nat) {rest : List Char} (h : Closes rest) :
    readDigits (Nat.toDigits 10 size ++ rest) = some (size, rest) := by
  have hdigits : ∀ char ∈ Nat.toDigits 10 size, char.isDigit = true :=
    fun _ => Nat.isDigit_of_mem_toDigits (by decide) (by decide)
  rw [readDigits_append Nat.toDigits_ne_nil hdigits h, Nat.ofDigitChars_ten_toDigits]

/-! ## Values -/

/-- The value is read where its written form stands, if there are two steps for each of its
characters. -/
def Reads (json : Json) : Prop :=
  ∀ fuel rest, 2 * json.chars.length ≤ fuel → Closes rest →
    readValue fuel (json.chars ++ rest) = some (json, rest)

theorem readValue_space (fuel : Nat) (text : List Char) :
    readValue fuel (' ' :: text) = readValue fuel text := by
  cases fuel with
  | zero => rw [readValue_zero, readValue_zero]
  | succ fuel => rw [readValue, readValue]; rfl

theorem readItems_space (fuel : Nat) (text : List Char) :
    readItems fuel (' ' :: text) = readItems fuel text := by
  cases fuel with
  | zero => rw [readItems_zero, readItems_zero]
  | succ fuel => rw [readItems, readItems, readValue_space]

theorem readFields_space (fuel : Nat) (text : List Char) :
    readFields fuel (' ' :: text) = readFields fuel text := by
  cases fuel with
  | zero => rw [readFields_zero, readFields_zero]
  | succ fuel => rw [readFields, readFields]; rfl

/-- A digit opens a number and nothing else. -/
theorem readValue_toDigits (fuel size : Nat) {rest : List Char} (h : Closes rest) :
    readValue (fuel + 1) (Nat.toDigits 10 size ++ rest) = some (number size, rest) := by
  have hskip : skipBlanks (Nat.toDigits 10 size ++ rest) = Nat.toDigits 10 size ++ rest :=
    skipBlanks_chars (number size) rest
  have hread := readDigits_toDigits size h
  have hhead : ∀ char ∈ (Nat.toDigits 10 size ++ rest).head?, char.isDigit = true := by
    intro char hchar
    rw [List.head?_append, List.head?_eq_some_head Nat.toDigits_ne_nil, Option.some_or] at hchar
    obtain rfl := Option.some.inj hchar
    exact Nat.isDigit_of_mem_toDigits (by decide) (by decide) (List.head_mem _)
  rw [readValue, hskip]
  generalize Nat.toDigits 10 size ++ rest = text at hread hhead ⊢
  split
  case h_8 => rw [hread]; rfl
  -- the other signs that open a value are no digits
  all_goals exact absurd (hhead _ rfl) (by decide)

theorem reads_null : null.Reads := by
  rintro (_ | fuel) rest hfuel -
  · simp [chars] at hfuel
  · rw [readValue]; rfl

theorem reads_bool (value : Bool) : (bool value).Reads := by
  rintro (_ | fuel) rest hfuel -
  · cases value <;> simp [chars] at hfuel
  · rw [readValue]; cases value <;> rfl

theorem readValue_minus (fuel : Nat) (text : List Char) : readValue (fuel + 1) ('-' :: text) =
    (readDigits text).map fun (size, rest) => (number (-(size : Int)), rest) := by
  rw [readValue]; rfl

theorem reads_number (value : Int) : (number value).Reads := by
  rintro (_ | fuel) rest hfuel hrest
  · obtain ⟨head, tail, hchars, -⟩ := (number value).exists_chars_eq_cons
    simp [hchars] at hfuel
  · cases value with
    | ofNat size => exact readValue_toDigits fuel size hrest
    | negSucc size =>
      rw [chars, numberChars, List.cons_append, readValue_minus, readDigits_toDigits _ hrest]
      rfl

theorem readValue_quote (fuel : Nat) (text : List Char) : readValue (fuel + 1) ('"' :: text) =
    (readString {} text).map fun (value, rest) => (string value, rest) := by
  rw [readValue]; rfl

theorem reads_string (value : String) : (string value).Reads := by
  rintro (_ | fuel) rest hfuel -
  · simp [chars, stringChars] at hfuel
  · rw [chars, stringChars, List.cons_append, List.cons_append, List.append_assoc,
      List.singleton_append, readValue_quote, readString_stringChars]
    rfl

/-! ## Arrays and objects -/

theorem separated_cons_cons (part next : List Char) (later : List (List Char)) :
    separated (part :: next :: later) = part ++ ',' :: ' ' :: separated (next :: later) := by
  simp [separated, List.intercalate_cons_cons]

/-- The items of an array are read up to its bracket. -/
theorem readItems_chars {item : Json} {items : List Json}
    (h : ∀ json ∈ item :: items, json.Reads) (fuel : Nat) (rest : List Char)
    (hfuel : 2 * (separated (itemChars (item :: items))).length + 1 ≤ fuel) :
    readItems fuel (separated (itemChars (item :: items)) ++ ']' :: rest) =
      some (item :: items, rest) := by
  induction items generalizing item fuel with
  | nil =>
    obtain ⟨hitem, -⟩ := List.forall_mem_cons.1 h
    obtain ⟨fuel, rfl⟩ := Nat.exists_eq_add_of_le' (Nat.le_of_add_left_le hfuel)
    have hchars : separated (itemChars [item]) = item.chars := by
      simp [itemChars, separated, List.intercalate]
    rw [hchars] at hfuel ⊢
    rw [readItems, hitem fuel _ (by omega) (closes_cons _ (by decide))]
    rfl
  | cons next items ih =>
    obtain ⟨hitem, hitems⟩ := List.forall_mem_cons.1 h
    obtain ⟨fuel, rfl⟩ := Nat.exists_eq_add_of_le' (Nat.le_of_add_left_le hfuel)
    rw [itemChars, itemChars, separated_cons_cons, ← itemChars] at hfuel ⊢
    simp only [List.length_append, List.length_cons] at hfuel
    rw [List.append_assoc, List.cons_append, List.cons_append, readItems,
      hitem fuel _ (by omega) (closes_cons _ (by decide))]
    have hlater := ih hitems fuel (by omega)
    simp only [Option.bind_eq_bind, Option.bind_some, skipBlanks_cons _ (by decide : ',' ∉ _),
      readItems_space, hlater]

/-- What follows the bracket of an array is read as items unless it closes the array. -/
theorem readValue_bracket {fuel : Nat} {text : List Char} {items : List Json} {rest : List Char}
    (hskip : skipBlanks text = text) (hhead : text.head? ≠ some ']')
    (h : readItems fuel text = some (items, rest)) :
    readValue (fuel + 1) ('[' :: text) = some (array items, rest) := by
  have hopen : skipBlanks ('[' :: text) = '[' :: text := rfl
  rw [readValue, hopen]
  simp only [hskip]
  split
  · exact absurd rfl hhead
  · rw [h]
    rfl

theorem reads_array {items : List Json} (h : ∀ item ∈ items, item.Reads) :
    (array items).Reads := by
  rintro (_ | fuel) rest hfuel -
  · simp [chars] at hfuel
  · rw [chars, List.cons_append, List.cons_append, List.append_assoc, List.singleton_append]
    cases items with
    | nil => rw [readValue]; rfl
    | cons item items =>
      obtain ⟨later, hchars⟩ : ∃ later,
          separated (itemChars (item :: items)) = item.chars ++ later := by
        cases items with
        | nil => exact ⟨[], by simp [itemChars, separated, List.intercalate]⟩
        | cons next items => exact ⟨_, separated_cons_cons _ _ _⟩
      refine readValue_bracket ?_ ?_ (readItems_chars h fuel rest ?_)
      · rw [hchars, List.append_assoc, skipBlanks_chars]
      · obtain ⟨head, tail, hcons, hhead⟩ := item.exists_chars_eq_cons
        rw [hchars, hcons]
        rintro heq
        rw [Option.some.inj heq] at hhead
        exact hhead (by decide)
      · rw [chars, List.length_append, List.length_cons] at hfuel
        simp only [List.length_singleton] at hfuel
        omega

/-- The name of a field is read up to the value, which is read as any other. -/
theorem readFields_field {fuel : Nat} {value : Json} (name : String) {rest : List Char}
    (h : value.Reads) (hfuel : 2 * value.chars.length ≤ fuel) (hrest : Closes rest) :
    readFields (fuel + 1) (stringChars name ++ ':' :: ' ' :: value.chars ++ rest) =
      match skipBlanks rest with
      | ',' :: rest => do
        let (fields, rest) ← readFields fuel rest
        some ((name, value) :: fields, rest)
      | '\x7d' :: rest => some ([(name, value)], rest)
      | _ => none := by
  have htext : stringChars name ++ ':' :: ' ' :: value.chars ++ rest =
      '"' :: (name.toList.flatMap escapedChar ++ '"' :: ':' :: ' ' :: (value.chars ++ rest)) := by
    simp [stringChars]
  have hvalue : readValue fuel (' ' :: (value.chars ++ rest)) = some (value, rest) := by
    rw [readValue_space, h fuel rest hfuel hrest]
  rw [htext, readFields, skipBlanks_cons _ (by decide)]
  simp only [readString_stringChars, Option.bind_eq_bind, Option.bind_some]
  rw [skipBlanks_cons _ (by decide)]
  show (readValue fuel (' ' :: (value.chars ++ rest))).bind _ = _
  rw [hvalue]
  rfl

/-- The fields of an object are read up to its brace. -/
theorem readFields_chars {field : String × Json} {fields : List (String × Json)}
    (h : ∀ other ∈ field :: fields, other.2.Reads) (fuel : Nat) (rest : List Char)
    (hfuel : 2 * (separated (fieldChars (field :: fields))).length + 1 ≤ fuel) :
    readFields fuel (separated (fieldChars (field :: fields)) ++ '\x7d' :: rest) =
      some (field :: fields, rest) := by
  induction fields generalizing field fuel with
  | nil =>
    obtain ⟨hfield, -⟩ := List.forall_mem_cons.1 h
    obtain ⟨fuel, rfl⟩ := Nat.exists_eq_add_of_le' (Nat.le_of_add_left_le hfuel)
    obtain ⟨name, value⟩ := field
    replace hfield : value.Reads := hfield
    have hchars : separated (fieldChars [(name, value)]) =
        stringChars name ++ ':' :: ' ' :: value.chars := by
      simp [fieldChars, separated, List.intercalate]
    rw [hchars] at hfuel ⊢
    simp only [List.length_append, List.length_cons] at hfuel
    rw [readFields_field name hfield (by omega) (closes_cons _ (by decide))]
    rfl
  | cons next fields ih =>
    obtain ⟨hfield, hfields⟩ := List.forall_mem_cons.1 h
    obtain ⟨fuel, rfl⟩ := Nat.exists_eq_add_of_le' (Nat.le_of_add_left_le hfuel)
    obtain ⟨name, value⟩ := field
    replace hfield : value.Reads := hfield
    obtain ⟨later, other⟩ := next
    rw [fieldChars, fieldChars, separated_cons_cons, ← fieldChars] at hfuel ⊢
    simp only [List.length_append, List.length_cons] at hfuel
    have hlater := ih hfields fuel (by omega)
    rw [List.append_assoc, List.cons_append, List.cons_append,
      readFields_field name hfield (by omega) (closes_cons _ (by decide)),
      skipBlanks_cons _ (by decide)]
    simp only [readFields_space, hlater, Option.bind_eq_bind, Option.bind_some]

theorem readValue_brace {fuel : Nat} {text : List Char} {fields : List (String × Json)}
    {rest : List Char} (h : readFields fuel ('"' :: text) = some (fields, rest)) :
    readValue (fuel + 1) ('\x7b' :: '"' :: text) = some (object fields, rest) := by
  have hopen : readValue (fuel + 1) ('\x7b' :: '"' :: text) =
      (readFields fuel ('"' :: text)).map fun (fields, rest) => (object fields, rest) := by
    rw [readValue]; rfl
  rw [hopen, h]
  rfl

theorem reads_object {fields : List (String × Json)} (h : ∀ field ∈ fields, field.2.Reads) :
    (object fields).Reads := by
  rintro (_ | fuel) rest hfuel -
  · simp [chars] at hfuel
  · rw [chars, List.cons_append, List.cons_append, List.append_assoc, List.singleton_append]
    cases fields with
    | nil => rw [readValue]; rfl
    | cons field fields =>
      obtain ⟨later, hchars⟩ :
          ∃ later, separated (fieldChars (field :: fields)) = '"' :: later := by
        obtain ⟨name, value⟩ := field
        cases fields with
        | nil => exact ⟨_, by simp [fieldChars, separated, List.intercalate, stringChars]; rfl⟩
        | cons next fields => exact ⟨_, separated_cons_cons _ _ _⟩
      have hread := readFields_chars h fuel rest (by
        rw [chars, List.length_append, List.length_cons] at hfuel
        simp only [List.length_singleton] at hfuel
        omega)
      rw [hchars, List.cons_append] at hread ⊢
      exact readValue_brace hread

/-- Every written value is read where it stands. -/
theorem reads (json : Json) : json.Reads := by
  induction json using inductionOn with
  | null => exact reads_null
  | bool value => exact reads_bool value
  | number value => exact reads_number value
  | string value => exact reads_string value
  | array items ih => exact reads_array ih
  | object fields ih => exact reads_object ih

/-- **A written value is read as the value.** -/
theorem ofChars?_chars (json : Json) : ofChars? json.chars = some json := by
  have hread := json.reads (2 * json.chars.length + 2) [] (Nat.le_add_right _ 2) closes_nil
  rw [List.append_nil] at hread
  rw [ofChars?, hread]
  rfl

/-! ## Line feeds -/

theorem newline_notMem_hexDigits (width value : Nat) : '\n' ∉ Text.hexDigits width value := by
  have hdigit : ∀ digit < 16, Text.hexDigit digit ≠ '\n' := by decide
  induction width generalizing value with
  | zero => exact List.not_mem_nil
  | succ width ih =>
    rw [Text.hexDigits, List.mem_append, List.mem_singleton, not_or]
    exact ⟨ih _, fun h => hdigit _ (Nat.mod_lt _ (by decide)) h.symm⟩

theorem newline_notMem_escapedChar (char : Char) : '\n' ∉ escapedChar char := by
  unfold escapedChar
  split_ifs with hquote hbackslash hfeed
  any_goals decide
  · simp [newline_notMem_hexDigits]
  · exact fun h => hfeed (List.mem_singleton.1 h).symm

theorem newline_notMem_stringChars (text : String) : '\n' ∉ stringChars text := by
  rw [stringChars, List.cons_append, List.mem_cons, List.mem_append, List.mem_flatMap]
  rintro (h | ⟨char, -, h⟩ | h)
  · exact absurd h (by decide)
  · exact newline_notMem_escapedChar char h
  · exact absurd h (by decide)

theorem newline_notMem_numberChars (value : Int) : '\n' ∉ numberChars value := by
  have hdigits : ∀ size : Nat, '\n' ∉ Nat.toDigits 10 size := fun size h =>
    absurd (Nat.isDigit_of_mem_toDigits (by decide) (by decide) h) (by decide)
  cases value with
  | ofNat size => exact hdigits size
  | negSucc size =>
    rw [numberChars, List.mem_cons, not_or]
    exact ⟨by decide, hdigits (size + 1)⟩

theorem newline_notMem_separated {parts : List (List Char)} (h : ∀ part ∈ parts, '\n' ∉ part) :
    '\n' ∉ separated parts := by
  induction parts with
  | nil => simp [separated, List.intercalate]
  | cons part later ih =>
    obtain ⟨hpart, hlater⟩ := List.forall_mem_cons.1 h
    cases later with
    | nil => simpa [separated, List.intercalate] using hpart
    | cons next others =>
      rw [separated_cons_cons, List.mem_append, List.mem_cons, List.mem_cons]
      rintro (hmem | hmem | hmem | hmem)
      · exact hpart hmem
      · exact absurd hmem (by decide)
      · exact absurd hmem (by decide)
      · exact ih hlater hmem

theorem fieldChars_eq_map (fields : List (String × Json)) : fieldChars fields =
    fields.map fun field => stringChars field.1 ++ ':' :: ' ' :: field.2.chars := by
  induction fields with
  | nil => rfl
  | cons field fields ih => rw [fieldChars, ih, List.map_cons]

/-- **A written value fits on one line.** -/
theorem newline_notMem_chars (json : Json) : '\n' ∉ json.chars := by
  induction json using inductionOn with
  | null => decide
  | bool value => cases value <;> decide
  | number value => exact newline_notMem_numberChars value
  | string value => exact newline_notMem_stringChars value
  | array items ih =>
    have hitems := newline_notMem_separated (List.forall_mem_map.2 ih)
    rw [chars, itemChars_eq_map]
    simpa using hitems
  | object fields ih =>
    have hfields : '\n' ∉ separated (fieldChars fields) := by
      rw [fieldChars_eq_map]
      refine newline_notMem_separated (List.forall_mem_map.2 fun field hfield => ?_)
      rw [List.mem_append, List.mem_cons, List.mem_cons]
      rintro (hmem | hmem | hmem | hmem)
      · exact newline_notMem_stringChars _ hmem
      · exact absurd hmem (by decide)
      · exact absurd hmem (by decide)
      · exact ih field hfield hmem
    rw [chars]
    simpa using hfields

end SourceChunks.Json
