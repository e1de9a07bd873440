import SourceChunks.Text.Utf8

/-!
# Well-formed bytes

The reader of bytes is lenient, and on the bytes of a text it reads that text
(`decode_encode`).  This file is about byte strings that are the bytes of a text, and about
the places at which they may be cut.

* A character's first byte is no continuation byte, and all its others are
  (`exists_isForm`).  So the bytes of a text may be cut wherever no continuation byte
  follows, and both parts are bytes of texts again (`exists_split_of_head`).
* The bytes of a text that stand inside those of another are cut out along its characters
  (`exists_split_of_infix`), for they begin with a first byte and read on from there alike.

`Spells` says of bytes that they are those of a text, and of which characters; so it comes
with what may be done to such bytes.  They may be put one after the other, cut where a
character ends (`spells_slice`), and others of the sort taken out of them, wherever they
stand (`Spells.remove`).
-/

namespace SourceChunks.Utf8

/-! ## One character -/

/-- Is the byte one that only continues a character? -/
def isContinuation (byte : UInt8) : Bool :=
  decide (0x80 ≤ byte.toNat ∧ byte.toNat ≤ 0xBF)

theorem trails?_one {lead : UInt8} (h : lead.toNat < 0x80) : trails? lead = some [] := by
  unfold trails?
  rw [if_pos (UInt8.lt_iff_toNat_lt.2 h)]

theorem trails?_two {lead : UInt8} (hlow : 0xC2 ≤ lead.toNat) (hhigh : lead.toNat < 0xE0) :
    trails? lead = some [continuation] := by
  unfold trails?
  simp only [UInt8.lt_iff_toNat_lt, UInt8.reduceToNat]
  rw [if_neg (by omega), if_neg (by omega), if_pos hhigh]

theorem trails?_three (lead : UInt8) (hlow : 0xE0 ≤ lead.toNat) (hhigh : lead.toNat < 0xF0) :
    ∃ low high, trails? lead = some [(low, high), continuation] ∧
      low.toNat = (if lead.toNat = 0xE0 then 0xA0 else 0x80) ∧
      high.toNat = (if lead.toNat = 0xED then 0x9F else 0xBF) := by
  unfold trails?
  simp only [UInt8.lt_iff_toNat_lt, UInt8.reduceToNat, beq_iff_eq, ← UInt8.toNat_inj]
  rw [if_neg (by omega), if_neg (by omega), if_neg (by omega)]
  by_cases hfirst : lead.toNat = 0xE0
  · rw [if_pos hfirst]
    exact ⟨0xA0, 0xBF, rfl, by rw [if_pos hfirst]; rfl, by rw [if_neg (by omega)]; rfl⟩
  · rw [if_neg hfirst]
    by_cases hsurrogate : lead.toNat = 0xED
    · rw [if_pos hsurrogate]
      exact ⟨0x80, 0x9F, rfl, by rw [if_neg hfirst]; rfl, by rw [if_pos hsurrogate]; rfl⟩
    · rw [if_neg hsurrogate, if_pos hhigh]
      exact ⟨0x80, 0xBF, rfl, by rw [if_neg hfirst]; rfl, by rw [if_neg hsurrogate]; rfl⟩

theorem trails?_four (lead : UInt8) (hlow : 0xF0 ≤ lead.toNat) (hhigh : lead.toNat ≤ 0xF4) :
    ∃ low high, trails? lead = some [(low, high), continuation, continuation] ∧
      low.toNat = (if lead.toNat = 0xF0 then 0x90 else 0x80) ∧
      high.toNat = (if lead.toNat = 0xF4 then 0x8F else 0xBF) := by
  unfold trails?
  simp only [UInt8.lt_iff_toNat_lt, UInt8.reduceToNat, beq_iff_eq, ← UInt8.toNat_inj]
  rw [if_neg (by omega), if_neg (by omega), if_neg (by omega), if_neg (by omega),
    if_neg (by omega), if_neg (by omega)]
  by_cases hfirst : lead.toNat = 0xF0
  · rw [if_pos hfirst]
    exact ⟨0x90, 0xBF, rfl, by rw [if_pos hfirst]; rfl, by rw [if_neg (by omega)]; rfl⟩
  · rw [if_neg hfirst]
    by_cases hlast : lead.toNat < 0xF4
    · rw [if_pos hlast]
      exact ⟨0x80, 0xBF, rfl, by rw [if_neg hfirst]; rfl, by rw [if_neg (by omega)]; rfl⟩
    · have hlast' : lead.toNat = 0xF4 := by omega
      rw [if_neg hlast, if_pos hlast']
      exact ⟨0x80, 0x8F, rfl, by rw [if_neg hfirst]; rfl, by rw [if_pos hlast']; rfl⟩

/-- A byte inside the range that is due is taken. -/
theorem matching_cons {low high byte : UInt8} (ranges : List (UInt8 × UInt8)) (rest : Bytes)
    (hlow : low.toNat ≤ byte.toNat) (hhigh : byte.toNat ≤ high.toNat) :
    matching ((low, high) :: ranges) (byte :: rest) = matching ranges rest + 1 := by
  rw [matching, if_pos ⟨UInt8.le_iff_toNat_le.2 hlow, UInt8.le_iff_toNat_le.2 hhigh⟩]

theorem matching_continuation {byte : UInt8} (h : isContinuation byte = true)
    (ranges : List (UInt8 × UInt8)) (rest : Bytes) :
    matching (continuation :: ranges) (byte :: rest) = matching ranges rest + 1 := by
  rw [isContinuation, decide_eq_true_eq] at h
  exact matching_cons ranges rest h.1 h.2

/-- The bytes are a form of the character: a first byte that is no continuation byte, others
that are, and whatever follows, the reader takes just these and reads the character. -/
structure IsForm (char : Char) (lead : UInt8) (trail : Bytes) : Prop where
  begins : isContinuation lead = false
  continues : ∀ byte ∈ trail, isContinuation byte = true
  read : ∀ rest, decodeHead lead (trail ++ rest) = (char, trail.length)

/-- A first byte with all the bytes it asks for is a form of the character whose value
they spell. -/
theorem IsForm.of_trails {value : Nat} {lead : UInt8} {ranges : List (UInt8 × UInt8)}
    {trail : Bytes} (hlead : isContinuation lead = false)
    (htrail : ∀ byte ∈ trail, isContinuation byte = true) (hvalue : scalar lead trail = value)
    (htrails : trails? lead = some ranges) (hlength : trail.length = ranges.length)
    (hmatching : ∀ rest, matching ranges (trail ++ rest) = ranges.length) :
    IsForm (Char.ofNat value) lead trail := by
  refine ⟨hlead, htrail, fun rest => ?_⟩
  unfold decodeHead
  rw [htrails]
  simp only [hmatching, if_true]
  rw [← hlength, List.take_left, hvalue]

theorem toNat_ofNat_of_lt {n : Nat} (h : n < 256) : (UInt8.ofNat n).toNat = n := by
  rw [UInt8.toNat_ofNat']
  exact Nat.mod_eq_of_lt h

/-- The byte with the given low bits after the bit that marks continuations. -/
theorem isContinuation_ofNat {n : Nat} (h : n < 64) :
    isContinuation (UInt8.ofNat (n + 128)) = true := by
  rw [isContinuation, toNat_ofNat_of_lt (by omega), decide_eq_true_eq]
  omega

theorem isContinuation_eq_false {byte : UInt8} (h : byte.toNat < 0x80 ∨ 0xBF < byte.toNat) :
    isContinuation byte = false := by
  rw [isContinuation, decide_eq_false_iff_not]
  omega

theorem isForm_one {value : Nat} (h : value ≤ 0x7F) : IsForm (Char.ofNat value) (UInt8.ofNat value) [] := by
  have hlead := toNat_ofNat_of_lt (n := value) (by omega)
  exact .of_trails (isContinuation_eq_false (by omega)) (by simp) hlead (trails?_one (by omega)) rfl
    fun _ => rfl

theorem isForm_two {value : Nat} (hlow : 0x7F < value) (hhigh : value ≤ 0x7FF) :
    IsForm (Char.ofNat value) (UInt8.ofNat (value / 64 % 32 + 192)) [UInt8.ofNat (value % 64 + 128)] := by
  have hlead := toNat_ofNat_of_lt (n := value / 64 % 32 + 192) (by omega)
  have hlast := toNat_ofNat_of_lt (n := value % 64 + 128) (by omega)
  have hcont := isContinuation_ofNat (n := value % 64) (by omega)
  refine .of_trails (isContinuation_eq_false (by omega)) (List.forall_mem_singleton.2 hcont) ?_
    (trails?_two (by omega) (by omega)) rfl (matching_continuation hcont [])
  simp only [scalar, leadBits, List.length_singleton, List.foldl_cons, List.foldl_nil, hlead, hlast]
  omega

theorem isForm_three {value : Nat} (hlow : 0x7FF < value) (hhigh : value ≤ 0xFFFF)
    (hvalid : value < 0xD800 ∨ 0xDFFF < value) :
    IsForm (Char.ofNat value) (UInt8.ofNat (value / 4096 % 16 + 224))
      [UInt8.ofNat (value / 64 % 64 + 128), UInt8.ofNat (value % 64 + 128)] := by
  have hlead := toNat_ofNat_of_lt (n := value / 4096 % 16 + 224) (by omega)
  have hsecond := toNat_ofNat_of_lt (n := value / 64 % 64 + 128) (by omega)
  have hlast := toNat_ofNat_of_lt (n := value % 64 + 128) (by omega)
  have hcont := isContinuation_ofNat (n := value / 64 % 64) (by omega)
  have hcont' := isContinuation_ofNat (n := value % 64) (by omega)
  obtain ⟨low, high, htrails, hlow', hhigh'⟩ :=
    trails?_three (UInt8.ofNat (value / 4096 % 16 + 224)) (by omega) (by omega)
  rw [hlead] at hlow' hhigh'
  refine .of_trails (isContinuation_eq_false (by omega))
    (List.forall_mem_cons.2 ⟨hcont, List.forall_mem_singleton.2 hcont'⟩) ?_ htrails rfl
    fun rest => ?_
  · simp only [scalar, leadBits, List.length_cons, List.length_nil, List.foldl_cons,
      List.foldl_nil, hlead, hsecond, hlast]
    omega
  · -- no shorter form below `E0 A0`, no surrogate above `ED 9F`
    rw [List.cons_append, matching_cons _ _ (by split at hlow' <;> omega)
      (by split at hhigh' <;> omega)]
    exact congrArg (· + 1) (matching_continuation hcont' [] rest)

theorem isForm_four {value : Nat} (hlow : 0xFFFF < value) (hhigh : value < 0x110000) :
    IsForm (Char.ofNat value) (UInt8.ofNat (value / 262144 % 8 + 240))
      [UInt8.ofNat (value / 4096 % 64 + 128), UInt8.ofNat (value / 64 % 64 + 128),
        UInt8.ofNat (value % 64 + 128)] := by
  have hlead := toNat_ofNat_of_lt (n := value / 262144 % 8 + 240) (by omega)
  have hsecond := toNat_ofNat_of_lt (n := value / 4096 % 64 + 128) (by omega)
  have hthird := toNat_ofNat_of_lt (n := value / 64 % 64 + 128) (by omega)
  have hlast := toNat_ofNat_of_lt (n := value % 64 + 128) (by omega)
  have hcont := isContinuation_ofNat (n := value / 4096 % 64) (by omega)
  have hcont' := isContinuation_ofNat (n := value / 64 % 64) (by omega)
  have hcont'' := isContinuation_ofNat (n := value % 64) (by omega)
  obtain ⟨low, high, htrails, hlow', hhigh'⟩ :=
    trails?_four (UInt8.ofNat (value / 262144 % 8 + 240)) (by omega) (by omega)
  rw [hlead] at hlow' hhigh'
  refine .of_trails (isContinuation_eq_false (by omega)) (List.forall_mem_cons.2
    ⟨hcont, List.forall_mem_cons.2 ⟨hcont', List.forall_mem_singleton.2 hcont''⟩⟩) ?_ htrails rfl
    fun rest => ?_
  · simp only [scalar, leadBits, List.length_cons, List.length_nil, List.foldl_cons,
      List.foldl_nil, hlead, hsecond, hthird, hlast]
    omega
  · -- no shorter form below `F0 90`, nothing past the last character above `F4 8F`
    rw [List.cons_append, matching_cons _ _ (by split at hlow' <;> omega)
      (by split at hhigh' <;> omega), List.cons_append, matching_continuation hcont']
    exact congrArg (· + 1 + 1) (matching_continuation hcont'' [] rest)

/-- **One character.**  The bytes that are written for it are a form of it. -/
theorem exists_isForm (char : Char) :
    ∃ lead trail, String.utf8EncodeChar char = lead :: trail ∧ IsForm char lead trail := by
  have hvalid : char.val.toNat < 0xD800 ∨ 0xDFFF < char.val.toNat ∧ char.val.toNat < 0x110000 :=
    char.valid
  have hchar : Char.ofNat char.val.toNat = char := Char.ofNat_toNat char
  unfold String.utf8EncodeChar
  generalize char.val.toNat = value at hvalid hchar
  subst hchar
  simp only
  split
  · next hone => exact ⟨_, _, rfl, isForm_one hone⟩
  · next hone =>
    split
    · next htwo => exact ⟨_, _, rfl, isForm_two (by omega) htwo⟩
    · next htwo =>
      split
      · next hthree => exact ⟨_, _, rfl, isForm_three (by omega) hthree (by omega)⟩
      · next hthree => exact ⟨_, _, rfl, isForm_four (by omega) (by omega)⟩

/-! ## Characters one after the other -/

section Chars

variable {chars fragment : List Char} {front back : Bytes}

/-- The reader reads the characters, and goes on with what follows. -/
theorem decodeFrom_flatMap (chars : List Char) (rest : Bytes) :
    decodeFrom 0 (chars.flatMap String.utf8EncodeChar ++ rest) =
      chars ++ decodeFrom 0 rest := by
  induction chars with
  | nil => rfl
  | cons char later ih =>
    obtain ⟨lead, trail, hchar, hform⟩ := exists_isForm char
    rw [List.flatMap_cons, hchar, List.append_assoc, List.cons_append, decodeFrom]
    simp only [hform.read, decodeFrom_eq_drop trail.length, List.drop_left, ih, List.cons_append]

/-- What follows the bytes of some of the first characters are the bytes of the others. -/
theorem exists_rest_of_append
    (h : chars.flatMap String.utf8EncodeChar = fragment.flatMap String.utf8EncodeChar ++ back) :
    ∃ rest, chars = fragment ++ rest ∧ rest.flatMap String.utf8EncodeChar = back := by
  have hread := congrArg (decodeFrom 0) h
  rw [decodeFrom_flatMap, ← List.append_nil (chars.flatMap _), decodeFrom_flatMap] at hread
  simp only [decodeFrom, List.append_nil] at hread
  refine ⟨decodeFrom 0 back, hread, ?_⟩
  rw [hread, List.flatMap_append] at h
  exact List.append_cancel_left h

/-- **A cut** where no continuation byte follows is one between characters. -/
theorem exists_split_of_head (h : chars.flatMap String.utf8EncodeChar = front ++ back)
    (hback : ∀ byte ∈ back.head?, isContinuation byte = false) :
    ∃ before after, chars = before ++ after ∧ before.flatMap String.utf8EncodeChar = front ∧
      after.flatMap String.utf8EncodeChar = back := by
  induction chars generalizing front with
  | nil =>
    obtain ⟨rfl, rfl⟩ := List.append_eq_nil_iff.1 h.symm
    exact ⟨[], [], rfl, rfl, rfl⟩
  | cons char later ih =>
    rw [List.flatMap_cons] at h
    obtain ⟨lead, trail, hchar, hform⟩ := exists_isForm char
    rcases List.append_eq_append_iff.1 h with ⟨extra, hfront, hlater⟩ | ⟨extra, hextra, hextra'⟩
    · obtain ⟨before, after, rfl, hbefore, hafter⟩ := ih hlater
      exact ⟨char :: before, after, rfl, by rw [List.flatMap_cons, hbefore, hfront], hafter⟩
    · -- the cut is at this character or inside it, and inside a continuation byte follows
      cases front with
      | nil => exact ⟨[], char :: later, rfl, rfl, by rw [List.flatMap_cons, h]; rfl⟩
      | cons first front =>
        cases extra with
        | nil =>
          refine ⟨[char], later, rfl, ?_, hextra'.symm⟩
          rw [List.flatMap_singleton, hextra, List.append_nil]
        | cons next extra =>
          rw [hchar, List.cons_append, List.cons.injEq] at hextra
          have hinside : isContinuation next = true := hform.continues next (by rw [hextra.2]; simp)
          have hcut := hback next (by rw [hextra']; rfl)
          rw [hinside] at hcut
          exact Bool.noConfusion hcut

/-- **Bytes of a text inside those of another** stand there for the same characters. -/
theorem exists_split_of_infix (hfragment : fragment ≠ [])
    (h : chars.flatMap String.utf8EncodeChar =
      front ++ (fragment.flatMap String.utf8EncodeChar ++ back)) :
    ∃ before after, chars = before ++ (fragment ++ after) ∧
      before.flatMap String.utf8EncodeChar = front ∧
      after.flatMap String.utf8EncodeChar = back := by
  have hhead : ∀ byte ∈ (fragment.flatMap String.utf8EncodeChar ++ back).head?,
      isContinuation byte = false := by
    cases fragment with
    | nil => exact absurd rfl hfragment
    | cons char later =>
      obtain ⟨lead, trail, hchar, hform⟩ := exists_isForm char
      rw [List.flatMap_cons, hchar]
      rintro byte ⟨⟩
      exact hform.begins
  obtain ⟨before, tail, rfl, hbefore, htail⟩ := exists_split_of_head h hhead
  obtain ⟨after, rfl, hafter⟩ := exists_rest_of_append htail
  exact ⟨before, after, rfl, hbefore, hafter⟩

end Chars

/-- **The bytes of a text are read as the text.** -/
theorem decode_encode (text : String) : decode (encode text) = text := by
  have hread := decodeFrom_flatMap text.toList []
  rw [List.append_nil] at hread
  rw [decode, encode, hread, decodeFrom, List.append_nil, String.ofList_toList]

/-! ## Bytes that are those of a text -/

/-- The bytes are those of a text of such characters. -/
def Spells (allowed : Char → Prop) (bytes : Bytes) : Prop :=
  ∃ text, (∀ char ∈ text.toList, allowed char) ∧ encode text = bytes

/-- A character of the text ends, or the text begins, at the offset in its bytes. -/
def IsBoundary (text : String) (offset : Nat) : Prop :=
  ∃ before after, text = before ++ after ∧ (encode before).length = offset

/-- The offsets at which the characters begin, the first of them at `start`, and where the
last one ends. -/
def boundaries (start : Nat) : List Char → List Nat
  | [] => [start]
  | char :: later => start :: boundaries (start + (String.utf8EncodeChar char).length) later

theorem mem_boundaries_iff {start offset : Nat} {chars : List Char} :
    offset ∈ boundaries start chars ↔ ∃ before after, chars = before ++ after ∧
      start + (before.flatMap String.utf8EncodeChar).length = offset := by
  induction chars generalizing start with
  | nil =>
    rw [boundaries, List.mem_singleton]
    constructor
    · rintro rfl
      exact ⟨[], [], rfl, rfl⟩
    · rintro ⟨before, after, hsplit, rfl⟩
      rw [(List.append_eq_nil_iff.1 hsplit.symm).1]
      rfl
  | cons char later ih =>
    rw [boundaries, List.mem_cons, ih]
    constructor
    · rintro (rfl | ⟨before, after, rfl, rfl⟩)
      · exact ⟨[], char :: later, rfl, rfl⟩
      · refine ⟨char :: before, after, rfl, ?_⟩
        rw [List.flatMap_cons, List.length_append, Nat.add_assoc]
    · rintro ⟨before, after, hsplit, rfl⟩
      cases before with
      | nil => exact Or.inl rfl
      | cons first before =>
        obtain ⟨rfl, rfl⟩ := List.cons.inj hsplit
        refine Or.inr ⟨before, after, rfl, ?_⟩
        rw [List.flatMap_cons, List.length_append, Nat.add_assoc]

theorem isBoundary_iff {text : String} {offset : Nat} :
    IsBoundary text offset ↔ offset ∈ boundaries 0 text.toList := by
  rw [mem_boundaries_iff]
  constructor
  · rintro ⟨before, after, rfl, rfl⟩
    exact ⟨before.toList, after.toList, String.toList_append, Nat.zero_add _⟩
  · rintro ⟨before, after, hsplit, rfl⟩
    refine ⟨String.ofList before, String.ofList after, ?_, ?_⟩
    · rw [← String.ofList_append, ← hsplit, String.ofList_toList]
    · rw [encode, String.toList_ofList, Nat.zero_add]

instance (text : String) (offset : Nat) : Decidable (IsBoundary text offset) :=
  decidable_of_iff _ isBoundary_iff.symm

section Spells

variable {allowed : Char → Prop} {bytes more : Bytes}

/-- **Nothing is lost** in reading bytes of a text. -/
theorem Spells.encode_decode (h : Spells allowed bytes) : encode (decode bytes) = bytes := by
  obtain ⟨text, -, rfl⟩ := h
  rw [decode_encode]

theorem Spells.allowed_of_mem (h : Spells allowed bytes) {char : Char}
    (hmem : char ∈ (decode bytes).toList) : allowed char := by
  obtain ⟨text, htext, rfl⟩ := h
  rw [decode_encode] at hmem
  exact htext char hmem

theorem Spells.encode {text : String} (h : ∀ char ∈ text.toList, allowed char) :
    Spells allowed (encode text) :=
  ⟨text, h, rfl⟩

theorem Spells.mono {other : Char → Prop} (h : Spells allowed bytes)
    (himp : ∀ char, allowed char → other char) : Spells other bytes := by
  obtain ⟨text, htext, rfl⟩ := h
  exact .encode fun char hmem => himp char (htext char hmem)

theorem Spells.append (h : Spells allowed bytes) (h' : Spells allowed more) :
    Spells allowed (bytes ++ more) := by
  obtain ⟨text, htext, rfl⟩ := h
  obtain ⟨later, hlater, rfl⟩ := h'
  rw [← encode_append]
  refine .encode fun char hmem => ?_
  rw [String.toList_append, List.mem_append] at hmem
  exact hmem.elim (htext char) (hlater char)

/-- Bytes of a text are taken out of others. -/
theorem Spells.remove {front back : Bytes} (h : Spells allowed (front ++ (bytes ++ back)))
    (hbytes : Spells allowed bytes) (hne : bytes ≠ []) : Spells allowed (front ++ back) := by
  obtain ⟨text, htext, hencode⟩ := h
  obtain ⟨fragment, -, rfl⟩ := hbytes
  have hfragment : fragment.toList ≠ [] := by
    intro hnil
    rw [Utf8.encode, hnil] at hne
    exact hne rfl
  obtain ⟨before, after, hsplit, rfl, rfl⟩ := exists_split_of_infix hfragment hencode
  refine ⟨String.ofList (before ++ after), fun char hmem => ?_, ?_⟩
  · rw [String.toList_ofList, List.mem_append] at hmem
    refine htext char ?_
    rw [hsplit, List.mem_append, List.mem_append]
    exact hmem.imp_right Or.inr
  · rw [Utf8.encode, String.toList_ofList, List.flatMap_append]

/-- The bytes of a text up to where one of its characters ends. -/
theorem take_encode {before after : String} :
    (Utf8.encode (before ++ after)).take (Utf8.encode before).length = Utf8.encode before := by
  rw [encode_append, List.take_left]

/-- What stands between the ends of two characters is spelled with those of the text. -/
theorem spells_slice {text : String} {start stop : Nat} (hstart : IsBoundary text start)
    (hstop : IsBoundary text stop) :
    Spells (· ∈ text.toList) ((Utf8.encode text).slice start stop) := by
  obtain ⟨before, after, htext, rfl⟩ := hstart
  obtain ⟨upTo, beyond, htext', rfl⟩ := hstop
  have htake : (Utf8.encode text).take (Utf8.encode upTo).length = Utf8.encode upTo := by
    rw [htext', take_encode]
  have htake' : (Utf8.encode text).take (Utf8.encode before).length = Utf8.encode before := by
    rw [htext, take_encode]
  rw [Bytes.slice, htake]
  rcases Nat.le_total (Utf8.encode upTo).length (Utf8.encode before).length with hle | hle
  · rw [List.drop_of_length_le hle]
    exact ⟨"", by simp, rfl⟩
  · have hfront : (Utf8.encode upTo).take (Utf8.encode before).length = Utf8.encode before := by
      rw [← htake, List.take_take, Nat.min_eq_left hle, htake']
    have hsplit := List.take_append_drop (Utf8.encode before).length (Utf8.encode upTo)
    rw [hfront] at hsplit
    obtain ⟨between, hbetween, hbytes⟩ := exists_rest_of_append hsplit.symm
    refine ⟨String.ofList between, fun char hmem => ?_, ?_⟩
    · rw [String.toList_ofList] at hmem
      rw [htext', String.toList_append, hbetween]
      simp [hmem]
    · rw [Utf8.encode, String.toList_ofList, hbytes]

end Spells

end SourceChunks.Utf8
