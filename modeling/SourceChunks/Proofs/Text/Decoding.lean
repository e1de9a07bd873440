import SourceChunks.Proofs.Text.WellFormed

/-!
# Reading bytes that are no text

The bytes of a text can be cut where its characters end.  Here the bytes are any, and so are the
cuts.

* A character that is cut is read as a replacement character in front of the cut, and as one for
  each of its bytes behind it; so a cut makes a reading longer by the bytes that it tears off, which
  are three at most, and are continuation bytes (`exists_readsOn`, `exists_length_decode_append`).
  Where no continuation byte follows the cut, nothing is torn (`decodeFrom_append_of_head`).
* A byte of ASCII is read as itself wherever it stands, and no other byte is read as a character of
  ASCII, neither alone nor with those behind it (`decodeHead_of_ascii`, `le_toNat_decodeHead`).  So
  the reader makes no such characters and loses none (`count_decode`).
-/

namespace SourceChunks.Utf8

/-! ## What a character takes -/

/-- The ranges in which the bytes after a first byte must lie; none are due after a byte that
begins no character. -/
def due (lead : UInt8) : List (UInt8 × UInt8) :=
  (trails? lead).getD []

/-- What is due are continuation bytes, and three at most. -/
theorem due_bounds (lead : UInt8) :
    (due lead).length ≤ 3 ∧
      ∀ range ∈ due lead, 0x80 ≤ range.1.toNat ∧ range.2.toNat ≤ 0xBF := by
  unfold due trails?
  repeat' split
  all_goals simp [continuation]

theorem matching_le_length (ranges : List (UInt8 × UInt8)) (bytes : Bytes) :
    matching ranges bytes ≤ ranges.length := by
  induction ranges generalizing bytes with
  | nil => exact Nat.le_refl 0
  | cons range ranges ih =>
    cases bytes with
    | nil => exact Nat.zero_le _
    | cons byte bytes =>
      rw [matching]
      split
      · exact Nat.succ_le_succ (ih bytes)
      · exact Nat.zero_le _

/-- With nothing behind them fewer bytes may be taken, but none that is not taken otherwise. -/
theorem matching_eq_min (ranges : List (UInt8 × UInt8)) (front back : Bytes) :
    matching ranges front = min (matching ranges (front ++ back)) front.length := by
  induction front generalizing ranges with
  | nil =>
    rw [List.length_nil, Nat.min_zero]
    cases ranges <;> rfl
  | cons byte front ih =>
    cases ranges with
    | nil => exact (Nat.zero_min _).symm
    | cons range ranges =>
      rw [List.cons_append, matching, matching, List.length_cons]
      split
      · rw [ih, Nat.add_min_add_right]
      · exact (Nat.zero_min _).symm

theorem matching_le_length_bytes (ranges : List (UInt8 × UInt8)) (bytes : Bytes) :
    matching ranges bytes ≤ bytes.length := by
  rw [matching_eq_min ranges bytes []]
  exact Nat.min_le_right _ _

/-- The bytes that are taken are those that are due. -/
theorem isContinuation_of_mem_take {ranges : List (UInt8 × UInt8)}
    (h : ∀ range ∈ ranges, 0x80 ≤ range.1.toNat ∧ range.2.toNat ≤ 0xBF) {bytes : Bytes} :
    ∀ byte ∈ bytes.take (matching ranges bytes), isContinuation byte = true := by
  induction bytes generalizing ranges with
  | nil => simp
  | cons byte bytes ih =>
    cases ranges with
    | nil => simp [matching]
    | cons range ranges =>
      obtain ⟨⟨hlow, hhigh⟩, hranges⟩ := List.forall_mem_cons.1 h
      rw [matching]
      split
      · next hin =>
        rw [List.take_succ_cons, List.forall_mem_cons]
        refine ⟨?_, ih hranges⟩
        have hlow' := UInt8.le_iff_toNat_le.1 hin.1
        have hhigh' := UInt8.le_iff_toNat_le.1 hin.2
        rw [isContinuation, decide_eq_true_eq]
        omega
      · simp

/-- How many bytes a character takes besides its first one. -/
theorem decodeHead_snd (lead : UInt8) (rest : Bytes) :
    (decodeHead lead rest).2 = matching (due lead) rest := by
  unfold decodeHead due
  cases trails? lead with
  | none => rfl
  | some ranges =>
    dsimp only [Option.getD_some]
    split <;> rfl

/-- What stands behind the bytes that a character takes does not matter to it. -/
theorem decodeHead_append {lead : UInt8} {front back : Bytes}
    (h : (decodeHead lead (front ++ back)).2 ≤ front.length) :
    decodeHead lead (front ++ back) = decodeHead lead front := by
  rw [decodeHead_snd, due] at h
  unfold decodeHead
  cases htrails : trails? lead with
  | none => rfl
  | some ranges =>
    rw [htrails, Option.getD_some] at h
    have hcount : matching ranges front = matching ranges (front ++ back) :=
      (matching_eq_min ranges front back).trans (Nat.min_eq_left h)
    dsimp only
    rw [hcount, List.take_append_of_le_length h]

/-! ## Cuts anywhere -/

/-- What becomes of a cut between `front` and `back` if the reader does not stop there: it reads
the characters that begin in `front`, as many as without `back`, and takes the torn bytes of
`back` for the last of them. -/
structure ReadsOn (skip : Nat) (front back : Bytes) (chars : List Char) (torn : Nat) : Prop where
  read : decodeFrom skip (front ++ back) = chars ++ decodeFrom torn back
  length : chars.length = (decodeFrom skip front).length
  few : torn ≤ 3
  inside : torn ≤ back.length
  continues : ∀ byte ∈ back.take torn, isContinuation byte = true
  whole : torn = 0 → chars = decodeFrom skip front

/-- **The reader reads on** over a cut in one way or another. -/
theorem exists_readsOn {skip : Nat} {front : Bytes} (hskip : skip ≤ front.length) (back : Bytes) :
    ∃ chars torn, ReadsOn skip front back chars torn := by
  induction front generalizing skip with
  | nil =>
    obtain rfl := Nat.le_zero.1 hskip
    exact ⟨[], 0, rfl, rfl, Nat.zero_le 3, Nat.zero_le _, by simp, fun _ => rfl⟩
  | cons lead front ih =>
    cases skip with
    | succ skip =>
      obtain ⟨chars, torn, h⟩ := ih (Nat.le_of_succ_le_succ hskip)
      exact ⟨chars, torn, h.read, h.length, h.few, h.inside, h.continues, h.whole⟩
    | zero =>
      have hread : decodeFrom 0 (lead :: front ++ back) =
          (decodeHead lead (front ++ back)).1 ::
            decodeFrom (decodeHead lead (front ++ back)).2 (front ++ back) := rfl
      have hfront : decodeFrom 0 (lead :: front) =
          (decodeHead lead front).1 :: decodeFrom (decodeHead lead front).2 front := rfl
      by_cases hle : (decodeHead lead (front ++ back)).2 ≤ front.length
      · -- the character ends in front of the cut
        have hhead := decodeHead_append hle
        rw [hhead] at hle hread
        obtain ⟨chars, torn, h⟩ := ih hle
        refine ⟨(decodeHead lead front).1 :: chars, torn, ?_, ?_, h.few, h.inside, h.continues,
          fun htorn => ?_⟩
        · rw [hread, h.read, List.cons_append]
        · rw [hfront, List.length_cons, List.length_cons, h.length]
        · rw [hfront, h.whole htorn]
      · -- it takes all bytes in front of the cut, and some behind it
        obtain ⟨hfew, hbounds⟩ := due_bounds lead
        rw [decodeHead_snd] at hle hread
        have hcount : matching (due lead) front = front.length := by
          rw [matching_eq_min _ front back]
          exact Nat.min_eq_right (by omega)
        have hend : decodeFrom (decodeHead lead front).2 front = [] := by
          rw [decodeHead_snd, hcount, decodeFrom_eq_drop, List.drop_length, decodeFrom]
        have hmost := matching_le_length (due lead) (front ++ back)
        have hinside := matching_le_length_bytes (due lead) (front ++ back)
        rw [List.length_append] at hinside
        refine ⟨[(decodeHead lead (front ++ back)).1],
          matching (due lead) (front ++ back) - front.length, ?_, ?_, ?_, ?_, ?_, ?_⟩
        · rw [hread, decodeFrom_eq_drop, List.drop_append, List.drop_of_length_le (by omega),
            List.nil_append, ← decodeFrom_eq_drop]
          rfl
        · rw [hfront, hend]
          rfl
        · omega
        · omega
        · intro byte hbyte
          refine @isContinuation_of_mem_take _ hbounds (front ++ back) byte ?_
          rw [List.take_append]
          exact List.mem_append_right _ hbyte
        · omega

/-- **A cut where no continuation byte follows** tears nothing. -/
theorem decodeFrom_append_of_head (front : Bytes) {back : Bytes}
    (h : ∀ byte ∈ back.head?, isContinuation byte = false) :
    decodeFrom 0 (front ++ back) = decodeFrom 0 front ++ decodeFrom 0 back := by
  obtain ⟨chars, torn, hon⟩ := exists_readsOn (Nat.zero_le front.length) back
  have htorn : torn = 0 := by
    cases torn with
    | zero => rfl
    | succ torn =>
      cases back with
      | nil => exact absurd hon.inside (Nat.not_succ_le_zero _)
      | cons byte back =>
        have hcontinues := hon.continues byte (by simp)
        rw [h byte rfl] at hcontinues
        exact Bool.noConfusion hcontinues
  rw [hon.read, hon.whole htorn, htorn]

/-- A byte that only continues a character is no character by itself. -/
theorem decodeHead_of_isContinuation {byte : UInt8} (h : isContinuation byte = true)
    (rest : Bytes) : decodeHead byte rest = (replacement, 0) := by
  rw [isContinuation, decide_eq_true_eq] at h
  have hnone : trails? byte = none := by
    unfold trails?
    simp only [UInt8.lt_iff_toNat_lt, UInt8.reduceToNat]
    rw [if_neg (by omega), if_pos (by omega)]
  rw [decodeHead, hnone]

/-- Torn bytes are read one by one. -/
theorem length_decodeFrom_of_continues {torn : Nat} {back : Bytes} (hinside : torn ≤ back.length)
    (h : ∀ byte ∈ back.take torn, isContinuation byte = true) :
    (decodeFrom 0 back).length = torn + (decodeFrom torn back).length := by
  induction torn generalizing back with
  | zero => exact (Nat.zero_add _).symm
  | succ torn ih =>
    cases back with
    | nil => exact absurd hinside (Nat.not_succ_le_zero _)
    | cons byte back =>
      rw [List.take_succ_cons, List.forall_mem_cons] at h
      have hread : decodeFrom 0 (byte :: back) = replacement :: decodeFrom 0 back := by
        rw [decodeFrom.eq_def]
        simp only [decodeHead_of_isContinuation h.1]
      rw [hread, List.length_cons, ih (Nat.le_of_succ_le_succ hinside) h.2, decodeFrom]
      omega

/-- **What a cut costs**: the parts of a byte string read as three characters more than the whole
at most, and as no more than it if no continuation byte follows the cut. -/
theorem exists_length_decode_append (front back : Bytes) :
    ∃ torn ≤ 3, (decode front).length + (decode back).length =
        (decode (front ++ back)).length + torn ∧
      ((∀ byte ∈ back.head?, isContinuation byte = false) → torn = 0) := by
  obtain ⟨chars, torn, hon⟩ := exists_readsOn (Nat.zero_le front.length) back
  have hback := length_decodeFrom_of_continues hon.inside hon.continues
  have hwhole := congrArg List.length hon.read
  rw [List.length_append, hon.length] at hwhole
  simp only [decode, String.length_ofList]
  refine ⟨torn, hon.few, by omega, fun hhead => ?_⟩
  have hclean := congrArg List.length (decodeFrom_append_of_head front hhead)
  rw [List.length_append] at hclean
  omega

theorem length_decode_append_le (front back : Bytes) :
    (decode (front ++ back)).length ≤ (decode front).length + (decode back).length := by
  obtain ⟨torn, -, hlength, -⟩ := exists_length_decode_append front back
  omega

/-- More bytes are not read as fewer characters. -/
theorem length_decode_le_append (front back : Bytes) :
    (decode front).length ≤ (decode (front ++ back)).length := by
  obtain ⟨chars, torn, hon⟩ := exists_readsOn (Nat.zero_le front.length) back
  simp only [decode, String.length_ofList]
  rw [hon.read, List.length_append, hon.length]
  exact Nat.le_add_right _ _

/-! ## Characters of ASCII -/

theorem decodeHead_of_ascii {lead : UInt8} (h : lead.toNat < 0x80) (rest : Bytes) :
    decodeHead lead rest = (Char.ofNat lead.toNat, 0) := by
  rw [decodeHead, trails?_one h]
  cases rest <;> rfl

/-- Where all that is due was taken, it stands in front. -/
theorem exists_cons_of_matching {low high : UInt8} {ranges : List (UInt8 × UInt8)} {bytes : Bytes}
    (h : matching ((low, high) :: ranges) bytes = ranges.length + 1) :
    ∃ byte rest, bytes = byte :: rest ∧ low.toNat ≤ byte.toNat ∧ byte.toNat ≤ high.toNat ∧
      matching ranges rest = ranges.length := by
  cases bytes with
  | nil => cases h
  | cons byte rest =>
    rw [matching] at h
    split at h
    · next hin =>
      exact ⟨byte, rest, rfl, UInt8.le_iff_toNat_le.1 hin.1, UInt8.le_iff_toNat_le.1 hin.2,
        Nat.succ.inj h⟩
    · cases h

/-- Where a first byte asks for others, no character of ASCII is read if these, with it, spell
none. -/
theorem le_toNat_of_trails {lead : UInt8} {ranges : List (UInt8 × UInt8)} {rest : Bytes}
    (htrails : trails? lead = some ranges)
    (h : matching ranges rest = ranges.length →
      0x80 ≤ scalar lead (rest.take ranges.length) ∧
        (scalar lead (rest.take ranges.length)).isValidChar) :
    0x80 ≤ (decodeHead lead rest).1.toNat := by
  rw [decodeHead, htrails]
  dsimp only
  split
  · next hall =>
    obtain ⟨hlow, hvalid⟩ := h hall
    rw [hall, Char.ofNat, dif_pos hvalid]
    exact hlow
  · show 0x80 ≤ replacement.toNat
    decide

theorem le_toNat_of_three {lead : UInt8} (hlow : 0xE0 ≤ lead.toNat) (hhigh : lead.toNat < 0xF0)
    (rest : Bytes) : 0x80 ≤ (decodeHead lead rest).1.toNat := by
  obtain ⟨low, high, htrails, hlow', hhigh'⟩ := trails?_three lead hlow hhigh
  refine le_toNat_of_trails htrails fun hall => ?_
  obtain ⟨second, rest, rfl, hsecond, hsecond', hall⟩ := exists_cons_of_matching hall
  obtain ⟨third, rest, rfl, -, -, -⟩ := exists_cons_of_matching hall
  simp only [List.length_cons, List.length_nil, List.take_succ_cons, List.take_zero, scalar,
    leadBits, List.foldl_cons, List.foldl_nil, Nat.isValidChar]
  -- no shorter form below `E0 A0`, no surrogate above `ED 9F`
  split at hlow' <;> split at hhigh' <;> omega

theorem le_toNat_of_four {lead : UInt8} (hlow : 0xF0 ≤ lead.toNat) (hhigh : lead.toNat ≤ 0xF4)
    (rest : Bytes) : 0x80 ≤ (decodeHead lead rest).1.toNat := by
  obtain ⟨low, high, htrails, hlow', hhigh'⟩ := trails?_four lead hlow hhigh
  refine le_toNat_of_trails htrails fun hall => ?_
  obtain ⟨second, rest, rfl, hsecond, hsecond', hall⟩ := exists_cons_of_matching hall
  obtain ⟨third, rest, rfl, -, -, hall⟩ := exists_cons_of_matching hall
  obtain ⟨fourth, rest, rfl, -, -, -⟩ := exists_cons_of_matching hall
  simp only [List.length_cons, List.length_nil, List.take_succ_cons, List.take_zero, scalar,
    leadBits, List.foldl_cons, List.foldl_nil, Nat.isValidChar]
  -- no shorter form below `F0 90`, nothing past the last character above `F4 8F`
  split at hlow' <;> split at hhigh' <;> omega

/-- **No byte but those of ASCII** begins a character of ASCII. -/
theorem le_toNat_decodeHead {lead : UInt8} (h : 0x80 ≤ lead.toNat) (rest : Bytes) :
    0x80 ≤ (decodeHead lead rest).1.toNat := by
  by_cases htwo : 0xC2 ≤ lead.toNat ∧ lead.toNat < 0xE0
  · refine le_toNat_of_trails (trails?_two htwo.1 htwo.2) fun hall => ?_
    obtain ⟨second, rest, rfl, -, -, -⟩ := exists_cons_of_matching hall
    simp only [List.length_cons, List.length_nil, List.take_succ_cons, List.take_zero, scalar,
      leadBits, List.foldl_cons, List.foldl_nil, Nat.isValidChar]
    omega
  by_cases hthree : 0xE0 ≤ lead.toNat ∧ lead.toNat < 0xF0
  · exact le_toNat_of_three hthree.1 hthree.2 rest
  by_cases hfour : 0xF0 ≤ lead.toNat ∧ lead.toNat ≤ 0xF4
  · exact le_toNat_of_four hfour.1 hfour.2 rest
  -- no character begins with such a byte
  have hnone : trails? lead = none := by
    unfold trails?
    simp only [UInt8.lt_iff_toNat_lt, UInt8.reduceToNat, beq_iff_eq, ← UInt8.toNat_inj]
    by_cases hlow : lead.toNat < 0xC2
    · rw [if_neg (by omega), if_pos hlow]
    · rw [if_neg (by omega), if_neg hlow, if_neg (by omega), if_neg (by omega), if_neg (by omega),
        if_neg (by omega), if_neg (by omega), if_neg (by omega), if_neg (by omega)]
  rw [decodeHead, hnone]
  show 0x80 ≤ replacement.toNat
  decide

/-- A byte is read as a character of ASCII just if it is that character. -/
theorem decodeHead_fst_eq_iff {char : Char} (h : char.toNat < 0x80) (lead : UInt8) (rest : Bytes) :
    (decodeHead lead rest).1 = char ↔ lead = UInt8.ofNat char.toNat := by
  rw [← UInt8.toNat_inj, toNat_ofNat_of_lt (by omega)]
  by_cases hlead : lead.toNat < 0x80
  · have hvalid : lead.toNat.isValidChar := Or.inl (by omega)
    have hread : (Char.ofNat lead.toNat).toNat = lead.toNat := by
      rw [Char.ofNat, dif_pos hvalid]
      rfl
    rw [decodeHead_of_ascii hlead, ← Char.toNat_inj, hread]
  · have hle := le_toNat_decodeHead (Nat.le_of_not_lt hlead) rest
    constructor
    · rintro rfl
      omega
    · intro heq
      omega

/-- **Characters of ASCII** are read as often as they stand in the bytes. -/
theorem count_decodeFrom {char : Char} (h : char.toNat < 0x80) (skip : Nat) (bytes : Bytes) :
    (decodeFrom skip bytes).count char = (bytes.drop skip).count (UInt8.ofNat char.toNat) := by
  induction bytes generalizing skip with
  | nil => cases skip <;> rfl
  | cons lead rest ih =>
    cases skip with
    | succ skip => exact ih skip
    | zero =>
      have hread : decodeFrom 0 (lead :: rest) =
          (decodeHead lead rest).1 :: decodeFrom (decodeHead lead rest).2 rest := rfl
      -- what the character takes besides its first byte is no ASCII
      have htaken : (rest.take (decodeHead lead rest).2).count (UInt8.ofNat char.toNat) = 0 := by
        rw [List.count_eq_zero]
        intro hmem
        rw [decodeHead_snd] at hmem
        have hcontinues := isContinuation_of_mem_take (due_bounds lead).2 _ hmem
        rw [isContinuation, decide_eq_true_eq, toNat_ofNat_of_lt (by omega)] at hcontinues
        omega
      have hrest := congrArg (List.count (UInt8.ofNat char.toNat))
        (List.take_append_drop (decodeHead lead rest).2 rest)
      rw [List.count_append, htaken, Nat.zero_add] at hrest
      rw [hread, List.drop_zero, List.count_cons, List.count_cons, ih, hrest]
      simp only [beq_iff_eq, decodeHead_fst_eq_iff h]

/-- In the text that bytes are read as. -/
theorem count_decode {char : Char} (h : char.toNat < 0x80) (bytes : Bytes) :
    (decode bytes).toList.count char = bytes.count (UInt8.ofNat char.toNat) := by
  rw [decode, String.toList_ofList, count_decodeFrom h, List.drop_zero]

end SourceChunks.Utf8
