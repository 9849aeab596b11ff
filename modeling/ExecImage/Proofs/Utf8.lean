import ExecImage.Utf8

/-!
# Text that is written as UTF-8 is read back

A character is written as a lead byte, which holds its first bits and the number of bytes to come, and continuation
bytes of six bits each. The reading machine gathers the bits as they were split, and the narrower bounds after the
leads `E0`, `ED`, `F0` and `F4` exclude no character: they exclude numbers that are shorter, surrogate or too large,
and a character's number is none of these.
-/

namespace ExecImage.Utf8

/-- The bytes of a text. -/
def encode (s : String) : List UInt8 :=
  s.toList.flatMap String.utf8EncodeChar

/-! ## The machine on one byte -/

variable {n value d k : Nat} {low high : UInt8}

theorem toNat_ofNat (h : n < 256) : (UInt8.ofNat n).toNat = n := by
  rw [UInt8.toNat_ofNat']
  omega

theorem start_one (h : n < 0x80) : start (UInt8.ofNat n) = ([Char.ofNat n], none) := by
  unfold start
  simp only [toNat_ofNat (show n < 256 by omega)]
  rw [if_pos h]

theorem start_two (h : 0xC2 ≤ n) (h' : n < 0xE0) : start (UInt8.ofNat n) = ([], some ⟨0, 0x80, 0xBF, n % 32⟩) := by
  unfold start
  simp only [toNat_ofNat (show n < 256 by omega)]
  rw [if_neg (by omega), if_neg (by omega), if_pos h']

/-- A lead of three bytes: after `E0` and `ED` the next byte is bounded further. -/
theorem start_three (h : 0xE0 ≤ n) (h' : n < 0xF0) :
    start (UInt8.ofNat n) =
      ([], some ⟨1, if n = 0xE0 then 0xA0 else 0x80, if n = 0xED then 0x9F else 0xBF, n % 16⟩) := by
  unfold start
  simp only [toNat_ofNat (show n < 256 by omega)]
  rw [if_neg (by omega), if_neg (by omega), if_neg (by omega)]
  by_cases h0 : n = 0xE0
  · subst h0
    rfl
  by_cases hd : n = 0xED
  · subst hd
    rfl
  rw [if_neg h0, if_neg hd, if_pos h', if_neg h0, if_neg hd]

/-- A lead of four bytes: after `F0` and `F4` the next byte is bounded further. -/
theorem start_four (h : 0xF0 ≤ n) (h' : n ≤ 0xF4) :
    start (UInt8.ofNat n) =
      ([], some ⟨2, if n = 0xF0 then 0x90 else 0x80, if n = 0xF4 then 0x8F else 0xBF, n % 8⟩) := by
  unfold start
  simp only [toNat_ofNat (show n < 256 by omega)]
  rw [if_neg (by omega), if_neg (by omega), if_neg (by omega), if_neg (by omega), if_neg (by omega), if_neg (by omega)]
  by_cases h0 : n = 0xF0
  · subst h0
    rfl
  by_cases h4 : n = 0xF4
  · subst h4
    rfl
  rw [if_neg h0, if_pos (by omega), if_neg h0, if_neg h4]

/-- The byte that holds the last six bits completes the character. -/
theorem extend_last (hd : d < 64) (hl : low.toNat ≤ d + 0x80) (hh : d + 0x80 ≤ high.toNat) :
    extend ⟨0, low, high, value⟩ (UInt8.ofNat (d + 0x80)) = ([Char.ofNat (value * 64 + d)], none) := by
  have hb : (UInt8.ofNat (d + 0x80)).toNat = d + 0x80 := toNat_ofNat (by omega)
  have hm : (d + 0x80) % 64 = d := by omega
  unfold extend
  simp only [UInt8.le_iff_toNat_le, hb]
  rw [if_pos ⟨hl, hh⟩, hm]

/-- A byte before the last adds its six bits. -/
theorem extend_more (hd : d < 64) (hl : low.toNat ≤ d + 0x80) (hh : d + 0x80 ≤ high.toNat) :
    extend ⟨k + 1, low, high, value⟩ (UInt8.ofNat (d + 0x80)) = ([], some ⟨k, 0x80, 0xBF, value * 64 + d⟩) := by
  have hb : (UInt8.ofNat (d + 0x80)).toNat = d + 0x80 := toNat_ofNat (by omega)
  have hm : (d + 0x80) % 64 = d := by omega
  unfold extend
  simp only [UInt8.le_iff_toNat_le, hb]
  rw [if_pos ⟨hl, hh⟩, hm]

/-! ## Characters and texts -/

theorem decodeFrom_none (b : UInt8) (bs : List UInt8) :
    decodeFrom none (b :: bs) = (start b).1 ++ decodeFrom (start b).2 bs := rfl

theorem decodeFrom_some (p : Pending) (b : UInt8) (bs : List UInt8) :
    decodeFrom (some p) (b :: bs) = (extend p b).1 ++ decodeFrom (extend p b).2 bs := rfl

/-- The bytes of a character are read as the character, whatever follows them. The cases are those of the encoding, by
the number of bytes. -/
theorem decodeFrom_encodeChar (c : Char) (bs : List UInt8) :
    decodeFrom none (String.utf8EncodeChar c ++ bs) = c :: decodeFrom none bs := by
  have hc : Char.ofNat c.val.toNat = c := Char.ofNat_toNat c
  have hvalid : c.val.toNat < 0xD800 ∨ 0xDFFF < c.val.toNat ∧ c.val.toNat < 0x110000 := c.valid
  unfold String.utf8EncodeChar
  generalize hn : c.val.toNat = n at hc hvalid
  dsimp only
  by_cases h1 : n ≤ 0x7F
  · rw [if_pos h1]
    simp only [List.cons_append, List.nil_append, decodeFrom_none, start_one (show n < 0x80 by omega), hc]
  rw [if_neg h1]
  by_cases h2 : n ≤ 0x7FF
  · have hsum : (n / 64 % 0x20 + 0xC0) % 32 * 64 + n % 0x40 = n := by omega
    rw [if_pos h2]
    simp only [List.cons_append, List.nil_append, decodeFrom_none, decodeFrom_some,
      start_two (show 0xC2 ≤ n / 64 % 0x20 + 0xC0 by omega) (by omega)]
    rw [extend_last (by omega) (by simp) (by simp; omega), hsum, hc]
    rfl
  rw [if_neg h2]
  by_cases h3 : n ≤ 0xFFFF
  · have hsum : ((n / 4096 % 0x10 + 0xE0) % 16 * 64 + n / 64 % 0x40) * 64 + n % 0x40 = n := by omega
    rw [if_pos h3]
    simp only [List.cons_append, List.nil_append, decodeFrom_none, decodeFrom_some,
      start_three (show 0xE0 ≤ n / 4096 % 0x10 + 0xE0 by omega) (by omega)]
    rw [extend_more (by omega) (by split <;> simp; omega) (by split <;> simp <;> omega)]
    simp only [List.nil_append, decodeFrom_some]
    rw [extend_last (by omega) (by simp) (by simp; omega), hsum, hc]
    rfl
  · have hsum : (((n / 262144 % 0x08 + 0xF0) % 8 * 64 + n / 4096 % 0x40) * 64 + n / 64 % 0x40) * 64 + n % 0x40 = n := by
      omega
    rw [if_neg h3]
    simp only [List.cons_append, List.nil_append, decodeFrom_none, decodeFrom_some,
      start_four (show 0xF0 ≤ n / 262144 % 0x08 + 0xF0 by omega) (by omega)]
    rw [extend_more (by omega) (by split <;> simp; omega) (by split <;> simp <;> omega)]
    simp only [List.nil_append, decodeFrom_some]
    rw [extend_more (by omega) (by simp) (by simp; omega)]
    simp only [List.nil_append, decodeFrom_some]
    rw [extend_last (by omega) (by simp) (by simp; omega), hsum, hc]
    rfl

/-- The bytes of a text are read as the text. -/
theorem decode_encode (s : String) : decode (encode s) = s := by
  have (cs : List Char) : decodeFrom none (cs.flatMap String.utf8EncodeChar) = cs := by
    induction cs with
    | nil => rfl
    | cons c cs ih => rw [List.flatMap_cons, decodeFrom_encodeChar, ih]
  unfold decode encode
  rw [this, String.ofList_toList]

/-- Only the zero character is written with a zero byte. -/
theorem eq_of_zero_mem_encodeChar {c : Char} (h : 0 ∈ String.utf8EncodeChar c) : c = '\x00' := by
  have hc : Char.ofNat c.val.toNat = c := Char.ofNat_toNat c
  have hvalid : c.val.toNat < 0x110000 := by
    have := c.valid
    simp only [UInt32.isValidChar, Nat.isValidChar] at this
    omega
  have zero {n : Nat} (hn : n < 256) (h : (0 : UInt8) = UInt8.ofNat n) : n = 0 := by
    rw [← toNat_ofNat hn, ← h]
    rfl
  unfold String.utf8EncodeChar at h
  generalize hn : c.val.toNat = n at h hc hvalid
  dsimp only at h
  split at h
  · have := zero (by omega) (List.mem_singleton.1 h)
    subst this
    exact hc.symm
  split at h
  · simp only [List.mem_cons, List.not_mem_nil, or_false] at h
    rcases h with h | h <;> exact absurd (zero (by omega) h) (by omega)
  split at h
  · simp only [List.mem_cons, List.not_mem_nil, or_false] at h
    rcases h with h | h | h <;> exact absurd (zero (by omega) h) (by omega)
  · simp only [List.mem_cons, List.not_mem_nil, or_false] at h
    rcases h with h | h | h | h <;> exact absurd (zero (by omega) h) (by omega)

/-- A text without a zero character is written without a zero byte. -/
theorem zero_notMem_encode {s : String} (h : '\x00' ∉ s.toList) : 0 ∉ encode s := by
  intro h0
  obtain ⟨c, hc, hb⟩ := List.mem_flatMap.1 h0
  exact h (eq_of_zero_mem_encodeChar hb ▸ hc)

/-- The bytes of a text are those that the text is stored as. -/
theorem toList_toUTF8 (s : String) : s.toUTF8.data.toList = encode s := by
  obtain ⟨cs, rfl⟩ : ∃ cs, s = String.ofList cs := ⟨s.toList, String.ofList_toList.symm⟩
  rw [encode, String.toList_ofList, String.toUTF8_eq_toByteArray, String.toByteArray_ofList, List.utf8Encode,
    List.toList_data_toByteArray]

end ExecImage.Utf8
