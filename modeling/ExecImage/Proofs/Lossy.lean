import ExecImage.Proofs.Utf8

/-!
# What reading with replacement gives

`Reads bs cs` says what characters bytes are read as without mention of the machine that reads them. Bytes that begin with a
character are read as it. Bytes that begin with none have a part at their head that a replacement character stands for: the longest
first bytes that a character could start with, or a single byte if the first starts no character.

The machine gives just this (`reads_iff`). What carries the proof is `Leads`: the bytes that lead the machine to a pending
character become a character with every byte that it takes next and any continuation bytes after that.
-/

namespace ExecImage.Utf8

/-- The bytes are the first ones of a character's. -/
def Starts (bs : List UInt8) : Prop :=
  ∃ c, bs <+: String.utf8EncodeChar c

/-- The part at the head of bytes without a character there that is replaced as one: as much as a character starts with, or a
single byte. -/
inductive MaximalPart : List UInt8 → List UInt8 → Prop where
  | longest {part rest : List UInt8} : part ≠ [] → Starts part → (∀ b, [b] <+: rest → ¬Starts (part ++ [b])) →
    MaximalPart part rest
  | single {b : UInt8} {rest : List UInt8} : ¬Starts [b] → MaximalPart [b] rest

/-- The characters that bytes are read as. -/
inductive Reads : List UInt8 → List Char → Prop where
  | nil : Reads [] []
  | char {c : Char} {bs : List UInt8} {cs : List Char} : Reads bs cs → Reads (String.utf8EncodeChar c ++ bs) (c :: cs)
  | replaced {part rest : List UInt8} {cs : List Char} : (∀ c, ¬String.utf8EncodeChar c <+: part ++ rest) →
    MaximalPart part rest → Reads rest cs → Reads (part ++ rest) (replacement :: cs)

/-! ## The bytes of a character, from the lead on -/

section

variable {n d e f : Nat}

theorem val_ofNat (h : n.isValidChar) : (Char.ofNat n).val.toNat = n := by
  rw [Char.ofNat, dif_pos h]
  rfl

theorem encodeChar_one (h : n < 0x80) : String.utf8EncodeChar (Char.ofNat n) = [UInt8.ofNat n] := by
  have hv := val_ofNat (Or.inl (by omega) : n.isValidChar)
  unfold String.utf8EncodeChar
  rw [hv, if_pos (by omega)]

theorem encodeChar_two (h : 0xC2 ≤ n) (h' : n < 0xE0) (hd : d < 64) :
    String.utf8EncodeChar (Char.ofNat (n % 32 * 64 + d)) = [UInt8.ofNat n, UInt8.ofNat (d + 0x80)] := by
  have hv := val_ofNat (Or.inl (by omega) : (n % 32 * 64 + d).isValidChar)
  have h1 : (n % 32 * 64 + d) / 64 % 0x20 + 0xC0 = n := by omega
  have h2 : (n % 32 * 64 + d) % 0x40 + 0x80 = d + 0x80 := by omega
  unfold String.utf8EncodeChar
  simp only [hv]
  rw [if_neg (by omega), if_pos (by omega), h1, h2]

/-- Three bytes are no shorter form and no surrogate, by the bounds after `E0` and `ED`. -/
theorem encodeChar_three (h : 0xE0 ≤ n) (h' : n < 0xF0) (hd : d < 64) (he : e < 64) (hlow : n = 0xE0 → 0x20 ≤ d)
    (hhigh : n = 0xED → d < 0x20) :
    String.utf8EncodeChar (Char.ofNat ((n % 16 * 64 + d) * 64 + e)) =
      [UInt8.ofNat n, UInt8.ofNat (d + 0x80), UInt8.ofNat (e + 0x80)] := by
  have hvalid : ((n % 16 * 64 + d) * 64 + e).isValidChar := by
    unfold Nat.isValidChar
    omega
  have hv := val_ofNat hvalid
  have h1 : ((n % 16 * 64 + d) * 64 + e) / 4096 % 0x10 + 0xE0 = n := by omega
  have h2 : ((n % 16 * 64 + d) * 64 + e) / 64 % 0x40 + 0x80 = d + 0x80 := by omega
  have h3 : ((n % 16 * 64 + d) * 64 + e) % 0x40 + 0x80 = e + 0x80 := by omega
  unfold String.utf8EncodeChar
  simp only [hv]
  rw [if_neg (by omega), if_neg (by omega), if_pos (by omega), h1, h2, h3]

/-- Four bytes are no shorter form and no number above `10FFFF`, by the bounds after `F0` and `F4`. -/
theorem encodeChar_four (h : 0xF0 ≤ n) (h' : n ≤ 0xF4) (hd : d < 64) (he : e < 64) (hf : f < 64) (hlow : n = 0xF0 → 0x10 ≤ d)
    (hhigh : n = 0xF4 → d < 0x10) :
    String.utf8EncodeChar (Char.ofNat (((n % 8 * 64 + d) * 64 + e) * 64 + f)) =
      [UInt8.ofNat n, UInt8.ofNat (d + 0x80), UInt8.ofNat (e + 0x80), UInt8.ofNat (f + 0x80)] := by
  have hvalid : (((n % 8 * 64 + d) * 64 + e) * 64 + f).isValidChar := by
    unfold Nat.isValidChar
    omega
  have hv := val_ofNat hvalid
  have h1 : (((n % 8 * 64 + d) * 64 + e) * 64 + f) / 262144 % 0x08 + 0xF0 = n := by omega
  have h2 : (((n % 8 * 64 + d) * 64 + e) * 64 + f) / 4096 % 0x40 + 0x80 = d + 0x80 := by omega
  have h3 : (((n % 8 * 64 + d) * 64 + e) * 64 + f) / 64 % 0x40 + 0x80 = e + 0x80 := by omega
  have h4 : (((n % 8 * 64 + d) * 64 + e) * 64 + f) % 0x40 + 0x80 = f + 0x80 := by omega
  unfold String.utf8EncodeChar
  simp only [hv]
  rw [if_neg (by omega), if_neg (by omega), if_neg (by omega), h1, h2, h3, h4]

end

/-! ## Bytes that lead to a pending character -/

/-- The number with the six bits of a continuation byte. -/
def more (value : Nat) (b : UInt8) : Nat :=
  value * 64 + b.toNat % 64

/-- After some bytes the machine has read no character and has one pending, which every byte that it takes next and any continuation
bytes after that complete. -/
structure Leads (bs : List UInt8) (p : Pending) : Prop where
  low_le : p.low ≤ p.high
  reads : ∀ rest, decodeFrom none (bs ++ rest) = decodeFrom (some p) rest
  completes : ∀ b tail, p.low ≤ b → b ≤ p.high → tail.length = p.later → (∀ t ∈ tail, (0x80 : UInt8) ≤ t ∧ t ≤ 0xBF) →
    String.utf8EncodeChar (Char.ofNat ((b :: tail).foldl more p.value)) = bs ++ b :: tail

/-- A continuation byte by the six bits that it holds. -/
theorem exists_of_continuation {b : UInt8} (h : 0x80 ≤ b) (h' : b ≤ 0xBF) : ∃ d < 64, b = UInt8.ofNat (d + 0x80) ∧ b.toNat % 64 = d := by
  rw [UInt8.le_iff_toNat_le] at h h'
  simp only [UInt8.reduceToNat] at h h'
  refine ⟨b.toNat - 0x80, by omega, ?_, by omega⟩
  rw [Nat.sub_add_cancel h, UInt8.ofNat_toNat]

/-- The bounds after a lead are narrowed below after one lead and above after another, if at all. -/
theorem bounds_narrowed {n k l : Nat} {x y : UInt8} (hkl : k ≠ l) (hx : 0x80 ≤ x ∧ x ≤ 0xBF) (hy : 0x80 ≤ y ∧ y ≤ 0xBF) :
    0x80 ≤ (if n = k then x else 0x80) ∧ (if n = k then x else 0x80) ≤ (if n = l then y else 0xBF) ∧
      (if n = l then y else 0xBF) ≤ 0xBF := by
  by_cases hk : n = k
  · rw [if_pos hk, if_neg fun hl => hkl (hk.symm.trans hl)]
    exact ⟨hx.1, hx.2, UInt8.le_refl _⟩
  · rw [if_neg hk]
    split
    · exact ⟨UInt8.le_refl _, hy⟩
    · decide

theorem leads_start_two {n : Nat} (h : 0xC2 ≤ n) (h' : n < 0xE0) : Leads [UInt8.ofNat n] ⟨0, 0x80, 0xBF, n % 32⟩ where
  low_le := show (0x80 : UInt8) ≤ 0xBF by decide
  reads rest := by rw [List.singleton_append, decodeFrom_none, start_two h h', List.nil_append]
  completes b tail hl hh ht _ := by
    obtain ⟨d, hd, rfl, hbits⟩ := exists_of_continuation hl hh
    obtain rfl := List.eq_nil_of_length_eq_zero ht
    simp only [List.foldl_cons, List.foldl_nil, more, hbits]
    exact encodeChar_two h h' hd

theorem leads_start_three {n : Nat} (h : 0xE0 ≤ n) (h' : n < 0xF0) :
    Leads [UInt8.ofNat n] ⟨1, if n = 0xE0 then 0xA0 else 0x80, if n = 0xED then 0x9F else 0xBF, n % 16⟩ := by
  obtain ⟨hlow, hle, hhigh⟩ : _ ∧ _ ∧ _ :=
    bounds_narrowed (n := n) (k := 0xE0) (l := 0xED) (x := 0xA0) (y := 0x9F) (by decide) (by decide) (by decide)
  refine ⟨hle, fun rest => ?_, fun b tail hl hh ht htail => ?_⟩
  · rw [List.singleton_append, decodeFrom_none, start_three h h', List.nil_append]
  obtain ⟨d, hd, rfl, hbits⟩ := exists_of_continuation (UInt8.le_trans hlow hl) (UInt8.le_trans hh hhigh)
  obtain ⟨t, rfl⟩ := List.length_eq_one_iff.1 ht
  obtain ⟨e, he, rfl, hebits⟩ := exists_of_continuation (htail t (by simp)).1 (htail t (by simp)).2
  simp only [List.foldl_cons, List.foldl_nil, more, hbits, hebits]
  rw [UInt8.le_iff_toNat_le, toNat_ofNat (by omega)] at hl hh
  refine encodeChar_three h h' hd he (fun h0 => ?_) fun h0 => ?_
  · simp only [if_pos h0, UInt8.reduceToNat] at hl
    omega
  · simp only [if_pos h0, UInt8.reduceToNat] at hh
    omega

theorem leads_start_four {n : Nat} (h : 0xF0 ≤ n) (h' : n ≤ 0xF4) :
    Leads [UInt8.ofNat n] ⟨2, if n = 0xF0 then 0x90 else 0x80, if n = 0xF4 then 0x8F else 0xBF, n % 8⟩ := by
  obtain ⟨hlow, hle, hhigh⟩ : _ ∧ _ ∧ _ :=
    bounds_narrowed (n := n) (k := 0xF0) (l := 0xF4) (x := 0x90) (y := 0x8F) (by decide) (by decide) (by decide)
  refine ⟨hle, fun rest => ?_, fun b tail hl hh ht htail => ?_⟩
  · rw [List.singleton_append, decodeFrom_none, start_four h h', List.nil_append]
  obtain ⟨d, hd, rfl, hbits⟩ := exists_of_continuation (UInt8.le_trans hlow hl) (UInt8.le_trans hh hhigh)
  obtain ⟨t, u, rfl⟩ : ∃ t u, tail = [t, u] := by
    match tail, ht with
    | [t, u], _ => exact ⟨t, u, rfl⟩
  obtain ⟨e, he, rfl, hebits⟩ := exists_of_continuation (htail t (by simp)).1 (htail t (by simp)).2
  obtain ⟨f, hf, rfl, hfbits⟩ := exists_of_continuation (htail u (by simp)).1 (htail u (by simp)).2
  simp only [List.foldl_cons, List.foldl_nil, more, hbits, hebits, hfbits]
  rw [UInt8.le_iff_toNat_le, toNat_ofNat (by omega)] at hl hh
  refine encodeChar_four h h' hd he hf (fun h0 => ?_) fun h0 => ?_
  · simp only [if_pos h0, UInt8.reduceToNat] at hl
    omega
  · simp only [if_pos h0, UInt8.reduceToNat] at hh
    omega

/-- What a byte between characters does: it is a character, or it starts none, or it leads to a pending one. -/
theorem start_cases (b : UInt8) :
    (start b = ([Char.ofNat b.toNat], none) ∧ String.utf8EncodeChar (Char.ofNat b.toNat) = [b]) ∨
      start b = ([replacement], none) ∨ ∃ p, start b = ([], some p) ∧ Leads [b] p := by
  obtain ⟨n, hn, rfl⟩ : ∃ n < 256, b = UInt8.ofNat n := ⟨b.toNat, b.toNat_lt, UInt8.ofNat_toNat.symm⟩
  rw [toNat_ofNat hn]
  by_cases h1 : n < 0x80
  · exact .inl ⟨start_one h1, encodeChar_one h1⟩
  by_cases h2 : n < 0xC2
  · refine .inr (.inl ?_)
    unfold start
    simp only [toNat_ofNat hn]
    rw [if_neg h1, if_pos h2]
  by_cases h3 : n < 0xE0
  · exact .inr (.inr ⟨_, start_two (by omega) h3, leads_start_two (by omega) h3⟩)
  by_cases h4 : n < 0xF0
  · exact .inr (.inr ⟨_, start_three (by omega) h4, leads_start_three (by omega) h4⟩)
  by_cases h5 : n ≤ 0xF4
  · exact .inr (.inr ⟨_, start_four (by omega) h5, leads_start_four (by omega) h5⟩)
  · refine .inr (.inl ?_)
    unfold start
    simp only [toNat_ofNat hn]
    rw [if_neg h1, if_neg h2, if_neg h3, if_neg (by omega), if_neg (by omega), if_neg h4, if_neg (by omega),
      if_neg (by omega), if_neg (by omega)]

/-! ## The machine reads something of every byte -/

theorem decodeFrom_pending_ne_nil (p : Pending) (bs : List UInt8) : decodeFrom (some p) bs ≠ [] := by
  induction bs generalizing p with
  | nil => exact List.cons_ne_nil _ _
  | cons b bs ih =>
    rw [decodeFrom_some]
    unfold extend
    split
    · cases p.later with
      | zero => exact List.cons_ne_nil _ _
      | succ later => exact ih _
    · exact List.cons_ne_nil _ _

/-- Some character is read of every byte. -/
theorem decodeFrom_cons_ne_nil (pending : Option Pending) (b : UInt8) (bs : List UInt8) : decodeFrom pending (b :: bs) ≠ [] := by
  cases pending with
  | some p => exact decodeFrom_pending_ne_nil p (b :: bs)
  | none =>
    rw [decodeFrom_none]
    rcases start_cases b with ⟨hstart, -⟩ | hstart | ⟨p, hstart, -⟩
    · rw [hstart]
      exact List.cons_ne_nil _ _
    · rw [hstart]
      exact List.cons_ne_nil _ _
    · rw [hstart]
      exact decodeFrom_pending_ne_nil p bs

/-- What reading the bytes of a character leaves over to read is nothing. -/
theorem eq_nil_of_encodeChar {c : Char} {cs : List Char} {bs : List UInt8} (h : String.utf8EncodeChar c = bs)
    (hread : decodeFrom none bs = replacement :: cs) : cs = [] := by
  have hc := decodeFrom_encodeChar c []
  rw [List.append_nil, h, hread] at hc
  exact (List.cons.inj hc).2

/-! ## What a byte does to a pending character -/

section

variable {bs : List UInt8} {p : Pending} {b : UInt8}

/-- A byte out of the bounds is read as if no character had been pending, after a replacement character. -/
theorem extend_of_not_mem (h : ¬(p.low ≤ b ∧ b ≤ p.high)) : extend p b = (replacement :: (start b).1, (start b).2) := by
  unfold extend
  rw [if_neg h]

/-- A byte that starts no character does so alone: the machine replaces it. -/
theorem not_starts_of_start (h : start b = ([replacement], none)) : ¬Starts [b] := by
  rintro ⟨c, rest, hc⟩
  have hread : decodeFrom none ([b] ++ rest) = replacement :: decodeFrom none rest := by
    rw [List.singleton_append, decodeFrom_none, h, List.singleton_append]
  have hrest := eq_nil_of_encodeChar hc.symm hread
  -- The character is the replacement character itself, which takes three bytes.
  have hchar := decodeFrom_encodeChar c []
  rw [List.append_nil, ← hc, hread, hrest] at hchar
  obtain rfl := (List.cons.inj hchar).1
  have hlength := congrArg List.length hc
  cases rest with
  | nil =>
    rw [List.append_nil, List.length_singleton] at hlength
    exact absurd hlength (by decide)
  | cons b bs => exact decodeFrom_cons_ne_nil none b bs hrest

namespace Leads

variable (h : Leads bs p)

include h

/-- A byte that the machine takes leads on, until it is the last of the character. -/
theorem extend (hl : p.low ≤ b) (hh : b ≤ p.high) :
    (∃ c, Utf8.extend p b = ([c], none) ∧ String.utf8EncodeChar c = bs ++ [b]) ∨
      ∃ q, Utf8.extend p b = ([], some q) ∧ Leads (bs ++ [b]) q := by
  obtain ⟨later, low, high, value⟩ := p
  have htaken : low ≤ b ∧ b ≤ high := ⟨hl, hh⟩
  cases later with
  | zero =>
    refine .inl ⟨Char.ofNat (more value b), ?_, h.completes b [] hl hh rfl (by simp)⟩
    unfold Utf8.extend
    rw [if_pos htaken]
    rfl
  | succ later =>
    have hextend : Utf8.extend ⟨later + 1, low, high, value⟩ b = ([], some ⟨later, 0x80, 0xBF, more value b⟩) := by
      unfold Utf8.extend
      rw [if_pos htaken]
      rfl
    refine .inr ⟨_, hextend, show (0x80 : UInt8) ≤ 0xBF by decide, fun rest => ?_, fun t tail htl hth hlength htail => ?_⟩
    · rw [List.append_assoc, h.reads, List.singleton_append, decodeFrom_some, hextend, List.nil_append]
    · rw [List.append_assoc, List.singleton_append]
      refine h.completes b (t :: tail) hl hh (congrArg (· + 1) hlength) fun u hu => ?_
      rcases List.mem_cons.1 hu with rfl | hu
      · exact ⟨htl, hth⟩
      · exact htail u hu

/-- The bytes start a character with every byte that the machine takes next, and with no other. -/
theorem starts_append_iff : Starts (bs ++ [b]) ↔ p.low ≤ b ∧ b ≤ p.high := by
  constructor
  · rintro ⟨c, rest, hc⟩
    refine Decidable.byContradiction fun hout => ?_
    have hread : decodeFrom none (bs ++ [b] ++ rest) = replacement :: decodeFrom none (b :: rest) := by
      rw [List.append_assoc, h.reads, List.singleton_append, decodeFrom_some, extend_of_not_mem hout, decodeFrom_none,
        List.cons_append]
    exact decodeFrom_cons_ne_nil none b rest (eq_nil_of_encodeChar hc.symm hread)
  · rintro ⟨hl, hh⟩
    have htail : ∀ t ∈ List.replicate p.later (0x80 : UInt8), (0x80 : UInt8) ≤ t ∧ t ≤ 0xBF := by
      intro t ht
      obtain ⟨-, rfl⟩ := List.mem_replicate.1 ht
      decide
    have hc := h.completes b _ hl hh List.length_replicate htail
    refine ⟨_, List.replicate p.later 0x80, Eq.trans ?_ hc.symm⟩
    rw [List.append_assoc, List.singleton_append]

/-- The bytes start a character. -/
theorem starts : Starts bs := by
  obtain ⟨c, hc⟩ := h.starts_append_iff.2 ⟨UInt8.le_refl _, h.low_le⟩
  exact ⟨c, (List.prefix_append bs _).trans hc⟩

/-- The bytes hold no character: it would be read before the one that they are completed to. -/
theorem not_encodeChar_prefix (c : Char) : ¬String.utf8EncodeChar c <+: bs := by
  rintro ⟨rest, rfl⟩
  obtain ⟨d, tail, hd⟩ := h.starts_append_iff.2 ⟨UInt8.le_refl _, h.low_le⟩
  have hread := decodeFrom_encodeChar d []
  rw [List.append_nil, ← hd, List.append_assoc, List.append_assoc, decodeFrom_encodeChar] at hread
  have hrest := (List.cons.inj hread).2
  cases rest with
  | nil => exact decodeFrom_cons_ne_nil none _ _ hrest
  | cons b bs => exact decodeFrom_cons_ne_nil none _ _ hrest

/-- Bytes that lead to a pending character are replaced as one, if the next byte does not belong to it or there is none. -/
theorem replaced {rest : List UInt8} {cs : List Char} (hrest : ∀ b, [b] <+: rest → ¬(p.low ≤ b ∧ b ≤ p.high))
    (hne : bs ≠ []) (hcs : Reads rest cs) : Reads (bs ++ rest) (replacement :: cs) := by
  refine .replaced (fun c hc => ?_) (.longest hne h.starts fun b hb hs => hrest b hb (h.starts_append_iff.1 hs)) hcs
  rcases List.prefix_or_prefix_of_prefix hc (List.prefix_append bs rest) with hin | ⟨more, hmore⟩
  · exact h.not_encodeChar_prefix c hin
  -- A character that is longer than the bytes takes the next byte along.
  cases more with
  | nil => exact h.not_encodeChar_prefix c ⟨[], by rw [← hmore, List.append_nil, List.append_nil]⟩
  | cons b more =>
    rw [← hmore, List.prefix_append_right_inj] at hc
    have hb : [b] <+: rest := List.IsPrefix.trans ⟨more, rfl⟩ hc
    refine hrest b hb (h.starts_append_iff.1 ⟨c, more, ?_⟩)
    rw [← hmore, List.append_assoc, List.singleton_append]

end Leads

end

/-! ## The machine gives what bytes are read as -/

/-- A character does not begin with a byte that starts none. -/
theorem not_encodeChar_prefix_of_not_starts {b : UInt8} (h : ¬Starts [b]) (c : Char) (rest : List UInt8) :
    ¬String.utf8EncodeChar c <+: [b] ++ rest := by
  intro hc
  cases hbytes : String.utf8EncodeChar c with
  | nil => exact absurd hbytes String.utf8EncodeChar_ne_nil
  | cons b' more =>
    rw [hbytes, List.singleton_append] at hc
    obtain rfl := (List.cons_prefix_cons.1 hc).1
    exact h ⟨c, more, by rw [hbytes, List.singleton_append]⟩

/-- Bytes that start a character and hold none lead to a pending character. The induction takes the bytes one by one, after those
that lead to a pending character already. -/
theorem Leads.append {front bs : List UInt8} {p : Pending} (h : Leads front p) (hs : Starts (front ++ bs))
    (hno : ∀ c, ¬String.utf8EncodeChar c <+: front ++ bs) : ∃ q, Leads (front ++ bs) q := by
  induction bs generalizing front p with
  | nil =>
    rw [List.append_nil]
    exact ⟨p, h⟩
  | cons b bs ih =>
    rw [← List.singleton_append, ← List.append_assoc] at hs hno ⊢
    obtain ⟨d, hd⟩ := hs
    have hin := h.starts_append_iff.1 ⟨d, (List.prefix_append _ _).trans hd⟩
    rcases h.extend hin.1 hin.2 with ⟨c, -, hc⟩ | ⟨q, -, hq⟩
    · refine absurd ?_ (hno c)
      rw [hc]
      exact List.prefix_append _ _
    · exact ih hq ⟨d, hd⟩ hno

/-- The longest part that starts a character is replaced as one. -/
theorem decodeFrom_longest {part rest : List UInt8} (hne : part ≠ []) (hs : Starts part)
    (hmax : ∀ b, [b] <+: rest → ¬Starts (part ++ [b])) (hno : ∀ c, ¬String.utf8EncodeChar c <+: part ++ rest) :
    decodeFrom none (part ++ rest) = replacement :: decodeFrom none rest := by
  have hpart (c : Char) : ¬String.utf8EncodeChar c <+: part := fun hc => hno c (hc.trans (List.prefix_append _ _))
  obtain ⟨p, h⟩ : ∃ p, Leads part p := by
    obtain ⟨b, bs, rfl⟩ := List.exists_cons_of_ne_nil hne
    rw [← List.singleton_append] at hs hpart ⊢
    obtain ⟨d, hd⟩ := hs
    have hb : Starts [b] := ⟨d, (List.prefix_append _ _).trans hd⟩
    rcases start_cases b with ⟨-, hc⟩ | hstart | ⟨p, -, h⟩
    · refine absurd ?_ (hpart (Char.ofNat b.toNat))
      rw [hc]
      exact List.prefix_append _ _
    · exact absurd hb (not_starts_of_start hstart)
    · exact h.append ⟨d, hd⟩ hpart
  rw [h.reads]
  cases rest with
  | nil => rfl
  | cons b rest =>
    have hout : ¬(p.low ≤ b ∧ b ≤ p.high) := fun hin => hmax b ⟨rest, rfl⟩ (h.starts_append_iff.2 hin)
    rw [decodeFrom_some, extend_of_not_mem hout]
    rfl

/-- A byte that starts no character is replaced. -/
theorem decodeFrom_single {b : UInt8} (h : ¬Starts [b]) (rest : List UInt8) :
    decodeFrom none ([b] ++ rest) = replacement :: decodeFrom none rest := by
  rw [List.singleton_append, decodeFrom_none]
  rcases start_cases b with ⟨-, hc⟩ | hstart | ⟨p, -, hp⟩
  · exact absurd ⟨_, [], by rw [hc, List.append_nil]⟩ h
  · rw [hstart, List.singleton_append]
  · exact absurd hp.starts h

/-- Bytes are read as what the machine gives, both from the start and with a character pending after the bytes that lead to it. -/
theorem reads_decodeFrom (bs : List UInt8) :
    Reads bs (decodeFrom none bs) ∧
      ∀ front p, front ≠ [] → Leads front p → Reads (front ++ bs) (decodeFrom (some p) bs) := by
  induction bs with
  | nil =>
    refine ⟨.nil, fun front p hne h => h.replaced (fun b hb => ?_) hne .nil⟩
    exact absurd hb (by simp)
  | cons b bs ih =>
    have hnone : Reads (b :: bs) (decodeFrom none (b :: bs)) := by
      rw [decodeFrom_none]
      rcases start_cases b with ⟨hstart, hc⟩ | hstart | ⟨p, hstart, h⟩
      · rw [hstart, List.singleton_append, ← List.singleton_append, ← hc]
        exact .char ih.1
      · have hnot := not_starts_of_start hstart
        rw [hstart, List.singleton_append, ← List.singleton_append]
        exact .replaced (fun c => not_encodeChar_prefix_of_not_starts hnot c bs) (.single hnot) ih.1
      · rw [hstart, List.nil_append]
        exact ih.2 [b] p (List.cons_ne_nil _ _) h
    refine ⟨hnone, fun front p hne h => ?_⟩
    by_cases hin : p.low ≤ b ∧ b ≤ p.high
    · rw [decodeFrom_some, ← List.singleton_append, ← List.append_assoc]
      rcases h.extend hin.1 hin.2 with ⟨c, hextend, hc⟩ | ⟨q, hextend, hq⟩
      · rw [hextend, ← hc]
        exact .char ih.1
      · rw [hextend]
        exact ih.2 _ q (by simp) hq
    · have hread : decodeFrom (some p) (b :: bs) = replacement :: decodeFrom none (b :: bs) := by
        rw [decodeFrom_some, extend_of_not_mem hin]
        rfl
      rw [hread]
      refine h.replaced (fun b' hb' => ?_) hne hnone
      obtain rfl := (List.cons_prefix_cons.1 hb').1
      exact hin

/-- Bytes are read as these characters exactly if the machine gives them. -/
theorem reads_iff {bs : List UInt8} {cs : List Char} : Reads bs cs ↔ decodeFrom none bs = cs := by
  constructor
  · intro h
    induction h with
    | nil => rfl
    | char _ ih => rw [decodeFrom_encodeChar, ih]
    | replaced hno hpart _ ih =>
      cases hpart with
      | longest hne hs hmax => rw [decodeFrom_longest hne hs hmax hno, ih]
      | single hs => rw [decodeFrom_single hs, ih]
  · rintro rfl
    exact (reads_decodeFrom bs).1

instance (bs : List UInt8) (cs : List Char) : Decidable (Reads bs cs) :=
  decidable_of_iff _ reads_iff.symm

/-- A part of a character of three bytes is replaced as one, and each byte that starts none by itself. -/
example : Reads [0x61, 0xE2, 0x82, 0x62, 0xFF, 0xC0] ['a', replacement, 'b', replacement, replacement] := by decide

end ExecImage.Utf8
