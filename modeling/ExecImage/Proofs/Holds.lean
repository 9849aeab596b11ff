import ExecImage.Proofs.Digits
import ExecImage.Proofs.Utf8
import ExecImage.Proofs.View

/-!
# Bytes that are known to be in a view

`Holds v offset bs` says that the bytes `bs` are at an offset of a view. A sequence of bytes that is held is held in
its parts, and a reader that meets the bytes of a number, or of a text with a zero byte after it, gives the number or
the text.
-/

namespace ExecImage

/-- The text can be stored and read back: it has no zero character and is within the cap of the reader. -/
structure IsName (cap : Nat) (s : String) : Prop where
  noZero : '\x00' ∉ s.toList
  length_le : (Utf8.encode s).length ≤ cap

instance (cap : Nat) (s : String) : Decidable (IsName cap s) :=
  decidable_of_iff ('\x00' ∉ s.toList ∧ (Utf8.encode s).length ≤ cap) ⟨fun h => ⟨h.1, h.2⟩, fun h => ⟨h.1, h.2⟩⟩

namespace View

/-- The bytes of a view from the offset on start with some bytes. -/
def Holds (v : View) (offset : Nat) (bs : List UInt8) : Prop :=
  ∃ before after, v.bytes.toList = before ++ (bs ++ after) ∧ before.length = offset

/-- A view of some bytes holds them. -/
theorem holds_self (bs : List UInt8) : Holds ⟨bs.toArray⟩ 0 bs :=
  ⟨[], [], by simp, rfl⟩

namespace Holds

variable {v : View} {offset : Nat} {bs cs : List UInt8}

/-- Bytes that are held are held in two parts. -/
theorem append (h : v.Holds offset (bs ++ cs)) : v.Holds offset bs ∧ v.Holds (offset + bs.length) cs := by
  obtain ⟨before, after, hv, hl⟩ := h
  refine ⟨⟨before, cs ++ after, ?_, hl⟩, ⟨before ++ bs, after, ?_, ?_⟩⟩
  · rw [hv, List.append_assoc]
  · rw [hv, List.append_assoc, List.append_assoc]
  · rw [List.length_append, hl]

/-- Of bytes that are held the first is held, and so are the others. -/
theorem cons {b : UInt8} (h : v.Holds offset (b :: bs)) : v.Holds offset [b] ∧ v.Holds (offset + 1) bs := by
  rw [← List.singleton_append] at h
  exact h.append

/-- Bytes that are held lie inside the view. -/
theorem length_le (h : v.Holds offset bs) : offset + bs.length ≤ v.size := by
  obtain ⟨before, after, hv, hl⟩ := h
  have := congrArg List.length hv
  simp only [List.length_append, Array.length_toList] at this
  simp only [size]
  omega

/-- The range of bytes that are held is these bytes. -/
theorem extract_eq (h : v.Holds offset bs) : v.bytes.extract offset (offset + bs.length) = bs.toArray := by
  obtain ⟨before, after, hv, rfl⟩ := h
  apply Array.toList_inj.1
  rw [Array.toList_extract, hv, List.extract_eq_take_drop, Nat.add_sub_cancel_left, List.drop_left, List.take_left]

theorem slice (h : v.Holds offset bs) : v.slice offset bs.length = .ok bs.toArray :=
  slice_eq_ok_iff.2 ⟨h.length_le, h.extract_eq⟩

theorem sub (h : v.Holds offset bs) : v.sub offset bs.length = .ok ⟨bs.toArray⟩ :=
  Except.map_eq_ok_iff.2 ⟨_, h.slice, rfl⟩

theorem startsWith (h : v.Holds offset bs) : v.startsWith offset bs = true := by
  unfold View.startsWith
  rw [h.slice]
  simp

/-! ## Numbers -/

/-- A field that was written as a number is read as the number. -/
theorem field {order : Endianness} {width n : Nat} (h : v.Holds offset (order.digits width n)) (hn : n < 256 ^ width) :
    v.field width offset order = .ok n := by
  have hs := h.slice
  rw [Endianness.length_digits] at hs
  refine Except.map_eq_ok_iff.2 ⟨_, hs, ?_⟩
  rw [List.toList_toArray, order.value_digits width n hn]

theorem byte {b : UInt8} (h : v.Holds offset [b]) : v.byte offset = .ok b := by
  refine Except.map_eq_ok_iff.2 ⟨b.toNat, Except.map_eq_ok_iff.2 ⟨_, h.slice, ?_⟩, UInt8.ofNat_toNat⟩
  simp [Endianness.value, littleValue]

theorem word16 {order : Endianness} {n : UInt16} (h : v.Holds offset (order.digits 2 n.toNat)) :
    v.word16 offset order = .ok n :=
  Except.map_eq_ok_iff.2 ⟨_, h.field n.toNat_lt, UInt16.ofNat_toNat⟩

theorem word32 {order : Endianness} {n : UInt32} (h : v.Holds offset (order.digits 4 n.toNat)) :
    v.word32 offset order = .ok n :=
  Except.map_eq_ok_iff.2 ⟨_, h.field n.toNat_lt, UInt32.ofNat_toNat⟩

/-- An address that is no wider than the field is read as it was written. -/
theorem address {order : Endianness} {width : Width} {n : UInt64} (h : v.Holds offset (order.digits width.bytes n.toNat))
    (hn : n.toNat < 256 ^ width.bytes) : v.address offset width order = .ok n :=
  Except.map_eq_ok_iff.2 ⟨_, h.field hn, UInt64.ofNat_toNat⟩

/-! ## Texts -/

/-- Bytes without a zero byte that are followed by one are what is read up to the cap. -/
theorem cstringBytes {cap : Nat} (h : v.Holds offset (bs ++ [0])) (h0 : 0 ∉ bs) (hl : bs.length ≤ cap) :
    v.cstringBytes offset cap = bs := by
  obtain ⟨before, after, hv, rfl⟩ := h
  have hsize := congrArg List.length hv
  simp only [List.length_append, List.length_singleton, Array.length_toList] at hsize
  unfold View.cstringBytes
  rw [Array.toList_extract, hv, List.extract_eq_take_drop, List.drop_left, List.append_assoc]
  simp only [size]
  have hstop : ∀ b ∈ bs, (b != 0) = true := by
    intro b hb
    simpa using fun h : b = 0 => h0 (h ▸ hb)
  -- The cap is either not reached before the zero byte, or it is reached just there.
  have hle : bs.length ≤ min (before.length + cap) v.bytes.size - before.length := by omega
  obtain ⟨k, hk⟩ := Nat.exists_eq_add_of_le hle
  rw [hk, List.take_length_add_append, List.takeWhile_append_of_pos hstop]
  cases k with
  | zero => simp
  | succ k => simp

/-- A text without a zero character is read back, if it is within the cap. -/
theorem cstring {s : String} {cap : Nat} (h : v.Holds offset (Utf8.encode s ++ [0])) (h0 : '\x00' ∉ s.toList)
    (hl : (Utf8.encode s).length ≤ cap) : v.cstring offset cap = .ok s := by
  have hsize := h.length_le
  simp only [List.length_append, List.length_singleton] at hsize
  unfold View.cstring
  rw [if_pos (by omega), h.cstringBytes (Utf8.zero_notMem_encode h0) hl, Utf8.decode_encode]

/-! ## Sequences -/

variable {α : Type} {f : α → List UInt8} {xs : List α} {x : α} {i : Nat}

/-- What was written of the elements of a list, one after the other, is held element by element. -/
theorem getElem_of_flatMap (h : v.Holds offset (xs.flatMap f)) (hx : xs[i]? = some x) :
    v.Holds (offset + ((xs.take i).flatMap f).length) (f x) := by
  induction xs generalizing offset i with
  | nil => nomatch hx
  | cons y ys ih =>
    obtain ⟨hy, hys⟩ := View.Holds.append h
    cases i with
    | zero =>
      cases hx
      exact hy
    | succ i =>
      rw [List.take_succ_cons, List.flatMap_cons, List.length_append, ← Nat.add_assoc]
      exact ih hys hx

end Holds

/-- Bytes are held exactly when what is left of the view from the offset on starts with them, which can be decided. -/
theorem holds_iff {v : View} {offset : Nat} {bs : List UInt8} :
    v.Holds offset bs ↔ offset ≤ v.bytes.toList.length ∧ bs <+: v.bytes.toList.drop offset := by
  constructor
  · rintro ⟨before, after, hv, rfl⟩
    rw [hv, List.drop_left, List.length_append]
    exact ⟨Nat.le_add_right _ _, List.prefix_append bs after⟩
  · rintro ⟨hle, after, hafter⟩
    refine ⟨v.bytes.toList.take offset, after, ?_, List.length_take_of_le hle⟩
    rw [hafter, List.take_append_drop]

instance (v : View) (offset : Nat) (bs : List UInt8) : Decidable (v.Holds offset bs) :=
  decidable_of_iff _ holds_iff.symm

end View

/-- Elements that are written in as many bytes each take that many bytes together. -/
theorem length_flatMap_of_length {α : Type} {f : α → List UInt8} {size : Nat} {xs : List α} (hf : ∀ x ∈ xs, (f x).length = size) :
    (xs.flatMap f).length = xs.length * size := by
  rw [List.length_flatMap, List.map_congr_left hf, List.map_const', List.sum_replicate_nat]

/-- Elements that are written in as many bytes each are held at multiples of this number. -/
theorem View.Holds.getElem_of_length {v : View} {offset i size : Nat} {α : Type} {f : α → List UInt8} {xs : List α} {x : α}
    (h : v.Holds offset (xs.flatMap f)) (hf : ∀ x ∈ xs, (f x).length = size) (hx : xs[i]? = some x) :
    v.Holds (offset + i * size) (f x) := by
  have hi := (List.getElem?_eq_some_iff.1 hx).1
  have hlength := length_flatMap_of_length fun y hy => hf y (List.mem_of_mem_take (i := i) hy)
  rw [List.length_take_of_le (Nat.le_of_lt hi)] at hlength
  rw [← hlength]
  exact h.getElem_of_flatMap hx

end ExecImage
