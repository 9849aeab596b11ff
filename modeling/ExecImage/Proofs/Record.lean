import ExecImage.Proofs.Digits
import ExecImage.Proofs.View

/-!
# Records

A record is a range of bytes of a fixed length from which several fields are read. `Within n` says of a reader that it
cannot fail where the range is covered, and that its result then depends on the bytes of the range alone; `IsRecord n`
says further that it fails as the read of the range does where it is not covered. A field inside the range holds a number
of its bytes (`numberAt`), so it is `Within`, and so is every sequence of such fields.
-/

namespace ExecImage

open Except (ErrorsIn Carries bind_eq_ok_iff)

namespace View

variable {α β : Type} {n : Nat}

/-- Where the `n` bytes at the offset are covered, the reader gives a result that only they determine. -/
def Within (n : Nat) (read : View → Nat → Except LoadError α) : Prop :=
  ∃ f : Bytes → α, ∀ (v : View) (offset : Nat), v.Covers offset n →
    read v offset = .ok (f (v.bytes.extract offset (offset + n)))

/-- The reader gives what the `n` bytes at the offset determine, and fails where they are not covered. -/
def IsRecord (n : Nat) (read : View → Nat → Except LoadError α) : Prop :=
  ∃ f : Bytes → α, ∀ (v : View) (offset : Nat), read v offset = (v.slice offset n).map f

/-! ## The bytes of a record -/

/-- The bytes of a range are part of the bytes of a range around it. -/
theorem slice_of_record {v : View} {offset k len : Nat} (hc : v.Covers offset n) (h : k + len ≤ n) :
    v.slice (offset + k) len = .ok ((v.bytes.extract offset (offset + n)).extract k (k + len)) := by
  have hmin : min (offset + (k + len)) (offset + n) = offset + k + len := by omega
  rw [slice_of_covers (hc.mono (by omega)), Array.extract_extract, hmin]

/-- The number that `width` bytes of a record hold, `k` bytes after its start. -/
def numberAt (order : Endianness) (bs : Bytes) (k width : Nat) : Nat :=
  order.value (bs.extract k (k + width)).toList

/-- A number is no larger than its bytes can hold. -/
theorem numberAt_lt (order : Endianness) (bs : Bytes) (k width : Nat) : numberAt order bs k width < 256 ^ width := by
  have hlength : (bs.extract k (k + width)).toList.length ≤ width := by
    rw [Array.length_toList, Array.size_extract]
    omega
  exact Nat.lt_of_lt_of_le (order.value_lt _) (Nat.pow_le_pow_right (by decide) hlength)

@[simp] theorem toNat_numberAt_two (order : Endianness) (bs : Bytes) (k : Nat) :
    (UInt16.ofNat (numberAt order bs k 2)).toNat = numberAt order bs k 2 :=
  UInt16.toNat_ofNat_of_lt' (numberAt_lt order bs k 2)

@[simp] theorem toNat_numberAt_four (order : Endianness) (bs : Bytes) (k : Nat) :
    (UInt32.ofNat (numberAt order bs k 4)).toNat = numberAt order bs k 4 :=
  UInt32.toNat_ofNat_of_lt' (numberAt_lt order bs k 4)

section

variable {v : View} {offset : Nat} {order : Endianness}

/-- A field that is in the view holds a number of the view's bytes. -/
theorem field_eq_ok_iff {width n : Nat} :
    v.field width offset order = .ok n ↔ v.Covers offset width ∧ n = numberAt order v.bytes offset width := by
  unfold field
  simp only [Except.map_eq_ok_iff, slice_eq_ok_iff]
  constructor
  · rintro ⟨_, ⟨hc, rfl⟩, rfl⟩
    exact ⟨hc, rfl⟩
  · rintro ⟨hc, rfl⟩
    exact ⟨_, ⟨hc, rfl⟩, rfl⟩

theorem word16_eq_ok_iff {x : UInt16} :
    v.word16 offset order = .ok x ↔ v.Covers offset 2 ∧ x = .ofNat (numberAt order v.bytes offset 2) := by
  simp only [word16, Except.map_eq_ok_iff, field_eq_ok_iff, and_assoc, exists_and_left, exists_eq_left, eq_comm (b := x)]

theorem word32_eq_ok_iff {x : UInt32} :
    v.word32 offset order = .ok x ↔ v.Covers offset 4 ∧ x = .ofNat (numberAt order v.bytes offset 4) := by
  simp only [word32, Except.map_eq_ok_iff, field_eq_ok_iff, and_assoc, exists_and_left, exists_eq_left, eq_comm (b := x)]

theorem word64_eq_ok_iff {x : UInt64} :
    v.word64 offset order = .ok x ↔ v.Covers offset 8 ∧ x = .ofNat (numberAt order v.bytes offset 8) := by
  simp only [word64, Except.map_eq_ok_iff, field_eq_ok_iff, and_assoc, exists_and_left, exists_eq_left, eq_comm (b := x)]

theorem word16_of_covers (order : Endianness) (h : v.Covers offset 2) :
    v.word16 offset order = .ok (.ofNat (numberAt order v.bytes offset 2)) :=
  word16_eq_ok_iff.2 ⟨h, rfl⟩

theorem word32_of_covers (order : Endianness) (h : v.Covers offset 4) :
    v.word32 offset order = .ok (.ofNat (numberAt order v.bytes offset 4)) :=
  word32_eq_ok_iff.2 ⟨h, rfl⟩

end

section

variable {v : View} {offset k : Nat} (order : Endianness) (hc : v.Covers offset n)

include hc

/-- A field of a record holds a number of the record's bytes. -/
theorem field_of_record {width : Nat} (h : k + width ≤ n) :
    v.field width (offset + k) order = .ok (numberAt order (v.bytes.extract offset (offset + n)) k width) := by
  unfold field
  rw [slice_of_record hc h]
  rfl

theorem byte_of_record (h : k + 1 ≤ n) :
    v.byte (offset + k) = .ok (.ofNat (numberAt .little (v.bytes.extract offset (offset + n)) k 1)) := by
  unfold byte
  rw [field_of_record .little hc h]
  rfl

theorem word16_of_record (h : k + 2 ≤ n) :
    v.word16 (offset + k) order = .ok (.ofNat (numberAt order (v.bytes.extract offset (offset + n)) k 2)) := by
  unfold word16
  rw [field_of_record order hc h]
  rfl

theorem word32_of_record (h : k + 4 ≤ n) :
    v.word32 (offset + k) order = .ok (.ofNat (numberAt order (v.bytes.extract offset (offset + n)) k 4)) := by
  unfold word32
  rw [field_of_record order hc h]
  rfl

theorem address_of_record (width : Width) (h : k + width.bytes ≤ n) :
    v.address (offset + k) width order =
      .ok (.ofNat (numberAt order (v.bytes.extract offset (offset + n)) k width.bytes)) := by
  unfold address
  rw [field_of_record order hc h]
  rfl

end

/-! ## Readers of a record -/

theorem slice_within {k len : Nat} (h : k + len ≤ n) : Within n fun v offset => v.slice (offset + k) len :=
  ⟨fun bs => bs.extract k (k + len), fun _ _ hc => slice_of_record hc h⟩

theorem word32_within {k : Nat} (order : Endianness) (h : k + 4 ≤ n) : Within n fun v offset => v.word32 (offset + k) order :=
  ⟨fun bs => .ofNat (numberAt order bs k 4), fun _ _ hc => word32_of_record order hc h⟩

theorem pure_within (a : α) : Within n fun _ _ => (pure a : Except LoadError α) :=
  ⟨fun _ => a, fun _ _ _ => rfl⟩

/-- A sequence of readers of a range is a reader of the range. -/
theorem Within.bind {first : View → Nat → Except LoadError α} {rest : α → View → Nat → Except LoadError β}
    (h : Within n first) (hr : ∀ a, Within n (rest a)) :
    Within n fun v offset => first v offset >>= fun a => rest a v offset := by
  obtain ⟨f, hf⟩ := h
  choose g hg using hr
  refine ⟨fun bs => g (f bs) bs, fun v offset hc => ?_⟩
  dsimp only
  rw [hf v offset hc]
  exact hg _ v offset hc

/-! ## Tables of records -/

/-- A record of a table lies in the table, if the records are far enough apart. -/
theorem record_le_table {i count size distance : Nat} (hi : i < count) (hsize : size ≤ distance) :
    i * distance + size ≤ count * distance := by
  have hmul : (i + 1) * distance ≤ count * distance := Nat.mul_le_mul_right distance hi
  rw [Nat.add_mul, Nat.one_mul] at hmul
  omega

/-! ## What records give -/

namespace Within

variable {read : View → Nat → Except LoadError α} (h : Within n read) {v : View} {offset : Nat}

include h

theorem isOk (hc : v.Covers offset n) : ∃ a, read v offset = .ok a := by
  obtain ⟨f, hf⟩ := h
  exact ⟨_, hf v offset hc⟩

theorem errorsIn (P : LoadError → Prop) (hc : v.Covers offset n) : ErrorsIn P (read v offset) := by
  obtain ⟨a, ha⟩ := h.isOk hc
  rw [ha]
  exact .ok a

end Within

namespace IsRecord

variable {read : View → Nat → Except LoadError α} (h : IsRecord n read) {v w : View} {offset : Nat}

include h

theorem errors (v : View) (offset : Nat) : ErrorsIn LoadError.IsOutOfBounds (read v offset) := by
  obtain ⟨f, hf⟩ := h
  rw [hf]
  exact (v.errors_slice offset n).map

/-- A record of a view is the same record of a longer one. -/
theorem carries (hvw : v.Begins w) : Carries Eq (read v offset) (read w offset) := by
  obtain ⟨f, hf⟩ := h
  rw [hf, hf]
  exact (hvw.slice offset n).map (by rintro _ _ rfl; rfl)

end IsRecord

end View

end ExecImage
