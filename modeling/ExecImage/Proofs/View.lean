import ExecImage.Proofs.Steps
import ExecImage.View

/-!
# What a read of bytes depends on

A read succeeds exactly when its range is covered (`slice_eq_ok_iff`, `isOk_field`), fails only as a read out of
bounds (`errors_field`), and gives the same result when bytes are added after the view (`Begins.field`). Every reader
of a fixed number of bytes is a map of `slice`, so each of these facts is proved for `slice` and `field` and carried
to the readers of words.
-/

namespace ExecImage

open Except (ErrorsIn Carries)

/-- A read did not lie in the bytes at hand. -/
def LoadError.IsOutOfBounds (e : LoadError) : Prop :=
  ∃ offset len size, e = .outOfBounds offset len size

theorem LoadError.IsOutOfBounds.ne_unsupportedFormat {e : LoadError} (h : e.IsOutOfBounds) : e ≠ .unsupportedFormat := by
  obtain ⟨offset, len, size, rfl⟩ := h
  nofun

namespace View

variable {v w : View}

/-! ## Results -/

theorem slice_eq_ok_iff {offset len : Nat} {bs : Bytes} :
    v.slice offset len = .ok bs ↔ v.Covers offset len ∧ v.bytes.extract offset (offset + len) = bs := by
  unfold slice
  split <;> simp_all

theorem sub_eq_ok_iff {offset len : Nat} {u : View} :
    v.sub offset len = .ok u ↔ v.Covers offset len ∧ u = ⟨v.bytes.extract offset (offset + len)⟩ := by
  simp only [sub, Except.map_eq_ok_iff, slice_eq_ok_iff, eq_comm (a := u)]
  constructor
  · rintro ⟨bs, ⟨hc, rfl⟩, h⟩
    exact ⟨hc, h⟩
  · rintro ⟨hc, h⟩
    exact ⟨_, ⟨hc, rfl⟩, h⟩

/-- A view of a range has as many bytes as were asked for. -/
theorem size_of_sub {offset len : Nat} {u : View} (h : v.sub offset len = .ok u) : u.size = len := by
  obtain ⟨hc, rfl⟩ := sub_eq_ok_iff.1 h
  simp only [Covers, size] at hc
  simp only [size, Array.size_extract]
  omega

/-- The bytes of a range that is covered are as many as were asked for. -/
theorem size_of_slice {offset len : Nat} {bs : Bytes} (h : v.slice offset len = .ok bs) : bs.size = len := by
  obtain ⟨hc, rfl⟩ := slice_eq_ok_iff.1 h
  simp only [Covers, size] at hc
  simp only [Array.size_extract]
  omega

theorem slice_of_covers {offset len : Nat} (h : v.Covers offset len) :
    v.slice offset len = .ok (v.bytes.extract offset (offset + len)) :=
  slice_eq_ok_iff.2 ⟨h, rfl⟩

/-- A part of a covered range is covered. -/
theorem Covers.mono {offset len offset' len' : Nat} (h : v.Covers offset len) (h1 : offset' + len' ≤ offset + len) :
    v.Covers offset' len' :=
  Nat.le_trans h1 h

/-- A field in a covered range can be read. -/
theorem isOk_field {width offset : Nat} (order : Endianness) (h : v.Covers offset width) :
    ∃ n, v.field width offset order = .ok n :=
  ⟨_, Except.map_eq_ok_iff.2 ⟨_, slice_of_covers h, rfl⟩⟩

theorem isOk_byte {offset : Nat} (h : v.Covers offset 1) : ∃ x, v.byte offset = .ok x := by
  obtain ⟨n, hn⟩ := isOk_field .little h
  exact ⟨_, Except.map_eq_ok_iff.2 ⟨n, hn, rfl⟩⟩

theorem isOk_word32 {offset : Nat} (order : Endianness) (h : v.Covers offset 4) : ∃ x, v.word32 offset order = .ok x := by
  obtain ⟨n, hn⟩ := isOk_field order h
  exact ⟨_, Except.map_eq_ok_iff.2 ⟨n, hn, rfl⟩⟩

/-- Bytes that are a magic number are in the view, and the first of them is the number's. -/
theorem getElem?_of_startsWith {offset : Nat} {m : UInt8} {ms : List UInt8} (h : v.startsWith offset (m :: ms) = true) :
    v.Covers offset (ms.length + 1) ∧ v.bytes[offset]? = some m := by
  unfold startsWith at h
  split at h
  · rename_i bs hbs
    obtain ⟨hc, rfl⟩ := slice_eq_ok_iff.1 hbs
    refine ⟨hc, ?_⟩
    have hfirst := congrArg (fun l : List UInt8 => l[0]?) (beq_iff_eq.1 h)
    simpa [Array.getElem?_extract] using hfirst
  · nomatch h

/-! ## Ranges of ranges -/

/-- A view of a range covers what lies in the range. -/
theorem covers_of_sub {offset len k n : Nat} {u : View} (h : v.sub offset len = .ok u) (hk : k + n ≤ len) : u.Covers k n := by
  unfold Covers
  rw [size_of_sub h]
  exact hk

/-- A range of a range is a range of the view. -/
theorem slice_of_sub {offset len k n : Nat} {u : View} (h : v.sub offset len = .ok u) (hk : k + n ≤ len) :
    u.slice k n = v.slice (offset + k) n := by
  have hu := covers_of_sub h hk
  obtain ⟨hc, rfl⟩ := sub_eq_ok_iff.1 h
  rw [slice_of_covers hu, slice_of_covers (hc.mono (by omega)), Array.extract_extract]
  have hmin : min (offset + (k + n)) (offset + len) = offset + k + n := by omega
  rw [hmin]

theorem word16_of_sub {offset len k : Nat} {u : View} (order : Endianness) (h : v.sub offset len = .ok u)
    (hk : k + 2 ≤ len) : u.word16 k order = v.word16 (offset + k) order := by
  unfold word16 field
  rw [slice_of_sub h hk]

/-- The text at an offset of a range of a view: the bytes up to the first zero byte, at most `cap` of them and none beyond the range.
No text starts outside the range. -/
def textIn? (v : View) (offset len start cap : Nat) : Option String :=
  if start < len then
    some (Utf8.decode ((v.bytes.extract (offset + start) (offset + min (start + cap) len)).toList.takeWhile (· != 0)))
  else none

/-- The text that is read of a view of a range is a text of the range. -/
theorem cstring_of_sub {offset len start cap : Nat} {u : View} (h : v.sub offset len = .ok u) :
    (u.cstring start cap).toOption = v.textIn? offset len start cap := by
  have hsize := size_of_sub h
  obtain ⟨-, rfl⟩ := sub_eq_ok_iff.1 h
  unfold cstring textIn? cstringBytes
  rw [hsize]
  split
  · have hmin : min (offset + min (start + cap) len) (offset + len) = offset + min (start + cap) len := by omega
    rw [Array.extract_extract, hmin]
    rfl
  · rfl

/-! ## Errors -/

theorem errors_slice (v : View) (offset len : Nat) : ErrorsIn LoadError.IsOutOfBounds (v.slice offset len) := by
  unfold slice
  split
  · exact .ok _
  · exact .error ⟨_, _, _, rfl⟩

theorem errors_sub (v : View) (offset len : Nat) : ErrorsIn LoadError.IsOutOfBounds (v.sub offset len) :=
  (v.errors_slice offset len).map

theorem errors_field (v : View) (width offset : Nat) (order : Endianness) :
    ErrorsIn LoadError.IsOutOfBounds (v.field width offset order) :=
  (v.errors_slice offset width).map

theorem errors_byte (v : View) (offset : Nat) : ErrorsIn LoadError.IsOutOfBounds (v.byte offset) :=
  (v.errors_field 1 offset .little).map

theorem errors_word16 (v : View) (offset : Nat) (order : Endianness) :
    ErrorsIn LoadError.IsOutOfBounds (v.word16 offset order) :=
  (v.errors_field 2 offset order).map

theorem errors_word32 (v : View) (offset : Nat) (order : Endianness) :
    ErrorsIn LoadError.IsOutOfBounds (v.word32 offset order) :=
  (v.errors_field 4 offset order).map

theorem errors_word64 (v : View) (offset : Nat) (order : Endianness) :
    ErrorsIn LoadError.IsOutOfBounds (v.word64 offset order) :=
  (v.errors_field 8 offset order).map

theorem errors_address (v : View) (offset : Nat) (width : Width) (order : Endianness) :
    ErrorsIn LoadError.IsOutOfBounds (v.address offset width order) :=
  (v.errors_field width.bytes offset order).map

/-! ## Bytes added at the end -/

/-- The bytes of a view are the first bytes of another. -/
def Begins (v w : View) : Prop :=
  ∃ rest, w.bytes = v.bytes ++ rest

namespace Begins

variable (h : v.Begins w)

include h

theorem covers {offset len : Nat} (hc : v.Covers offset len) : w.Covers offset len := by
  obtain ⟨rest, hw⟩ := h
  simp only [Covers, size, hw, Array.size_append] at *
  omega

/-- A range of a view has the same bytes in a longer one. -/
theorem slice (offset len : Nat) : Carries Eq (v.slice offset len) (w.slice offset len) := by
  rw [Except.carries_eq_iff]
  intro bs hbs
  obtain ⟨hc, rfl⟩ := slice_eq_ok_iff.1 hbs
  refine slice_eq_ok_iff.2 ⟨h.covers hc, ?_⟩
  obtain ⟨rest, hw⟩ := h
  simp only [Covers, size] at hc
  rw [hw, Array.extract_append, Nat.sub_eq_zero_of_le hc, Array.extract_zero, Array.append_empty]

theorem sub (offset len : Nat) : Carries Eq (v.sub offset len) (w.sub offset len) :=
  (h.slice offset len).map (by rintro _ _ rfl; rfl)

theorem field (width offset : Nat) (order : Endianness) :
    Carries Eq (v.field width offset order) (w.field width offset order) :=
  (h.slice offset width).map (by rintro _ _ rfl; rfl)

theorem byte (offset : Nat) : Carries Eq (v.byte offset) (w.byte offset) :=
  (h.field 1 offset .little).map (by rintro _ _ rfl; rfl)

theorem word16 (offset : Nat) (order : Endianness) : Carries Eq (v.word16 offset order) (w.word16 offset order) :=
  (h.field 2 offset order).map (by rintro _ _ rfl; rfl)

theorem word32 (offset : Nat) (order : Endianness) : Carries Eq (v.word32 offset order) (w.word32 offset order) :=
  (h.field 4 offset order).map (by rintro _ _ rfl; rfl)

theorem address (offset : Nat) (width : Width) (order : Endianness) :
    Carries Eq (v.address offset width order) (w.address offset width order) :=
  (h.field width.bytes offset order).map (by rintro _ _ rfl; rfl)

theorem startsWith {offset : Nat} {magic : List UInt8} (hm : v.startsWith offset magic = true) :
    w.startsWith offset magic = true := by
  unfold View.startsWith at hm ⊢
  cases hs : v.slice offset magic.length with
  | error e => simp [hs] at hm
  | ok bs =>
    rw [Except.carries_eq_iff.1 (h.slice offset magic.length) bs hs]
    simpa only [hs] using hm

end Begins

/-- A view that covers the bytes of a magic number decides it for every longer view. -/
theorem Begins.startsWith_eq (h : v.Begins w) {offset : Nat} {magic : List UInt8} (hc : v.Covers offset magic.length) :
    w.startsWith offset magic = v.startsWith offset magic := by
  unfold View.startsWith
  rw [Except.carries_eq_iff.1 (h.slice offset magic.length) _ (slice_of_covers hc), slice_of_covers hc]

end View

end ExecImage
