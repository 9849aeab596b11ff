import ExecImage.Proofs.Record

/-!
# Files that agree on a range

Two files of one size that have the same bytes in a range give the same result, or the same error, to every reader that
looks at the range only.
-/

namespace ExecImage

/-- A range of offsets in a file, which may reach beyond the end of the file. -/
structure Extent where
  /-- The first offset. -/
  offset : Nat
  /-- The number of offsets. -/
  len : Nat
  deriving DecidableEq, Repr

namespace View

variable {v w : View}

/-- The part of a range that is in the file has the same bytes in two files. -/
def AgreeOn (v w : View) (r : Extent) : Prop :=
  v.bytes.extract r.offset (r.offset + r.len) = w.bytes.extract r.offset (r.offset + r.len)

/-- Files of one size cover the same ranges. -/
theorem covers_iff_of_size (hsize : v.size = w.size) {offset len : Nat} : v.Covers offset len ↔ w.Covers offset len := by
  unfold Covers
  rw [hsize]

namespace AgreeOn

variable {r r' : Extent} {offset : Nat}

/-- Files that agree on a range agree on its parts. -/
theorem mono (h : v.AgreeOn w r) (hstart : r.offset ≤ r'.offset) (hend : r'.offset + r'.len ≤ r.offset + r.len) :
    v.AgreeOn w r' := by
  have part (u : View) : u.bytes.extract r'.offset (r'.offset + r'.len) =
      (u.bytes.extract r.offset (r.offset + r.len)).extract (r'.offset - r.offset) (r'.offset - r.offset + r'.len) := by
    have hfrom : r.offset + (r'.offset - r.offset) = r'.offset := by omega
    have hto : min (r.offset + (r'.offset - r.offset + r'.len)) (r.offset + r.len) = r'.offset + r'.len := by omega
    rw [Array.extract_extract, hfrom, hto]
  unfold AgreeOn at h ⊢
  rw [part v, part w, h]

/-- Files of one size agree on a range in which they have the same bytes. -/
theorem of_getElem? (hsize : v.size = w.size)
    (h : ∀ i, r.offset ≤ i → i < r.offset + r.len → v.bytes[i]? = w.bytes[i]?) : v.AgreeOn w r := by
  have hbytes : v.bytes.size = w.bytes.size := hsize
  unfold AgreeOn
  refine Array.ext_getElem? fun k => ?_
  rw [Array.getElem?_extract, Array.getElem?_extract, hbytes]
  split
  · exact h _ (by omega) (by omega)
  · rfl

/-- A file agrees with itself on a range that holds no byte that is changed. -/
theorem setIfInBounds (bytes : Bytes) {i : Nat} (b : UInt8) (h : i < r.offset ∨ r.offset + r.len ≤ i) :
    View.AgreeOn ⟨bytes⟩ ⟨bytes.setIfInBounds i b⟩ r := by
  refine of_getElem? (by simp only [size, Array.size_setIfInBounds]) fun k hstart hend => ?_
  have hne : i ≠ k := by omega
  exact (Array.getElem?_setIfInBounds_ne hne).symm

section

variable (hsize : v.size = w.size)

include hsize

/-- A range on which files of one size agree is read alike: the same bytes, or the same error. -/
theorem slice_eq {len : Nat} (h : v.AgreeOn w ⟨offset, len⟩) : v.slice offset len = w.slice offset len := by
  have hbytes : v.bytes.extract offset (offset + len) = w.bytes.extract offset (offset + len) := h
  unfold slice
  simp only [covers_iff_of_size hsize, hbytes, hsize]

theorem sub_eq {len : Nat} (h : v.AgreeOn w ⟨offset, len⟩) : v.sub offset len = w.sub offset len := by
  unfold sub
  rw [h.slice_eq hsize]

theorem field_eq {width : Nat} (order : Endianness) (h : v.AgreeOn w r) (hstart : r.offset ≤ offset)
    (hend : offset + width ≤ r.offset + r.len) : v.field width offset order = w.field width offset order := by
  have hfield : v.AgreeOn w ⟨offset, width⟩ := h.mono hstart hend
  unfold field
  rw [hfield.slice_eq hsize]

theorem byte_eq (h : v.AgreeOn w r) (hstart : r.offset ≤ offset) (hend : offset + 1 ≤ r.offset + r.len) :
    v.byte offset = w.byte offset := by
  unfold byte
  rw [h.field_eq hsize .little hstart hend]

theorem word16_eq (order : Endianness) (h : v.AgreeOn w r) (hstart : r.offset ≤ offset)
    (hend : offset + 2 ≤ r.offset + r.len) : v.word16 offset order = w.word16 offset order := by
  unfold word16
  rw [h.field_eq hsize order hstart hend]

theorem address_eq {width : Width} (order : Endianness) (h : v.AgreeOn w r) (hstart : r.offset ≤ offset)
    (hend : offset + width.bytes ≤ r.offset + r.len) : v.address offset width order = w.address offset width order := by
  unfold address
  rw [h.field_eq hsize order hstart hend]

/-- A record in a range on which files of one size agree is the same record. -/
theorem record_eq {α : Type} {n : Nat} {read : View → Nat → Except LoadError α} (hread : IsRecord n read)
    (h : v.AgreeOn w ⟨offset, n⟩) : read v offset = read w offset := by
  obtain ⟨f, hf⟩ := hread
  rw [hf, hf, h.slice_eq hsize]

end

end AgreeOn

end View

end ExecImage
