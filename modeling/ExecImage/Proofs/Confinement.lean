import Mathlib.Algebra.Group.Nat.Defs
import ExecImage.Proofs.Elf.Writer
import ExecImage.Proofs.Stages

/-!
# Sections stay inside the file, the limit and the address space

Every offset, size and address of a section header is the image's own word. Whatever they are, a section that is
loaded has bytes that the file holds at its offset, no more of them than the section has addresses or the limit
allows, and addresses that fit the width of the image.
-/

namespace ExecImage

/-- A section of an image with addresses of `bits` bits is confined to the file that it was loaded from, to the limit
and to the address space. -/
structure Section.Confined (s : Section) (v : View) (source : String) (options : Options) (bits : UInt8) : Prop where
  /-- The section bears the label of the image. -/
  binary : s.binary = source
  /-- The section has a name. -/
  name : s.name ≠ ""
  /-- The bytes are those of the file at the section's offset. -/
  bytes : s.bytes = #[] ∨
    (s.fileOffset.toNat + s.bytes.size ≤ v.size ∧
      s.bytes = v.bytes.extract s.fileOffset.toNat (s.fileOffset.toNat + s.bytes.size))
  /-- The file provides no more bytes than the section has addresses. -/
  size_le : s.bytes.size ≤ s.size.toNat
  /-- The bytes are within the limit. -/
  limit : s.bytes.size ≤ options.maxSectionBytes.toNat
  /-- The addresses of a 32-bit image end at the last one at the latest. -/
  addresses32 : bits = 32 → s.vma.toNat + s.size.toNat ≤ 2 ^ 32
  /-- The end of the addresses of a 64-bit image is a word. -/
  addresses64 : bits = 64 → s.vma.toNat + s.size.toNat < 2 ^ 64

/-- The name under which a section is loaded is never empty. -/
theorem Section.displayName_ne_empty (name : String) : Section.displayName name ≠ "" := by
  unfold Section.displayName
  split
  · decide
  · assumption

/-- A range that fits 32-bit addresses ends at the last of them at the latest. -/
theorem Width.Fits.le_of_bits {w : Width} {start len : Nat} (h : w.Fits start len) (hb : w.bits = 32) :
    start + len ≤ 2 ^ 32 := by
  cases w with
  | w32 => exact h
  | w64 => exact absurd hb (by decide)

/-- A range that fits the addresses of either width ends at a 64-bit word. -/
theorem Width.Fits.lt {w : Width} {start len : Nat} (h : w.Fits start len) : start + len < 2 ^ 64 := by
  cases w with
  | w32 =>
    have : start + len ≤ 2 ^ 32 := h
    omega
  | w64 => exact h

/-- The bytes of a range that could be read are those of the file from its start on. -/
theorem View.slice_confined {v : View} {offset len : Nat} {bs : Bytes} (h : v.slice offset len = .ok bs) :
    offset + bs.size ≤ v.size ∧ bs = v.bytes.extract offset (offset + bs.size) := by
  rw [View.size_of_slice h]
  obtain ⟨hc, rfl⟩ := View.slice_eq_ok_iff.1 h
  exact ⟨hc, rfl⟩

namespace Elf.SectionTable

variable {t : SectionTable} {source : String} {options : Options} {e : NamedHeader} {s : Section}

/-- A section that an ELF header becomes is confined: the copy is the whole range of the file, or nothing. -/
theorem confined_of_loadEntry (h : t.loadEntry source options e = .ok (some s)) :
    s.Confined t.view source options t.cls.width.bits := by
  obtain ⟨kind, bytes, -, hf, hb, rfl⟩ := loadEntry_eq_some_iff.1 h
  have addresses32 := hf.le_of_bits
  have addresses64 := hf.lt
  rcases copy_eq_ok_iff.1 hb with ⟨-, rfl⟩ | ⟨-, hm, hs⟩
  · exact ⟨rfl, Section.displayName_ne_empty _, .inl rfl, Nat.zero_le _, Nat.zero_le _, addresses32, fun _ => addresses64⟩
  · have hsize : bytes.size = e.header.size.toNat := View.size_of_slice hs
    exact ⟨rfl, Section.displayName_ne_empty _, .inr (View.slice_confined hs), Nat.le_of_eq hsize, hsize ▸ hm, addresses32,
      fun _ => addresses64⟩

end Elf.SectionTable

namespace Pe.SectionTable

variable {v : View} {imageBase : UInt64} {width : Width} {source : String} {options : Options} {e : NamedHeader} {s : Section}

/-- The first address of a section does not wrap: the image base and the relative address add up to an address. -/
theorem toNat_vma {rva : UInt32} {size : Nat} (h : width.Fits (imageBase.toNat + rva.toNat) size) :
    (imageBase + rva.toUInt64).toNat = imageBase.toNat + rva.toNat := by
  have := h.lt
  rw [UInt64.toNat_add, UInt32.toNat_toUInt64, Nat.mod_eq_of_lt (by omega)]

/-- A section that a PE header becomes is confined: the copy is the mapped part of the raw data. -/
theorem confined_of_loadEntry (h : loadEntry v imageBase width source options e = .ok (some s)) :
    s.Confined v source options width.bits := by
  obtain ⟨kind, bytes, -, hf, hb, rfl⟩ := loadEntry_eq_some_iff.1 h
  have hvma := toNat_vma hf
  have hmapped : e.header.mappedSize.toUInt64.toNat = e.header.mappedSize.toNat := UInt32.toNat_toUInt64 _
  have addresses32 : width.bits = 32 →
      (imageBase + e.header.virtualAddress.toUInt64).toNat + e.header.mappedSize.toUInt64.toNat ≤ 2 ^ 32 := by
    rw [hvma, hmapped]
    exact hf.le_of_bits
  have addresses64 : (imageBase + e.header.virtualAddress.toUInt64).toNat + e.header.mappedSize.toUInt64.toNat < 2 ^ 64 := by
    rw [hvma, hmapped]
    exact hf.lt
  rcases copy_eq_ok_iff.1 hb with ⟨-, rfl⟩ | ⟨-, -, hm, hs⟩
  · exact ⟨rfl, Section.displayName_ne_empty _, .inl rfl, Nat.zero_le _, Nat.zero_le _, addresses32, fun _ => addresses64⟩
  · have hsize : bytes.size = min e.header.rawSize.toNat e.header.mappedSize.toNat := View.size_of_slice hs
    have hle : bytes.size ≤ e.header.mappedSize.toUInt64.toNat := by
      rw [hsize, hmapped]
      exact Nat.min_le_right _ _
    have hraw : e.header.rawPointer.toUInt64.toNat = e.header.rawPointer.toNat := UInt32.toNat_toUInt64 _
    have hbytes := View.slice_confined hs
    rw [← hraw] at hbytes
    exact ⟨rfl, Section.displayName_ne_empty _, .inr hbytes, hle, hsize ▸ hm, addresses32, fun _ => addresses64⟩

end Pe.SectionTable

/-- Every section of a loaded image, of either format, is confined to the file, the limit and the address space. -/
theorem sections_confined {v : View} {source : String} {hint : FormatHint} {options : Options} {b : Binary}
    (h : load v source hint options = .ok b) : ∀ s ∈ b.sections, s.Confined v source options b.bits := by
  intro s hs
  obtain ⟨withSymbols, tables, hr, rfl⟩ := load_eq_ok_iff.1 h
  cases hr with
  | @elf image sections _ hread hload =>
    obtain ⟨e, -, he⟩ := Except.exists_of_mem_mapM_filterMap hload hs
    have hc := Elf.SectionTable.confined_of_loadEntry he
    obtain ⟨-, -, htable⟩ := Elf.Image.read_eq_ok_iff.1 hread
    obtain ⟨hview, hcls⟩ := Elf.SectionTable.view_of_read htable
    rw [hview, hcls] at hc
    exact hc
  | @pe image sections _ hread hload =>
    obtain ⟨e, -, he⟩ := Except.exists_of_mem_mapM_filterMap hload hs
    have hc := Pe.SectionTable.confined_of_loadEntry he
    obtain ⟨hview, -⟩ := Pe.Image.read_eq_ok_iff.1 hread
    rw [hview] at hc
    exact hc

/-- The section of a small image is confined. -/
theorem sections_confined_sample : ∃ b, load Elf.ImageSpec.sample.view "sample" .auto {} = .ok b ∧ b.sections.length = 1 ∧
    ∀ s ∈ b.sections, s.Confined Elf.ImageSpec.sample.view "sample" {} b.bits := by
  have h : (load Elf.ImageSpec.sample.view "sample" .auto {}).toOption.map (fun b => b.sections.length) = some 1 := by
    decide +kernel
  obtain ⟨b, hb, hlength⟩ := Except.exists_of_toOption_map h
  exact ⟨b, hb, hlength, sections_confined hb⟩

end ExecImage
