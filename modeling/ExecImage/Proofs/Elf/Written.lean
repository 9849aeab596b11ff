import ExecImage.Proofs.Elf.Sections
import ExecImage.Proofs.Elf.Writer
import ExecImage.Proofs.Holds

/-!
# Records that were written are read back

A reader that meets the bytes of a file header, a section header or a symbol entry gives the record, if its addresses
and sizes are no wider than the fields of its class. Each proof walks along the bytes, one field after the other, and
meets the offsets of the reader.
-/

namespace ExecImage.Elf

open Except (bind_eq_ok_iff)

variable {v : View} {offset : Nat}

theorem Class.headerSize_pos (cls : Class) : 0 < cls.headerSize := by
  cases cls <;> decide

theorem Class.symbolSize_pos (cls : Class) : 0 < cls.symbolSize := by
  cases cls <;> decide

theorem Class.sectionHeaderSize_le (cls : Class) : cls.sectionHeaderSize ≤ 64 := by
  cases cls <;> decide

/-- The number is no wider than an address. -/
def Class.Fits (cls : Class) (n : UInt64) : Prop :=
  n.toNat < 256 ^ cls.width.bytes

instance (cls : Class) (n : UInt64) : Decidable (cls.Fits n) :=
  inferInstanceAs (Decidable (_ < _))

namespace Ident

variable (ident : Ident)

@[simp] theorem length_half (n : UInt16) : (ident.half n).length = 2 := by simp [half]

@[simp] theorem length_word (n : UInt32) : (ident.word n).length = 4 := by simp [word]

@[simp] theorem length_address (n : UInt64) : (ident.address n).length = ident.cls.width.bytes := by simp [address]

@[simp] theorem length_write : ident.write.length = size := by
  simp [write, magic, size]

end Ident

/-! ## The file header -/

theorem Class.ofByte_byte (cls : Class) : Class.ofByte cls.byte = .ok cls := by
  cases cls <;> rfl

theorem orderOfByte_orderByte (order : Endianness) : orderOfByte (orderByte order) = .ok order := by
  cases order <;> rfl

/-- The identification of an image is read back. -/
theorem Ident.read_of_holds {ident : Ident} (h : v.Holds 0 ident.write) : Ident.read v = .ok ident := by
  have hslice := h.slice
  rw [length_write] at hslice
  obtain ⟨h, -⟩ := View.Holds.append h
  obtain ⟨hmagic, h⟩ := h.append
  obtain ⟨hcls, h⟩ := h.cons
  obtain ⟨horder, -⟩ := h.cons
  unfold Ident.read
  refine bind_eq_ok_iff.2 ⟨⟨⟩, Except.discard_eq_ok_iff.2 ⟨_, hslice⟩, ?_⟩
  rw [if_pos hmagic.startsWith]
  refine bind_eq_ok_iff.2 ⟨_, hcls.byte, bind_eq_ok_iff.2 ⟨_, Class.ofByte_byte _, ?_⟩⟩
  exact bind_eq_ok_iff.2 ⟨_, horder.byte, bind_eq_ok_iff.2 ⟨_, orderOfByte_orderByte _, rfl⟩⟩

namespace Header

@[simp] theorem length_write (h : Header) : h.write.length = h.ident.cls.headerSize := by
  cases hc : h.ident.cls <;> simp [write, hc, Ident.size, Class.width, Width.bytes, Class.headerSize]

/-- A file header is read back. -/
theorem read_of_holds {h : Header} (hv : v.Holds 0 h.write) (hentry : h.ident.cls.Fits h.entry)
    (htable : h.ident.cls.Fits h.tableOffset) : Header.read v = .ok h := by
  have hslice := hv.slice
  rw [length_write] at hslice
  obtain ⟨⟨cls, order⟩, machine, entry, tableOffset, entrySize, count, namesIndex⟩ := h
  obtain ⟨hident, hv⟩ := View.Holds.append hv
  obtain ⟨-, hv⟩ := hv.append
  obtain ⟨hmachine, hv⟩ := hv.append
  obtain ⟨-, hv⟩ := hv.append
  obtain ⟨hentry', hv⟩ := hv.append
  obtain ⟨-, hv⟩ := hv.append
  obtain ⟨htable', hv⟩ := hv.append
  obtain ⟨-, hv⟩ := hv.append
  obtain ⟨-, hv⟩ := hv.append
  obtain ⟨-, hv⟩ := hv.append
  obtain ⟨-, hv⟩ := hv.append
  obtain ⟨hentrySize, hv⟩ := hv.append
  obtain ⟨hcount, hnames⟩ := hv.append
  simp only [Ident.length_write, Ident.length_half, Ident.length_word, Ident.length_address] at *
  unfold Header.read
  refine bind_eq_ok_iff.2 ⟨_, Ident.read_of_holds hident, ?_⟩
  refine bind_eq_ok_iff.2 ⟨⟨⟩, Except.discard_eq_ok_iff.2 ⟨_, hslice⟩, ?_⟩
  cases cls
  all_goals
    refine bind_eq_ok_iff.2 ⟨_, hmachine.word16, bind_eq_ok_iff.2 ⟨_, hentry'.address hentry, ?_⟩⟩
    refine bind_eq_ok_iff.2 ⟨_, htable'.address htable, bind_eq_ok_iff.2 ⟨_, hentrySize.word16, ?_⟩⟩
    exact bind_eq_ok_iff.2 ⟨_, hcount.word16, bind_eq_ok_iff.2 ⟨_, hnames.word16, rfl⟩⟩

end Header

/-! ## Section headers -/

namespace SectionHeader

/-- The fields of a section header that are as wide as an address are no wider than those of a class. -/
structure Fits (cls : Class) (h : SectionHeader) : Prop where
  flags : cls.Fits h.flags
  addr : cls.Fits h.addr
  offset : cls.Fits h.offset
  size : cls.Fits h.size
  entrySize : cls.Fits h.entrySize

@[simp] theorem length_write (ident : Ident) (alignment : UInt64) (h : SectionHeader) :
    (h.write ident alignment).length = ident.cls.sectionHeaderSize := by
  cases hc : ident.cls <;> simp [write, hc, Class.width, Width.bytes, Class.sectionHeaderSize]

/-- A section header is read back. -/
theorem read_of_holds {ident : Ident} {alignment : UInt64} {h : SectionHeader} (hv : v.Holds offset (h.write ident alignment))
    (hf : h.Fits ident.cls) : SectionHeader.read v offset ident = .ok h := by
  have hslice := hv.slice
  rw [length_write] at hslice
  obtain ⟨cls, order⟩ := ident
  obtain ⟨hname, hv⟩ := View.Holds.append hv
  obtain ⟨htype, hv⟩ := hv.append
  obtain ⟨hflags, hv⟩ := hv.append
  obtain ⟨haddr, hv⟩ := hv.append
  obtain ⟨hoffset, hv⟩ := hv.append
  obtain ⟨hsize, hv⟩ := hv.append
  obtain ⟨hlink, hv⟩ := hv.append
  obtain ⟨hinfo, hv⟩ := hv.append
  obtain ⟨-, hentry⟩ := hv.append
  simp only [Ident.length_word, Ident.length_address] at *
  unfold SectionHeader.read
  refine bind_eq_ok_iff.2 ⟨⟨⟩, Except.discard_eq_ok_iff.2 ⟨_, hslice⟩, ?_⟩
  cases cls
  all_goals
    refine bind_eq_ok_iff.2 ⟨_, hname.word32, bind_eq_ok_iff.2 ⟨_, htype.word32, ?_⟩⟩
    refine bind_eq_ok_iff.2 ⟨_, hflags.address hf.flags, bind_eq_ok_iff.2 ⟨_, haddr.address hf.addr, ?_⟩⟩
    refine bind_eq_ok_iff.2 ⟨_, hoffset.address hf.offset, bind_eq_ok_iff.2 ⟨_, hsize.address hf.size, ?_⟩⟩
    refine bind_eq_ok_iff.2 ⟨_, hlink.word32, bind_eq_ok_iff.2 ⟨_, hinfo.word32, ?_⟩⟩
    exact bind_eq_ok_iff.2 ⟨_, hentry.address hf.entrySize, rfl⟩

end SectionHeader

/-! ## Symbol entries -/

namespace SymbolEntry

/-- The fields of a symbol entry that are as wide as an address are no wider than those of a class. -/
structure Fits (cls : Class) (e : SymbolEntry) : Prop where
  value : cls.Fits e.value
  size : cls.Fits e.size

@[simp] theorem length_write (ident : Ident) (e : SymbolEntry) : (e.write ident).length = ident.cls.symbolSize := by
  cases hc : ident.cls <;> simp [write, hc, Class.width, Width.bytes, Class.symbolSize]

/-- A symbol entry is read back. The fields come in another order in each class. -/
theorem read_of_holds {ident : Ident} {e : SymbolEntry} (hv : v.Holds offset (e.write ident)) (hf : e.Fits ident.cls) :
    SymbolEntry.read v offset ident = .ok e := by
  obtain ⟨cls, order⟩ := ident
  unfold SymbolEntry.read
  cases cls with
  | elf32 =>
    obtain ⟨hname, hv⟩ := View.Holds.append hv
    obtain ⟨hvalue, hv⟩ := hv.append
    obtain ⟨hsize, hv⟩ := hv.append
    obtain ⟨hinfo, hv⟩ := hv.append
    obtain ⟨hother, hindex⟩ := hv.append
    simp only [Ident.length_word, Ident.length_address, List.length_singleton] at *
    refine bind_eq_ok_iff.2 ⟨_, hname.word32, bind_eq_ok_iff.2 ⟨_, hvalue.address hf.value, ?_⟩⟩
    refine bind_eq_ok_iff.2 ⟨_, hsize.address hf.size, bind_eq_ok_iff.2 ⟨_, hinfo.byte, ?_⟩⟩
    exact bind_eq_ok_iff.2 ⟨_, hother.byte, bind_eq_ok_iff.2 ⟨_, hindex.word16, rfl⟩⟩
  | elf64 =>
    obtain ⟨hname, hv⟩ := View.Holds.append hv
    obtain ⟨hinfo, hv⟩ := hv.append
    obtain ⟨hother, hv⟩ := hv.append
    obtain ⟨hindex, hv⟩ := hv.append
    obtain ⟨hvalue, hsize⟩ := hv.append
    simp only [Ident.length_word, Ident.length_half, Ident.length_address, List.length_singleton] at *
    refine bind_eq_ok_iff.2 ⟨_, hname.word32, bind_eq_ok_iff.2 ⟨_, hinfo.byte, ?_⟩⟩
    refine bind_eq_ok_iff.2 ⟨_, hother.byte, bind_eq_ok_iff.2 ⟨_, hindex.word16, ?_⟩⟩
    exact bind_eq_ok_iff.2 ⟨_, hvalue.address hf.value, bind_eq_ok_iff.2 ⟨_, hsize.address hf.size, rfl⟩⟩

end SymbolEntry

end ExecImage.Elf
