import ExecImage.Proofs.Holds
import ExecImage.Proofs.Pe.Records
import ExecImage.Proofs.Pe.Writer

/-!
# Records that were written are read back

A reader that meets the bytes of an export directory or of a record of the COFF symbol table gives the record, and a name
that was put in the eight bytes of a record is found there.
-/

namespace ExecImage.Pe

open Except (bind_eq_ok_iff)

variable {v : View} {offset : Nat}

@[simp] theorem length_half (n : UInt16) : (half n).length = 2 :=
  length_littleDigits 2 n.toNat

@[simp] theorem length_word (n : UInt32) : (word n).length = 4 :=
  length_littleDigits 4 n.toNat

@[simp] theorem length_unread (n : Nat) : (unread n).length = n :=
  List.length_replicate

/-! ## The export directory -/

@[simp] theorem ExportDirectory.length_write (d : ExportDirectory) : d.write.length = ExportDirectory.size := by
  simp [write, size]

/-- An export directory is read back. -/
theorem ExportDirectory.read_of_holds {d : ExportDirectory} (hv : v.Holds offset d.write) :
    ExportDirectory.read v offset = .ok d := by
  have hsub := hv.sub
  rw [length_write] at hsub
  obtain ⟨-, hd⟩ := View.Holds.append (View.holds_self d.write)
  obtain ⟨hname, hd⟩ := hd.append
  obtain ⟨hbase, hd⟩ := hd.append
  obtain ⟨hfunctions, hd⟩ := hd.append
  obtain ⟨hnames, hd⟩ := hd.append
  obtain ⟨haddressTable, hd⟩ := hd.append
  obtain ⟨hnameTable, hordinalTable⟩ := hd.append
  simp only [length_unread, length_word] at *
  unfold ExportDirectory.read
  rw [hsub]
  refine bind_eq_ok_iff.2 ⟨_, hname.word32, bind_eq_ok_iff.2 ⟨_, hbase.word32, ?_⟩⟩
  refine bind_eq_ok_iff.2 ⟨_, hfunctions.word32, bind_eq_ok_iff.2 ⟨_, hnames.word32, ?_⟩⟩
  refine bind_eq_ok_iff.2 ⟨_, haddressTable.word32, bind_eq_ok_iff.2 ⟨_, hnameTable.word32, ?_⟩⟩
  exact bind_eq_ok_iff.2 ⟨_, hordinalTable.word32, rfl⟩

/-! ## Records of the COFF symbol table -/

theorem CoffRecord.length_write {r : CoffRecord} (hname : r.nameField.size = 8) : r.write.length = symbolRecordSize := by
  simp [write, symbolRecordSize, hname]

/-- A record is read back. -/
theorem CoffRecord.read_of_holds {r : CoffRecord} (hv : v.Holds offset r.write) (hname : r.nameField.size = 8) :
    CoffRecord.read v offset = .ok r := by
  have hslice := hv.slice
  rw [length_write hname] at hslice
  obtain ⟨hfield, hv⟩ := View.Holds.append hv
  obtain ⟨hvalue, hv⟩ := hv.append
  obtain ⟨hsection, hv⟩ := hv.append
  obtain ⟨htype, hv⟩ := hv.append
  obtain ⟨hstorage, hauxiliaries⟩ := hv.cons
  have hfield := hfield.slice
  simp only [Array.length_toList, hname, length_half, length_word] at hfield hvalue hsection htype hstorage hauxiliaries
  unfold CoffRecord.read
  refine bind_eq_ok_iff.2 ⟨⟨⟩, Except.discard_eq_ok_iff.2 ⟨_, hslice⟩, bind_eq_ok_iff.2 ⟨_, hfield, ?_⟩⟩
  refine bind_eq_ok_iff.2 ⟨_, hvalue.word32, bind_eq_ok_iff.2 ⟨_, hsection.word16, ?_⟩⟩
  refine bind_eq_ok_iff.2 ⟨_, htype.word16, bind_eq_ok_iff.2 ⟨_, hstorage.byte, ?_⟩⟩
  exact bind_eq_ok_iff.2 ⟨_, hauxiliaries.byte, rfl⟩

/-! ## Names of at most eight bytes -/

@[simp] theorem size_nameField (name : String) : (nameField name).size = 8 := by
  simp [nameField]

/-- A name of at most eight bytes is filled up with zeros. -/
theorem toList_nameField {name : String} (h : (Utf8.encode name).length ≤ 8) :
    (nameField name).toList = Utf8.encode name ++ unread (8 - (Utf8.encode name).length) := by
  simp only [nameField, unread, List.take_append, List.take_of_length_le h, List.take_replicate, List.toList_toArray]
  rw [Nat.min_eq_left (Nat.sub_le _ _)]

end ExecImage.Pe
