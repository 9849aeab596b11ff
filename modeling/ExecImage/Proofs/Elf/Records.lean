import ExecImage.Elf.SymbolTable
import ExecImage.Proofs.Record

/-!
# The records of an ELF image

The file header, the section headers and the symbol entries, as far as a proof about a load needs to know them: where
they can be read, how they fail, and that a longer file has the same ones.
-/

namespace ExecImage.Elf

open Except (ErrorsIn Carries)

variable {v w : View}

/-! ## The file header -/

/-- The identification is missing, or it is none that is supported. -/
def IsForeign (e : LoadError) : Prop :=
  e.IsOutOfBounds ∨ e = .unsupportedFormat

theorem Class.errors_ofByte (b : UInt8) : ErrorsIn IsForeign (Class.ofByte b) := by
  unfold Class.ofByte
  split
  · exact .ok _
  split
  · exact .ok _
  · exact .error (.inr rfl)

theorem errors_orderOfByte (b : UInt8) : ErrorsIn IsForeign (orderOfByte b) := by
  unfold orderOfByte
  split
  · exact .ok _
  split
  · exact .ok _
  · exact .error (.inr rfl)

theorem Ident.errors_read (v : View) : ErrorsIn IsForeign (Ident.read v) := by
  unfold Ident.read
  refine .bind ((v.errors_slice 0 size).discard.imp fun _ => .inl) fun _ _ => ?_
  split
  · refine .bind ((v.errors_byte 4).imp fun _ => .inl) fun b _ => ?_
    refine .bind (Class.errors_ofByte b) fun cls _ => ?_
    refine .bind ((v.errors_byte 5).imp fun _ => .inl) fun b' _ => ?_
    exact .bind (errors_orderOfByte b') fun _ _ => .ok _
  · exact .error (.inr rfl)

/-- The file header fails as its identification does, or as a read out of bounds. -/
theorem Header.errors_read_cases (v : View) :
    ErrorsIn (fun e => e.IsOutOfBounds ∨ Ident.read v = .error e) (Header.read v) := by
  unfold Header.read
  refine .bind (fun _ => .inr) fun ident _ => ?_
  refine .bind ((v.errors_slice _ _).discard.imp fun _ => .inl) fun _ _ => ?_
  refine .bind ((v.errors_word16 _ _).imp fun _ => .inl) fun machine _ => ?_
  refine .bind ((v.errors_address _ _ _).imp fun _ => .inl) fun entry _ => ?_
  refine .bind ((v.errors_address _ _ _).imp fun _ => .inl) fun tableOffset _ => ?_
  refine .bind ((v.errors_word16 _ _).imp fun _ => .inl) fun entrySize _ => ?_
  refine .bind ((v.errors_word16 _ _).imp fun _ => .inl) fun count _ => ?_
  exact .bind ((v.errors_word16 _ _).imp fun _ => .inl) fun namesIndex _ => .ok _

/-- The file header fails as a read out of bounds or as an image of another format. -/
theorem Header.errors_read (v : View) : ErrorsIn IsForeign (Header.read v) := by
  refine (Header.errors_read_cases v).imp fun e he => ?_
  rcases he with he | he
  · exact .inl he
  · exact Ident.errors_read v e he

theorem Ident.read_carries (h : v.Begins w) : Carries Eq (Ident.read v) (Ident.read w) := by
  unfold Ident.read
  refine (h.slice 0 size).discard.bind fun _ _ _ => ?_
  by_cases hm : v.startsWith 0 magic = true
  · rw [if_pos hm, if_pos (h.startsWith hm)]
    refine (h.byte 4).bind ?_
    rintro b _ rfl
    refine (Carries.refl (Class.ofByte b)).bind ?_
    rintro cls _ rfl
    refine (h.byte 5).bind ?_
    rintro b' _ rfl
    refine (Carries.refl (orderOfByte b')).bind ?_
    rintro order _ rfl
    exact .ok rfl
  · rw [if_neg hm]
    exact .error _ _

/-- A longer file has the same file header. -/
theorem Header.read_carries (h : v.Begins w) : Carries Eq (Header.read v) (Header.read w) := by
  unfold Header.read
  refine (Ident.read_carries h).bind ?_
  rintro ident _ rfl
  refine (h.slice _ _).discard.bind fun _ _ _ => ?_
  refine (h.word16 _ _).bind ?_
  rintro machine _ rfl
  refine (h.address _ _ _).bind ?_
  rintro entry _ rfl
  refine (h.address _ _ _).bind ?_
  rintro tableOffset _ rfl
  refine (h.word16 _ _).bind ?_
  rintro entrySize _ rfl
  refine (h.word16 _ _).bind ?_
  rintro count _ rfl
  refine (h.word16 _ _).bind ?_
  rintro namesIndex _ rfl
  exact .ok rfl

/-! ## Section headers -/

/-- A section has bytes in the file unless it is of type 8. -/
theorem SectionHeader.hasFileData_iff {h : SectionHeader} : h.hasFileData = true ↔ h.type ≠ 8 :=
  bne_iff_ne

theorem SectionHeader.hasFileData_eq_false_iff {h : SectionHeader} : h.hasFileData = false ↔ h.type = 8 :=
  bne_eq_false_iff_eq

/-- The section header that its bytes hold. -/
def SectionHeader.ofBytes (ident : Ident) (bs : Bytes) : SectionHeader :=
  let number := View.numberAt ident.order bs
  match ident.cls with
  | .elf32 =>
    { nameOffset := .ofNat (number 0 4)
      type := .ofNat (number 4 4)
      flags := .ofNat (number 8 4)
      addr := .ofNat (number 12 4)
      offset := .ofNat (number 16 4)
      size := .ofNat (number 20 4)
      link := .ofNat (number 24 4)
      info := .ofNat (number 28 4)
      entrySize := .ofNat (number 36 4) }
  | .elf64 =>
    { nameOffset := .ofNat (number 0 4)
      type := .ofNat (number 4 4)
      flags := .ofNat (number 8 8)
      addr := .ofNat (number 16 8)
      offset := .ofNat (number 24 8)
      size := .ofNat (number 32 8)
      link := .ofNat (number 40 4)
      info := .ofNat (number 44 4)
      entrySize := .ofNat (number 56 8) }

/-- A section header is read from its bytes, if they are in the view. -/
theorem SectionHeader.read_eq (v : View) (offset : Nat) (ident : Ident) :
    SectionHeader.read v offset ident = (v.slice offset ident.cls.sectionHeaderSize).map (SectionHeader.ofBytes ident) := by
  obtain ⟨cls, order⟩ := ident
  by_cases hc : v.Covers offset cls.sectionHeaderSize
  · unfold SectionHeader.read
    rw [View.slice_of_covers hc]
    cases cls with
    | elf32 =>
      have word {k : Nat} (h : k + 4 ≤ 40) := View.word32_of_record order hc h
      have address {k : Nat} (h : k + 4 ≤ 40) := View.address_of_record order hc .w32 h
      have hname := word (k := 0) (by decide)
      rw [Nat.add_zero] at hname
      dsimp only
      rw [hname, word (k := 4) (by decide), address (k := 8) (by decide), address (k := 12) (by decide),
        address (k := 16) (by decide), address (k := 20) (by decide), word (k := 24) (by decide),
        word (k := 28) (by decide), address (k := 36) (by decide)]
      rfl
    | elf64 =>
      have word {k : Nat} (h : k + 4 ≤ 64) := View.word32_of_record order hc h
      have address {k : Nat} (h : k + 8 ≤ 64) := View.address_of_record order hc .w64 h
      have hname := word (k := 0) (by decide)
      rw [Nat.add_zero] at hname
      dsimp only
      rw [hname, word (k := 4) (by decide), address (k := 8) (by decide), address (k := 16) (by decide),
        address (k := 24) (by decide), address (k := 32) (by decide), word (k := 40) (by decide),
        word (k := 44) (by decide), address (k := 56) (by decide)]
      rfl
  · have hslice : v.slice offset cls.sectionHeaderSize = .error (.outOfBounds offset cls.sectionHeaderSize v.size) := if_neg hc
    unfold SectionHeader.read
    rw [hslice]
    rfl

/-- A section header is a record. -/
theorem SectionHeader.isRecord_read (cls : Class) (order : Endianness) :
    View.IsRecord cls.sectionHeaderSize fun v offset => SectionHeader.read v offset ⟨cls, order⟩ :=
  ⟨SectionHeader.ofBytes ⟨cls, order⟩, fun v offset => SectionHeader.read_eq v offset ⟨cls, order⟩⟩

/-! ## Symbol entries -/

/-- The symbol entry that its bytes hold. -/
def SymbolEntry.ofBytes (ident : Ident) (bs : Bytes) : SymbolEntry :=
  let number := View.numberAt ident.order bs
  let byte (k : Nat) : UInt8 := .ofNat (View.numberAt .little bs k 1)
  match ident.cls with
  | .elf32 =>
    { nameOffset := .ofNat (number 0 4)
      value := .ofNat (number 4 4)
      size := .ofNat (number 8 4)
      info := byte 12
      other := byte 13
      sectionIndex := .ofNat (number 14 2) }
  | .elf64 =>
    { nameOffset := .ofNat (number 0 4)
      info := byte 4
      other := byte 5
      sectionIndex := .ofNat (number 6 2)
      value := .ofNat (number 8 8)
      size := .ofNat (number 16 8) }

/-- A symbol entry is read from its bytes, where they are in the view. -/
theorem SymbolEntry.read_of_covers {v : View} {offset : Nat} {ident : Ident} (hc : v.Covers offset ident.cls.symbolSize) :
    SymbolEntry.read v offset ident = .ok (.ofBytes ident (v.bytes.extract offset (offset + ident.cls.symbolSize))) := by
  obtain ⟨cls, order⟩ := ident
  unfold SymbolEntry.read
  cases cls with
  | elf32 =>
    have hc : v.Covers offset 16 := hc
    have address {k : Nat} (h : k + 4 ≤ 16) := View.address_of_record order hc .w32 h
    have hname := View.word32_of_record (k := 0) order hc (by decide)
    rw [Nat.add_zero] at hname
    dsimp only
    rw [hname, address (k := 4) (by decide), address (k := 8) (by decide), View.byte_of_record (k := 12) hc (by decide),
      View.byte_of_record (k := 13) hc (by decide), View.word16_of_record (k := 14) order hc (by decide)]
    rfl
  | elf64 =>
    have hc : v.Covers offset 24 := hc
    have address {k : Nat} (h : k + 8 ≤ 24) := View.address_of_record order hc .w64 h
    have hname := View.word32_of_record (k := 0) order hc (by decide)
    rw [Nat.add_zero] at hname
    dsimp only
    rw [hname, View.byte_of_record (k := 4) hc (by decide), View.byte_of_record (k := 5) hc (by decide),
      View.word16_of_record (k := 6) order hc (by decide), address (k := 8) (by decide), address (k := 16) (by decide)]
    rfl

/-- A symbol entry is determined by its bytes. -/
theorem SymbolEntry.read_within (cls : Class) (order : Endianness) :
    View.Within cls.symbolSize fun v offset => SymbolEntry.read v offset ⟨cls, order⟩ :=
  ⟨SymbolEntry.ofBytes ⟨cls, order⟩, fun _ _ hc => SymbolEntry.read_of_covers hc⟩

end ExecImage.Elf
