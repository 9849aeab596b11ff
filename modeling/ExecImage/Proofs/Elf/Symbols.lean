import ExecImage.Elf.Image
import ExecImage.Proofs.Elf.Records
import ExecImage.Proofs.SymbolTable

/-!
# ELF symbol tables are contained

The faults of an ELF symbol table are all found before its first entry is read: once the entries are at hand, as many
of them are read as lie in the section, so none can fail. The label that an image chooses for a table, by the kind of
table it asks for, is the name that the reader of the table chooses, by the type of the section.
-/

namespace ExecImage.Elf

/-- The type of an entry is the remainder of a division by sixteen. -/
theorem SymbolEntry.type_eq (e : SymbolEntry) : e.type = e.info % 16 := by
  unfold SymbolEntry.type
  rw [← UInt8.toNat_inj, UInt8.toNat_and, UInt8.toNat_mod]
  exact Nat.and_two_pow_sub_one_eq_mod e.info.toNat 4

/-- The number of bytes of a section's contents; a section of type 8 has no bytes in the file. -/
def SectionHeader.contentsSize (h : SectionHeader) : Nat :=
  if h.type = 8 then 0 else h.size.toNat

theorem SectionHeader.contentsSize_of_hasFileData {h : SectionHeader} (hdata : h.hasFileData = true) :
    h.contentsSize = h.size.toNat :=
  if_neg (SectionHeader.hasFileData_iff.1 hdata)

theorem SectionHeader.contentsSize_of_not_hasFileData {h : SectionHeader} (hdata : ¬h.hasFileData = true) : h.contentsSize = 0 :=
  if_pos (SectionHeader.hasFileData_eq_false_iff.1 (eq_false_of_ne_true hdata))

theorem SectionTable.size_of_contentsOf {t : SectionTable} {h : SectionHeader} {v : View} (hv : t.contentsOf h = .ok v) :
    v.size = h.contentsSize := by
  unfold SectionTable.contentsOf at hv
  split at hv
  · rename_i hdata
    rw [SectionHeader.contentsSize_of_hasFileData hdata]
    exact View.size_of_sub hv
  · rename_i hdata
    rw [SectionHeader.contentsSize_of_not_hasFileData hdata]
    cases hv
    rfl

namespace SymbolTable

variable {t : SectionTable} {h : SectionHeader} {options : Options} {source : SymbolSource}

/-- The distance between the entries of a table: the one that it states, or the size of an entry if it states none. -/
def distance (cls : Class) (h : SectionHeader) : Nat :=
  if h.entrySize = 0 then cls.symbolSize else h.entrySize.toNat

/-- A table states no distance between its entries or one that has room for them. -/
theorem entrySize_eq_ok_iff {cls : Class} {size : Nat} :
    entrySize cls h = .ok size ↔ cls.symbolSize ≤ distance cls h ∧ size = distance cls h := by
  unfold entrySize distance
  split
  · simp [eq_comm]
  split
  · rename_i hlt
    simp [Nat.not_le.2 hlt]
  · rename_i hle
    simp [Nat.not_lt.1 hle, eq_comm]

/-- The distance between entries is at least the size of one. -/
theorem symbolSize_le_of_entrySize {cls : Class} {size : Nat} (hs : entrySize cls h = .ok size) : cls.symbolSize ≤ size := by
  obtain ⟨hle, rfl⟩ := entrySize_eq_ok_iff.1 hs
  exact hle

/-- The parts of a symbol table: the link names a section, both contents are at hand, and entries are far enough apart. -/
theorem parts_eq_ok_iff {entries strings : View} {size : Nat} :
    parts t h = .ok (entries, strings, size) ↔
      (h.link.toNat ≠ 0 ∧ h.link.toNat < t.count) ∧ t.contentsOf h = .ok entries ∧
        t.contents h.link.toNat = .ok strings ∧
        entrySize t.cls h = .ok size := by
  unfold parts
  dsimp only
  by_cases hl : h.link.toNat = 0 ∨ t.count ≤ h.link.toNat
  · have : ¬(h.link.toNat ≠ 0 ∧ h.link.toNat < t.count) := by omega
    rw [if_pos hl]
    simp [this]
  · have : h.link.toNat ≠ 0 ∧ h.link.toNat < t.count := by omega
    rw [if_neg hl]
    simp only [this, ne_eq, not_false_eq_true, true_and]
    cases he : t.contentsOf h with
    | error e => simp
    | ok entries' =>
      cases hs : t.contents h.link.toNat with
      | error e => simp
      | ok strings' =>
        simp only [Except.map_eq_ok_iff, Prod.mk.injEq, Except.ok.injEq]
        constructor
        · rintro ⟨_, hsize, rfl, rfl, rfl⟩
          exact ⟨rfl, rfl, hsize⟩
        · rintro ⟨rfl, rfl, hsize⟩
          exact ⟨_, hsize, rfl, rfl, rfl⟩

/-- An entry that begins at a distance of its own lies in the section if it is one of those counted. -/
theorem covers_entry {v : View} {cls : Class} {size i : Nat} (hsize : cls.symbolSize ≤ size) (hi : i < v.size / size) :
    v.Covers (i * size) cls.symbolSize := by
  have hentry : i * size + cls.symbolSize ≤ v.size / size * size := View.record_le_table hi hsize
  exact Nat.le_trans hentry (Nat.div_mul_le_self _ _)

/-- Every entry that is counted can be read. -/
theorem isOk_entryAt {entries strings : View} {ident : Ident} {size i : Nat} (hsize : ident.cls.symbolSize ≤ size)
    (hi : i < entries.size / size) : ∃ e, entryAt entries strings ident size source options i = .ok e := by
  obtain ⟨e, he⟩ := (SymbolEntry.read_within ident.cls ident.order).isOk (covers_entry hsize hi)
  exact ⟨_, Except.bind_eq_ok_iff.2 ⟨e, he, rfl⟩⟩

/-- Once the parts of a table are at hand its reading comes to its end. -/
theorem failure_entries_eq_none {entries strings : View} (ident : Ident) {size : Nat} (hsize : ident.cls.symbolSize ≤ size)
    (limit : Nat) :
    (readEntries (entryAt entries strings ident size source options) (min (entries.size / size) limit)).failure = none := by
  refine failure_eq_none fun i hi => isOk_entryAt hsize ?_
  omega

/-- A table goes by the name of its section, and fails only with a fault of that name. -/
theorem contained_readEntry {e : NamedHeader} {order : Endianness} :
    LabelledTable.Contained ⟨nameOf e, readEntry t e order source options⟩ := by
  unfold readEntry
  cases hp : parts t e.header with
  | error fault =>
    refine ⟨rfl, fun error h => ?_⟩
    cases h
    exact ⟨fault, rfl⟩
  | ok p =>
    obtain ⟨entries, strings, size⟩ := p
    obtain ⟨-, -, -, hs⟩ := parts_eq_ok_iff.1 hp
    refine ⟨rfl, fun error h => ?_⟩
    dsimp only at h
    rw [Reading.failure_noting, failure_entries_eq_none ⟨t.cls, order⟩ (symbolSize_le_of_entrySize hs)] at h
    nomatch h

end SymbolTable

namespace Image

variable {image : Image} {options : Options}

/-- The image's label for a table of a type is the name that the table's reader gives it, if the kind asked for is the kind of the
type. -/
theorem tableLabel_eq_nameOf {index : Nat} {source : SymbolSource} {e : NamedHeader}
    (he : image.sections.entries[index]? = some e)
    (hs : source = .dynamic ↔ e.header.type = SectionHeader.typeDynsym) :
    image.tableLabel index source = SymbolTable.nameOf e := by
  unfold tableLabel SectionTable.name SymbolTable.nameOf
  simp only [he, hs]

/-- The tables of a type are read from the sections of the type, and go by the names that their reader gives them. -/
theorem tablesOfType_eq {type : UInt32} {source : SymbolSource} (hs : source = .dynamic ↔ type = SectionHeader.typeDynsym) :
    image.tablesOfType options type source =
      (image.sections.entries.filter fun e => e.header.type == type).map fun e =>
        ⟨SymbolTable.nameOf e, SymbolTable.readEntry image.sections e image.header.order source options⟩ := by
  refine Binary.map_indexesWhere fun index e he htype => ?_
  rw [beq_iff_eq] at htype
  rw [tableLabel_eq_nameOf he (htype ▸ hs)]
  simp only [SymbolTable.read, he]

/-- Every symbol table of an ELF image is contained. -/
theorem contained_of_mem_symbolTables {t : LabelledTable} (ht : t ∈ image.symbolTables options) : t.Contained := by
  rw [symbolTables, tablesOfType_eq (by decide), tablesOfType_eq (by decide)] at ht
  rcases List.mem_append.1 ht with ht | ht
  · obtain ⟨e, -, rfl⟩ := List.mem_map.1 ht
    exact SymbolTable.contained_readEntry
  · obtain ⟨e, -, rfl⟩ := List.mem_map.1 ht
    exact SymbolTable.contained_readEntry

end Image

end ExecImage.Elf
