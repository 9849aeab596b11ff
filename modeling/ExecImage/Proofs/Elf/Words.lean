import ExecImage.Load
import ExecImage.Proofs.Elf.Symbols
import ExecImage.Proofs.Elf.Written
import ExecImage.Proofs.Words

/-!
# ELF images in words

Each sum of offsets in an ELF image has its own reason to be a word. The fields of a section header lie in a range that has been found in the
file; the section headers lie in a table that has; the entries of a symbol table are counted by a division, and each of them is as long as the
format's, since a smaller distance has been refused. So the readers in words are the readers.
-/

namespace ExecImage.Elf

/-! ## Section headers -/

/-- Reads a section header in words. -/
def SectionHeader.readInWords (v : View) (offset : Nat) (ident : Ident) : Words SectionHeader := do
  let order := ident.order
  discard <| v.slice offset ident.cls.sectionHeaderSize
  match ident.cls with
  | .elf32 =>
    return {
      nameOffset := ← v.word32 offset order
      type := ← v.word32 (← Word.add offset 4) order
      flags := ← v.address (← Word.add offset 8) .w32 order
      addr := ← v.address (← Word.add offset 12) .w32 order
      offset := ← v.address (← Word.add offset 16) .w32 order
      size := ← v.address (← Word.add offset 20) .w32 order
      link := ← v.word32 (← Word.add offset 24) order
      info := ← v.word32 (← Word.add offset 28) order
      entrySize := ← v.address (← Word.add offset 36) .w32 order }
  | .elf64 =>
    return {
      nameOffset := ← v.word32 offset order
      type := ← v.word32 (← Word.add offset 4) order
      flags := ← v.address (← Word.add offset 8) .w64 order
      addr := ← v.address (← Word.add offset 16) .w64 order
      offset := ← v.address (← Word.add offset 24) .w64 order
      size := ← v.address (← Word.add offset 32) .w64 order
      link := ← v.word32 (← Word.add offset 40) order
      info := ← v.word32 (← Word.add offset 44) order
      entrySize := ← v.address (← Word.add offset 56) .w64 order }

/-- The header is in the file before a field of it is read. -/
theorem SectionHeader.readInWords_eq {v : View} (hsize : v.size < 2 ^ 64) (offset : Nat) (ident : Ident) :
    SectionHeader.readInWords v offset ident = liftM (SectionHeader.read v offset ident) := by
  obtain ⟨cls, order⟩ := ident
  unfold readInWords read
  rw [Words.discard_lift, liftM_bind]
  refine Words.bind_congr fun _ hslice => ?_
  obtain ⟨bs, hbs⟩ := Except.discard_eq_ok_iff.1 hslice
  have hc : offset + cls.sectionHeaderSize ≤ v.size := (View.slice_eq_ok_iff.1 hbs).1
  cases cls with
  | elf32 =>
    simp only [Class.sectionHeaderSize] at hc
    simp (disch := omega) only [Words.add_bind, liftM_bind, liftM_pure]
  | elf64 =>
    simp only [Class.sectionHeaderSize] at hc
    simp (disch := omega) only [Words.add_bind, liftM_bind, liftM_pure]

/-! ## The section table -/

namespace SectionTable

/-- Reads the header at an index in words; where it lies is a sum of a product. -/
def headerAtInWords (v : View) (h : Header) (index : Nat) : Words SectionHeader := do
  SectionHeader.readInWords v (← Word.add h.tableOffset.toNat (← Word.mul index h.entrySize.toNat)) h.ident

/-- Reads the section headers in words, and their names. The product that is the size of the table is checked. -/
def readInWords (v : View) (h : Header) (options : Options) : Words SectionTable := do
  let cls := h.ident.cls
  let entrySize := h.entrySize.toNat
  if h.tableOffset = 0 then
    return { view := v, cls, entries := [] }
  else if entrySize < cls.sectionHeaderSize then
    throw (.corruptSection headersName (.entrySize entrySize cls.sectionHeaderSize))
  else
    let first ← SectionHeader.readInWords v h.tableOffset.toNat h.ident
    let count := sectionCount h first
    if options.maxSections.toNat < count then
      throw (.corruptSection headersName (.sectionCount count options.maxSections.toNat))
    else if UInt64.size ≤ count * entrySize then
      throw (.outOfBounds h.tableOffset.toNat (UInt64.size - 1) v.size)
    else
      discard <| v.slice h.tableOffset.toNat (count * entrySize)
      let headers ← (List.range count).mapM (headerAtInWords v h)
      let names ← namesView v headers (namesIndex h first)
      return { view := v, cls, entries := headers.map fun sh => ⟨sh, nameAt names sh.nameOffset⟩ }

variable {v : View} {h : Header} {options : Options}

/-- A header of a table that lies in the file is read at an offset that is a word. -/
theorem headerAtInWords_eq (hsize : v.size < 2 ^ 64) {count i : Nat}
    (hc : h.tableOffset.toNat + count * h.entrySize.toNat ≤ v.size) (hi : i < count) :
    headerAtInWords v h i = liftM (SectionHeader.read v (headerOffset h i) h.ident) := by
  have hproduct : i * h.entrySize.toNat ≤ count * h.entrySize.toNat := Nat.mul_le_mul_right _ (Nat.le_of_lt hi)
  unfold headerAtInWords
  rw [Words.mul_bind (by omega), Words.add_bind (by omega), SectionHeader.readInWords_eq hsize]
  rfl

theorem readInWords_eq (hsize : v.size < 2 ^ 64) (h : Header) (options : Options) :
    readInWords v h options = liftM (read v h options) := by
  unfold readInWords read
  dsimp only
  split
  · rfl
  split
  · rfl
  rw [SectionHeader.readInWords_eq hsize, liftM_bind]
  refine Words.bind_congr fun first _ => ?_
  split
  · rfl
  split
  · rfl
  rw [Words.discard_lift, liftM_bind]
  refine Words.bind_congr fun _ hslice => ?_
  obtain ⟨bs, hbs⟩ := Except.discard_eq_ok_iff.1 hslice
  have hc : h.tableOffset.toNat + sectionCount h first * h.entrySize.toNat ≤ v.size := (View.slice_eq_ok_iff.1 hbs).1
  rw [Words.mapM_lift fun i hi => headerAtInWords_eq hsize hc (List.mem_range.1 hi)]
  simp only [liftM_bind, liftM_pure]

end SectionTable

/-! ## Symbol tables -/

/-- Reads an entry in words. -/
def SymbolEntry.readInWords (v : View) (offset : Nat) (ident : Ident) : Words SymbolEntry := do
  let order := ident.order
  match ident.cls with
  | .elf32 =>
    return {
      nameOffset := ← v.word32 offset order
      value := ← v.address (← Word.add offset 4) .w32 order
      size := ← v.address (← Word.add offset 8) .w32 order
      info := ← v.byte (← Word.add offset 12)
      other := ← v.byte (← Word.add offset 13)
      sectionIndex := ← v.word16 (← Word.add offset 14) order }
  | .elf64 =>
    return {
      nameOffset := ← v.word32 offset order
      info := ← v.byte (← Word.add offset 4)
      other := ← v.byte (← Word.add offset 5)
      sectionIndex := ← v.word16 (← Word.add offset 6) order
      value := ← v.address (← Word.add offset 8) .w64 order
      size := ← v.address (← Word.add offset 16) .w64 order }

/-- An entry of which the end is a word has words for the offsets of its fields. -/
theorem SymbolEntry.readInWords_eq {offset : Nat} {ident : Ident} (h : offset + ident.cls.symbolSize < 2 ^ 64) (v : View) :
    SymbolEntry.readInWords v offset ident = liftM (SymbolEntry.read v offset ident) := by
  obtain ⟨cls, order⟩ := ident
  unfold readInWords read
  cases cls with
  | elf32 =>
    simp only [Class.symbolSize] at h
    simp (disch := omega) only [Words.add_bind, liftM_bind, liftM_pure]
  | elf64 =>
    simp only [Class.symbolSize] at h
    simp (disch := omega) only [Words.add_bind, liftM_bind, liftM_pure]

namespace SymbolTable

/-- What the entry at an index contributes, read in words. -/
def entryAtInWords (entries strings : View) (ident : Ident) (entrySize : Nat) (source : SymbolSource) (options : Options)
    (index : Nat) : Words TableEntry := do
  let e ← SymbolEntry.readInWords entries (← Word.mul index entrySize) ident
  return if e.isKept options then keep strings source index e else {}

/-- Reads a symbol table in words. -/
def readEntryInWords (t : SectionTable) (e : NamedHeader) (order : Endianness) (source : SymbolSource) (options : Options) :
    Option TableReading :=
  let table := nameOf e
  match parts t e.header with
  | .error fault => some ⟨table, .failed (.symbolTable table fault)⟩
  | .ok (entries, strings, size) => do
    let count ← Word.div entries.size size
    let limit := options.maxSymbolsPerTable.toNat
    let truncated := if limit < count then some (Notice.entriesTruncated count limit) else none
    let reading ← readEntriesInWords (entryAtInWords entries strings ⟨t.cls, order⟩ size source options) (min count limit)
    return ⟨table, .noting truncated reading⟩

/-- Reads the section at an index as a symbol table, in words. -/
def readInWords (t : SectionTable) (index : Nat) (order : Endianness) (source : SymbolSource) (options : Options) :
    Option TableReading :=
  match t.entries[index]? with
  | none => some ⟨unknownName, .failed (.symbolTable unknownName (.sectionIndex index))⟩
  | some e => readEntryInWords t e order source options

variable {entries strings : View} {ident : Ident} {size index : Nat} {source : SymbolSource} {options : Options}

/-- An entry that the division counts ends in the contents, whose size is a word. -/
theorem entryAtInWords_eq (hentries : entries.size < 2 ^ 64) (hsize : ident.cls.symbolSize ≤ size) (hi : index < entries.size / size) :
    entryAtInWords entries strings ident size source options index =
      liftM (entryAt entries strings ident size source options index) := by
  have hend : index * size + size ≤ entries.size := by
    rw [← Nat.succ_mul]
    exact Nat.mul_le_of_le_div _ _ _ hi
  unfold entryAtInWords entryAt
  rw [Words.mul_bind (by omega), SymbolEntry.readInWords_eq (by omega)]
  simp only [liftM_bind, liftM_pure]

/-- No other entries belong to an entry. -/
theorem trailing_of_entryAt {e : TableEntry} (he : entryAt entries strings ident size source options index = .ok e) : e.trailing = 0 := by
  obtain ⟨entry, -, hentry⟩ := Except.bind_eq_ok_iff.1 he
  cases hentry
  unfold keep
  split
  · split
    · rfl
    · split <;> rfl
  · rfl

theorem readEntryInWords_eq (t : SectionTable) (e : NamedHeader) (order : Endianness) (source : SymbolSource) (options : Options) :
    readEntryInWords t e order source options = some (readEntry t e order source options) := by
  unfold readEntryInWords readEntry
  dsimp only
  cases hparts : parts t e.header with
  | error fault => rfl
  | ok p =>
    obtain ⟨entries, strings, size⟩ := p
    obtain ⟨-, hcontents, -, hdistance⟩ := parts_eq_ok_iff.1 hparts
    have hsize := symbolSize_le_of_entrySize hdistance
    have hpos := t.cls.symbolSize_pos
    have hentries : entries.size < 2 ^ 64 := by
      rw [SectionTable.size_of_contentsOf hcontents, SectionHeader.contentsSize]
      split
      · decide
      · exact e.header.size.toNat_lt
    have hcount : entries.size / size ≤ entries.size := Nat.div_le_self _ _
    have hreading : readEntriesInWords (entryAtInWords entries strings ⟨t.cls, order⟩ size source options)
        (min (entries.size / size) options.maxSymbolsPerTable.toNat) =
          some (readEntries (entryAt entries strings ⟨t.cls, order⟩ size source options)
            (min (entries.size / size) options.maxSymbolsPerTable.toNat)) := by
      refine readEntriesInWords_eq (fun i hi => entryAtInWords_eq hentries hsize (by omega)) fun i hi e he => ?_
      rw [trailing_of_entryAt he]
      omega
    simp only [Word.div_eq (show size ≠ 0 by omega), Option.bind_eq_bind, Option.bind_some, hreading]
    rfl

theorem readInWords_eq (t : SectionTable) (index : Nat) (order : Endianness) (source : SymbolSource) (options : Options) :
    readInWords t index order source options = some (read t index order source options) := by
  unfold readInWords read
  cases t.entries[index]? with
  | none => rfl
  | some e => exact readEntryInWords_eq t e order source options

end SymbolTable

/-! ## Images -/

namespace Image

/-- Reads the headers of an image for a supported machine, in words. -/
def readInWords (v : View) (options : Options) : Words Image := do
  let header ← Header.read v
  if header.isSupported then
    return { header, sections := ← SectionTable.readInWords v header options }
  else
    throw (.unsupportedArchitecture Format.elf.name header.machine)

/-- Reads the tables of a type in words. -/
def tablesOfTypeInWords (image : Image) (options : Options) (type : UInt32) (source : SymbolSource) : Option (List LabelledTable) :=
  (image.sections.indexesOfType type).mapM fun index => do
    return ⟨image.tableLabel index source, ← SymbolTable.readInWords image.sections index image.header.order source options⟩

/-- Reads the symbol tables in words, static ones first. -/
def symbolTablesInWords (image : Image) (options : Options) : Option (List LabelledTable) := do
  return (← image.tablesOfTypeInWords options SectionHeader.typeSymtab .static) ++
    (← image.tablesOfTypeInWords options SectionHeader.typeDynsym .dynamic)

/-- Loads the sections and the symbols of an image, in words. -/
def loadInWords (image : Image) (source : String) (options : Options) : Words Loaded := do
  let sections ← image.sections.load source options
  let tables ← image.symbolTablesInWords options
  return {
    binary := image.binary source sections (merge (tables.map LabelledTable.outcome))
    events := tableEvents tables }

theorem readInWords_eq {v : View} (hsize : v.size < 2 ^ 64) (options : Options) : readInWords v options = liftM (read v options) := by
  unfold readInWords read
  rw [liftM_bind]
  refine Words.bind_congr fun header _ => ?_
  split
  · rw [SectionTable.readInWords_eq hsize]
    simp only [liftM_bind, liftM_pure]
  · rfl

theorem tablesOfTypeInWords_eq (image : Image) (options : Options) (type : UInt32) (source : SymbolSource) :
    image.tablesOfTypeInWords options type source = some (image.tablesOfType options type source) := by
  refine Words.mapM_some fun index _ => ?_
  rw [SymbolTable.readInWords_eq]
  rfl

theorem symbolTablesInWords_eq (image : Image) (options : Options) :
    image.symbolTablesInWords options = some (image.symbolTables options) := by
  unfold symbolTablesInWords
  rw [tablesOfTypeInWords_eq, tablesOfTypeInWords_eq]
  rfl

/-- An image is loaded in words as it is in numbers. -/
theorem loadInWords_eq (image : Image) (source : String) (options : Options) :
    image.loadInWords source options = liftM (image.load source options) := by
  unfold loadInWords load
  rw [symbolTablesInWords_eq]
  simp only [Words.lift_some, pure_bind, liftM_bind, liftM_pure]

end Image

end ExecImage.Elf
