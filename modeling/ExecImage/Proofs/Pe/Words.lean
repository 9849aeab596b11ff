import ExecImage.Load
import ExecImage.Proofs.Pe.Functions
import ExecImage.Proofs.Pe.Headers
import ExecImage.Proofs.Words

/-!
# PE images in words

Most offsets of a PE image are sums and products of numbers of 32 bits, and those fit in words of 64 bits whatever the file holds. The
differences are what depends on the order of checks: the size of the optional header has been compared with the start of the data
directories, a relative address with the first address of the section that holds it, and the number of a section with zero. So the readers
in words are the readers.
-/

namespace ExecImage.Pe

/-! ## Headers -/

/-- Reads a data directory in words. -/
def DataDirectory.readInWords (v : View) (offset : Nat) : Words DataDirectory := do
  return { rva := ← v.word32 offset .little, size := ← v.word32 (← Word.add offset 4) .little }

/-- A relative address lies in the directory, in words. -/
def DataDirectory.containsInWords (d : DataDirectory) (rva : UInt32) : Option Bool :=
  Word.within rva.toNat d.rva.toNat d.size.toNat

theorem DataDirectory.containsInWords_eq (d : DataDirectory) (rva : UInt32) : d.containsInWords rva = some (decide (d.Contains rva)) :=
  Word.within_eq _ _ _

namespace Headers

/-- Where the file header lies in the file, in words. -/
def fileOffsetInWords (signatureOffset : Nat) : Option Nat :=
  Word.add signatureOffset signature.length

/-- Where the optional header lies in the file, in words. -/
def optionalOffsetInWords (signatureOffset : Nat) : Option Nat := do
  Word.add (← fileOffsetInWords signatureOffset) FileHeader.size

/-- Where the section headers lie in the file, in words. -/
def sectionTableOffsetInWords (h : Headers) : Option Nat := do
  Word.add (← optionalOffsetInWords h.signatureOffset) h.file.optionalSize.toNat

/-- Reads the data directory at an index in words; where it lies is a sum of a product. -/
def directoryAtInWords (v : View) (start index : Nat) : Words DataDirectory := do
  DataDirectory.readInWords v (← Word.add start (← Word.mul index DataDirectory.entrySize))

/-- Reads the number of data directories that are declared, and those that fit behind the start, in words. -/
def readDirectoriesInWords (v : View) (start : Nat) : Words (UInt32 × List DataDirectory) := do
  let declared ← v.word32 (← Word.sub start 4) .little
  let fitting ← Word.div (← Word.sub v.size start) DataDirectory.entrySize
  let directories ← (List.range (min (min declared.toNat DataDirectory.maxCount) fitting)).mapM (directoryAtInWords v start)
  return (declared, directories)

/-- Reads the optional header and the data directories from its bytes, in words. -/
def readOptionalInWords (v : View) : Words (OptionalHeader × List DataDirectory) := do
  let magic ←
    match v.word16 0 .little with
    | .ok magic => pure magic
    | .error _ => throw (.corruptSection optionalName (.optionalHeaderTooSmall v.size))
  match OptionalHeader.directoriesOffset? magic with
  | none => throw .unsupportedFormat
  | some start =>
    if v.size < start then
      throw (.corruptSection optionalName (.optionalHeaderShort v.size start))
    else
      let entryRva ← v.word32 16 .little
      let imageBase ←
        if magic = OptionalHeader.magic64 then v.word64 24 .little
        else v.address 28 .w32 .little
      let (directoryCount, directories) ← readDirectoriesInWords v start
      return ({ magic, entryRva, imageBase, directoryCount }, directories)

/-- Reads the headers of an image in words. -/
def readInWords (v : View) : Words Headers := do
  if v.startsWith 0 dosMagic then
    let signatureOffset := (← v.word32 signaturePointer .little).toNat
    discard <| v.slice signatureOffset signature.length
    if v.startsWith signatureOffset signature then
      let file ← FileHeader.read v (← fileOffsetInWords signatureOffset)
      let header ← v.sub (← optionalOffsetInWords signatureOffset) file.optionalSize.toNat
      let (optional, directories) ← readOptionalInWords header
      return { signatureOffset, file, optional, directories }
    else throw .unsupportedFormat
  else throw .unsupportedFormat

variable {v : View}

theorem fileOffsetInWords_eq {offset : Nat} (h : offset < 2 ^ 32) : fileOffsetInWords offset = some (fileOffset offset) := by
  have hlength : signature.length = 4 := rfl
  exact Word.add_eq (by omega)

theorem optionalOffsetInWords_eq {offset : Nat} (h : offset < 2 ^ 32) : optionalOffsetInWords offset = some (optionalOffset offset) := by
  have hoffset : fileOffset offset + FileHeader.size = offset + 4 + 20 := rfl
  unfold optionalOffsetInWords
  rw [fileOffsetInWords_eq h]
  exact Word.add_eq (by omega)

theorem directoryAtInWords_eq {start i : Nat} (hstart : start ≤ 112) (hi : i < DataDirectory.maxCount) :
    directoryAtInWords v start i = liftM (DataDirectory.read v (start + i * DataDirectory.entrySize)) := by
  simp only [DataDirectory.maxCount] at hi
  unfold directoryAtInWords DataDirectory.readInWords DataDirectory.read DataDirectory.entrySize
  rw [Words.mul_bind (by omega), Words.add_bind (by omega)]
  simp (disch := omega) only [Words.add_bind, liftM_bind, liftM_pure]

theorem readDirectoriesInWords_eq {start : Nat} (hlow : 4 ≤ start) (hhigh : start ≤ 112) (hfits : start ≤ v.size) :
    readDirectoriesInWords v start = liftM (do
      let declared ← v.word32 (start - 4) .little
      let directories ← (List.range (directoryCount declared.toNat v.size start)).mapM fun i =>
        DataDirectory.read v (start + i * DataDirectory.entrySize)
      return (declared, directories)) := by
  unfold readDirectoriesInWords
  rw [Words.sub_bind hlow]
  simp only [liftM_bind, liftM_pure]
  refine Words.bind_congr fun declared _ => ?_
  rw [Words.sub_bind hfits, Words.div_bind (by decide)]
  rw [Words.mapM_lift fun i hi => directoryAtInWords_eq hhigh ?_]
  · rfl
  · have hlt := List.mem_range.1 hi
    omega

/-- The size of the optional header is compared with the start of the directories before one is subtracted from the other. -/
theorem readOptionalInWords_eq (v : View) : readOptionalInWords v = liftM (readOptional v) := by
  unfold readOptionalInWords readOptional
  cases v.word16 0 .little with
  | error error => rfl
  | ok magic =>
    simp only [pure_bind]
    cases hstart : OptionalHeader.directoriesOffset? magic with
    | none => rfl
    | some start =>
      have hbounds : 4 ≤ start ∧ start ≤ 112 := by
        rcases OptionalHeader.directoriesOffset?_eq_some_iff.1 hstart with ⟨-, rfl⟩ | ⟨-, rfl⟩ <;> decide
      dsimp only
      split
      · rfl
      · rename_i hfits
        rw [readDirectoriesInWords_eq hbounds.1 hbounds.2 (Nat.not_lt.1 hfits)]
        split <;> simp only [liftM_bind, liftM_pure, bind_assoc, pure_bind]

theorem readInWords_eq (v : View) : readInWords v = liftM (read v) := by
  unfold readInWords read
  split
  · simp only [liftM_bind]
    refine Words.bind_congr fun offset _ => ?_
    rw [Words.discard_lift]
    refine Words.bind_congr fun _ _ => ?_
    split
    · rw [fileOffsetInWords_eq offset.toNat_lt, optionalOffsetInWords_eq offset.toNat_lt]
      simp only [Words.lift_some, pure_bind, readOptionalInWords_eq, liftM_bind, liftM_pure]
    · rfl
  · rfl

/-- The section table starts at a sum of the signature's offset, which has 32 bits, and the size of the optional header. -/
theorem sectionTableOffsetInWords_eq {h : Headers} (hread : read v = .ok h) :
    sectionTableOffsetInWords h = some h.sectionTableOffset := by
  have hlt : h.signatureOffset < 2 ^ 32 := by
    rw [(read_eq_ok_iff.1 hread).2]
    exact View.numberAt_lt .little v.bytes signaturePointer 4
  have hsize := h.file.optionalSize.toNat_lt
  have hoptional : optionalOffset h.signatureOffset = h.signatureOffset + 4 + 20 := rfl
  unfold sectionTableOffsetInWords sectionTableOffset
  rw [optionalOffsetInWords_eq hlt]
  exact Word.add_eq (by omega)

end Headers

/-! ## Sections -/

/-- Reads a section header in words. -/
def SectionHeader.readInWords (v : View) (offset : Nat) : Words SectionHeader := do
  return {
    nameField := ← v.slice offset 8
    virtualSize := ← v.word32 (← Word.add offset 8) .little
    virtualAddress := ← v.word32 (← Word.add offset 12) .little
    rawSize := ← v.word32 (← Word.add offset 16) .little
    rawPointer := ← v.word32 (← Word.add offset 20) .little
    characteristics := ← v.word32 (← Word.add offset 36) .little }

/-- The section holds a relative address, in words. -/
def SectionHeader.holdsInWords (h : SectionHeader) (rva : UInt32) : Option Bool :=
  Word.within rva.toNat h.virtualAddress.toNat (max h.virtualSize.toNat h.rawSize.toNat)

/-- Where the raw data of a relative address lie in the file, if they reach it, in words. -/
def SectionHeader.fileOffsetInWords? (h : SectionHeader) (rva : UInt32) : Option (Option Nat) := do
  let delta ← Word.sub rva.toNat h.virtualAddress.toNat
  if delta < h.rawSize.toNat then return some (← Word.add h.rawPointer.toNat delta) else return none

/-- A section that holds a relative address starts no later. -/
theorem SectionHeader.fileOffsetInWords?_eq {h : SectionHeader} {rva : UInt32} (hheld : h.Holds rva) :
    h.fileOffsetInWords? rva = some (h.fileOffset? rva) := by
  have hpointer := h.rawPointer.toNat_lt
  have hrva := rva.toNat_lt
  have hsum : Word.add h.rawPointer.toNat (rva.toNat - h.virtualAddress.toNat) = some (h.rawPointer.toNat + (rva.toNat - h.virtualAddress.toNat)) :=
    Word.add_eq (by omega)
  unfold fileOffsetInWords? fileOffset?
  simp only [Word.sub_eq hheld.1, hsum, Option.bind_eq_bind, Option.bind_some]
  split <;> rfl

namespace SectionTable

/-- Reads the section header at an index of a table in words; where it lies is a product. -/
def headerAtInWords (table : View) (index : Nat) : Words SectionHeader := do
  SectionHeader.readInWords table (← Word.mul index SectionHeader.size)

/-- Reads the section headers in words, and their names. -/
def readInWords (v : View) (offset : Nat) (count : UInt16) (strings : Option StringTable) (options : Options) :
    Words SectionTable := do
  if options.maxSections.toNat < count.toNat then
    throw (.corruptSection tableName (.sectionCount count.toNat options.maxSections.toNat))
  else
    let table ← v.sub offset (← Word.mul count.toNat SectionHeader.size)
    let headers ← (List.range count.toNat).mapM (headerAtInWords table)
    return { entries := headers.map fun h => ⟨h, resolveName h strings⟩ }

/-- Where a relative address lies in the file, in words. -/
def fileOffsetInWords? (t : SectionTable) (rva : UInt32) : Option (Option Nat) := do
  match ← (t.entries.map NamedHeader.header).findM? fun h => h.holdsInWords rva with
  | none => return none
  | some h => h.fileOffsetInWords? rva

theorem headerAtInWords_eq (table : View) {i : Nat} (hi : i < 2 ^ 16) :
    headerAtInWords table i = liftM (SectionHeader.read table (i * SectionHeader.size)) := by
  unfold headerAtInWords SectionHeader.readInWords SectionHeader.read SectionHeader.size
  rw [Words.mul_bind (by omega)]
  simp (disch := omega) only [Words.add_bind, liftM_bind, liftM_pure]

theorem readInWords_eq (v : View) (offset : Nat) (count : UInt16) (strings : Option StringTable) (options : Options) :
    readInWords v offset count strings options = liftM (read v offset count strings options) := by
  have hcount := count.toNat_lt
  have hsize : SectionHeader.size = 40 := rfl
  unfold readInWords read
  split
  · rfl
  · rw [Words.mul_bind (by rw [hsize]; omega)]
    simp only [liftM_bind, liftM_pure]
    refine Words.bind_congr fun table _ => ?_
    rw [Words.mapM_lift fun i hi => headerAtInWords_eq table (Nat.lt_trans (List.mem_range.1 hi) hcount)]

theorem fileOffsetInWords?_eq (t : SectionTable) (rva : UInt32) : t.fileOffsetInWords? rva = some (t.fileOffset? rva) := by
  have hholds (h : SectionHeader) : h.holdsInWords rva = some (decide (h.Holds rva)) := Word.within_eq _ _ _
  unfold fileOffsetInWords? fileOffset? holder?
  rw [Words.findM?_some hholds]
  cases hfind : (t.entries.map NamedHeader.header).find? fun h : SectionHeader => h.Holds rva with
  | none => rfl
  | some h =>
    have hheld := List.find?_some hfind
    simp only [decide_eq_true_eq] at hheld
    exact SectionHeader.fileOffsetInWords?_eq hheld

/-- A relative address lies in the file at a sum of two numbers of 32 bits. -/
theorem fileOffset?_lt {t : SectionTable} {rva : UInt32} {offset : Nat} (h : t.fileOffset? rva = some offset) : offset < 2 ^ 33 := by
  obtain ⟨sh, -, hoffset⟩ := Option.bind_eq_some_iff.1 h
  have hpointer := sh.rawPointer.toNat_lt
  have hrva := rva.toNat_lt
  unfold SectionHeader.fileOffset? at hoffset
  dsimp only at hoffset
  split at hoffset
  · cases hoffset
    omega
  · nomatch hoffset

end SectionTable

/-! ## COFF symbols -/

/-- Reads a record in words. -/
def CoffRecord.readInWords (v : View) (offset : Nat) : Words CoffRecord := do
  discard <| v.slice offset symbolRecordSize
  return {
    nameField := ← v.slice offset 8
    value := ← v.word32 (← Word.add offset 8) .little
    sectionNumber := ← v.word16 (← Word.add offset 12) .little
    type := ← v.word16 (← Word.add offset 14) .little
    storageClass := ← v.byte (← Word.add offset 16)
    auxiliaries := ← v.byte (← Word.add offset 17) }

theorem CoffRecord.readInWords_eq {offset : Nat} (h : offset < 2 ^ 63) (v : View) :
    CoffRecord.readInWords v offset = liftM (CoffRecord.read v offset) := by
  unfold readInWords read
  rw [Words.discard_lift]
  simp (disch := omega) only [Words.add_bind, liftM_bind, liftM_pure]

namespace CoffSymbols

/-- The address of a record in a section, in words: a sum of relative addresses. -/
def addressInWords (r : CoffRecord) (h : SectionHeader) (optional : OptionalHeader) : Option UInt64 := do
  return optional.va (UInt64.ofNat (← Word.add h.virtualAddress.toNat r.value.toNat))

/-- What a record contributes besides its auxiliary records, in words; the number of its section counts from one. -/
def keepInWords (r : CoffRecord) (strings : Option StringTable) (sections : SectionTable) (optional : OptionalHeader)
    (index : Nat) : Option TableEntry :=
  if r.isFunction && r.isDefined then do
    match sections.header? (← Word.sub r.sectionNumber.toNat 1) with
    | none => return { notice := some (.symbolSection index r.sectionNumber.toNat) }
    | some h =>
      let addr ← addressInWords r h optional
      match nameOf r strings with
      | .ok name => return { symbol := some (.function name addr .static) }
      | .error offset =>
        return { symbol := some (.function "" addr .static), notice := some (.symbolName index offset) }
  else return {}

/-- What the record at an index contributes, in words; where it lies is a sum of a product. -/
def entryAtInWords (v : View) (file : FileHeader) (strings : Option StringTable) (sections : SectionTable)
    (optional : OptionalHeader) (index : Nat) : Words TableEntry :=
  ExceptT.mk do
    let offset ← Word.add file.symbolPointer.toNat (← Word.mul index symbolRecordSize)
    match ← (CoffRecord.readInWords v offset).run with
    | .ok r =>
      let e ← keepInWords r strings sections optional index
      return .ok { e with trailing := r.auxiliaries.toNat }
    | .error (.outOfBounds offset len size) => return .error (.symbolTable coffName (.recordOutside offset len size))
    | .error error => return .error error

/-- Reads the COFF symbol table in words. -/
def readInWords (v : View) (file : FileHeader) (strings : Option StringTable) (sections : SectionTable)
    (optional : OptionalHeader) (options : Options) : Option TableReading := do
  let count := file.symbolCount.toNat
  let limit := options.maxSymbolsPerTable.toNat
  let truncated := if limit < count then some (Notice.recordsTruncated count limit) else none
  let reading ← readEntriesInWords (entryAtInWords v file strings sections optional) (min count limit)
  return ⟨coffName, .noting truncated reading⟩

theorem addressInWords_eq (r : CoffRecord) (h : SectionHeader) (optional : OptionalHeader) :
    addressInWords r h optional = some (optional.va (h.virtualAddress.toUInt64 + r.value.toUInt64)) := by
  have hvirtual := h.virtualAddress.toNat_lt
  have hvalue := r.value.toNat_lt
  unfold addressInWords
  rw [Word.add_eq (by omega), ← UInt64.ofNat_uInt32ToNat, ← UInt64.ofNat_uInt32ToNat, ← UInt64.ofNat_add]
  rfl

/-- A record that is kept has the number of a section, so one can be subtracted from it. -/
theorem keepInWords_eq (r : CoffRecord) (strings : Option StringTable) (sections : SectionTable) (optional : OptionalHeader)
    (index : Nat) : keepInWords r strings sections optional index = some (keep r strings sections optional index) := by
  unfold keepInWords keep
  split
  · rename_i hkept
    have hnumber : 1 ≤ r.sectionNumber.toNat := by
      simp only [CoffRecord.isDefined, Bool.and_eq_true, decide_eq_true_eq] at hkept
      exact UInt16.lt_iff_toNat_lt.1 hkept.2.1
    simp only [Word.sub_eq hnumber, addressInWords_eq, Option.bind_eq_bind, Option.bind_some]
    cases sections.header? (r.sectionNumber.toNat - 1) with
    | none => rfl
    | some h =>
      dsimp only
      cases nameOf r strings <;> rfl
  · rfl

theorem entryAtInWords_eq (v : View) (file : FileHeader) (strings : Option StringTable) (sections : SectionTable)
    (optional : OptionalHeader) {index : Nat} (hi : index < 2 ^ 32) :
    entryAtInWords v file strings sections optional index = liftM (entryAt v file strings sections optional index) := by
  have hpointer := file.symbolPointer.toNat_lt
  have hsize : symbolRecordSize = 18 := rfl
  unfold entryAtInWords entryAt recordOffset
  rw [hsize, Word.mul_eq (by omega)]
  simp only [Option.bind_eq_bind, Option.bind_some]
  rw [Word.add_eq (by omega)]
  simp only [Option.bind_some]
  rw [CoffRecord.readInWords_eq (by omega), Words.run_lift]
  cases CoffRecord.read v (file.symbolPointer.toNat + index * 18) with
  | ok r =>
    simp only [Option.bind_some, keepInWords_eq]
    rfl
  | error error => cases error <;> rfl

/-- A byte says how many records belong to a record. -/
theorem trailing_lt_of_entryAt {v : View} {file : FileHeader} {strings : Option StringTable} {sections : SectionTable}
    {optional : OptionalHeader} {index : Nat} {e : TableEntry} (h : entryAt v file strings sections optional index = .ok e) :
    e.trailing < 256 := by
  unfold entryAt at h
  split at h
  · rename_i r _
    cases h
    exact r.auxiliaries.toNat_lt
  · nomatch h
  · nomatch h

theorem readInWords_eq (v : View) (file : FileHeader) (strings : Option StringTable) (sections : SectionTable)
    (optional : OptionalHeader) (options : Options) :
    readInWords v file strings sections optional options = some (read v file strings sections optional options) := by
  have hcount := file.symbolCount.toNat_lt
  have hreading : readEntriesInWords (entryAtInWords v file strings sections optional)
      (min file.symbolCount.toNat options.maxSymbolsPerTable.toNat) =
        some (readEntries (entryAt v file strings sections optional) (min file.symbolCount.toNat options.maxSymbolsPerTable.toNat)) := by
    refine readEntriesInWords_eq (fun i hi => entryAtInWords_eq v file strings sections optional (by omega)) fun i hi e he => ?_
    have htrailing := trailing_lt_of_entryAt he
    omega
  unfold readInWords read
  dsimp only
  rw [hreading]
  rfl

end CoffSymbols

/-! ## Exports -/

namespace Exports

/-- Where a part of the exports lies in the file, in words. -/
def resolveInWords (sections : SectionTable) (part : ExportPart) (rva : UInt32) : Words Nat := do
  match ← sections.fileOffsetInWords? rva with
  | some offset => return offset
  | none => fault (.notBacked part rva.toNat)

/-- Finds the three tables in words. -/
def locateInWords (sections : SectionTable) (d : ExportDirectory) : Words Tables := do
  return {
    addresses := ← resolveInWords sections .addressTable d.addressTableRva
    names := ← resolveInWords sections .nameTable d.nameTableRva
    ordinals := ← resolveInWords sections .ordinalTable d.ordinalTableRva }

/-- The name at a relative address, if it can be read, in words. -/
def nameInWords? (v : View) (sections : SectionTable) (rva : UInt32) : Option (Option String) := do
  match ← sections.fileOffsetInWords? rva with
  | none => return none
  | some offset =>
    match v.cstring offset maxNameLength with
    | .ok name => return some name
    | .error _ => return none

/-- What an export with a function address contributes, in words. -/
def keepInWords (v : View) (sections : SectionTable) (directory : DataDirectory) (optional : OptionalHeader)
    (index : Nat) (nameRva functionRva : UInt32) : Option TableEntry := do
  if ← directory.containsInWords functionRva then return {}
  else
    let addr := optional.va functionRva.toUInt64
    match ← nameInWords? v sections nameRva with
    | some name => return { symbol := some (.function name addr .exported) }
    | none => return { symbol := some (.function "" addr .exported), notice := some (.exportName index nameRva.toNat) }

/-- What the export at an index of the names contributes, in words; the fields of the three tables lie at sums of products. -/
def entryAtInWords (v : View) (sections : SectionTable) (directory : DataDirectory) (optional : OptionalHeader)
    (functionCount : UInt32) (t : Tables) (index : Nat) : Words TableEntry := do
  let nameOffset ← Word.add t.names (← Word.mul index 4)
  let nameRva ← field .nameTable index (v.word32 nameOffset .little)
  let ordinalOffset ← Word.add t.ordinals (← Word.mul index 2)
  let ordinal ← field .ordinalTable index (v.word16 ordinalOffset .little)
  if functionCount.toNat ≤ ordinal.toNat then
    return { notice := some (.exportOrdinal index ordinal.toNat) }
  else
    let addressOffset ← Word.add t.addresses (← Word.mul ordinal.toNat 4)
    let functionRva ← field .addressTable ordinal.toNat (v.word32 addressOffset .little)
    keepInWords v sections directory optional index nameRva functionRva

/-- Reads the named exports of a directory that has been found, in words. -/
def readNamesInWords (v : View) (sections : SectionTable) (directory : DataDirectory) (optional : OptionalHeader)
    (d : ExportDirectory) (count : Nat) : Option Reading := do
  if count = 0 then return {}
  else
    match ← (locateInWords sections d).run with
    | .error error => return .failed error
    | .ok t => readEntriesInWords (entryAtInWords v sections directory optional d.functionCount t) count

/-- Finds and reads the directory in words. -/
def findDirectoryInWords (v : View) (sections : SectionTable) (directory : DataDirectory) : Words ExportDirectory := do
  ExportDirectory.read v (← resolveInWords sections .directory directory.rva)

/-- Reads the exports in words. -/
def readInWords (v : View) (sections : SectionTable) (directory : DataDirectory) (optional : OptionalHeader)
    (options : Options) : Option TableReading := do
  match ← (findDirectoryInWords v sections directory).run with
  | .error error => return ⟨tableName, .failed error⟩
  | .ok d =>
    let count := d.nameCount.toNat
    let limit := options.maxExports.toNat
    let truncated := if limit < count then some (Notice.exportsTruncated count limit) else none
    return ⟨tableName, .noting truncated (← readNamesInWords v sections directory optional d (min count limit))⟩

variable {v : View} {sections : SectionTable}

theorem resolveInWords_eq (sections : SectionTable) (part : ExportPart) (rva : UInt32) :
    resolveInWords sections part rva = liftM (resolve sections part rva) := by
  unfold resolveInWords resolve
  rw [SectionTable.fileOffsetInWords?_eq, Words.lift_some, pure_bind]
  cases sections.fileOffset? rva <;> rfl

theorem locateInWords_eq (sections : SectionTable) (d : ExportDirectory) : locateInWords sections d = liftM (locate sections d) := by
  unfold locateInWords locate
  simp only [resolveInWords_eq, liftM_bind, liftM_pure]

/-- A part of the exports that has been found lies at a sum of two numbers of 32 bits. -/
theorem resolve_lt {part : ExportPart} {rva : UInt32} {offset : Nat} (h : resolve sections part rva = .ok offset) : offset < 2 ^ 33 := by
  unfold resolve at h
  split at h
  · rename_i hoffset
    cases h
    exact SectionTable.fileOffset?_lt hoffset
  · nomatch h

theorem locate_lt {d : ExportDirectory} {t : Tables} (h : locate sections d = .ok t) :
    t.addresses < 2 ^ 33 ∧ t.names < 2 ^ 33 ∧ t.ordinals < 2 ^ 33 := by
  obtain ⟨addresses, haddresses, h⟩ := Except.bind_eq_ok_iff.1 h
  obtain ⟨names, hnames, h⟩ := Except.bind_eq_ok_iff.1 h
  obtain ⟨ordinals, hordinals, h⟩ := Except.bind_eq_ok_iff.1 h
  cases h
  exact ⟨resolve_lt haddresses, resolve_lt hnames, resolve_lt hordinals⟩

theorem nameInWords?_eq (v : View) (sections : SectionTable) (rva : UInt32) :
    nameInWords? v sections rva = some (name? v sections rva) := by
  unfold nameInWords? name?
  simp only [SectionTable.fileOffsetInWords?_eq, Option.bind_eq_bind, Option.bind_some]
  cases sections.fileOffset? rva with
  | none => rfl
  | some offset =>
    dsimp only
    cases v.cstring offset maxNameLength <;> rfl

theorem keepInWords_eq (v : View) (sections : SectionTable) (directory : DataDirectory) (optional : OptionalHeader)
    (index : Nat) (nameRva functionRva : UInt32) :
    keepInWords v sections directory optional index nameRva functionRva =
      some (keep v sections directory optional index nameRva functionRva) := by
  unfold keepInWords keep
  simp only [DataDirectory.containsInWords_eq, Option.bind_eq_bind, Option.bind_some, decide_eq_true_eq]
  split
  · rfl
  · rw [nameInWords?_eq]
    cases name? v sections nameRva <;> rfl

theorem entryAtInWords_eq (v : View) (sections : SectionTable) (directory : DataDirectory) (optional : OptionalHeader)
    (functionCount : UInt32) {t : Tables} (ht : t.addresses < 2 ^ 33 ∧ t.names < 2 ^ 33 ∧ t.ordinals < 2 ^ 33) {index : Nat}
    (hi : index < 2 ^ 32) :
    entryAtInWords v sections directory optional functionCount t index =
      liftM (entryAt v sections directory optional functionCount t index) := by
  obtain ⟨haddresses, hnames, hordinals⟩ := ht
  unfold entryAtInWords entryAt
  simp (disch := omega) only [Words.mul_bind, Words.add_bind, liftM_bind]
  refine Words.bind_congr fun nameRva _ => Words.bind_congr fun ordinal _ => ?_
  have hordinal := ordinal.toNat_lt
  split
  · rfl
  · simp (disch := omega) only [Words.mul_bind, Words.add_bind, liftM_bind, keepInWords_eq, Words.lift_some, liftM_pure]

theorem readNamesInWords_eq (v : View) (sections : SectionTable) (directory : DataDirectory) (optional : OptionalHeader)
    (d : ExportDirectory) {count : Nat} (hcount : count < 2 ^ 32) :
    readNamesInWords v sections directory optional d count = some (readNames v sections directory optional d count) := by
  unfold readNamesInWords readNames
  split
  · rfl
  · simp only [locateInWords_eq, Words.run_lift, Option.bind_eq_bind, Option.bind_some]
    cases hlocate : locate sections d with
    | error error => rfl
    | ok t =>
      refine readEntriesInWords_eq
        (fun i hi => entryAtInWords_eq v sections directory optional d.functionCount (locate_lt hlocate) (by omega)) fun i hi e he => ?_
      rw [trailing_entryAt he]
      omega

theorem readInWords_eq (v : View) (sections : SectionTable) (directory : DataDirectory) (optional : OptionalHeader)
    (options : Options) : readInWords v sections directory optional options = some (read v sections directory optional options) := by
  have hdirectory : findDirectoryInWords v sections directory = liftM (findDirectory v sections directory) := by
    unfold findDirectoryInWords findDirectory
    rw [resolveInWords_eq, liftM_bind]
  unfold readInWords read
  simp only [hdirectory, Words.run_lift, Option.bind_eq_bind, Option.bind_some]
  cases findDirectory v sections directory with
  | error error => rfl
  | ok d =>
    have hcount := d.nameCount.toNat_lt
    dsimp only
    rw [readNamesInWords_eq v sections directory optional d (by omega)]
    rfl

end Exports

/-! ## Images -/

namespace Image

/-- Reads the headers of an image for a supported machine, in words. -/
def readInWords (v : View) (options : Options) : Words Image := do
  let headers ← Headers.readInWords v
  let tableOffset ← headers.sectionTableOffsetInWords
  let file := headers.file
  if file.isSupported then
    let strings := StringTable.locate? v file.symbolPointer file.symbolCount
    let sections ← SectionTable.readInWords v tableOffset file.sectionCount strings options
    return { view := v, headers, strings, sections }
  else
    throw (.unsupportedArchitecture Format.pe.name file.machine)

/-- Reads the COFF symbol table in words, if there is one and it is asked for. -/
def coffTablesInWords (image : Image) (options : Options) : Option (List LabelledTable) := do
  let file := image.headers.file
  if options.coffSymbols && file.symbolPointer != 0 && file.symbolCount != 0 then
    let reading ← CoffSymbols.readInWords image.view file image.strings image.sections image.headers.optional options
    return [⟨coffName, reading⟩]
  else return []

/-- Reads the exports in words, if there are any. -/
def exportTablesInWords (image : Image) (options : Options) : Option (List LabelledTable) := do
  match image.headers.exportDirectory? with
  | none => return []
  | some directory =>
    if directory.isPresent then
      let reading ← Exports.readInWords image.view image.sections directory image.headers.optional options
      return [⟨Exports.tableName, reading⟩]
    else return []

/-- Reads the symbol tables in words, the COFF symbol table first. -/
def symbolTablesInWords (image : Image) (options : Options) : Option (List LabelledTable) := do
  return (← image.coffTablesInWords options) ++ (← image.exportTablesInWords options)

/-- Loads the sections and the symbols of an image, in words. -/
def loadInWords (image : Image) (source : String) (options : Options) : Words Loaded := do
  let sections ← image.loadSections source options
  let tables ← image.symbolTablesInWords options
  return {
    binary := image.binary source sections (merge (tables.map LabelledTable.outcome))
    events := tableEvents tables }

theorem readInWords_eq (v : View) (options : Options) : readInWords v options = liftM (read v options) := by
  unfold readInWords read
  rw [Headers.readInWords_eq, liftM_bind]
  refine Words.bind_congr fun headers hread => ?_
  rw [Headers.sectionTableOffsetInWords_eq hread, Words.lift_some, pure_bind]
  dsimp only
  split
  · rw [SectionTable.readInWords_eq]
    simp only [liftM_bind, liftM_pure]
  · rfl

theorem symbolTablesInWords_eq (image : Image) (options : Options) :
    image.symbolTablesInWords options = some (image.symbolTables options) := by
  have hcoff : image.coffTablesInWords options = some (image.coffTables options) := by
    unfold coffTablesInWords coffTables
    dsimp only
    split
    · rw [CoffSymbols.readInWords_eq]
      rfl
    · rfl
  have hexports : image.exportTablesInWords options = some (image.exportTables options) := by
    unfold exportTablesInWords exportTables
    cases image.headers.exportDirectory? with
    | none => rfl
    | some directory =>
      dsimp only
      split
      · rw [Exports.readInWords_eq]
        rfl
      · rfl
  unfold symbolTablesInWords
  rw [hcoff, hexports]
  rfl

/-- An image is loaded in words as it is in numbers. -/
theorem loadInWords_eq (image : Image) (source : String) (options : Options) :
    image.loadInWords source options = liftM (image.load source options) := by
  unfold loadInWords load
  rw [symbolTablesInWords_eq]
  simp only [Words.lift_some, pure_bind, liftM_bind, liftM_pure]

end Image

end ExecImage.Pe
