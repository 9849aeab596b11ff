import ExecImage.Proofs.Pe.SymbolRecords
import ExecImage.Proofs.Pe.Written

/-!
# Symbols that were written are read back

A linker writes a record for each symbol, an auxiliary record of zeros after each function, and the string table after all
records. A name of at most eight bytes stands in its record; a longer one stands in the string table, where other strings may
come first. The induction over the symbols follows the reading from record to record, and each symbol takes its name along with
its record.
-/

namespace ExecImage.Pe

open Except (bind_eq_ok_iff)

variable {v : View} {sections : SectionTable} {optional : OptionalHeader} {options : Options} {file : FileHeader}

/-! ## Writing symbols -/

/-- A symbol of the COFF symbol table to be written. -/
structure CoffSpec where
  /-- The name. -/
  name : String
  /-- The offset from the start of the section. -/
  value : UInt32
  /-- The number of the section, from 1. -/
  sectionNumber : UInt16
  /-- The symbol is a function. -/
  isFunction : Bool
  deriving DecidableEq, Repr

namespace CoffSpec

/-- The name does not fit in the record. -/
def IsLong (s : CoffSpec) : Prop :=
  8 < (Utf8.encode s.name).length

instance (s : CoffSpec) : Decidable s.IsLong :=
  inferInstanceAs (Decidable (_ < _))

/-- What the name adds to the string table. -/
def stored (s : CoffSpec) : List UInt8 :=
  if s.IsLong then text s.name else []

/-- The number of auxiliary records. -/
def auxiliaries (s : CoffSpec) : Nat :=
  if s.isFunction then 1 else 0

/-- The record of a symbol that is added to a string table of `next` bytes. -/
def record (s : CoffSpec) (next : Nat) : CoffRecord :=
  { nameField := if s.IsLong then (unread 4 ++ word (.ofNat next)).toArray else nameField s.name
    value := s.value
    sectionNumber := s.sectionNumber
    type := if s.isFunction then 0x20 else 0
    storageClass := 2
    auxiliaries := .ofNat s.auxiliaries }

/-- An auxiliary record of zeros. -/
def auxiliary : CoffRecord :=
  { nameField := (unread 8).toArray, value := 0, sectionNumber := 0, type := 0, storageClass := 0, auxiliaries := 0 }

/-- The records of symbols that are added to a string table of `next` bytes. -/
def records : (next : Nat) → List CoffSpec → List CoffRecord
  | _, [] => []
  | next, s :: ss => s.record next :: (List.replicate s.auxiliaries auxiliary ++ records (next + s.stored.length) ss)

/-- The strings of the string table: others, and the long names. -/
def strings (others : List UInt8) (symbols : List CoffSpec) : List UInt8 :=
  others ++ symbols.flatMap stored

/-- The string table with its size. -/
def stringTable (others : List UInt8) (symbols : List CoffSpec) : List UInt8 :=
  word (.ofNat (StringTable.sizeField + (strings others symbols).length)) ++ strings others symbols

/-- All records of the symbols. -/
def allRecords (others : List UInt8) (symbols : List CoffSpec) : List CoffRecord :=
  records (StringTable.sizeField + others.length) symbols

/-- The bytes of the symbol table and of the string table. -/
def write (others : List UInt8) (symbols : List CoffSpec) : List UInt8 :=
  (allRecords others symbols).flatMap CoffRecord.write ++ stringTable others symbols

/-- The symbols whose records are below a limit, if the record of the first one is at an index. -/
def below (limit : Nat) : (index : Nat) → List CoffSpec → List CoffSpec
  | _, [] => []
  | index, s :: ss => if index < limit then s :: below limit (index + 1 + s.auxiliaries) ss else []

/-- The relative address of the section that a symbol is in. -/
def sectionRva (sections : SectionTable) (s : CoffSpec) : UInt64 :=
  ((sections.header? (s.sectionNumber.toNat - 1)).map fun h => h.virtualAddress.toUInt64).getD 0

/-- The symbol of a function. -/
def symbol (sections : SectionTable) (optional : OptionalHeader) (s : CoffSpec) : Symbol :=
  .function s.name (optional.va (sectionRva sections s + s.value.toUInt64)) .static

/-- The symbol can be written and read back: it has a name, and the number of a section. -/
structure Valid (sections : SectionTable) (s : CoffSpec) : Prop where
  name : IsName StringTable.maxLength s.name
  named : s.name ≠ ""
  positive : 0 < s.sectionNumber.toBitVec.toInt
  number_le : s.sectionNumber.toNat ≤ sections.count

variable {s : CoffSpec} {symbols : List CoffSpec} {others : List UInt8} {next limit : Nat} {t : StringTable}

/-! ## Names -/

theorem size_nameField_record (s : CoffSpec) (next : Nat) : (s.record next).nameField.size = 8 := by
  unfold record
  dsimp only
  split
  · simp
  · exact size_nameField s.name

/-- The first byte of a name that has no zero byte is none. -/
theorem exists_cons_of_ne (hs : IsName StringTable.maxLength s.name) (hne : s.name ≠ "") :
    ∃ b bs, Utf8.encode s.name = b :: bs ∧ b ≠ 0 := by
  cases hbytes : Utf8.encode s.name with
  | nil =>
    refine absurd ?_ hne
    rw [← Utf8.decode_encode s.name, hbytes]
    rfl
  | cons b bs =>
    refine ⟨b, bs, rfl, fun h0 => Utf8.zero_notMem_encode hs.noZero ?_⟩
    rw [hbytes, h0]
    exact List.mem_cons_self

/-- The name of a record is the name that was written, in the record or in the string table. -/
theorem nameOf_record (hs : IsName StringTable.maxLength s.name) (hne : s.name ≠ "") (hnext : StringTable.sizeField ≤ next)
    (hlt : next + s.stored.length < 2 ^ 32) (h : t.view.Holds next s.stored) :
    CoffSymbols.nameOf (s.record next) (some t) = .ok s.name := by
  unfold stored at h hlt
  unfold CoffSymbols.nameOf CoffRecord.stringOffset? CoffRecord.inlineName record
  by_cases hlong : s.IsLong
  · rw [if_pos hlong] at h hlt
    have hoffset : littleValue (word (.ofNat next)) = next := by
      rw [word, littleValue_littleDigits 4 _ (UInt32.toNat_lt _), UInt32.toNat_ofNat_of_lt' (show next < 2 ^ 32 by omega)]
    have hget : t.get next = .ok s.name := by
      unfold StringTable.get
      rw [if_neg (Nat.not_lt.2 hnext)]
      exact View.Holds.cstring h hs.noZero hs.length_le
    have htake : (unread 4 ++ word (.ofNat next)).take 4 = [0, 0, 0, 0] := rfl
    have hdrop : (unread 4 ++ word (.ofNat next)).drop 4 = word (.ofNat next) := rfl
    simp only [if_pos hlong, List.toList_toArray, htake, hdrop, if_true, hoffset, hget]
  · obtain ⟨b, bs, hbytes, hb⟩ := exists_cons_of_ne hs hne
    have hfield := toList_nameField (Nat.not_lt.1 hlong)
    have hinline : ¬(nameField s.name).toList.take 4 = [0, 0, 0, 0] := by
      rw [hfield, hbytes]
      simp [hb]
    have hstop : ∀ b ∈ Utf8.encode s.name, (b != 0) = true := by
      intro b hb
      simpa using fun h : b = 0 => Utf8.zero_notMem_encode hs.noZero (h ▸ hb)
    have hname : (nameField s.name).toList.takeWhile (· != 0) = Utf8.encode s.name := by
      rw [hfield, List.takeWhile_append_of_pos hstop, unread, List.takeWhile_replicate]
      simp
    simp only [if_neg hlong, if_neg hinline, hname, Utf8.decode_encode]

/-! ## Records -/

/-- What a symbol contributes to the table. -/
def contribution (sections : SectionTable) (optional : OptionalHeader) (s : CoffSpec) : TableEntry :=
  { symbol := if s.isFunction then some (symbol sections optional s) else none, trailing := s.auxiliaries }

/-- The record of a symbol contributes the function that it names, or nothing. -/
theorem keep_record (hs : s.Valid sections) (hname : CoffSymbols.nameOf (s.record next) (some t) = .ok s.name) (i : Nat) :
    { CoffSymbols.keep (s.record next) (some t) sections optional i with trailing := (s.record next).auxiliaries.toNat } =
      contribution sections optional s := by
  have hdefined : (s.record next).isDefined = true := CoffSymbols.isDefined_iff.2 hs.positive
  have hauxiliaries : (s.record next).auxiliaries.toNat = s.auxiliaries := by
    unfold record auxiliaries
    cases s.isFunction <;> rfl
  have hfunction : (s.record next).isFunction = s.isFunction := by
    change ((if s.isFunction then (0x20 : UInt16) else 0) &&& 0x30 == 0x20 && ((2 : UInt8) == 2 || (2 : UInt8) == 3)) =
      s.isFunction
    cases s.isFunction <;> rfl
  unfold CoffSymbols.keep contribution
  rw [hfunction, hdefined, hauxiliaries, Bool.and_true]
  cases hf : s.isFunction with
  | false => rfl
  | true =>
    have hlt : s.sectionNumber.toNat - 1 < sections.count := by
      have hpos := CoffSymbols.toInt_pos_iff.1 hs.positive
      have hle := hs.number_le
      omega
    obtain ⟨h, hh⟩ : ∃ h, sections.header? (s.sectionNumber.toNat - 1) = some h :=
      ⟨_, Option.map_eq_some_iff.2 ⟨_, List.getElem?_eq_getElem hlt, rfl⟩⟩
    have hrva : sectionRva sections s = h.virtualAddress.toUInt64 := by
      unfold sectionRva
      rw [hh]
      rfl
    have hh' : sections.header? ((s.record next).sectionNumber.toNat - 1) = some h := hh
    simp only [hh', hname, if_true, symbol, hrva]
    rfl

/-- The records of a symbol are held, and those of the symbols after it follow its auxiliary records. -/
theorem holds_records_cons {index : Nat}
    (h : v.Holds (CoffSymbols.recordOffset file index) ((records next (s :: symbols)).flatMap CoffRecord.write)) :
    CoffRecord.read v (CoffSymbols.recordOffset file index) = .ok (s.record next) ∧
      v.Holds (CoffSymbols.recordOffset file (index + 1 + s.auxiliaries))
        ((records (next + s.stored.length) symbols).flatMap CoffRecord.write) := by
  rw [records, List.flatMap_cons, List.flatMap_append] at h
  obtain ⟨hrecord, h⟩ := h.append
  obtain ⟨-, h⟩ := h.append
  have hauxiliaries : ((List.replicate s.auxiliaries auxiliary).flatMap CoffRecord.write).length =
      s.auxiliaries * symbolRecordSize := by
    have hsize : ∀ r ∈ List.replicate s.auxiliaries auxiliary, r.write.length = symbolRecordSize :=
      fun r hr => List.eq_of_mem_replicate hr ▸ rfl
    rw [length_flatMap_of_length hsize, List.length_replicate]
  have hoffset : CoffSymbols.recordOffset file index + symbolRecordSize + s.auxiliaries * symbolRecordSize =
      CoffSymbols.recordOffset file (index + 1 + s.auxiliaries) := by
    unfold CoffSymbols.recordOffset symbolRecordSize
    omega
  rw [CoffRecord.length_write (size_nameField_record s next), hauxiliaries, hoffset] at h
  exact ⟨CoffRecord.read_of_holds hrecord (size_nameField_record s next), h⟩

/-- The records take as many bytes each as a record has. -/
theorem length_write_records (next : Nat) (symbols : List CoffSpec) :
    ((records next symbols).flatMap CoffRecord.write).length = (records next symbols).length * symbolRecordSize := by
  refine length_flatMap_of_length fun r hr => CoffRecord.length_write ?_
  induction symbols generalizing next with
  | nil => nomatch hr
  | cons s symbols ih =>
    rcases List.mem_cons.1 hr with rfl | hr
    · exact size_nameField_record s next
    · rcases List.mem_append.1 hr with hr | hr
      · rw [List.eq_of_mem_replicate hr]
        rfl
      · exact ih _ hr

theorem length_records_cons (next : Nat) (s : CoffSpec) (symbols : List CoffSpec) :
    (records next (s :: symbols)).length = 1 + s.auxiliaries + (records (next + s.stored.length) symbols).length := by
  rw [records, List.length_cons, List.length_append, List.length_replicate]
  omega

/-- Reading the records of symbols gives what the symbols below the limit contribute. The induction is on the symbols; the records
and the strings of those that are left start where the reading and the string table have come to. -/
theorem readEntriesFrom_records {fuel index : Nat} (hvalid : ∀ s ∈ symbols, s.Valid sections)
    (hrecords : v.Holds (CoffSymbols.recordOffset file index) ((records next symbols).flatMap CoffRecord.write))
    (hstrings : t.view.Holds next (symbols.flatMap stored)) (hnext : StringTable.sizeField ≤ next)
    (hlt : next + (symbols.flatMap stored).length < 2 ^ 32) (hlimit : limit ≤ index + (records next symbols).length)
    (hfuel : limit ≤ index + fuel) :
    readEntriesFrom (CoffSymbols.entryAt v file (some t) sections optional) limit fuel index =
      .ofEntries ((below limit index symbols).map (contribution sections optional)) := by
  induction symbols generalizing fuel index next with
  | nil =>
    rw [readEntriesFrom_of_le (by simpa [records] using hlimit)]
    rfl
  | cons s symbols ih =>
    unfold below
    by_cases hindex : index < limit
    · obtain ⟨fuel, rfl⟩ : ∃ n, fuel = n + 1 := ⟨fuel - 1, by omega⟩
      obtain ⟨hrecord, hrecords⟩ := holds_records_cons hrecords
      obtain ⟨hstored, hstrings⟩ := View.Holds.append hstrings
      rw [List.flatMap_cons, List.length_append] at hlt
      rw [length_records_cons] at hlimit
      have hs := hvalid s List.mem_cons_self
      have hname := nameOf_record hs.name hs.named hnext (by omega) hstored
      have hentry : CoffSymbols.entryAt v file (some t) sections optional index = .ok (contribution sections optional s) := by
        rw [CoffSymbols.entryAt_eq_ok hrecord, keep_record hs hname]
      have hlater : readEntriesFrom (CoffSymbols.entryAt v file (some t) sections optional) limit fuel
          (index + 1 + s.auxiliaries) =
            .ofEntries ((below limit (index + 1 + s.auxiliaries) symbols).map (contribution sections optional)) :=
        ih (fun s hs => hvalid s (List.mem_cons_of_mem _ hs)) hrecords hstrings (by omega) (by omega) (by omega) (by omega)
      rw [if_pos hindex, readEntriesFrom_succ hindex hentry, List.map_cons]
      exact congrArg (Reading.after _) hlater
    · rw [if_neg hindex, readEntriesFrom_of_le (Nat.not_lt.1 hindex)]
      rfl

/-- Under a limit that the records do not exceed, no symbol is left out. -/
theorem below_eq_self {index : Nat} (next : Nat) (h : index + (records next symbols).length ≤ limit) :
    below limit index symbols = symbols := by
  induction symbols generalizing index next with
  | nil => rfl
  | cons s symbols ih =>
    rw [length_records_cons] at h
    rw [below, if_pos (by omega), ih (next + s.stored.length) (by omega)]

/-- A limit on all records is no limit on the symbols. -/
theorem below_min {index n : Nat} (next : Nat) (h : index + (records next symbols).length ≤ n) :
    below (min n limit) index symbols = below limit index symbols := by
  induction symbols generalizing index next with
  | nil => rfl
  | cons s symbols ih =>
    rw [length_records_cons] at h
    have hlt : index < min n limit ↔ index < limit := by omega
    simp only [below, hlt, ih (next + s.stored.length) (show index + 1 + s.auxiliaries + _ ≤ n by omega)]

/-- The symbols contribute the functions among them. -/
theorem ofEntries_contribution (sections : SectionTable) (optional : OptionalHeader) (symbols : List CoffSpec) :
    Reading.ofEntries (symbols.map (contribution sections optional)) =
      { symbols := (symbols.filter isFunction).map (symbol sections optional) } := by
  have hkept := Reading.ofEntries_kept symbols isFunction (symbol sections optional) fun _ => none
  rw [List.filterMap_none] at hkept
  refine Eq.trans ?_ hkept
  unfold Reading.ofEntries contribution
  simp only [List.flatMap_map]
  congr 1
  · refine List.flatMap_congr fun s _ => ?_
    cases s.isFunction <;> rfl
  · refine List.flatMap_congr fun s _ => ?_
    cases s.isFunction <;> rfl

/-! ## The symbol table -/

/-- The symbols are in the file as they were written, and its header says where. -/
structure Written (v : View) (file : FileHeader) (others : List UInt8) (symbols : List CoffSpec) : Prop where
  pointer : file.symbolPointer ≠ 0
  count : file.symbolCount.toNat = (allRecords others symbols).length
  holds : v.Holds file.symbolPointer.toNat (write others symbols)
  fits : (stringTable others symbols).length < 2 ^ 32

section

variable (h : Written v file others symbols)

include h

/-- The records start where the header says, and the string table follows them. -/
theorem holds_of_written :
    v.Holds (CoffSymbols.recordOffset file 0) ((allRecords others symbols).flatMap CoffRecord.write) ∧
      v.Holds (StringTable.offset file.symbolPointer file.symbolCount) (stringTable others symbols) := by
  obtain ⟨hrecords, hstrings⟩ := View.Holds.append h.holds
  rw [allRecords, length_write_records, ← allRecords, ← h.count] at hstrings
  rw [CoffSymbols.recordOffset, Nat.zero_mul, Nat.add_zero]
  exact ⟨hrecords, hstrings⟩

/-- The string table is found after the records. -/
theorem locate?_of_written :
    StringTable.locate? v file.symbolPointer file.symbolCount = some ⟨⟨(stringTable others symbols).toArray⟩⟩ := by
  obtain ⟨-, hstrings⟩ := holds_of_written h
  have hfits := h.fits
  have hlength : (stringTable others symbols).length = StringTable.sizeField + (strings others symbols).length := by
    rw [stringTable, List.length_append, length_word, StringTable.sizeField]
  have hsize : v.word32 (StringTable.offset file.symbolPointer file.symbolCount) .little =
      .ok (.ofNat (StringTable.sizeField + (strings others symbols).length)) := (View.Holds.append hstrings).1.word32
  have htoNat : (UInt32.ofNat (StringTable.sizeField + (strings others symbols).length)).toNat =
      (stringTable others symbols).length := by
    rw [hlength]
    exact UInt32.toNat_ofNat_of_lt' (show _ < 2 ^ 32 by omega)
  have hview := hstrings.sub
  rw [← htoNat] at hview
  refine StringTable.locate?_eq_some_iff.2 ⟨_, ⟨h.pointer, hsize, ?_, (View.sub_eq_ok_iff.1 hview).1⟩, hview⟩
  omega

/-- Symbols that were written are read back, as far as the limit allows. -/
theorem result_of_written (optional : OptionalHeader) (options : Options) (hvalid : ∀ s ∈ symbols, s.Valid sections) :
    (CoffSymbols.read v file (some ⟨⟨(stringTable others symbols).toArray⟩⟩) sections optional options).result = .ok
      { table := coffName
        symbols := ((below options.maxSymbolsPerTable.toNat 0 symbols).filter isFunction).map (symbol sections optional)
        warnings := truncationWarnings coffName .recordsTruncated file.symbolCount.toNat options.maxSymbolsPerTable.toNat } := by
  obtain ⟨hrecords, -⟩ := holds_of_written h
  have hfits := h.fits
  have hcount := h.count
  obtain ⟨-, hstrings⟩ := View.Holds.append (View.holds_self (stringTable others symbols))
  obtain ⟨-, hstored⟩ := View.Holds.append hstrings
  rw [Nat.zero_add, length_word] at hstored
  rw [stringTable, List.length_append, length_word, strings, List.length_append] at hfits
  have hlimit : CoffSymbols.limit file options ≤ 0 + (allRecords others symbols).length := by
    rw [CoffSymbols.limit, hcount]
    omega
  have hread : readEntries (CoffSymbols.entryAt v file (some ⟨⟨(stringTable others symbols).toArray⟩⟩) sections optional)
      (CoffSymbols.limit file options) =
        .ofEntries ((below (CoffSymbols.limit file options) 0 symbols).map (contribution sections optional)) :=
    readEntriesFrom_records hvalid hrecords hstored (Nat.le_add_right _ _) (by rw [StringTable.sizeField]; omega) hlimit
      (by omega)
  have hmin : below (CoffSymbols.limit file options) 0 symbols = below options.maxSymbolsPerTable.toNat 0 symbols := by
    rw [CoffSymbols.limit, hcount]
    exact below_min (StringTable.sizeField + others.length) (by rw [allRecords]; omega)
  rw [hmin, ofEntries_contribution] at hread
  unfold CoffSymbols.limit at hread
  refine TableReading.result_under_eq_ok_iff.2 ?_
  rw [hread]
  exact ⟨rfl, by rw [List.map_nil, List.append_nil]⟩

end

end CoffSpec

end ExecImage.Pe
