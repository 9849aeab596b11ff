import ExecImage.Proofs.Elf.Symbols
import ExecImage.Proofs.Elf.Writer
import ExecImage.Proofs.Entries
import ExecImage.Proofs.Pe.Functions
import ExecImage.Proofs.Pe.Writer

/-!
# Limits on symbols only cut tables short

A reader of a symbol table stops at a limit and says so first. Under a lower limit it does the same steps and stops earlier, so
what it has read is the start of what it reads under the higher limit (`readEntries_startOf`), also where the limit falls
between a record and those that belong to it. The three readers differ in their entries and agree in the rest
(`TableReading.under`), so one lemma is about all of them.
-/

namespace ExecImage

open Except (Carries)

/-! ## Readings -/

/-- The first reading is the start of the second, which may go on after it. -/
structure Reading.StartOf (r r' : Reading) : Prop where
  symbols : r.symbols <+: r'.symbols
  notices : r.notices <+: r'.notices
  failure : r'.failure = none → r.failure = none

namespace Reading.StartOf

theorem refl (r : Reading) : r.StartOf r :=
  ⟨List.prefix_refl _, List.prefix_refl _, id⟩

/-- A reading that has given nothing yet is the start of every reading. -/
theorem empty (r : Reading) : Reading.StartOf {} r :=
  ⟨List.nil_prefix, List.nil_prefix, fun _ => rfl⟩

theorem after {r r' : Reading} (h : r.StartOf r') (e : TableEntry) : (r.after e).StartOf (r'.after e) :=
  ⟨(List.prefix_append_right_inj _).2 h.symbols, (List.prefix_append_right_inj _).2 h.notices, h.failure⟩

end Reading.StartOf

section

variable {entry : Nat → Except LoadError TableEntry}

/-- The induction is on the fuel of the reading that stops earlier; both come to the same entries until then. -/
theorem readEntriesFrom_startOf {n m : Nat} (h : n ≤ m) {fuel fuel' : Nat} (hf : fuel ≤ fuel') (index : Nat) :
    (readEntriesFrom entry n fuel index).StartOf (readEntriesFrom entry m fuel' index) := by
  induction fuel generalizing fuel' index with
  | zero => exact .empty _
  | succ fuel ih =>
    obtain ⟨fuel', rfl⟩ : ∃ k, fuel' = k + 1 := ⟨fuel' - 1, by omega⟩
    by_cases hn : index < n
    · cases he : entry index with
      | error error =>
        simp only [readEntriesFrom, if_pos hn, if_pos (Nat.lt_of_lt_of_le hn h), he]
        exact .refl _
      | ok e =>
        rw [readEntriesFrom_succ hn he, readEntriesFrom_succ (Nat.lt_of_lt_of_le hn h) he]
        exact (ih (by omega) _).after e
    · rw [readEntriesFrom, if_neg hn]
      exact .empty _

/-- The entries below a limit are read first under every higher limit. -/
theorem readEntries_startOf {n m : Nat} (h : n ≤ m) : (readEntries entry n).StartOf (readEntries entry m) :=
  readEntriesFrom_startOf h h 0

/-- Every step of a reading adds one symbol at most. -/
theorem length_readEntriesFrom_le (limit fuel index : Nat) : (readEntriesFrom entry limit fuel index).symbols.length ≤ fuel := by
  induction fuel generalizing index with
  | zero => exact Nat.le_refl 0
  | succ fuel ih =>
    unfold readEntriesFrom
    split
    · split
      · exact Nat.zero_le _
      · rename_i e _
        have hrest := ih (index + 1 + e.trailing)
        have hsymbol : e.symbol.toList.length ≤ 1 := by cases e.symbol <;> simp
        simp only [Reading.after, List.length_append]
        omega
    · exact Nat.zero_le _

/-- A way of reading as many entries of a table of a source as are allowed: what is read under a limit is read first under every
higher one, and no entry adds more than one symbol. -/
structure ReadsUpTo (source : SymbolSource) (read : Nat → Reading) : Prop where
  /-- What is read first is the same. -/
  startOf : ∀ {n m : Nat}, n ≤ m → (read n).StartOf (read m)
  /-- No more symbols are read than entries are allowed. -/
  length_le : ∀ n, (read n).symbols.length ≤ n
  /-- What is read is of the source. -/
  isOf : ∀ n, (read n).IsOf source

/-- Entries of a source are read up to a limit. -/
theorem readsUpTo_readEntries {source : SymbolSource} (h : ∀ i e, entry i = .ok e → e.IsOf source) :
    ReadsUpTo source (readEntries entry) where
  startOf := readEntries_startOf
  length_le limit := length_readEntriesFrom_le limit limit 0
  isOf := isOf_readEntries h

end

/-! ## Warnings that entries were left out -/

/-- The warning bears the text of a notice that a table has more entries than are read. -/
def Warning.IsTruncation (w : Warning) : Prop :=
  ∃ n : Notice, n.isTruncation = true ∧ w.message = n.message

/-- A number is written with a digit first. -/
theorem head?_toDigits (n : Nat) : ∃ c, (Nat.toDigits 10 n).head? = some c ∧ c.isDigit = true := by
  have hne : Nat.toDigits 10 n ≠ [] := Nat.toDigits_ne_nil
  obtain ⟨c, cs, hc⟩ := List.exists_cons_of_ne_nil hne
  have hmem : c ∈ Nat.toDigits 10 n := by simp [hc]
  exact ⟨c, by rw [hc, List.head?_cons], Nat.isDigit_of_mem_toDigits (by decide) (by decide) hmem⟩

/-- Of all notices, those that say that entries were left out start with a digit. -/
theorem Notice.head?_message (n : Notice) : ∃ c, n.message.toList.head? = some c ∧ c.isDigit = n.isTruncation := by
  cases n with
  | entriesTruncated count _ =>
    obtain ⟨c, hc, hdigit⟩ := head?_toDigits count
    exact ⟨c, by simp [message, hc], hdigit⟩
  | recordsTruncated count _ =>
    obtain ⟨c, hc, hdigit⟩ := head?_toDigits count
    exact ⟨c, by simp [message, hc], hdigit⟩
  | exportsTruncated count _ =>
    obtain ⟨c, hc, hdigit⟩ := head?_toDigits count
    exact ⟨c, by simp [message, hc], hdigit⟩
  | symbolName index offset =>
    refine ⟨'s', ?_, rfl⟩
    simp only [message, String.toList_append, List.head?_append]
    rfl
  | symbolSection index number =>
    refine ⟨'s', ?_, rfl⟩
    simp only [message, String.toList_append, List.head?_append]
    rfl
  | exportOrdinal index ordinal =>
    refine ⟨'e', ?_, rfl⟩
    simp only [message, String.toList_append, List.head?_append]
    rfl
  | exportName index rva =>
    refine ⟨'e', ?_, rfl⟩
    simp only [message, String.toList_append, List.head?_append]
    rfl

/-- The text of a notice tells whether it says that entries were left out. -/
theorem Notice.isTruncation_of_message_eq {n n' : Notice} (h : n.message = n'.message) : n.isTruncation = n'.isTruncation := by
  obtain ⟨c, hc, hn⟩ := n.head?_message
  obtain ⟨c', hc', hn'⟩ := n'.head?_message
  rw [h, hc'] at hc
  rw [← hn, ← hn', Option.some.inj hc]

/-- A warning of a notice says that entries were left out exactly if the notice does. -/
theorem Warning.isTruncation_iff {table : String} {n : Notice} :
    Warning.IsTruncation ⟨table, n.message⟩ ↔ n.isTruncation = true := by
  constructor
  · rintro ⟨n', hn', hmessage⟩
    rw [Notice.isTruncation_of_message_eq hmessage]
    exact hn'
  · intro hn
    exact ⟨n, hn, rfl⟩

/-! ## Tables -/

/-- The warning that a table of `declared` entries is cut short by a limit, if it is. -/
def truncationWarnings (table : String) (truncated : Nat → Nat → Notice) (declared limit : Nat) : List Warning :=
  if limit < declared then [⟨table, (truncated declared limit).message⟩] else []

/-- The table of entries that were read of `declared` ones under a limit: their symbols and, after a warning if there are more,
their notices. -/
def LoadedTable.ofEntries (table : String) (truncated : Nat → Nat → Notice) (declared limit : Nat) (entries : List TableEntry) :
    LoadedTable :=
  { table
    symbols := entries.filterMap TableEntry.symbol
    warnings := truncationWarnings table truncated declared limit ++
      (entries.filterMap TableEntry.notice).map fun n => ⟨table, n.message⟩ }

/-- The first table, of `declared` entries and read under the limit `n`, is the start of the second, read under the limit `m`. -/
structure LoadedTable.CutFrom (truncated : Nat → Nat → Notice) (declared n m : Nat) (short long : LoadedTable) : Prop where
  /-- The name of the table does not depend on the limit. -/
  table : short.table = long.table
  /-- What is read first is the same. -/
  symbols : short.symbols <+: long.symbols
  /-- No more symbols are read than entries are allowed. -/
  length_le : short.symbols.length ≤ n
  /-- A warning says that entries were left out exactly if there are more than allowed. -/
  truncation_iff : (∃ w ∈ short.warnings, w.IsTruncation) ↔ n < declared
  /-- Such a warning comes first; the warnings after it are those after it under the higher limit, as far as the reading goes. -/
  warnings : ∃ rest rest', short.warnings = truncationWarnings short.table truncated declared n ++ rest ∧
    long.warnings = truncationWarnings long.table truncated declared m ++ rest' ∧ rest <+: rest'

namespace TableReading

/-- A table of `declared` entries of which `read` reads as many as a limit allows, with a notice if these are not all. -/
def under (table : String) (truncated : Nat → Nat → Notice) (declared : Nat) (read : Nat → Reading) (limit : UInt64) :
    TableReading :=
  ⟨table, .noting (if limit.toNat < declared then some (truncated declared limit.toNat) else none)
    (read (min declared limit.toNat))⟩

variable {table : String} {truncated : Nat → Nat → Notice} {declared : Nat} {read : Nat → Reading}

/-- A table is loaded under a limit exactly when the reading of as many entries comes to its end. -/
theorem result_under_eq_ok_iff {limit : UInt64} {t : LoadedTable} :
    (under table truncated declared read limit).result = .ok t ↔
      (read (min declared limit.toNat)).failure = none ∧
        t = { table, symbols := (read (min declared limit.toNat)).symbols
              warnings := truncationWarnings table truncated declared limit.toNat ++
                (read (min declared limit.toNat)).notices.map fun n => ⟨table, n.message⟩ } := by
  unfold result under truncationWarnings
  rw [Reading.failure_noting]
  cases (read (min declared limit.toNat)).failure with
  | some error => simp
  | none =>
    by_cases hlimit : limit.toNat < declared
    · simp [hlimit, warnings, Reading.noting, eq_comm (b := t)]
    · simp [hlimit, warnings, Reading.noting, eq_comm (b := t)]

/-- If entries are all that a reading meets, they make up the table. -/
theorem result_under_of_entries {limit : UInt64} {entries : List TableEntry}
    (h : read (min declared limit.toNat) = .ofEntries entries) :
    (under table truncated declared read limit).result = .ok (.ofEntries table truncated declared limit.toNat entries) := by
  rw [result_under_eq_ok_iff, h]
  simp only [Reading.ofEntries, LoadedTable.ofEntries, List.filterMap_eq_flatMap_toList, true_and]

/-- A table whose entries are read up to a limit is shorter under a lower limit. -/
theorem cutFrom_under {source : SymbolSource} (hread : ReadsUpTo source read)
    (htruncated : ∀ count limit, (truncated count limit).isTruncation = true) {n m : UInt64} (h : n ≤ m) :
    Carries (fun long short => short.CutFrom truncated declared n.toNat m.toNat long)
      (under table truncated declared read m).result (under table truncated declared read n).result := by
  intro long hlong
  obtain ⟨hfailure, rfl⟩ := result_under_eq_ok_iff.1 hlong
  have hle : min declared n.toNat ≤ min declared m.toNat := by
    have := UInt64.le_iff_toNat_le.1 h
    omega
  have hstart := hread.startOf hle
  refine ⟨_, result_under_eq_ok_iff.2 ⟨hstart.failure hfailure, rfl⟩, rfl, hstart.symbols, ?_, ?_, ?_⟩
  · exact Nat.le_trans (hread.length_le _) (Nat.min_le_right _ _)
  · constructor
    · rintro ⟨w, hw, htrunc⟩
      rcases List.mem_append.1 hw with hw | hw
      · unfold truncationWarnings at hw
        split at hw
        · assumption
        · nomatch hw
      · -- The other warnings are of entries.
        obtain ⟨notice, hnotice, rfl⟩ := List.mem_map.1 hw
        have hfalse := (hread.isOf _).notices notice hnotice
        rw [Warning.isTruncation_iff.1 htrunc] at hfalse
        nomatch hfalse
    · intro hlt
      refine ⟨⟨table, (truncated declared n.toNat).message⟩, List.mem_append_left _ ?_,
        Warning.isTruncation_iff.2 (htruncated _ _)⟩
      rw [truncationWarnings, if_pos hlt]
      exact List.mem_singleton_self _
  · exact ⟨_, _, rfl, rfl, hstart.notices.map _⟩

end TableReading

/-! ### ELF symbol tables -/

namespace Elf.SymbolTable

variable {t : SectionTable} {options : Options} {source : SymbolSource}

/-- The number of entries that a symbol table declares: as many as its contents have room for. -/
def declared (t : SectionTable) (index : Nat) : Nat :=
  match t.header? index with
  | none => 0
  | some h =>
    (if h.type = 8 then 0 else h.size.toNat) / if h.entrySize = 0 then t.cls.symbolSize else h.entrySize.toNat

/-- The entries at hand are those that the section declares. -/
theorem size_div_of_parts {e : NamedHeader} {index : Nat} (he : t.entries[index]? = some e) {entries strings : View} {size : Nat}
    (hp : parts t e.header = .ok (entries, strings, size)) : entries.size / size = declared t index := by
  obtain ⟨-, hentries, -, hsize⟩ := parts_eq_ok_iff.1 hp
  have hheader : t.header? index = some e.header := by
    rw [SectionTable.header?, he]
    rfl
  obtain ⟨-, hdistance⟩ := entrySize_eq_ok_iff.1 hsize
  have hcontents := SectionTable.size_of_contentsOf hentries
  unfold SectionHeader.contentsSize at hcontents
  unfold distance at hdistance
  unfold declared
  simp only [hheader, hcontents, hdistance]

/-- An ELF symbol table is cut short by a lower limit. -/
theorem cutFrom_read {n m : UInt64} (h : n ≤ m) (index : Nat) (order : Endianness) :
    Carries (fun long short => short.CutFrom .entriesTruncated (declared t index) n.toNat m.toNat long)
      (read t index order source { options with maxSymbolsPerTable := m }).result
      (read t index order source { options with maxSymbolsPerTable := n }).result := by
  unfold read
  cases he : t.entries[index]? with
  | none => exact .error _ _
  | some e =>
    cases hp : parts t e.header with
    | error fault =>
      simp only [readEntry, hp]
      exact .error _ _
    | ok p =>
      obtain ⟨entries, strings, size⟩ := p
      rw [← size_div_of_parts he hp]
      simp only [readEntry, hp]
      exact TableReading.cutFrom_under (readsUpTo_readEntries isOf_entryAt) (fun _ _ => rfl) h

end Elf.SymbolTable

/-! ### The COFF symbol table -/

namespace Pe.CoffSymbols

variable {v : View} {file : FileHeader} {strings : Option StringTable} {sections : SectionTable} {optional : OptionalHeader}
  {options : Options}

/-- The COFF symbol table is cut short by a lower limit. -/
theorem cutFrom_read {n m : UInt64} (h : n ≤ m) :
    Carries (fun long short => short.CutFrom .recordsTruncated file.symbolCount.toNat n.toNat m.toNat long)
      (read v file strings sections optional { options with maxSymbolsPerTable := m }).result
      (read v file strings sections optional { options with maxSymbolsPerTable := n }).result :=
  TableReading.cutFrom_under (readsUpTo_readEntries isOf_entryAt) (fun _ _ => rfl) h

end Pe.CoffSymbols

/-! ### Exports -/

namespace Pe.Exports

variable {v : View} {sections : SectionTable} {directory : DataDirectory} {optional : OptionalHeader} {options : Options}

/-- The number of exports that are named, if there is a directory to name them. -/
def declared (v : View) (sections : SectionTable) (directory : DataDirectory) : Nat :=
  match findDirectory v sections directory with
  | .ok d => d.nameCount.toNat
  | .error _ => 0

/-- The tables of a directory are looked for only if names are to be read, and then its exports are read up to the limit. -/
theorem readsUpTo_readNames (d : ExportDirectory) : ReadsUpTo .exported (readNames v sections directory optional d) := by
  refine ⟨?_, ?_, isOf_readNames d⟩
  · intro n m h
    unfold readNames
    by_cases hn : n = 0
    · rw [if_pos hn]
      exact .empty _
    · rw [if_neg hn, if_neg (by omega)]
      cases locate sections d with
      | error error => exact .refl _
      | ok t => exact readEntries_startOf h
  · intro n
    unfold readNames
    split
    · exact Nat.zero_le _
    split
    · exact Nat.zero_le _
    · exact (readsUpTo_readEntries isOf_entryAt).length_le n

/-- The exports are cut short by a lower limit. -/
theorem cutFrom_read {n m : UInt64} (h : n ≤ m) :
    Carries (fun long short => short.CutFrom .exportsTruncated (declared v sections directory) n.toNat m.toNat long)
      (read v sections directory optional { options with maxExports := m }).result
      (read v sections directory optional { options with maxExports := n }).result := by
  unfold read declared
  cases findDirectory v sections directory with
  | error error => exact .error _ _
  | ok d =>
    exact TableReading.cutFrom_under (readsUpTo_readNames d) (fun _ _ => rfl) h

end Pe.Exports

/-- Limits on symbols only cut tables short. For each of the three readers, a table that is loaded under a limit is loaded under
every lower limit, as the start of the same table, with a warning of it exactly if the table declares more than is allowed. -/
theorem cutFrom_of_limits_le {n m : UInt64} (h : n ≤ m) (options : Options) :
    (∀ (t : Elf.SectionTable) (index : Nat) (order : Endianness) (source : SymbolSource),
      Carries (fun long short => short.CutFrom .entriesTruncated (Elf.SymbolTable.declared t index) n.toNat m.toNat long)
        (Elf.SymbolTable.read t index order source { options with maxSymbolsPerTable := m }).result
        (Elf.SymbolTable.read t index order source { options with maxSymbolsPerTable := n }).result) ∧
      (∀ (v : View) (file : Pe.FileHeader) (strings : Option Pe.StringTable) (sections : Pe.SectionTable)
        (optional : Pe.OptionalHeader),
        Carries (fun long short => short.CutFrom .recordsTruncated file.symbolCount.toNat n.toNat m.toNat long)
          (Pe.CoffSymbols.read v file strings sections optional { options with maxSymbolsPerTable := m }).result
          (Pe.CoffSymbols.read v file strings sections optional { options with maxSymbolsPerTable := n }).result) ∧
      ∀ (v : View) (sections : Pe.SectionTable) (directory : Pe.DataDirectory) (optional : Pe.OptionalHeader),
        Carries
          (fun long short => short.CutFrom .exportsTruncated (Pe.Exports.declared v sections directory) n.toNat m.toNat long)
          (Pe.Exports.read v sections directory optional { options with maxExports := m }).result
          (Pe.Exports.read v sections directory optional { options with maxExports := n }).result := by
  refine ⟨fun t index order source => ?_, fun v file strings sections optional => ?_, fun v sections directory optional => ?_⟩
  · exact Elf.SymbolTable.cutFrom_read h index order
  · exact Pe.CoffSymbols.cutFrom_read h
  · exact Pe.Exports.cutFrom_read h

/-- The small image with other symbol records: a function of a section that does not exist, and one of the first section with an
auxiliary record. -/
def Pe.ImageSpec.flawed : Pe.ImageSpec :=
  let record (name : String) (sectionNumber : UInt16) (auxiliaries : UInt8) : Pe.CoffRecord :=
    { nameField := Pe.nameField name, value := 0, sectionNumber, type := 0x20, storageClass := 2, auxiliaries }
  { Pe.ImageSpec.sample with records := [record "f" 9 0, record "g" 1 1, record "" 0 0] }

/-- Limits of one and of two entries. The ELF table of two entries loses its function and gets a warning. The COFF table of three
records is cut under both limits, under the higher one between a record and its auxiliary record; under the lower one it
keeps the warning of the first record. The one export is read under both. -/
theorem cutFrom_of_limits_le_sample :
    (1 : UInt64) ≤ 2 ∧
      (∃ image long short, Elf.Image.read Elf.ImageSpec.sample.view {} = .ok image ∧
        (Elf.SymbolTable.read image.sections 2 .big .static { maxSymbolsPerTable := 2 }).result = .ok long ∧
        (Elf.SymbolTable.read image.sections 2 .big .static { maxSymbolsPerTable := 1 }).result = .ok short ∧
        (long.symbols.length, long.warnings.length) = (1, 0) ∧
        short.CutFrom .entriesTruncated (Elf.SymbolTable.declared image.sections 2) 1 2 long) ∧
      ∃ image directory long short long' short', Pe.Image.read Pe.ImageSpec.flawed.view {} = .ok image ∧
        (Pe.CoffSymbols.read image.view image.headers.file image.strings image.sections image.headers.optional
          { maxSymbolsPerTable := 2 }).result = .ok long ∧
        (Pe.CoffSymbols.read image.view image.headers.file image.strings image.sections image.headers.optional
          { maxSymbolsPerTable := 1 }).result = .ok short ∧
        (long.symbols.length, long.warnings.length) = (1, 2) ∧
        short.CutFrom .recordsTruncated image.headers.file.symbolCount.toNat 1 2 long ∧
        (Pe.Exports.read image.view image.sections directory image.headers.optional { maxExports := 2 }).result = .ok long' ∧
        (Pe.Exports.read image.view image.sections directory image.headers.optional { maxExports := 1 }).result = .ok short' ∧
        (long'.symbols.length, long'.warnings.length) = (1, 0) ∧
        short'.CutFrom .exportsTruncated (Pe.Exports.declared image.view image.sections directory) 1 2 long' := by
  have hle : (1 : UInt64) ≤ 2 := by decide
  have helf : (Elf.Image.read Elf.ImageSpec.sample.view {}).toOption.map (fun image =>
      (Elf.SymbolTable.read image.sections 2 .big .static { maxSymbolsPerTable := 2 }).result.toOption.map fun t =>
        (t.symbols.length, t.warnings.length)) = some (some (1, 0)) := by
    decide +kernel
  have hpe : (Pe.Image.read Pe.ImageSpec.flawed.view {}).toOption.map (fun image =>
      ((Pe.CoffSymbols.read image.view image.headers.file image.strings image.sections image.headers.optional
          { maxSymbolsPerTable := 2 }).result.toOption.map fun t => (t.symbols.length, t.warnings.length),
        (Pe.Exports.read image.view image.sections ⟨0x2000, 52⟩ image.headers.optional
          { maxExports := 2 }).result.toOption.map fun t => (t.symbols.length, t.warnings.length))) =
      some (some (1, 2), some (1, 0)) := by
    decide +kernel
  obtain ⟨hread, hcoff, hexports⟩ := cutFrom_of_limits_le hle {}
  obtain ⟨image, himage, hlengths⟩ := Except.exists_of_toOption_map helf
  obtain ⟨long, hlong, hlength⟩ := Except.exists_of_toOption_map hlengths
  obtain ⟨short, hshort, hcut⟩ := hread image.sections 2 .big .static long hlong
  refine ⟨hle, ⟨image, long, short, himage, hlong, hshort, hlength, hcut⟩, ?_⟩
  obtain ⟨image, himage, hlengths⟩ := Except.exists_of_toOption_map hpe
  obtain ⟨hlengths, hlengths'⟩ := Prod.mk.inj hlengths
  obtain ⟨long, hlong, hlength⟩ := Except.exists_of_toOption_map hlengths
  obtain ⟨long', hlong', hlength'⟩ := Except.exists_of_toOption_map hlengths'
  obtain ⟨short, hshort, hcut⟩ := hcoff _ _ _ _ _ long hlong
  obtain ⟨short', hshort', hcut'⟩ := hexports _ _ _ _ long' hlong'
  exact ⟨image, ⟨0x2000, 52⟩, long, short, long', short', himage, hlong, hshort, hlength, hcut, hlong', hshort', hlength',
    hcut'⟩

end ExecImage
