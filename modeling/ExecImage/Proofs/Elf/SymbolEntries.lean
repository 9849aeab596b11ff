import ExecImage.Proofs.Elf.Symbols
import ExecImage.Proofs.Elf.Writer

/-!
# The entries of an ELF symbol table

What a symbol table holds can be told from the bytes of the file. Entry `i` is in the bytes that begin `i` distances after the
start of the contents (`SymbolTable.entryIn`), and its name is in the contents of the linked section (`SymbolTable.nameIn`). The
table that a section holds is made of the entries that are kept (`SymbolTable.decoded`). The reader gives that table, unless there
is something wrong with the section as a whole (`SymbolTable.Faulty`): an entry that is counted can be read, however far apart
entries are, so none of them can fail the table (`SymbolTable.readEntries_eq`).
-/

namespace ExecImage.Elf

/-! ## The contents of a section -/

namespace SectionTable

variable {t : SectionTable} {h : SectionHeader} {v : View}

/-- The contents of a section are in the file; a section of type 8 has no bytes in the file, so none that could be outside. -/
def HasContents (t : SectionTable) (h : SectionHeader) : Prop :=
  h.type ≠ 8 → t.view.Covers h.offset.toNat h.size.toNat

instance (t : SectionTable) (h : SectionHeader) : Decidable (t.HasContents h) :=
  inferInstanceAs (Decidable (_ → _))

/-- The contents of a section are at hand if they are in the file. -/
theorem exists_contentsOf_iff : (∃ v, t.contentsOf h = .ok v) ↔ t.HasContents h := by
  unfold contentsOf HasContents
  split
  · rename_i hdata
    simp [SectionHeader.hasFileData_iff.1 hdata, View.sub_eq_ok_iff]
  · rename_i hdata
    simp [SectionHeader.hasFileData_eq_false_iff.1 (eq_false_of_ne_true hdata)]

/-- A record of the contents is a record of the file. -/
theorem extract_of_contentsOf (hv : t.contentsOf h = .ok v) {k n : Nat} (hk : v.Covers k n) :
    v.bytes.extract k (k + n) = t.view.bytes.extract (h.offset.toNat + k) (h.offset.toNat + k + n) := by
  have hsize := size_of_contentsOf hv
  unfold View.Covers at hk
  unfold contentsOf at hv
  split at hv
  · rename_i hdata
    rw [SectionHeader.contentsSize_of_hasFileData hdata] at hsize
    obtain ⟨hc, rfl⟩ := View.sub_eq_ok_iff.1 hv
    have hmin : min (h.offset.toNat + (k + n)) (h.offset.toNat + h.size.toNat) = h.offset.toNat + k + n := by omega
    rw [Array.extract_extract, hmin]
  · rename_i hdata
    -- There are no contents, so the record is empty.
    rw [SectionHeader.contentsSize_of_not_hasFileData hdata] at hsize
    obtain rfl : n = 0 := by omega
    rw [Nat.add_zero, Nat.add_zero, Array.extract_eq_empty_of_le (by omega), Array.extract_eq_empty_of_le (by omega)]

/-- A text in the contents is a text in the range of the file. -/
theorem cstring_of_contentsOf (hv : t.contentsOf h = .ok v) (start cap : Nat) :
    (v.cstring start cap).toOption = t.view.textIn? h.offset.toNat h.contentsSize start cap := by
  unfold contentsOf at hv
  split at hv
  · rename_i hdata
    rw [SectionHeader.contentsSize_of_hasFileData hdata]
    exact View.cstring_of_sub hv
  · rename_i hdata
    rw [SectionHeader.contentsSize_of_not_hasFileData hdata]
    cases hv
    rfl

theorem contents_of_header? {i : Nat} (hi : t.header? i = some h) : t.contents i = t.contentsOf h := by
  rw [contents, hi]

theorem exists_header?_iff {i : Nat} : (∃ h, t.header? i = some h) ↔ i < t.count := by
  unfold header? count
  rw [← Option.isSome_iff_exists, Option.isSome_map]
  simp

end SectionTable

namespace SymbolTable

variable {t : SectionTable} {h strings : SectionHeader} {e : NamedHeader} {order : Endianness} {options : Options}
  {source : SymbolSource}

/-! ## What is in the file -/

/-- The number of whole entries in a table: as many distances as there are in its contents. -/
def entryCount (cls : Class) (h : SectionHeader) : Nat :=
  h.contentsSize / distance cls h

/-- The entry at an index of a table. -/
def entryIn (t : SectionTable) (h : SectionHeader) (order : Endianness) (i : Nat) : SymbolEntry :=
  let start := h.offset.toNat + i * distance t.cls h
  .ofBytes ⟨t.cls, order⟩ (t.view.bytes.extract start (start + t.cls.symbolSize))

/-- The entry names a function, plain (2) or chosen when the image is started (10), and the image defines it, unless undefined
symbols are asked for. -/
def Wanted (options : Options) (entry : SymbolEntry) : Prop :=
  (entry.info % 16 = 2 ∨ entry.info % 16 = 10) ∧ (entry.sectionIndex = 0 → options.includeUndefinedSymbols = true)

instance (options : Options) (entry : SymbolEntry) : Decidable (Wanted options entry) :=
  inferInstanceAs (Decidable (_ ∧ _))

/-- The name of an entry would start beyond the contents of the section of names. -/
def IsNameOutside (strings : SectionHeader) (entry : SymbolEntry) : Prop :=
  entry.nameOffset ≠ 0 ∧ strings.contentsSize ≤ entry.nameOffset.toNat

instance (strings : SectionHeader) (entry : SymbolEntry) : Decidable (IsNameOutside strings entry) :=
  inferInstanceAs (Decidable (_ ∧ _))

/-- The name of an entry: the text at its offset of the section of names, empty if the offset is zero or outside. -/
def nameIn (t : SectionTable) (strings : SectionHeader) (entry : SymbolEntry) : String :=
  if entry.nameOffset = 0 then ""
  else (t.view.textIn? strings.offset.toNat strings.contentsSize entry.nameOffset.toNat maxNameLength).getD ""

/-- The indexes of the entries that are kept: of as many entries as are read, those that are wanted. -/
def keptIndexes (t : SectionTable) (h : SectionHeader) (order : Endianness) (options : Options) : List Nat :=
  (List.range (min (entryCount t.cls h) options.maxSymbolsPerTable.toNat)).filter fun i => Wanted options (entryIn t h order i)

/-- The symbol table that a section holds together with the section of its names. -/
def decoded (t : SectionTable) (e : NamedHeader) (strings : SectionHeader) (order : Endianness) (source : SymbolSource)
    (options : Options) : LoadedTable :=
  let entry := entryIn t e.header order
  let kept := keptIndexes t e.header order options
  let count := entryCount t.cls e.header
  let limit := options.maxSymbolsPerTable.toNat
  let truncated := if limit < count then [Notice.entriesTruncated count limit] else []
  let unnamed := (kept.filter fun i => IsNameOutside strings (entry i)).map fun i =>
    Notice.symbolName i (entry i).nameOffset.toNat
  { table := nameOf e
    symbols := kept.map fun i => .function (nameIn t strings (entry i)) (entry i).value source
    warnings := (truncated ++ unnamed).map fun n => ⟨nameOf e, n.message⟩ }

/-- What is wrong with a section that cannot be read as a symbol table. -/
inductive Faulty (t : SectionTable) (h : SectionHeader) : Prop where
  /-- It is linked to no section that can hold names. -/
  | link (hlink : h.link.toNat = 0 ∨ t.count ≤ h.link.toNat)
  /-- Its contents are not in the file. -/
  | contents (houtside : ¬t.HasContents h)
  /-- The contents of the linked section are not in the file. -/
  | strings (strings : SectionHeader) (hlink : t.header? h.link.toNat = some strings) (houtside : ¬t.HasContents strings)
  /-- The distance that it states is less than the size of an entry. -/
  | entrySize (hpos : 0 < h.entrySize.toNat) (hlt : h.entrySize.toNat < t.cls.symbolSize)

/-- There is nothing wrong with a section that is linked to another, if the contents of both are in the file and entries are far
enough apart. -/
theorem not_faulty (hlink : h.link.toNat ≠ 0) (hstrings : t.header? h.link.toNat = some strings) (hcontents : t.HasContents h)
    (hnames : t.HasContents strings) (hdistance : t.cls.symbolSize ≤ h.entrySize.toNat) : ¬Faulty t h := by
  intro hfaulty
  cases hfaulty with
  | link hnone =>
    have hcount := SectionTable.exists_header?_iff.1 ⟨strings, hstrings⟩
    omega
  | contents houtside => exact houtside hcontents
  | strings strings' hlink' houtside =>
    cases hstrings.symm.trans hlink'
    exact houtside hnames
  | entrySize hpos hlt => exact absurd hdistance (Nat.not_le.2 hlt)

/-! ## What is read -/

theorem isKept_iff {entry : SymbolEntry} : entry.isKept options = true ↔ Wanted options entry := by
  unfold SymbolEntry.isKept SymbolEntry.isFunction SymbolEntry.isUndefined Wanted
  rw [SymbolEntry.type_eq]
  by_cases h0 : entry.sectionIndex = 0 <;> simp [h0]

/-- A kept entry contributes the function under its name, and a notice if the name is outside the strings. -/
theorem keep_eq {v : View} (hv : t.contentsOf strings = .ok v) (i : Nat) (entry : SymbolEntry) :
    keep v source i entry =
      { symbol := some (.function (nameIn t strings entry) entry.value source)
        notice := if IsNameOutside strings entry then some (.symbolName i entry.nameOffset.toNat) else none } := by
  have hname := SectionTable.cstring_of_contentsOf hv entry.nameOffset.toNat maxNameLength
  unfold keep nameIn
  by_cases h0 : entry.nameOffset = 0
  · have hinside : ¬IsNameOutside strings entry := fun hout => hout.1 h0
    rw [if_pos h0, if_pos h0, if_neg hinside]
  · rw [if_neg h0, if_neg h0, ← hname]
    unfold View.textIn? at hname
    by_cases hlt : entry.nameOffset.toNat < strings.contentsSize
    · have hinside : ¬IsNameOutside strings entry := fun hout => Nat.not_le.2 hlt hout.2
      rw [if_pos hlt] at hname
      rw [if_neg hinside]
      cases hc : v.cstring entry.nameOffset.toNat maxNameLength with
      | error error => simp [hc, Except.toOption] at hname
      | ok name => rfl
    · have houtside : IsNameOutside strings entry := ⟨h0, Nat.not_lt.1 hlt⟩
      rw [if_neg hlt] at hname
      rw [if_pos houtside]
      cases hc : v.cstring entry.nameOffset.toNat maxNameLength with
      | error error => rfl
      | ok name => simp [hc, Except.toOption] at hname

/-- What the entry at an index of a table contributes. -/
def contributionAt (t : SectionTable) (h strings : SectionHeader) (order : Endianness) (source : SymbolSource)
    (options : Options) (i : Nat) : TableEntry :=
  let entry := entryIn t h order i
  if decide (Wanted options entry) then
    { symbol := some (.function (nameIn t strings entry) entry.value source)
      notice := if IsNameOutside strings entry then some (.symbolName i entry.nameOffset.toNat) else none }
  else {}

theorem trailing_contributionAt {i : Nat} : (contributionAt t h strings order source options i).trailing = 0 := by
  unfold contributionAt
  dsimp only
  split <;> rfl

/-- An entry that is counted is read as it is in the file. -/
theorem entryAt_eq {entries names : View} (hentries : t.contentsOf h = .ok entries) (hnames : t.contentsOf strings = .ok names)
    (hdistance : t.cls.symbolSize ≤ distance t.cls h) {i : Nat} (hi : i < entryCount t.cls h) :
    entryAt entries names ⟨t.cls, order⟩ (distance t.cls h) source options i =
      .ok (contributionAt t h strings order source options i) := by
  rw [entryCount, ← SectionTable.size_of_contentsOf hentries] at hi
  have hcovers := covers_entry hdistance hi
  have hread : SymbolEntry.read entries (i * distance t.cls h) ⟨t.cls, order⟩ = .ok (entryIn t h order i) := by
    rw [SymbolEntry.read_of_covers hcovers, SectionTable.extract_of_contentsOf hentries hcovers]
    rfl
  refine Except.bind_eq_ok_iff.2 ⟨_, hread, ?_⟩
  unfold contributionAt
  rw [keep_eq hnames]
  simp only [decide_eq_true_eq, isKept_iff]
  rfl

/-- The entries of a table that are counted can all be read, and give what is in the file. -/
theorem readEntries_eq (order : Endianness) (source : SymbolSource) (options : Options) {entries names : View}
    (hentries : t.contentsOf h = .ok entries) (hnames : t.contentsOf strings = .ok names)
    (hdistance : t.cls.symbolSize ≤ distance t.cls h) {n : Nat} (hn : n ≤ entryCount t.cls h) :
    readEntries (entryAt entries names ⟨t.cls, order⟩ (distance t.cls h) source options) n =
      .ofEntries ((List.range n).map (contributionAt t h strings order source options)) := by
  have hlength : ((List.range n).map (contributionAt t h strings order source options)).length = n := by simp
  conv_lhs => rw [← hlength]
  refine readEntries_eq_ofEntries (fun i entry hi => ?_) fun entry he => ?_
  · obtain ⟨j, hj, rfl⟩ := Option.map_eq_some_iff.1 (List.getElem?_map .. ▸ hi)
    obtain ⟨hlt, rfl⟩ := List.getElem?_eq_some_iff.1 hj
    rw [List.length_range] at hlt
    rw [List.getElem_range]
    exact entryAt_eq hentries hnames hdistance (by omega)
  · obtain ⟨i, -, rfl⟩ := List.mem_map.1 he
    exact trailing_contributionAt

/-- A table whose parts are at hand is read as the one in the file. -/
theorem result_of_parts {entries names : View} {size : Nat} (hp : parts t e.header = .ok (entries, names, size))
    (hstrings : t.header? e.header.link.toNat = some strings) :
    (readEntry t e order source options).result = .ok (decoded t e strings order source options) := by
  obtain ⟨-, hentries, hnames, hsize⟩ := parts_eq_ok_iff.1 hp
  obtain ⟨hdistance, rfl⟩ := entrySize_eq_ok_iff.1 hsize
  rw [SectionTable.contents_of_header? hstrings] at hnames
  have hcount : entries.size / distance t.cls e.header = entryCount t.cls e.header := by
    rw [entryCount, SectionTable.size_of_contentsOf hentries]
  have hread := readEntries_eq order source options hentries hnames hdistance
    (Nat.min_le_left (entryCount t.cls e.header) options.maxSymbolsPerTable.toNat)
  unfold contributionAt at hread
  rw [Reading.ofEntries_kept] at hread
  -- The notices of names are those of the kept entries whose names are outside.
  have hunnamed (kept : List Nat) (p : Nat → Prop) [DecidablePred p] (notice : Nat → Notice) :
      kept.filterMap (fun i => if p i then some (notice i) else none) = (kept.filter p).map notice := by
    rw [← List.filterMap_eq_filter, List.map_filterMap]
    simp [Option.guard]
  unfold readEntry
  simp only [hp, hcount, hread, hunnamed]
  unfold TableReading.result TableReading.warnings decoded keptIndexes
  dsimp only [Reading.noting]
  by_cases hlimit : options.maxSymbolsPerTable.toNat < entryCount t.cls e.header
  · rw [if_pos hlimit, if_pos hlimit]
    rfl
  · rw [if_neg hlimit, if_neg hlimit]
    rfl

/-- The parts of a table are at hand unless there is something wrong with the section. -/
theorem exists_parts_iff : (∃ p, parts t h = .ok p) ↔ ¬Faulty t h := by
  constructor
  · rintro ⟨⟨entries, names, size⟩, hp⟩ hfaulty
    obtain ⟨⟨hpos, hlt⟩, hentries, hnames, hsize⟩ := parts_eq_ok_iff.1 hp
    cases hfaulty with
    | link hlink => omega
    | contents houtside => exact houtside (SectionTable.exists_contentsOf_iff.1 ⟨_, hentries⟩)
    | strings strings hlink houtside =>
      rw [SectionTable.contents_of_header? hlink] at hnames
      exact houtside (SectionTable.exists_contentsOf_iff.1 ⟨_, hnames⟩)
    | entrySize hpos' hlt' =>
      have hstated : h.entrySize ≠ 0 := fun h0 => by simp [h0] at hpos'
      obtain ⟨hle, -⟩ := entrySize_eq_ok_iff.1 hsize
      rw [distance, if_neg hstated] at hle
      omega
  · intro hsound
    have hlink : h.link.toNat ≠ 0 ∧ h.link.toNat < t.count := by
      by_contra hlink
      exact hsound (.link (by omega))
    obtain ⟨strings, hstrings⟩ := SectionTable.exists_header?_iff.2 hlink.2
    obtain ⟨entries, hentries⟩ := SectionTable.exists_contentsOf_iff.2 (by_contra fun hout => hsound (.contents hout))
    obtain ⟨names, hnames⟩ :=
      SectionTable.exists_contentsOf_iff.2 (by_contra fun hout => hsound (.strings strings hstrings hout))
    have hdistance : t.cls.symbolSize ≤ distance t.cls h := by
      unfold distance
      split
      · exact Nat.le_refl _
      · rename_i hstated
        by_contra hlt
        have hpos : h.entrySize.toNat ≠ 0 := fun h0 => hstated (UInt64.toNat_inj.1 h0)
        exact hsound (.entrySize (by omega) (by omega))
    rw [← SectionTable.contents_of_header? hstrings] at hnames
    exact ⟨_, parts_eq_ok_iff.2 ⟨hlink, hentries, hnames, entrySize_eq_ok_iff.2 ⟨hdistance, rfl⟩⟩⟩

/-- A section with something wrong is not read at all, and any other gives the table that it holds. -/
theorem readEntry_cases (t : SectionTable) (e : NamedHeader) (order : Endianness) (source : SymbolSource) (options : Options) :
    (Faulty t e.header ∧ ∃ fault,
      readEntry t e order source options = ⟨nameOf e, .failed (.symbolTable (nameOf e) fault)⟩) ∨
    (¬Faulty t e.header ∧ ∃ strings, t.header? e.header.link.toNat = some strings ∧
      (readEntry t e order source options).result = .ok (decoded t e strings order source options)) := by
  cases hp : parts t e.header with
  | error fault =>
    refine .inl ⟨?_, fault, by simp only [readEntry, hp]⟩
    by_contra hsound
    obtain ⟨p, hok⟩ := exists_parts_iff.2 hsound
    rw [hp] at hok
    nomatch hok
  | ok p =>
    obtain ⟨⟨-, hlt⟩, -⟩ := parts_eq_ok_iff.1 hp
    obtain ⟨strings, hstrings⟩ := SectionTable.exists_header?_iff.2 hlt
    exact .inr ⟨exists_parts_iff.1 ⟨p, hp⟩, strings, hstrings, result_of_parts hp hstrings⟩

/-- Reading a section as a symbol table gives the table that it holds with the section of its names, or an error; an error if
and only if there is no such section or something is wrong with it. The error is then a fault under the name of the table, and
nothing was read. -/
theorem read_decoded (t : SectionTable) (index : Nat) (order : Endianness) (source : SymbolSource) (options : Options) :
    (∀ table, (read t index order source options).result = .ok table →
      ∃ e strings, t.entries[index]? = some e ∧ t.header? e.header.link.toNat = some strings ∧
        table = decoded t e strings order source options) ∧
    ((∃ error, (read t index order source options).result = .error error) ↔
      t.count ≤ index ∨ ∃ e, t.entries[index]? = some e ∧ Faulty t e.header) ∧
    ∀ error, (read t index order source options).result = .error error →
      (∃ fault, error = .symbolTable (read t index order source options).table fault) ∧
        (read t index order source options).reading.symbols = [] ∧ (read t index order source options).reading.notices = [] := by
  unfold read
  cases he : t.entries[index]? with
  | none =>
    have hindex : t.count ≤ index := List.getElem?_eq_none_iff.1 he
    refine ⟨fun table h => (nomatch h), ⟨fun _ => .inl hindex, fun _ => ⟨_, rfl⟩⟩, fun error h => ?_⟩
    cases h
    exact ⟨⟨_, rfl⟩, rfl, rfl⟩
  | some e =>
    have hindex : ¬t.count ≤ index := Nat.not_le.2 (List.getElem?_eq_some_iff.1 he).1
    dsimp only
    rcases readEntry_cases t e order source options with ⟨hfaulty, fault, hread⟩ | ⟨hsound, strings, hstrings, hresult⟩
    · rw [hread]
      refine ⟨fun table h => (nomatch h), ⟨fun _ => .inr ⟨e, rfl, hfaulty⟩, fun _ => ⟨_, rfl⟩⟩, fun error h => ?_⟩
      cases h
      exact ⟨⟨_, rfl⟩, rfl, rfl⟩
    · rw [hresult]
      refine ⟨fun table h => ?_, ⟨fun ⟨error, h⟩ => (nomatch h), ?_⟩, fun error h => (nomatch h)⟩
      · cases h
        exact ⟨e, strings, rfl, hstrings, rfl⟩
      · rintro (hout | ⟨e', he', hfaulty⟩)
        · exact absurd hout hindex
        · cases he'
          exact absurd hfaulty hsound

/-- A table of four whole entries and a part of one, further apart than they are long, in a section without a name. The first
and the second entry are functions, the name of the second is outside the section of names, and the third is not defined. The last
section is linked to the same names and has no bytes in the file. -/
def spacedTable : SectionTable :=
  let ident : Ident := ⟨.elf32, .big⟩
  let function (nameOffset : UInt32) (value : UInt64) (sectionIndex : UInt16) : SymbolEntry :=
    { nameOffset, value, size := 0, info := 0x12, other := 0, sectionIndex }
  let entries := [function 1 0x1000 1, function 99 0x2000 1, function 1 0 0, function 1 0x3000 1, function 1 0x4000 1]
  let bytes := entries.flatMap fun entry => entry.write ident ++ [0xAA, 0xAA, 0xAA]
  let symbols : SectionHeader := { (default : SectionHeader) with type := 2, offset := 3, size := 90, link := 2, entrySize := 19 }
  let strings : SectionHeader := { (default : SectionHeader) with type := 3, size := 3 }
  let absent : SectionHeader := { symbols with type := 8, offset := 0x1000 }
  { view := ⟨(stringTable ["f"] ++ bytes).toArray⟩
    cls := .elf32
    entries := [⟨default, ""⟩, ⟨symbols, ""⟩, ⟨strings, ".strtab"⟩, ⟨absent, ".absent"⟩] }

/-- Three entries of the table are read, of which two are kept. A section without bytes in the file is a table without entries, and
the section of names is no symbol table. -/
theorem read_decoded_spaced :
    let options : Options := { maxSymbolsPerTable := 3, includeUndefinedSymbols := false }
    (∃ table, (read spacedTable 1 .big .static options).result = .ok table ∧ table.table = ".symtab" ∧
      table.symbols = [.function "f" 0x1000 .static, .function "" 0x2000 .static] ∧
      table.warnings = [⟨".symtab", "4 entries truncated to 3"⟩,
        ⟨".symtab", "symbol 1: name offset 0x63 outside string table"⟩]) ∧
    (∃ table, (read spacedTable 3 .big .static options).result = .ok table ∧ table = { table := ".absent" }) ∧
    ∃ error, (read spacedTable 2 .big .static options).result = .error error := by
  intro options
  have hread (i : Nat) (e : NamedHeader) (he : spacedTable.entries[i]? = some e) (hsound : ¬Faulty spacedTable e.header) :
      ∃ strings, spacedTable.header? e.header.link.toNat = some strings ∧
        (read spacedTable i .big .static options).result = .ok (decoded spacedTable e strings .big .static options) := by
    obtain ⟨hdecoded, herror, -⟩ := read_decoded spacedTable i .big .static options
    cases hresult : (read spacedTable i .big .static options).result with
    | error error =>
      rcases herror.1 ⟨error, hresult⟩ with hindex | ⟨e', he', hfaulty⟩
      · nomatch he.symm.trans (List.getElem?_eq_none hindex)
      · cases he.symm.trans he'
        exact absurd hfaulty hsound
    | ok table =>
      obtain ⟨e', strings, he', hstrings, rfl⟩ := hdecoded table hresult
      cases he.symm.trans he'
      exact ⟨strings, hstrings, rfl⟩
  obtain ⟨-, hfaulty, -⟩ := read_decoded spacedTable 2 .big .static options
  refine ⟨?_, ?_, hfaulty.2 (.inr ⟨_, rfl, .link (.inl rfl)⟩)⟩
  · obtain ⟨strings, hstrings, hresult⟩ := hread 1 _ rfl
      (not_faulty (by decide) rfl (by decide +kernel) (by decide +kernel) (by decide))
    cases hstrings
    exact ⟨_, hresult, rfl, by decide +kernel, by decide +kernel⟩
  · obtain ⟨strings, hstrings, hresult⟩ := hread 3 _ rfl
      (not_faulty (by decide) rfl (fun htype => absurd rfl htype) (by decide +kernel) (by decide))
    cases hstrings
    exact ⟨_, hresult, by decide +kernel⟩

end SymbolTable

end ExecImage.Elf
