import ExecImage.Proofs.Elf.Symbols
import ExecImage.Proofs.Elf.WrittenImage
import ExecImage.Proofs.Stages

/-!
# An ELF image that was written is loaded as it was given

For every class, byte order, list of sections and list of symbols whose fields fit (`ImageSpec.Fits`) and that is
within the limits of a load (`ImageSpec.WithinLimits`), the load of the written image gives back the sections of code
and data and the functions (`ImageSpec.LoadedAs`). The proof follows the load: the sections, the symbol tables, the
binary.
-/

namespace ExecImage.Elf

open Except (bind_eq_ok_iff)

/-! ## What is to be loaded -/

/-- A loaded section is the one that was written. -/
structure SectionSpec.LoadedAs (source : String) (spec : SectionSpec) (s : Section) : Prop where
  binary : s.binary = source
  name : s.name = if spec.name = "" then "<unnamed>" else spec.name
  kind : spec.kind? = some s.kind
  vma : s.vma = spec.addr
  size : s.size.toNat = spec.size
  flags : s.flags = spec.flags
  bytes : s.bytes = spec.fileBytes.toArray

namespace SymbolSpec

/-- The symbol names a function, plain (2) or chosen when the image is started (10). -/
def isFunction (s : SymbolSpec) : Bool :=
  s.info % 16 == 2 || s.info % 16 == 10

/-- The symbol is a function that is to be loaded. -/
def isKept (options : Options) (s : SymbolSpec) : Bool :=
  s.isFunction && (options.includeUndefinedSymbols || s.sectionIndex != 0)

/-- The functions of a table that are to be loaded. -/
def functions (options : Options) (source : SymbolSource) (symbols : List SymbolSpec) : List Symbol :=
  (symbols.filter (isKept options)).map fun s => .function s.name s.value source

end SymbolSpec

/-- A loaded binary is the image that was written. -/
structure ImageSpec.LoadedAs (spec : ImageSpec) (label : String) (options : Options) (b : Binary) : Prop where
  source : b.source = label
  format : b.format = .elf
  bits : b.bits = match spec.ident.cls with
    | .elf32 => 32
    | .elf64 => 64
  endianness : b.endianness = spec.ident.order
  entry : b.entry = spec.entry
  sections : List.Forall₂ (SectionSpec.LoadedAs label) (spec.sections.filter fun s => s.kind?.isSome) b.sections
  symbols : b.symbols = SymbolSpec.functions options .static (spec.symtab.getD []) ++
    SymbolSpec.functions options .dynamic (spec.dynsym.getD [])
  warnings : b.warnings = []

/-! ## The sections -/

namespace ImageSpec

variable {spec : ImageSpec} {source : String} {options : Options}

/-- A section of a written image is of a part: its header tells where the part is, and it has the part's name. -/
structure IsEntry (spec : ImageSpec) (p : Part) (e : NamedHeader) : Prop where
  written : Part.Written spec.view spec.namesView spec.ident.cls p e.header
  name : e.name = p.name

/-- The sections of a written image, each with its part, after the section that is none. -/
theorem exists_entries (hf : spec.Fits) :
    ∃ es, spec.table.entries = ⟨nullHeader, ""⟩ :: es ∧ List.Forall₂ spec.IsEntry spec.parts es := by
  have hnull : SectionTable.nameAt (some spec.namesView) nullHeader.nameOffset = "" := by
    have hempty : spec.namesView.cstring 0 SectionTable.maxNameLength = .ok "" :=
      View.Holds.cstring (s := "") (holds_stringTable _).1 (by decide) (by decide)
    simp only [SectionTable.nameAt, nullHeader, UInt32.toNat_zero, hempty]
  refine ⟨spec.headers.map fun h => ⟨h, SectionTable.nameAt (some spec.namesView) h.nameOffset⟩, ?_, ?_⟩
  · rw [table, allHeaders, List.map_cons, hnull]
  · rw [List.forall₂_map_right_iff]
    exact (forall₂_headers hf).imp fun p h hw => ⟨hw, hw.name⟩

theorem kind?_of_flags {h : SectionHeader} {s : SectionSpec} (hs : h.flags = s.flags) : h.kind? = s.kind? := by
  unfold SectionHeader.kind? SectionSpec.kind? SectionKind.classify SectionHeader.isExecutable SectionHeader.isWritable
  simp only [hs, bne_iff_ne]

/-- A section of code or data is loaded as it was written. -/
theorem exists_loadEntry {p : Part} {e : NamedHeader} (he : spec.IsEntry p e) (hp : p.toSectionSpec.Fits spec.ident.cls)
    (hk : p.kind? ≠ none) (hlimit : p.fileBytes.length ≤ options.maxSectionBytes.toNat) :
    ∃ s, spec.table.loadEntry source options e = .ok (some s) ∧ p.toSectionSpec.LoadedAs source s := by
  obtain ⟨hw, hname⟩ := he
  obtain ⟨kind, hkind⟩ := Option.ne_none_iff_exists'.1 hk
  have hkind' : e.header.kind? = some kind := (kind?_of_flags hw.flags).trans hkind
  have hrange : spec.table.cls.width.Fits e.header.addr.toNat e.header.size.toNat := by
    rw [hw.addr, hw.size]
    exact hp.range hk
  have hcopy : spec.table.copy (Section.displayName e.name) e.header options = .ok p.fileBytes.toArray := by
    refine SectionTable.copy_eq_ok_iff.2 ?_
    unfold SectionHeader.hasFileData SectionSpec.fileBytes
    rw [hw.type]
    by_cases htype : p.type = SectionHeader.typeNobits
    · exact .inl ⟨by simp [htype], by rw [if_pos htype]⟩
    · have hnone : p.declaredSize = none := by
        by_contra hd
        exact htype (hp.declared hd)
      have hsize : p.size = p.data.length := by
        unfold SectionSpec.size
        rw [hnone]
      rw [SectionSpec.fileBytes, if_neg htype] at hlimit
      refine .inr ⟨by simpa using htype, ?_, ?_⟩
      · rw [hw.size, hsize]
        exact hlimit
      · rw [if_neg htype]
        exact hw.slice htype hsize
  refine ⟨_, SectionTable.loadEntry_eq_some_iff.2 ⟨kind, _, hkind', hrange, hcopy, rfl⟩, ?_⟩
  have hdisplay : Section.displayName e.name = if p.name = "" then "<unnamed>" else p.name := by
    rw [← hname]
    rfl
  exact {
    binary := rfl, name := hdisplay, kind := hkind, vma := hw.addr, size := hw.size, flags := hw.flags, bytes := rfl }

theorem flags_of_mem_tableParts {name stringsName : String} {type : UInt32} {flags : UInt64} {before : Nat}
    {symbols : Option (List SymbolSpec)} {p : Part} (hp : p ∈ spec.tableParts name stringsName type flags before symbols) :
    p.flags = flags := by
  cases symbols with
  | none => nomatch hp
  | some symbols =>
    simp only [tableParts, List.mem_cons, List.not_mem_nil, or_false] at hp
    rcases hp with rfl | rfl <;> rfl

/-- The parts after the sections given. -/
def laterParts (spec : ImageSpec) : List Part :=
  spec.staticParts ++ spec.dynamicParts ++ [stringsPart SectionTable.namesName 0 spec.sectionNames]

theorem parts_eq (spec : ImageSpec) : spec.parts = spec.sections.map SectionSpec.part ++ spec.laterParts := by
  simp only [parts, bodyParts, laterParts, List.append_assoc]

/-- The parts after the sections given are neither code nor data. -/
theorem kind?_of_mem_laterParts {p : Part} (hp : p ∈ spec.laterParts) : p.kind? = none := by
  have hflags : p.flags = 0 ∨ p.flags = 2 := by
    simp only [laterParts, List.mem_append, List.mem_singleton] at hp
    rcases hp with (hp | hp) | rfl
    · exact .inl (flags_of_mem_tableParts hp)
    · exact .inr (flags_of_mem_tableParts hp)
    · exact .inl rfl
  unfold SectionSpec.kind?
  rcases hflags with h | h <;> rw [h] <;> decide

/-- An entry is passed over if its part is neither code nor data, and otherwise becomes the section that was written. -/
structure Becomes (t : SectionTable) (source : String) (options : Options) (p : Part) (e : NamedHeader) : Prop where
  passed : p.kind? = none → t.loadEntry source options e = .ok none
  loaded : p.kind? ≠ none → ∃ s, t.loadEntry source options e = .ok (some s) ∧ p.toSectionSpec.LoadedAs source s

/-- Entries that become what their parts say make up the load of all of them. -/
theorem exists_loaded {t : SectionTable} {parts : List Part} {es : List NamedHeader}
    (h : List.Forall₂ (Becomes t source options) parts es) :
    ∃ loaded, List.Forall₂ (fun e o => t.loadEntry source options e = .ok o) es loaded ∧
      List.Forall₂ (fun (p : Part) s => p.toSectionSpec.LoadedAs source s) (parts.filter fun p => p.kind?.isSome)
        (loaded.filterMap id) := by
  induction h with
  | nil => exact ⟨[], .nil, .nil⟩
  | @cons p e ps es hpe _ ih =>
    obtain ⟨loaded, hloaded, hsections⟩ := ih
    cases hk : p.kind? with
    | none =>
      refine ⟨none :: loaded, .cons (hpe.passed hk) hloaded, ?_⟩
      rw [List.filter_cons_of_neg (by simp [hk])]
      exact hsections
    | some kind =>
      obtain ⟨s, hs, hl⟩ := hpe.loaded (by simp [hk])
      refine ⟨some s :: loaded, .cons hs hloaded, ?_⟩
      rw [List.filter_cons_of_pos (by simp [hk])]
      exact .cons hl hsections

/-- The sections of code and data of a written image are loaded. -/
theorem exists_load (source : String) (hf : spec.Fits) (hl : spec.WithinLimits options) : ∃ sections,
    spec.table.load source options = .ok sections ∧
      List.Forall₂ (SectionSpec.LoadedAs source) (spec.sections.filter fun s => s.kind?.isSome) sections := by
  obtain ⟨es, hentries, hes⟩ := exists_entries hf
  have hstep : List.Forall₂ (Becomes spec.table source options) spec.parts es := by
    refine List.forall₂_iff_zip.2 ⟨hes.length_eq, fun {p e} hpe => ?_⟩
    have he := (List.forall₂_iff_zip.1 hes).2 hpe
    refine ⟨fun hk => SectionTable.loadEntry_eq_none_iff.2 ((kind?_of_flags he.written.flags).trans hk), fun hk => ?_⟩
    have hp : p ∈ spec.parts := (List.of_mem_zip hpe).1
    rw [parts_eq, List.mem_append, List.mem_map] at hp
    rcases hp with ⟨s, hs, rfl⟩ | hp
    · exact exists_loadEntry he (hf.sections s hs) hk (hl.sections s hs hk)
    · exact absurd (kind?_of_mem_laterParts hp) hk
  obtain ⟨loaded, hloaded, hsections⟩ := exists_loaded hstep
  refine ⟨loaded.filterMap id, ?_, ?_⟩
  · refine SectionTable.load_eq_ok_iff.2 ⟨none :: loaded, ?_, rfl⟩
    rw [hentries]
    exact .cons (SectionTable.loadEntry_eq_none_iff.2 (by decide)) hloaded
  · have hlater : spec.laterParts.filter (fun p => p.kind?.isSome) = [] := by
      rw [List.filter_eq_nil_iff]
      intro p hp
      simp [kind?_of_mem_laterParts hp]
    rw [parts_eq, List.filter_append, hlater, List.append_nil, List.filter_map, List.forall₂_map_left_iff] at hsections
    exact hsections

end ImageSpec

/-! ## The symbols of a table -/

namespace SymbolSpec

variable {options : Options} {source : SymbolSource}

/-- The entry of a symbol is kept if the symbol is. -/
theorem isKept_entry (s : SymbolSpec) (nameOffset : UInt32) : (s.entry nameOffset).isKept options = s.isKept options := by
  simp only [SymbolEntry.isKept, SymbolEntry.isFunction, SymbolEntry.type_eq, SymbolEntry.isUndefined, isKept, isFunction, entry,
    bne]

/-- What the entry of a symbol contributes. -/
def contribution (options : Options) (source : SymbolSource) (s : SymbolSpec) : TableEntry :=
  if s.isKept options then { symbol := some (.function s.name s.value source) } else {}

/-- The entries of a table contribute the functions that are to be loaded, and nothing else. -/
theorem ofEntries_contribution (symbols : List SymbolSpec) :
    Reading.ofEntries ({} :: symbols.map (contribution options source)) = { symbols := functions options source symbols } := by
  -- The first entry contributes nothing.
  have hrest := Reading.ofEntries_kept symbols (isKept options) (fun s => .function s.name s.value source) fun _ => none
  rw [List.filterMap_none] at hrest
  exact hrest

theorem trailing_contribution {symbols : List SymbolSpec} {e : TableEntry}
    (he : e ∈ ({} :: symbols.map (contribution options source) : List TableEntry)) : e.trailing = 0 := by
  rcases List.mem_cons.1 he with rfl | he
  · rfl
  · obtain ⟨s, -, rfl⟩ := List.mem_map.1 he
    unfold contribution
    split <;> rfl

end SymbolSpec

namespace ImageSpec

variable {spec : ImageSpec} {source : SymbolSource} {options : Options} {symbols : List SymbolSpec}

/-- The entry at an index of a written table contributes what its symbol does, and the first entry nothing. -/
theorem entryAt_eq_ok (source : SymbolSource) (options : Options) (hs : ∀ s ∈ symbols, s.Fits spec.ident.cls)
    (ho : OffsetsFit 1 (symbols.map SymbolSpec.name)) {i : Nat} {e : TableEntry}
    (hi : ({} :: symbols.map (SymbolSpec.contribution options source))[i]? = some e) :
    SymbolTable.entryAt ⟨(spec.symbolBytes symbols).toArray⟩ ⟨(SymbolSpec.strings symbols).toArray⟩ spec.ident
      spec.ident.cls.symbolSize source options i = .ok e := by
  have hentries := SymbolSpec.forall₂_entriesFrom source hs (holds_stringTable _).1 (holds_stringTable _).2 (by decide) ho
  have hread {j : Nat} {entry : SymbolEntry} (hj : (SymbolSpec.entries symbols)[j]? = some entry)
      (hf : entry.Fits spec.ident.cls) :
      SymbolEntry.read ⟨(spec.symbolBytes symbols).toArray⟩ (j * spec.ident.cls.symbolSize) spec.ident = .ok entry := by
    have := (View.holds_self (spec.symbolBytes symbols)).getElem_of_length (fun e _ => SymbolEntry.length_write spec.ident e) hj
    rw [Nat.zero_add] at this
    exact SymbolEntry.read_of_holds this hf
  unfold SymbolTable.entryAt
  cases i with
  | zero =>
    cases hi
    exact bind_eq_ok_iff.2 ⟨_, hread (j := 0) rfl ⟨Class.fits_zero, Class.fits_zero⟩, rfl⟩
  | succ i =>
    rw [List.getElem?_cons_succ, List.getElem?_map, Option.map_eq_some_iff] at hi
    obtain ⟨s, hi, rfl⟩ := hi
    obtain ⟨entry, hentry, hf, ⟨nameOffset, rfl⟩, hkeep⟩ := hentries.getElem?_left hi
    refine bind_eq_ok_iff.2 ⟨_, hread (j := i + 1) hentry hf, ?_⟩
    rw [SymbolSpec.isKept_entry, SymbolSpec.strings, hkeep]
    rfl

/-- The contents of a part that is wholly in the file are found through its header. -/
theorem contentsOf_eq_ok {p : Part} {h : SectionHeader} (hw : Part.Written spec.view spec.namesView spec.ident.cls p h)
    (htype : p.type ≠ SectionHeader.typeNobits) (hsize : p.size = p.data.length) :
    spec.table.contentsOf h = .ok ⟨p.data.toArray⟩ := by
  unfold SectionTable.contentsOf SectionHeader.hasFileData
  rw [hw.type, if_pos (by simpa using htype)]
  exact Except.map_eq_ok_iff.2 ⟨_, hw.slice htype hsize, rfl⟩

/-- The parts of a written table are found: the entries through the header, the strings through its link. -/
theorem parts_eq_ok (hf : spec.Fits) {name stringsName : String} {type : UInt32} {flags : UInt64} {before : Nat} {e : NamedHeader}
    (hw : Part.Written spec.view spec.namesView spec.ident.cls (spec.tablePart name type flags before symbols) e.header)
    (htype : type ≠ SectionHeader.typeNobits)
    (hstrings : spec.parts[before + 1]? = some (stringsPart stringsName flags (SymbolSpec.strings symbols))) :
    SymbolTable.parts spec.table e.header =
      .ok (⟨(spec.symbolBytes symbols).toArray⟩, ⟨(SymbolSpec.strings symbols).toArray⟩, spec.ident.cls.symbolSize) := by
  obtain ⟨es, hentries, hes⟩ := exists_entries hf
  obtain ⟨e', he', hw', -⟩ := hes.getElem?_left hstrings
  have hlink : e.header.link.toNat = before + 2 := hw.link
  have hlength : before + 1 < spec.parts.length := (List.getElem?_eq_some_iff.1 hstrings).1
  have hheader : spec.table.header? (before + 2) = some e'.header := by
    rw [SectionTable.header?, hentries, List.getElem?_cons_succ, he']
    rfl
  refine SymbolTable.parts_eq_ok_iff.2 ⟨⟨by omega, ?_⟩, contentsOf_eq_ok hw htype rfl, ?_, ?_⟩
  · rw [hlink, SectionTable.count, hentries, List.length_cons, ← hes.length_eq]
    omega
  · rw [hlink, SectionTable.contents, hheader]
    exact contentsOf_eq_ok hw' (show SectionHeader.typeStrtab ≠ SectionHeader.typeNobits by decide) rfl
  · have hsize : e.header.entrySize.toNat = spec.ident.cls.symbolSize := hw.entrySize
    have hpos := spec.ident.cls.symbolSize_pos
    have hne : e.header.entrySize ≠ 0 := by
      intro h0
      rw [h0, UInt64.toNat_zero] at hsize
      omega
    have hdistance : SymbolTable.distance spec.table.cls e.header = spec.ident.cls.symbolSize := by
      rw [SymbolTable.distance, if_neg hne, hsize]
    exact SymbolTable.entrySize_eq_ok_iff.2 ⟨Nat.le_of_eq hdistance.symm, hdistance.symm⟩

theorem nameOf_eq {name : String} {type : UInt32} {flags : UInt64} {before : Nat} {e : NamedHeader}
    (he : spec.IsEntry (spec.tablePart name type flags before symbols) e) (hne : name ≠ "") : SymbolTable.nameOf e = name := by
  rw [SymbolTable.nameOf, he.name, tablePart, if_neg hne]

/-- A written table of symbols is read to its end. -/
theorem readEntry_eq (hf : spec.Fits) (hsymbols : symbols ∈ spec.tables) {name stringsName : String} {type : UInt32}
    {flags : UInt64} {before : Nat} {e : NamedHeader} (he : spec.IsEntry (spec.tablePart name type flags before symbols) e)
    (hne : name ≠ "") (htype : type ≠ SectionHeader.typeNobits)
    (hstrings : spec.parts[before + 1]? = some (stringsPart stringsName flags (SymbolSpec.strings symbols)))
    (hlimit : symbols.length + 1 ≤ options.maxSymbolsPerTable.toNat) :
    SymbolTable.readEntry spec.table e spec.ident.order source options =
      ⟨name, { symbols := SymbolSpec.functions options source symbols }⟩ := by
  have hnameOf : SymbolTable.nameOf e = name := nameOf_eq he hne
  have hpos := spec.ident.cls.symbolSize_pos
  have hcount : View.size ⟨(spec.symbolBytes symbols).toArray⟩ / spec.ident.cls.symbolSize =
      ({} :: symbols.map (SymbolSpec.contribution options source) : List TableEntry).length := by
    have hlength : (SymbolSpec.entriesFrom 1 symbols).length = symbols.length :=
      (SymbolSpec.forall₂_entriesFrom source (hf.symbols _ hsymbols) (holds_stringTable _).1 (holds_stringTable _).2 (by decide)
        (hf.nameOffsets _ hsymbols)).length_eq.symm
    rw [View.size, List.size_toArray, symbolBytes, length_flatMap_of_length fun e _ => SymbolEntry.length_write spec.ident e,
      Nat.mul_div_cancel _ hpos, SymbolSpec.entries, List.length_cons, List.length_cons, List.length_map, hlength]
  have hread := readEntries_eq_ofEntries
    (fun i entry hi => entryAt_eq_ok source options (hf.symbols _ hsymbols) (hf.nameOffsets _ hsymbols) hi)
    (fun entry he => SymbolSpec.trailing_contribution he)
  unfold SymbolTable.readEntry
  simp only [hnameOf, parts_eq_ok hf he.written htype hstrings, hcount]
  have hle : ({} :: symbols.map (SymbolSpec.contribution options source) : List TableEntry).length ≤
      options.maxSymbolsPerTable.toNat := by
    rw [List.length_cons, List.length_map]
    exact hlimit
  rw [if_neg (Nat.not_lt.2 hle), Nat.min_eq_left hle]
  refine congrArg _ ?_
  refine (congrArg _ hread).trans ?_
  rw [SymbolSpec.ofEntries_contribution]
  rfl

/-! ## The symbol tables -/

/-- The image as its headers are read. -/
def image (spec : ImageSpec) : Image :=
  { header := spec.header, sections := spec.table }

/-- Of the parts of a table of symbols the first has the type of the table. -/
theorem filter_tableParts {name stringsName : String} {type type' : UInt32} {flags : UInt64} {before : Nat}
    {symbols : Option (List SymbolSpec)} (h : type' ≠ SectionHeader.typeStrtab) :
    (spec.tableParts name stringsName type flags before symbols).filter (fun p => p.type == type') =
      if type = type' then symbols.toList.map (spec.tablePart name type flags before) else [] := by
  have hstrings : (SectionHeader.typeStrtab == type') = false := by simpa using h.symm
  cases symbols with
  | none => simp [tableParts]
  | some symbols =>
    by_cases ht : type = type'
    · simp [tableParts, tablePart, stringsPart, hstrings, ht]
    · simp [tableParts, tablePart, stringsPart, hstrings, ht]

/-- The sections given are no symbol tables. -/
theorem filter_sections (hf : spec.Fits) {type : UInt32}
    (ht : type = SectionHeader.typeSymtab ∨ type = SectionHeader.typeDynsym) :
    (spec.sections.map SectionSpec.part).filter (fun p => p.type == type) = [] := by
  rw [List.filter_eq_nil_iff]
  intro p hp
  obtain ⟨s, hs, rfl⟩ := List.mem_map.1 hp
  have hs := hf.sections s hs
  rcases ht with rfl | rfl
  · simpa [SectionSpec.part] using hs.not_symtab
  · simpa [SectionSpec.part] using hs.not_dynsym

theorem filter_parts_static (hf : spec.Fits) :
    spec.parts.filter (fun p => p.type == SectionHeader.typeSymtab) =
      spec.symtab.toList.map (spec.tablePart ".symtab" SectionHeader.typeSymtab 0 spec.sections.length) := by
  have hne : SectionHeader.typeSymtab ≠ SectionHeader.typeStrtab := by decide
  rw [parts, bodyParts, List.filter_append, List.filter_append, List.filter_append, filter_sections hf (.inl rfl), dynamicParts,
    staticParts, filter_tableParts hne, filter_tableParts hne, if_pos rfl, if_neg (by decide)]
  simp [stringsPart, SectionHeader.typeStrtab, SectionHeader.typeSymtab]

theorem filter_parts_dynamic (hf : spec.Fits) :
    spec.parts.filter (fun p => p.type == SectionHeader.typeDynsym) =
      spec.dynsym.toList.map
        (spec.tablePart ".dynsym" SectionHeader.typeDynsym 2 (spec.sections.length + spec.staticParts.length)) := by
  have hne : SectionHeader.typeDynsym ≠ SectionHeader.typeStrtab := by decide
  rw [parts, bodyParts, List.filter_append, List.filter_append, List.filter_append, filter_sections hf (.inr rfl), dynamicParts,
    staticParts, filter_tableParts hne, filter_tableParts hne, if_neg (by decide), if_pos rfl]
  simp [stringsPart, SectionHeader.typeStrtab, SectionHeader.typeDynsym]

/-- A table of symbols that was read to its end. -/
def labelledTable (options : Options) (name : String) (source : SymbolSource) (symbols : List SymbolSpec) : LabelledTable :=
  ⟨name, name, { symbols := SymbolSpec.functions options source symbols }⟩

/-- The tables of a type in a written image are those that were given for it, each read to its end. -/
theorem tablesOfType_eq (source : SymbolSource) (hf : spec.Fits) (hl : spec.WithinLimits options) {name stringsName : String}
    {type : UInt32} {flags : UInt64} {before : Nat} {given : Option (List SymbolSpec)}
    (hs : source = .dynamic ↔ type = SectionHeader.typeDynsym) (hname : name ≠ "") (htype : type ≠ SectionHeader.typeNobits)
    (hnull : type ≠ 0)
    (hgiven : ∀ symbols ∈ given, symbols ∈ spec.tables)
    (hfilter : spec.parts.filter (fun p => p.type == type) = given.toList.map (spec.tablePart name type flags before))
    (hstrings : ∀ symbols ∈ given,
      spec.parts[before + 1]? = some (stringsPart stringsName flags (SymbolSpec.strings symbols))) :
    spec.image.tablesOfType options type source =
      given.toList.map (labelledTable options name source) := by
  obtain ⟨es, hentries, hes⟩ := exists_entries hf
  have hes' : List.Forall₂ spec.IsEntry (spec.parts.filter fun p => p.type == type)
      (es.filter fun e => e.header.type == type) :=
    List.rel_filter (fun p e hpe => by simp only [hpe.written.type]) hes
  have hnull' : ¬(nullHeader.type == type) = true := by
    simpa [nullHeader] using hnull.symm
  rw [Image.tablesOfType_eq hs, image, hentries, List.filter_cons_of_neg (by exact hnull')]
  rw [hfilter] at hes'
  cases given with
  | none =>
    rw [List.forall₂_nil_left_iff.1 hes']
    rfl
  | some symbols =>
    obtain ⟨e, es', he, hnil, heq⟩ := List.forall₂_cons_left_iff.1 hes'
    have hnameOf : SymbolTable.nameOf e = name := nameOf_eq he hname
    rw [heq, List.forall₂_nil_left_iff.1 hnil]
    simp only [List.map_cons, List.map_nil, Option.toList_some, hnameOf]
    rw [show spec.header.order = spec.ident.order from rfl, readEntry_eq hf (hgiven symbols rfl) he hname htype
      (hstrings symbols rfl) (hl.symbols symbols (hgiven symbols rfl))]
    rfl

/-- The strings of the static symbols are the part after their entries. -/
theorem getElem?_staticStrings (hs : symbols ∈ spec.symtab) :
    spec.parts[spec.sections.length + 1]? = some (stringsPart ".strtab" 0 (SymbolSpec.strings symbols)) := by
  have hstatic : spec.staticParts = [spec.tablePart ".symtab" SectionHeader.typeSymtab 0 spec.sections.length symbols,
      stringsPart ".strtab" 0 (SymbolSpec.strings symbols)] := by
    rw [staticParts, Option.mem_def.1 hs, tableParts]
  simp [parts, bodyParts, hstatic]

/-- The strings of the dynamic symbols are the part after their entries. -/
theorem getElem?_dynamicStrings (hs : symbols ∈ spec.dynsym) :
    spec.parts[spec.sections.length + spec.staticParts.length + 1]? =
      some (stringsPart ".dynstr" 2 (SymbolSpec.strings symbols)) := by
  have hdynamic : spec.dynamicParts =
      [spec.tablePart ".dynsym" SectionHeader.typeDynsym 2 (spec.sections.length + spec.staticParts.length) symbols,
        stringsPart ".dynstr" 2 (SymbolSpec.strings symbols)] := by
    rw [dynamicParts, Option.mem_def.1 hs, tableParts]
  have hparts : spec.parts = (spec.sections.map SectionSpec.part ++ spec.staticParts) ++
      [spec.tablePart ".dynsym" SectionHeader.typeDynsym 2 (spec.sections.length + spec.staticParts.length) symbols,
        stringsPart ".dynstr" 2 (SymbolSpec.strings symbols), stringsPart SectionTable.namesName 0 spec.sectionNames] := by
    simp [parts, bodyParts, hdynamic]
  have hlength : (spec.sections.map SectionSpec.part ++ spec.staticParts).length =
      spec.sections.length + spec.staticParts.length := by
    rw [List.length_append, List.length_map]
  rw [hparts, List.getElem?_append_right (by omega), hlength, Nat.add_sub_cancel_left]
  rfl

/-- The symbol tables of a written image. -/
theorem symbolTables_eq (hf : spec.Fits) (hl : spec.WithinLimits options) :
    spec.image.symbolTables options =
      spec.symtab.toList.map (labelledTable options ".symtab" .static) ++
        spec.dynsym.toList.map (labelledTable options ".dynsym" .dynamic) := by
  have hstatic := tablesOfType_eq .static hf hl (by decide) (by decide) (by decide) (by decide)
    (fun symbols hs => by simp [tables, Option.mem_def.1 hs]) (filter_parts_static hf) fun symbols => getElem?_staticStrings
  have hdynamic := tablesOfType_eq .dynamic hf hl (by decide) (by decide) (by decide) (by decide)
    (fun symbols hs => by simp [tables, Option.mem_def.1 hs]) (filter_parts_dynamic hf) fun symbols => getElem?_dynamicStrings
  rw [Image.symbolTables, hstatic, hdynamic]

/-- A table that was read to its end adds its functions and no warning. -/
theorem outcome_labelledTable (name : String) :
    (labelledTable options name source symbols).outcome =
      .loaded { table := name, symbols := SymbolSpec.functions options source symbols, warnings := [] } := rfl

theorem symbols_outcome (name : String) :
    (labelledTable options name source symbols).outcome.symbols = SymbolSpec.functions options source symbols := by
  rw [outcome_labelledTable, TableOutcome.symbols, List.filter_eq_self]
  intro s hs
  obtain ⟨_, -, rfl⟩ := List.mem_map.1 hs
  rfl

/-- Merging the symbol tables of a written image gives the functions, and no warning. -/
theorem merge_symbolTables (hf : spec.Fits) (hl : spec.WithinLimits options) :
    merge ((spec.image.symbolTables options).map LabelledTable.outcome) =
      { symbols := SymbolSpec.functions options .static (spec.symtab.getD []) ++
          SymbolSpec.functions options .dynamic (spec.dynsym.getD [])
        warnings := [] } := by
  have hsymbols (name : String) (source : SymbolSource) (given : Option (List SymbolSpec)) :
      (given.toList.map (labelledTable options name source)).flatMap (fun t => t.outcome.symbols) =
        SymbolSpec.functions options source (given.getD []) := by
    cases given with
    | none => rfl
    | some symbols => simp [symbols_outcome]
  have hwarnings (name : String) (source : SymbolSource) (given : Option (List SymbolSpec)) :
      (given.toList.map (labelledTable options name source)).flatMap (fun t => t.outcome.warnings) = [] := by
    cases given <;> rfl
  rw [symbolTables_eq hf hl, merge, List.flatMap_map, List.flatMap_map, List.flatMap_append, List.flatMap_append, hsymbols,
    hsymbols, hwarnings, hwarnings]
  rfl

/-! ## The image -/

/-- The headers of a written image are read. -/
theorem read_image (hf : spec.Fits) (hl : spec.WithinLimits options) : Image.read spec.view options = .ok spec.image := by
  refine Image.read_eq_ok_iff.2 ⟨read_fileHeader hf, ?_, read_table hf hl⟩
  rcases hf.machine with hm | hm <;> simp [image, header, Header.isSupported, hm, Header.machine386, Header.machineX8664]

/-- A written image is told by its magic bytes. -/
theorem select_eq_ok {hint : FormatHint} (hh : hint ≠ .pe) : hint.select spec.view = .ok .elf := by
  have hsniff : sniff spec.view = .elf := by
    obtain ⟨hheader, -⟩ := holds_write spec
    obtain ⟨hident, -⟩ := View.Holds.append hheader
    obtain ⟨hident, -⟩ := View.Holds.append hident
    obtain ⟨hmagic, -⟩ := View.Holds.append hident
    rw [sniff, if_pos hmagic.startsWith]
  cases hint with
  | auto => simp only [FormatHint.select, hsniff]
  | elf => simp only [FormatHint.select, hsniff]
  | pe => exact absurd rfl hh

end ImageSpec

/-- A written image is loaded, and what is loaded is what was written, whatever its class, its byte order, its sections and its
symbols. -/
theorem exists_load_write {spec : ImageSpec} {options : Options} {hint : FormatHint} (hf : spec.Fits)
    (hl : spec.WithinLimits options) (hh : hint ≠ .pe) (source : String) :
    ∃ b, load ⟨spec.write.toArray⟩ source hint options = .ok b ∧ spec.LoadedAs source options b := by
  obtain ⟨sections, hload, hsections⟩ := ImageSpec.exists_load source hf hl
  refine ⟨_, load_eq_ok_iff.2 ⟨_, _, .elf (ImageSpec.select_eq_ok hh) (ImageSpec.read_image hf hl) hload, rfl⟩, ?_⟩
  rw [ImageSpec.merge_symbolTables hf hl]
  have hbits : spec.ident.cls.width.bits = match spec.ident.cls with
      | .elf32 => 32
      | .elf64 => 64 := by
    cases spec.ident.cls <;> rfl
  exact {
    source := rfl, format := rfl, bits := hbits, endianness := rfl, entry := rfl
    sections := hsections, symbols := rfl, warnings := rfl }

/-- A small image is loaded as it was written. -/
theorem exists_load_sample : ImageSpec.sample.Fits ∧ ImageSpec.sample.WithinLimits {} ∧ FormatHint.auto ≠ .pe ∧
    ∃ b, load ⟨ImageSpec.sample.write.toArray⟩ "sample" .auto {} = .ok b ∧ ImageSpec.sample.LoadedAs "sample" {} b := by
  have hf : ImageSpec.sample.Fits := by decide +kernel
  have hl : ImageSpec.sample.WithinLimits {} := by decide +kernel
  have hh : FormatHint.auto ≠ .pe := by decide
  exact ⟨hf, hl, hh, exists_load_write hf hl hh "sample"⟩

end ExecImage.Elf
