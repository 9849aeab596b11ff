import ExecImage.Proofs.Elf.Layout
import ExecImage.Proofs.Lists

/-!
# The headers of a written image are read back

An image can be written if every field of it fits its class (`ImageSpec.Fits`). The file header and the section table
of such an image are read back: `ImageSpec.read_fileHeader` and `ImageSpec.read_table`, the latter within the limits
of a load (`ImageSpec.WithinLimits`).
-/

namespace ExecImage.Elf

/-! ## What can be written -/

namespace SectionSpec

/-- What the section holds, if it is loaded: code if it can be executed, otherwise data if it can be written. -/
def kind? (s : SectionSpec) : Option SectionKind :=
  if s.flags &&& 4 ≠ 0 then some .code
  else if s.flags &&& 1 ≠ 0 then some .data
  else none

/-- A section can be written in an image of a class: it is no symbol table, its name and its fields fit, and so do its
addresses if it is loaded. Only a section without bytes in the file declares its size. -/
structure Fits (cls : Class) (s : SectionSpec) : Prop where
  name : IsName 256 s.name
  not_symtab : s.type ≠ SectionHeader.typeSymtab
  not_dynsym : s.type ≠ SectionHeader.typeDynsym
  flags : cls.Fits s.flags
  addr : cls.Fits s.addr
  size : s.size < 256 ^ cls.width.bytes
  declared : s.declaredSize ≠ none → s.type = SectionHeader.typeNobits
  range : s.kind? ≠ none → cls.width.Fits s.addr.toNat s.size

instance (cls : Class) (s : SectionSpec) : Decidable (s.Fits cls) :=
  decidable_of_iff (IsName 256 s.name ∧ s.type ≠ SectionHeader.typeSymtab ∧ s.type ≠ SectionHeader.typeDynsym ∧
      cls.Fits s.flags ∧ cls.Fits s.addr ∧ s.size < 256 ^ cls.width.bytes ∧
      (s.declaredSize ≠ none → s.type = SectionHeader.typeNobits) ∧ (s.kind? ≠ none → cls.width.Fits s.addr.toNat s.size))
    ⟨fun ⟨h1, h2, h3, h4, h5, h6, h7, h8⟩ => ⟨h1, h2, h3, h4, h5, h6, h7, h8⟩,
      fun ⟨h1, h2, h3, h4, h5, h6, h7, h8⟩ => ⟨h1, h2, h3, h4, h5, h6, h7, h8⟩⟩

end SectionSpec

namespace ImageSpec

/-- The tables of symbols. -/
def tables (spec : ImageSpec) : List (List SymbolSpec) :=
  spec.symtab.toList ++ spec.dynsym.toList

/-- An image can be written: every field fits the class, and the sections are so few that no count is held in section 0. -/
structure Fits (spec : ImageSpec) : Prop where
  machine : spec.machine = 3 ∨ spec.machine = 62
  entry : spec.ident.cls.Fits spec.entry
  sections : ∀ s ∈ spec.sections, s.Fits spec.ident.cls
  symbols : ∀ symbols ∈ spec.tables, ∀ s ∈ symbols, s.Fits spec.ident.cls
  nameOffsets : ∀ symbols ∈ spec.tables, OffsetsFit 1 (symbols.map SymbolSpec.name)
  count : spec.parts.length + 1 < 0xFF00
  tableOffset : spec.tableOffset < 256 ^ spec.ident.cls.width.bytes

instance (spec : ImageSpec) : Decidable spec.Fits :=
  decidable_of_iff ((spec.machine = 3 ∨ spec.machine = 62) ∧ spec.ident.cls.Fits spec.entry ∧
      (∀ s ∈ spec.sections, s.Fits spec.ident.cls) ∧
      (∀ symbols ∈ spec.tables, ∀ s ∈ symbols, s.Fits spec.ident.cls) ∧
      (∀ symbols ∈ spec.tables, OffsetsFit 1 (symbols.map SymbolSpec.name)) ∧ spec.parts.length + 1 < 0xFF00 ∧
      spec.tableOffset < 256 ^ spec.ident.cls.width.bytes)
    ⟨fun ⟨h1, h2, h3, h4, h5, h6, h7⟩ => ⟨h1, h2, h3, h4, h5, h6, h7⟩,
      fun ⟨h1, h2, h3, h4, h5, h6, h7⟩ => ⟨h1, h2, h3, h4, h5, h6, h7⟩⟩

/-- An image is within the limits of a load. -/
structure WithinLimits (spec : ImageSpec) (options : Options) : Prop where
  count : spec.parts.length + 1 ≤ options.maxSections.toNat
  sections : ∀ s ∈ spec.sections, s.kind? ≠ none → s.fileBytes.length ≤ options.maxSectionBytes.toNat
  symbols : ∀ symbols ∈ spec.tables, symbols.length + 1 ≤ options.maxSymbolsPerTable.toNat

instance (spec : ImageSpec) (options : Options) : Decidable (spec.WithinLimits options) :=
  decidable_of_iff (spec.parts.length + 1 ≤ options.maxSections.toNat ∧
      (∀ s ∈ spec.sections, s.kind? ≠ none → s.fileBytes.length ≤ options.maxSectionBytes.toNat) ∧
      (∀ symbols ∈ spec.tables, symbols.length + 1 ≤ options.maxSymbolsPerTable.toNat))
    ⟨fun ⟨h1, h2, h3⟩ => ⟨h1, h2, h3⟩, fun ⟨h1, h2, h3⟩ => ⟨h1, h2, h3⟩⟩

end ImageSpec

/-! ## The parts of a written image -/

namespace ImageSpec

variable {spec : ImageSpec}

/-- The bytes of a part of an image fit the class, since the section headers come after them. -/
theorem length_fileBytes_lt (hf : spec.Fits) {p : Part} (hp : p ∈ spec.parts) :
    p.fileBytes.length < 256 ^ spec.ident.cls.width.bytes := by
  have h1 := Part.length_fileBytes_le hp spec.ident.cls.headerSize
  have h2 := Part.le_align spec.contentsEnd
  have h3 := hf.tableOffset
  unfold tableOffset at h3
  unfold contentsEnd contents at h2 h3
  omega

/-- A part that holds strings fits the class if its bytes do. -/
theorem fits_stringsPart {name : String} {flags : UInt64} {data : List UInt8} {cls : Class} (hname : IsName 256 name)
    (hflags : cls.Fits flags) (hlength : (stringsPart name flags data).fileBytes.length < 256 ^ cls.width.bytes) :
    (stringsPart name flags data).Fits cls :=
  ⟨hname, hflags, Class.fits_zero, hlength, show 0 < 2 ^ 32 by decide, Nat.pow_pos (by decide)⟩

/-- The parts of a table of symbols fit the class if their bytes do. -/
theorem fits_of_mem_tableParts {name stringsName : String} {type : UInt32} {flags : UInt64} {before : Nat}
    {symbols : Option (List SymbolSpec)} {p : Part} (hp : p ∈ spec.tableParts name stringsName type flags before symbols)
    (hname : IsName 256 name) (hstrings : IsName 256 stringsName) (htype : type ≠ SectionHeader.typeNobits)
    (hflags : spec.ident.cls.Fits flags) (hbefore : before + 2 < 2 ^ 32)
    (hlength : p.fileBytes.length < 256 ^ spec.ident.cls.width.bytes) : p.Fits spec.ident.cls := by
  have hentry : spec.ident.cls.symbolSize < 256 ^ spec.ident.cls.width.bytes := Class.symbolSize_lt _
  cases symbols with
  | none => nomatch hp
  | some symbols =>
    simp only [tableParts, List.mem_cons, List.not_mem_nil, or_false] at hp
    rcases hp with rfl | rfl
    · rw [SectionSpec.fileBytes, if_neg (by exact htype)] at hlength
      exact ⟨hname, hflags, Class.fits_zero, hlength, hbefore, hentry⟩
    · exact fits_stringsPart hstrings hflags hlength

/-- Every part of an image fits the class. -/
theorem fits_of_mem_parts (hf : spec.Fits) {p : Part} (hp : p ∈ spec.parts) : p.Fits spec.ident.cls := by
  have hlength := length_fileBytes_lt hf hp
  have hcount := hf.count
  have halloc : spec.ident.cls.Fits 2 := Class.fits_two _
  simp only [parts, bodyParts, List.length_append, List.length_map] at hcount
  simp only [parts, bodyParts, List.mem_append, List.mem_map, List.mem_singleton] at hp
  rcases hp with ((⟨s, hs, rfl⟩ | hp) | hp) | rfl
  · have hs := hf.sections s hs
    exact ⟨hs.name, hs.flags, hs.addr, hs.size, show 0 < 2 ^ 32 by decide, Nat.pow_pos (by decide)⟩
  · exact fits_of_mem_tableParts hp (by decide) (by decide) (by decide) Class.fits_zero (by omega) hlength
  · exact fits_of_mem_tableParts hp (by decide) (by decide) (by decide) halloc (by omega) hlength
  · exact fits_stringsPart (by decide) Class.fits_zero hlength

/-! ## The headers of a written image -/

/-- What an image is made of, and where. -/
theorem holds_write (spec : ImageSpec) :
    spec.view.Holds 0 spec.header.write ∧ spec.view.Holds spec.ident.cls.headerSize spec.contents ∧
      spec.view.Holds spec.tableOffset
        (nullHeader.write spec.ident 0 ++ spec.headers.flatMap (SectionHeader.write spec.ident 1)) := by
  obtain ⟨hheader, h⟩ := View.Holds.append (View.holds_self spec.write)
  rw [Header.length_write, Nat.zero_add] at h
  obtain ⟨hcontents, h⟩ := h.append
  obtain ⟨-, htable⟩ := h.append
  have halign : spec.contentsEnd + (spec.tableOffset - spec.contentsEnd) = spec.tableOffset :=
    Nat.add_sub_cancel' (Part.le_align _)
  rw [List.length_replicate] at htable
  exact ⟨hheader, hcontents, halign ▸ htable⟩

/-- The view of the names of sections. -/
def namesView (spec : ImageSpec) : View :=
  ⟨spec.sectionNames.toArray⟩

/-- The names of the parts are few and short, so all their offsets fit. -/
theorem offsetsFit_parts (hf : spec.Fits) : OffsetsFit 1 (spec.parts.map (·.name)) := by
  have hstored : ∀ p ∈ spec.parts, (stored p.name).length ≤ 257 := by
    intro p hp
    have hlength := (fits_of_mem_parts hf hp).name.length_le
    unfold stored
    split
    · simp
    · simp only [List.length_append, List.length_singleton]
      exact Nat.add_le_add_right hlength 1
  have hsum : ((spec.parts.map (·.name)).flatMap stored).length ≤ spec.parts.length * 257 := by
    generalize spec.parts = ps at hstored
    induction ps with
    | nil => simp
    | cons p ps ih =>
      have h1 := hstored p (by simp)
      have h2 := ih fun q hq => hstored q (by simp [hq])
      simp only [List.map_cons, List.flatMap_cons, List.length_append, List.length_cons]
      omega
  have hcount := hf.count
  exact offsetsFit_of_lt (by omega)

/-- The headers of an image, each with its part. -/
theorem forall₂_headers (hf : spec.Fits) :
    List.Forall₂ (Part.Written spec.view spec.namesView spec.ident.cls) spec.parts spec.headers := by
  obtain ⟨-, hcontents, -⟩ := holds_write spec
  have hnames := holds_stringTable (spec.bodyParts.map (·.name) ++ [SectionTable.namesName])
  have hmap : spec.bodyParts.map (·.name) ++ [SectionTable.namesName] = spec.parts.map (·.name) := by
    simp [parts, stringsPart]
  have hstop : spec.contentsEnd < 256 ^ spec.ident.cls.width.bytes :=
    Nat.lt_of_le_of_lt (Part.le_align _) hf.tableOffset
  refine Part.forall₂_headersFrom (fun p hp => fits_of_mem_parts hf hp) hnames.1 ?_ (offsetsFit_parts hf) hcontents hstop
  rw [← hmap]
  exact hnames.2

/-- The headers of an image, with that of no section. -/
def allHeaders (spec : ImageSpec) : List SectionHeader :=
  nullHeader :: spec.headers

/-- Every header can be read at its place in the table. -/
theorem read_header (hf : spec.Fits) {i : Nat} {h : SectionHeader} (hi : spec.allHeaders[i]? = some h) :
    SectionHeader.read spec.view (spec.tableOffset + i * spec.ident.cls.sectionHeaderSize) spec.ident = .ok h := by
  obtain ⟨-, -, htable⟩ := holds_write spec
  obtain ⟨hnull, hheaders⟩ := htable.append
  cases i with
  | zero =>
    cases hi
    rw [Nat.zero_mul, Nat.add_zero]
    exact SectionHeader.read_of_holds hnull
      ⟨Class.fits_zero, Class.fits_zero, Class.fits_zero, Class.fits_zero, Class.fits_zero⟩
  | succ i =>
    obtain ⟨p, -, hp⟩ := (forall₂_headers hf).getElem?_right hi
    have := hheaders.getElem_of_length (fun h _ => SectionHeader.length_write spec.ident 1 h) hi
    rw [SectionHeader.length_write, Nat.add_assoc, Nat.add_comm spec.ident.cls.sectionHeaderSize, ← Nat.succ_mul] at this
    exact SectionHeader.read_of_holds this hp.fits

/-- The file header of an image is read back. -/
theorem read_fileHeader (hf : spec.Fits) : Header.read spec.view = .ok spec.header :=
  Header.read_of_holds (holds_write spec).1 hf.entry (Class.fits_ofNat hf.tableOffset)

/-- The numbers in the file header are those of the image. -/
theorem toNat_header (hf : spec.Fits) :
    spec.header.tableOffset.toNat = spec.tableOffset ∧ spec.header.entrySize.toNat = spec.ident.cls.sectionHeaderSize ∧
      spec.header.count.toNat = spec.parts.length + 1 ∧ spec.header.namesIndex.toNat = spec.parts.length := by
  have htable : spec.tableOffset < 2 ^ 64 := Nat.lt_of_lt_of_le hf.tableOffset (Width.pow_le _)
  have hcount := hf.count
  have hsize := spec.ident.cls.sectionHeaderSize_le
  refine ⟨toNat_ofNat64 htable, ?_, ?_, ?_⟩
  all_goals
    simp only [header, UInt16.toNat_ofNat']
    omega

/-- The section table of a written image. -/
def table (spec : ImageSpec) : SectionTable :=
  { view := spec.view, cls := spec.ident.cls
    entries := spec.allHeaders.map fun h => ⟨h, SectionTable.nameAt (some spec.namesView) h.nameOffset⟩ }

theorem length_allHeaders (spec : ImageSpec) : spec.allHeaders.length = spec.parts.length + 1 := by
  rw [allHeaders, List.length_cons, headers, Part.length_headersFrom]

/-- The section of names is found. -/
theorem read_namesView (hf : spec.Fits) :
    SectionTable.namesView spec.view spec.allHeaders spec.parts.length = .ok (some spec.namesView) := by
  have hlength : spec.parts.length = spec.bodyParts.length + 1 := by simp [parts]
  have hpart : spec.parts[spec.bodyParts.length]? = some (stringsPart SectionTable.namesName 0 spec.sectionNames) := by
    simp [parts]
  obtain ⟨h, hh, hw⟩ := (forall₂_headers hf).getElem?_left hpart
  have hsub : spec.view.sub h.offset.toNat h.size.toNat = .ok spec.namesView :=
    Except.map_eq_ok_iff.2 ⟨_, hw.slice (show SectionHeader.typeStrtab ≠ SectionHeader.typeNobits by decide) rfl, rfl⟩
  unfold SectionTable.namesView
  rw [if_neg (by omega), hlength, allHeaders, List.getElem?_cons_succ, hh]
  simp only [hsub]

/-- The section table of a written image is read. -/
theorem read_table (hf : spec.Fits) {options : Options} (hl : spec.WithinLimits options) :
    SectionTable.read spec.view spec.header options = .ok spec.table := by
  obtain ⟨htable, hentrySize, hcount, hnames⟩ := toNat_header hf
  have hcountLt := hf.count
  have hne : spec.header.tableOffset ≠ 0 := by
    intro h0
    have hpos : spec.ident.cls.headerSize ≤ spec.tableOffset :=
      Nat.le_trans (Nat.le_add_right _ _) (Part.le_align spec.contentsEnd)
    have hheader := spec.ident.cls.headerSize_pos
    rw [h0, UInt64.toNat_zero] at htable
    omega
  have hcount' : SectionTable.sectionCount spec.header nullHeader = spec.allHeaders.length := by
    have : spec.header.count ≠ 0 := by
      intro h0
      rw [h0, UInt16.toNat_zero] at hcount
      omega
    rw [SectionTable.sectionCount, if_neg this, hcount, length_allHeaders]
  have hnames' : SectionTable.namesIndex spec.header nullHeader = spec.parts.length := by
    have : spec.header.namesIndex ≠ SectionTable.extendedIndex := by
      intro h0
      rw [h0] at hnames
      simp only [SectionTable.extendedIndex, UInt16.reduceToNat] at hnames
      omega
    rw [SectionTable.namesIndex, if_neg this, hnames]
  have hsize := spec.ident.cls.sectionHeaderSize_le
  have hmul := Nat.mul_le_mul_left (spec.parts.length + 1) hsize
  have hcovers : spec.view.Covers spec.tableOffset (spec.allHeaders.length * spec.ident.cls.sectionHeaderSize) := by
    have := (holds_write spec).2.2.length_le
    rw [List.length_append, SectionHeader.length_write,
      length_flatMap_of_length fun h _ => SectionHeader.length_write spec.ident 1 h] at this
    unfold View.Covers
    rw [allHeaders, List.length_cons, Nat.add_mul]
    omega
  refine SectionTable.read_eq_ok_iff.2 (.inr ⟨hne, nullHeader, spec.allHeaders, some spec.namesView, ?_⟩)
  refine {
    entrySize_le := Nat.le_of_eq hentrySize.symm
    readFirst := ?_, count_le := ?_, length_lt := ?_, covers := ?_, readHeaders := ?_, readNames := ?_, table := rfl }
  · have := read_header hf (i := 0) rfl
    rw [Nat.zero_mul, Nat.add_zero] at this
    rw [htable]
    exact this
  · rw [hcount', length_allHeaders]
    exact hl.count
  · rw [hcount', hentrySize, length_allHeaders]
    exact Nat.lt_of_le_of_lt hmul (show _ < 2 ^ 64 by omega)
  · rw [htable, hcount', hentrySize]
    exact hcovers
  · rw [hcount', Except.mapM_eq_ok_iff, List.forall₂_iff_get]
    refine ⟨List.length_range, fun i hi hi' => ?_⟩
    simp only [List.get_eq_getElem, List.getElem_range, SectionTable.headerOffset, htable, hentrySize]
    exact read_header hf (List.getElem?_eq_getElem hi')
  · rw [hnames']
    exact read_namesView hf

end ImageSpec

end ExecImage.Elf
