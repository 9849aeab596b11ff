import ExecImage.Proofs.Confinement
import ExecImage.Proofs.Lists
import ExecImage.Proofs.Pe.Writer

/-!
# Which loads of sections succeed, and what they give

A header of code or data can be loaded if its addresses fit, its bytes are in the file, and they are not more than may be copied.
The load of a table succeeds exactly when each of its headers of code and data can be loaded, and gives a section for each
of them in the order of the table (`Elf.SectionTable.load_eq_ok_iff_filter`, `Pe.SectionTable.load_eq_ok_iff_filter`). Other
headers are passed over, so whatever they hold, they change neither the sections nor the error.
-/

namespace ExecImage

variable {source : String} {options : Options} {s : Section} {sections : List Section}

namespace SectionKind

variable {executable writable : Bool}

theorem classify_eq_none_iff : classify executable writable = none ↔ (executable || writable) = false := by
  cases executable <;> cases writable <;> decide

/-- A section is of code exactly if it can be executed. -/
theorem eq_code_iff {kind : SectionKind} (h : classify executable writable = some kind) :
    kind = .code ↔ executable = true := by
  cases executable with
  | true =>
    cases h
    exact iff_of_true rfl rfl
  | false =>
    cases writable with
    | true =>
      cases h
      exact iff_of_false nofun nofun
    | false => nomatch h

end SectionKind

/-! ## ELF images -/

namespace Elf

/-- The section is of code or data: a bit of the flags says that it can be executed (4) or written (1). -/
def SectionHeader.isLoadable (h : SectionHeader) : Bool :=
  h.flags &&& 4 != 0 || h.flags &&& 1 != 0

/-- A section is passed over unless it can be loaded. -/
theorem SectionHeader.kind?_eq_none_iff {h : SectionHeader} : h.kind? = none ↔ h.isLoadable = false :=
  SectionKind.classify_eq_none_iff

namespace SectionTable

variable {t : SectionTable} {e : NamedHeader}

/-- The section is the one that a header becomes: code if it can be executed, at the addresses of the header, with all bytes that the
header has in the file, which are none if it is of type 8. -/
structure Becomes (t : SectionTable) (source : String) (e : NamedHeader) (s : Section) : Prop where
  binary : s.binary = source
  name : s.name = Section.displayName e.name
  kind : s.kind = .code ↔ e.header.flags &&& 4 ≠ 0
  vma : s.vma = e.header.addr
  size : s.size = e.header.size
  fileOffset : s.fileOffset = e.header.offset
  flags : s.flags = e.header.flags
  length : s.bytes.size = if e.header.type = 8 then 0 else e.header.size.toNat
  bytes : s.bytes = t.view.bytes.extract e.header.offset.toNat (e.header.offset.toNat + s.bytes.size)

theorem loadEntry_eq_none_iff_isLoadable : t.loadEntry source options e = .ok none ↔ e.header.isLoadable = false := by
  rw [loadEntry_eq_none_iff]
  exact SectionHeader.kind?_eq_none_iff

/-- The sections of a load are what the headers of code and data become. -/
theorem load_eq_ok_iff_filter :
    t.load source options = .ok sections ↔
      List.Forall₂ (fun e s => t.loadEntry source options e = .ok (some s))
        (t.entries.filter fun e => e.header.isLoadable) sections :=
  Except.mapM_filterMap_eq_ok_iff_filter fun _ => loadEntry_eq_none_iff_isLoadable

/-- A header of code or data becomes a section exactly when it can be loaded. -/
theorem exists_loadEntry_iff (he : e.header.isLoadable = true) :
    (∃ s, t.loadEntry source options e = .ok (some s)) ↔ t.CanLoad options e.header := by
  obtain ⟨kind, hkind⟩ : ∃ kind, e.header.kind? = some kind := by
    refine Option.ne_none_iff_exists'.1 fun hnone => ?_
    rw [SectionHeader.kind?_eq_none_iff.1 hnone] at he
    nomatch he
  rw [canLoad_iff (Section.displayName e.name)]
  simp only [loadEntry_eq_some_iff, hkind]
  constructor
  · rintro ⟨s, _, bytes, -, hfits, hcopy, -⟩
    exact ⟨hfits, bytes, hcopy⟩
  · rintro ⟨hfits, bytes, hcopy⟩
    exact ⟨_, kind, bytes, rfl, hfits, hcopy, rfl⟩

theorem becomes_of_loadEntry (h : t.loadEntry source options e = .ok (some s)) : t.Becomes source e s := by
  obtain ⟨kind, bytes, hkind, -, hcopy, rfl⟩ := loadEntry_eq_some_iff.1 h
  have hbytes : (bytes.size = if e.header.type = 8 then 0 else e.header.size.toNat) ∧
      bytes = t.view.bytes.extract e.header.offset.toNat (e.header.offset.toNat + bytes.size) := by
    rcases copy_eq_ok_iff.1 hcopy with ⟨hdata, rfl⟩ | ⟨hdata, -, hslice⟩
    · refine ⟨(if_pos (SectionHeader.hasFileData_eq_false_iff.1 hdata)).symm, ?_⟩
      rw [Array.size_empty, Nat.add_zero, Array.extract_eq_empty_of_le (Nat.min_le_left _ _)]
    · rw [if_neg (SectionHeader.hasFileData_iff.1 hdata)]
      exact ⟨View.size_of_slice hslice, (View.slice_confined hslice).2⟩
  exact ⟨rfl, rfl, (SectionKind.eq_code_iff hkind).trans bne_iff_ne, rfl, rfl, rfl, rfl, hbytes.1, hbytes.2⟩

/-- A section table is loaded exactly when each header of code and data can be. -/
theorem exists_load_iff :
    (∃ sections, t.load source options = .ok sections) ↔
      ∀ e ∈ t.entries, e.header.isLoadable = true → t.CanLoad options e.header := by
  simp only [load_eq_ok_iff_filter, List.Forall₂.exists_iff, List.mem_filter, and_imp]
  exact forall₃_congr fun e _ he => exists_loadEntry_iff he

theorem becomes_of_load (h : t.load source options = .ok sections) :
    List.Forall₂ (t.Becomes source) (t.entries.filter fun e => e.header.isLoadable) sections :=
  (load_eq_ok_iff_filter.1 h).imp fun _ _ => becomes_of_loadEntry

/-- The load depends on the headers of code and data only. -/
theorem load_filter (t : SectionTable) (source : String) (options : Options) :
    t.load source options =
      { t with entries := t.entries.filter fun e => e.header.isLoadable }.load source options :=
  Except.mapM_filterMap_filter (fun _ => loadEntry_eq_none_iff_isLoadable) t.entries

end SectionTable

end Elf

/-! ## PE images -/

namespace Pe

/-- The section is of code or data: a bit of the characteristics says that it holds code (`0x20`), or that it can be executed
(`0x20000000`) or written (`0x80000000`). -/
def SectionHeader.isLoadable (h : SectionHeader) : Bool :=
  h.characteristics &&& 0x20000020 != 0 || h.characteristics &&& 0x80000000 != 0

/-- A section is passed over unless it can be loaded. -/
theorem SectionHeader.kind?_eq_none_iff {h : SectionHeader} : h.kind? = none ↔ h.isLoadable = false :=
  SectionKind.classify_eq_none_iff

namespace SectionTable

variable {v : View} {imageBase : UInt64} {width : Width} {e : NamedHeader}

/-- The section is the one that a header becomes: code if it can be executed, at the addresses of the header counted from the image
base, with the part of the raw data that is mapped. -/
structure Becomes (v : View) (imageBase : UInt64) (source : String) (e : NamedHeader) (s : Section) : Prop where
  binary : s.binary = source
  name : s.name = Section.displayName e.name
  kind : s.kind = .code ↔ e.header.characteristics &&& 0x20000020 ≠ 0
  vma : s.vma.toNat = imageBase.toNat + e.header.virtualAddress.toNat
  size : s.size.toNat = e.header.mappedSize.toNat
  fileOffset : s.fileOffset.toNat = e.header.rawPointer.toNat
  flags : s.flags.toNat = e.header.characteristics.toNat
  length : s.bytes.size = min e.header.rawSize.toNat e.header.mappedSize.toNat
  bytes : s.bytes = v.bytes.extract e.header.rawPointer.toNat (e.header.rawPointer.toNat + s.bytes.size)

theorem loadEntry_eq_none_iff_isLoadable :
    loadEntry v imageBase width source options e = .ok none ↔ e.header.isLoadable = false := by
  rw [loadEntry_eq_none_iff]
  exact SectionHeader.kind?_eq_none_iff

/-- The sections of a load are what the headers of code and data become. -/
theorem load_eq_ok_iff_filter {t : SectionTable} :
    t.load v imageBase width source options = .ok sections ↔
      List.Forall₂ (fun e s => loadEntry v imageBase width source options e = .ok (some s))
        (t.entries.filter fun e => e.header.isLoadable) sections :=
  Except.mapM_filterMap_eq_ok_iff_filter fun _ => loadEntry_eq_none_iff_isLoadable

/-- A header of code or data becomes a section exactly when it can be loaded. -/
theorem exists_loadEntry_iff (he : e.header.isLoadable = true) :
    (∃ s, loadEntry v imageBase width source options e = .ok (some s)) ↔
      CanLoad v imageBase width options e.header := by
  obtain ⟨kind, hkind⟩ : ∃ kind, e.header.kind? = some kind := by
    refine Option.ne_none_iff_exists'.1 fun hnone => ?_
    rw [SectionHeader.kind?_eq_none_iff.1 hnone] at he
    nomatch he
  rw [canLoad_iff (Section.displayName e.name)]
  simp only [loadEntry_eq_some_iff, hkind]
  constructor
  · rintro ⟨s, _, bytes, -, hfits, hcopy, -⟩
    exact ⟨hfits, bytes, hcopy⟩
  · rintro ⟨hfits, bytes, hcopy⟩
    exact ⟨_, kind, bytes, rfl, hfits, hcopy, rfl⟩

theorem becomes_of_loadEntry (h : loadEntry v imageBase width source options e = .ok (some s)) :
    Becomes v imageBase source e s := by
  obtain ⟨kind, bytes, hkind, hfits, hcopy, rfl⟩ := loadEntry_eq_some_iff.1 h
  have hbytes : bytes.size = min e.header.rawSize.toNat e.header.mappedSize.toNat ∧
      bytes = v.bytes.extract e.header.rawPointer.toNat (e.header.rawPointer.toNat + bytes.size) := by
    rcases copy_eq_ok_iff.1 hcopy with ⟨h0, rfl⟩ | ⟨-, -, -, hslice⟩
    · refine ⟨by simp [h0], ?_⟩
      rw [Array.size_empty, Nat.add_zero, Array.extract_eq_empty_of_le (Nat.min_le_left _ _)]
    · exact ⟨View.size_of_slice hslice, (View.slice_confined hslice).2⟩
  exact ⟨rfl, rfl, (SectionKind.eq_code_iff hkind).trans bne_iff_ne, toNat_vma hfits, UInt32.toNat_toUInt64 _, UInt32.toNat_toUInt64 _,
    UInt32.toNat_toUInt64 _, hbytes.1, hbytes.2⟩

/-- A section table is loaded exactly when each header of code and data can be. -/
theorem exists_load_iff {t : SectionTable} :
    (∃ sections, t.load v imageBase width source options = .ok sections) ↔
      ∀ e ∈ t.entries, e.header.isLoadable = true → CanLoad v imageBase width options e.header := by
  simp only [load_eq_ok_iff_filter, List.Forall₂.exists_iff, List.mem_filter, and_imp]
  exact forall₃_congr fun e _ he => exists_loadEntry_iff he

theorem becomes_of_load {t : SectionTable} (h : t.load v imageBase width source options = .ok sections) :
    List.Forall₂ (Becomes v imageBase source) (t.entries.filter fun e => e.header.isLoadable) sections :=
  (load_eq_ok_iff_filter.1 h).imp fun _ _ => becomes_of_loadEntry

/-- The load depends on the headers of code and data only. -/
theorem load_filter (t : SectionTable) (v : View) (imageBase : UInt64) (width : Width) (source : String) (options : Options) :
    t.load v imageBase width source options =
      { t with entries := t.entries.filter fun e => e.header.isLoadable }.load v imageBase width source options :=
  Except.mapM_filterMap_filter (fun _ => loadEntry_eq_none_iff_isLoadable) t.entries

end SectionTable

end Pe

/-! ## Both formats -/

/-- The load of a section table of either format succeeds exactly when every header of code and data can be loaded. It gives one
section for each of these headers, in the order of the table, and each is the section that its header becomes. The other
headers do not matter: the load of the table is that of its headers of code and data, whether it succeeds or fails. -/
theorem sections_of_loadable (source : String) (options : Options) :
    (∀ t : Elf.SectionTable,
      ((∃ sections, t.load source options = .ok sections) ↔
          ∀ e ∈ t.entries, e.header.isLoadable = true → t.CanLoad options e.header) ∧
        (∀ sections, t.load source options = .ok sections →
          List.Forall₂ (t.Becomes source) (t.entries.filter fun e => e.header.isLoadable) sections) ∧
        t.load source options =
          { t with entries := t.entries.filter fun e => e.header.isLoadable }.load source options) ∧
      ∀ (t : Pe.SectionTable) (v : View) (imageBase : UInt64) (width : Width),
        ((∃ sections, t.load v imageBase width source options = .ok sections) ↔
            ∀ e ∈ t.entries, e.header.isLoadable = true →
              Pe.SectionTable.CanLoad v imageBase width options e.header) ∧
          (∀ sections, t.load v imageBase width source options = .ok sections →
            List.Forall₂ (Pe.SectionTable.Becomes v imageBase source) (t.entries.filter fun e => e.header.isLoadable)
              sections) ∧
          t.load v imageBase width source options =
            { t with entries := t.entries.filter fun e => e.header.isLoadable }.load v imageBase width source options :=
  ⟨fun t => ⟨Elf.SectionTable.exists_load_iff, fun _ => Elf.SectionTable.becomes_of_load, t.load_filter source options⟩,
    fun t v imageBase width => ⟨Pe.SectionTable.exists_load_iff, fun _ => Pe.SectionTable.becomes_of_load,
      t.load_filter v imageBase width source options⟩⟩

/-- An ELF section table: a header that is neither of code nor of data, and nowhere in the file, one of code, one that can only be
written, and one of zeros that are not in the file. -/
def Elf.SectionTable.sample : Elf.SectionTable :=
  { view := ⟨#[0x55, 0xC3]⟩
    cls := .elf32
    entries := [
      ⟨{ (default : Elf.SectionHeader) with type := 1, addr := 0xFFFFFFFF, offset := 0x1000, size := 0xFFFFFFFF }, ""⟩,
      ⟨{ (default : Elf.SectionHeader) with type := 1, flags := 6, addr := 0xFFFFFFFE, size := 2 }, ".text"⟩,
      ⟨{ (default : Elf.SectionHeader) with type := 1, flags := 3, addr := 0x2000, offset := 1, size := 1 }, ".data"⟩,
      ⟨{ (default : Elf.SectionHeader) with type := 8, flags := 3, addr := 0x3000, offset := 0x1000, size := 0x10 }, ".bss"⟩] }

/-- A PE section table of the same kind, with one byte of raw data mapped of two in the section of code. -/
def Pe.SectionTable.sample : Pe.SectionTable :=
  { entries := [
      ⟨{ (default : Pe.SectionHeader) with virtualAddress := 0xFFFFFFFF, rawSize := 0xFFFFFFFF }, ""⟩,
      ⟨{ (default : Pe.SectionHeader) with
          virtualSize := 1, virtualAddress := 0xFFFF, rawSize := 2, characteristics := 0x60000020 }, ".text"⟩,
      ⟨{ (default : Pe.SectionHeader) with
          virtualAddress := 0x2000, rawSize := 1, rawPointer := 1, characteristics := 0xC0000040 }, ".data"⟩] }

/-- The headers of code and of data are loaded from both tables, up to the last address that there is. -/
theorem sections_of_loadable_sample :
    (∃ text data bss, Elf.SectionTable.sample.load "sample" {} = .ok [text, data, bss] ∧
        (text.kind = .code ∧ text.bytes = #[0x55, 0xC3]) ∧ (data.kind ≠ .code ∧ data.bytes = #[0xC3]) ∧
        bss.kind ≠ .code ∧ bss.bytes = #[]) ∧
      ∃ text data, Pe.SectionTable.sample.load ⟨#[0x55, 0xC3]⟩ 0xFFFF0000 .w32 "sample" {} = .ok [text, data] ∧
        (text.kind = .code ∧ text.bytes = #[0x55]) ∧ data.kind ≠ .code ∧ data.bytes = #[0xC3] := by
  obtain ⟨helf, hpe⟩ := sections_of_loadable "sample" {}
  obtain ⟨helf, helfBecomes, -⟩ := helf Elf.SectionTable.sample
  obtain ⟨hpe, hpeBecomes, -⟩ := hpe Pe.SectionTable.sample ⟨#[0x55, 0xC3]⟩ 0xFFFF0000 .w32
  constructor
  · obtain ⟨sections, hsections⟩ := helf.2 (by
      intro e he hloadable
      simp only [Elf.SectionTable.sample, List.mem_cons, List.not_mem_nil, or_false] at he
      rcases he with rfl | rfl | rfl | rfl
      · nomatch hloadable
      · exact ⟨by decide, fun _ => by decide⟩
      · exact ⟨by decide, fun _ => by decide⟩
      · exact ⟨by decide, fun htype => absurd rfl htype⟩)
    obtain ⟨text, _, htext, hafterText, rfl⟩ := List.forall₂_cons_left_iff.1 (helfBecomes sections hsections)
    obtain ⟨data, _, hdata, hafterData, rfl⟩ := List.forall₂_cons_left_iff.1 hafterText
    obtain ⟨bss, _, hbss, hafterBss, rfl⟩ := List.forall₂_cons_left_iff.1 hafterData
    cases hafterBss
    refine ⟨text, data, bss, hsections, ⟨htext.kind.2 (by decide), ?_⟩, ⟨fun h => absurd (hdata.kind.1 h) (by decide), ?_⟩,
      fun h => absurd (hbss.kind.1 h) (by decide), ?_⟩
    · rw [htext.bytes, htext.length]
      rfl
    · rw [hdata.bytes, hdata.length]
      rfl
    · rw [hbss.bytes, hbss.length]
      rfl
  · obtain ⟨sections, hsections⟩ := hpe.2 (by
      intro e he hloadable
      simp only [Pe.SectionTable.sample, List.mem_cons, List.not_mem_nil, or_false] at he
      rcases he with rfl | rfl | rfl
      · nomatch hloadable
      · exact ⟨by decide, fun _ => by decide⟩
      · exact ⟨by decide, fun _ => by decide⟩)
    obtain ⟨text, _, htext, hafterText, rfl⟩ := List.forall₂_cons_left_iff.1 (hpeBecomes sections hsections)
    obtain ⟨data, _, hdata, hafterData, rfl⟩ := List.forall₂_cons_left_iff.1 hafterText
    cases hafterData
    refine ⟨text, data, hsections, ⟨htext.kind.2 (by decide), ?_⟩, fun h => absurd (hdata.kind.1 h) (by decide), ?_⟩
    · rw [htext.bytes, htext.length]
      rfl
    · rw [hdata.bytes, hdata.length]
      rfl

end ExecImage
