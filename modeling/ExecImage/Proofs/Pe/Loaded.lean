import ExecImage.Proofs.Lists
import ExecImage.Proofs.Pe.Sections
import ExecImage.Proofs.Pe.Writer
import ExecImage.Proofs.Stages

/-!
# Which section a header is loaded as

A load keeps the headers of code and data in the order of the table, so a header that is kept is loaded as the section that
stands after those of the kept headers before it. `LoadedAs` says this of a header and a section, and
`LoadedAs.loadEntry` gives the load of the one header, from which every fact about the section follows.
-/

namespace ExecImage.Pe

namespace SectionTable

/-- Where the section of the header at an index stands among the loaded sections. -/
def place (t : SectionTable) (index : Nat) : Nat :=
  (t.entries.take index).countP fun e => e.header.kind?.isSome

/-- The header at an index of the table is of code or data, and it is loaded as a section of the list. -/
structure LoadedAs (t : SectionTable) (sections : List Section) (index : Nat) (h : SectionHeader) (s : Section) : Prop where
  header : t.header? index = some h
  kind : h.kind?.isSome = true
  loaded : sections[t.place index]? = some s

instance (t : SectionTable) (sections : List Section) (index : Nat) (h : SectionHeader) (s : Section) :
    Decidable (t.LoadedAs sections index h s) :=
  decidable_of_iff (t.header? index = some h ∧ h.kind?.isSome = true ∧ sections[t.place index]? = some s)
    ⟨fun ⟨header, kind, loaded⟩ => ⟨header, kind, loaded⟩, fun hs => ⟨hs.header, hs.kind, hs.loaded⟩⟩

variable {t : SectionTable} {v : View} {imageBase : UInt64} {width : Width} {source : String} {options : Options}
  {sections : List Section}

/-- The sections of a load are what its headers become, in order. -/
theorem load_eq_ok_iff :
    t.load v imageBase width source options = .ok sections ↔
      ∃ loaded, List.Forall₂ (fun e o => loadEntry v imageBase width source options e = .ok o) t.entries loaded ∧
        sections = loaded.filterMap id :=
  Except.mapM_filterMap_eq_ok_iff

/-- A header becomes a section, if its load succeeds, exactly when it is of code or data. -/
theorem isSome_of_loadEntry {e : NamedHeader} {o : Option Section}
    (h : loadEntry v imageBase width source options e = .ok o) : o.isSome = e.header.kind?.isSome := by
  cases o with
  | none =>
    rw [loadEntry_eq_none_iff.1 h]
    rfl
  | some s =>
    obtain ⟨kind, -, hkind, -⟩ := loadEntry_eq_some_iff.1 h
    rw [hkind]
    rfl

/-- A header that is loaded as a section is the header of an entry that becomes the section. -/
theorem LoadedAs.loadEntry {index : Nat} {h : SectionHeader} {s : Section} (hs : t.LoadedAs sections index h s)
    (hload : t.load v imageBase width source options = .ok sections) :
    ∃ e, e.header = h ∧ SectionTable.loadEntry v imageBase width source options e = .ok (some s) := by
  obtain ⟨loaded, hloaded, rfl⟩ := load_eq_ok_iff.1 hload
  obtain ⟨e, he, hheader⟩ := Option.map_eq_some_iff.1 hs.header
  have hkind : e.header.kind?.isSome = true := hheader ▸ hs.kind
  obtain ⟨s', hs', hget⟩ := hloaded.getElem?_filterMap (fun e o => isSome_of_loadEntry) he hkind
  have hloaded := hs.loaded
  unfold place at hloaded
  cases hget.symm.trans hloaded
  exact ⟨e, hheader, hs'⟩

end SectionTable

/-- The load of an image is the load of its sections, with what its symbol tables give. -/
theorem Image.load_eq_ok_iff {image : Image} {source : String} {options : Options} {r : Loaded} :
    image.load source options = .ok r ↔
      ∃ sections, image.loadSections source options = .ok sections ∧
        r = { binary := image.binary source sections (merge ((image.symbolTables options).map LabelledTable.outcome))
              events := tableEvents (image.symbolTables options) } := by
  unfold Image.load
  simp only [Except.bind_eq_ok_iff, Except.pure_eq_ok, Except.ok.injEq, eq_comm (b := r)]

/-! ## The small image -/

namespace ImageSpec

/-- The header of the first section of the small image. -/
def sampleHeader : SectionHeader :=
  { nameField := nameField ".text", virtualSize := 4, virtualAddress := 0x1000, rawSize := 2, rawPointer := 272
    characteristics := 0x60000020 }

/-- The section that it is loaded as. -/
def sampleSection : Section :=
  { binary := "sample", name := ".text", kind := .code, vma := 0x401000, size := 4, fileOffset := 272, flags := 0x60000020
    bytes := #[0x55, 0xC3] }

/-- What is read of the small image. -/
def sampleImage : Image :=
  { view := sample.view
    headers := { signatureOffset := 0x40, file := sample.file, optional := sample.optional, directories := sample.directories }
    strings := some ⟨⟨#[4, 0, 0, 0]⟩⟩
    sections := ⟨List.zipWith (fun spec h => ⟨h, spec.name⟩) sample.sections
      (SectionSpec.headersFrom sample.dataStart sample.sections)⟩ }

theorem read_sample : Image.read sample.view {} = .ok sampleImage := by
  refine Image.read_eq_ok_iff.2 ⟨rfl, ?_, ?_, ?_, ?_⟩
  all_goals decide +kernel

/-- The small image is loaded, and its first header as its section. -/
theorem exists_loadedAs_sample : ∃ r, sampleImage.load "sample" {} = .ok r ∧
    sampleImage.sections.LoadedAs r.binary.sections 0 sampleHeader sampleSection := by
  have h : (sampleImage.load "sample" {}).toOption.map (fun r =>
      decide (sampleImage.sections.LoadedAs r.binary.sections 0 sampleHeader sampleSection)) = some true := by
    decide +kernel
  obtain ⟨r, hload, hs⟩ := Except.exists_of_toOption_map h
  exact ⟨r, hload, of_decide_eq_true hs⟩

end ImageSpec

end ExecImage.Pe
