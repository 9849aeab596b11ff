import ExecImage.Load
import ExecImage.Proofs.Elf.Sections
import ExecImage.Proofs.Pe.Sections

/-!
# The stages of a load

A load selects the format, reads the headers and the section table, and loads the sections; each of these stages can
end it. The symbol tables come last and cannot. `Staged` states what the stages leave when all of them succeed, one
constructor per format, and `load_eq_ok_iff` says that nothing else makes a load succeed.
-/

namespace ExecImage

open Except (bind_eq_ok_iff bind_eq_error_iff)

/-- The headers of an ELF image are read exactly when the file header is, the machine is supported and the section
table is read. -/
theorem Elf.Image.read_eq_ok_iff {v : View} {options : Options} {image : Elf.Image} :
    Elf.Image.read v options = .ok image ↔
      Elf.Header.read v = .ok image.header ∧ image.header.isSupported = true ∧
        Elf.SectionTable.read v image.header options = .ok image.sections := by
  unfold Elf.Image.read
  rw [bind_eq_ok_iff]
  constructor
  · rintro ⟨header, hh, h⟩
    split at h
    · rename_i hs
      obtain ⟨sections, ht, h⟩ := bind_eq_ok_iff.1 h
      cases h
      exact ⟨hh, hs, ht⟩
    · nomatch h
  · rintro ⟨hh, hs, ht⟩
    refine ⟨_, hh, ?_⟩
    rw [if_pos hs]
    exact bind_eq_ok_iff.2 ⟨_, ht, rfl⟩

/-- The headers of a PE image are read exactly when its headers are, the machine is supported and the section table is
read; the string table is looked for, and need not be found. -/
theorem Pe.Image.read_eq_ok_iff {v : View} {options : Options} {image : Pe.Image} :
    Pe.Image.read v options = .ok image ↔
      image.view = v ∧ Pe.Headers.read v = .ok image.headers ∧ image.headers.file.isSupported = true ∧
        image.strings = Pe.StringTable.locate? v image.headers.file.symbolPointer image.headers.file.symbolCount ∧
        Pe.SectionTable.read v image.headers.sectionTableOffset image.headers.file.sectionCount image.strings options =
          .ok image.sections := by
  unfold Pe.Image.read
  rw [bind_eq_ok_iff]
  constructor
  · rintro ⟨headers, hh, h⟩
    dsimp only at h
    split at h
    · rename_i hs
      obtain ⟨sections, ht, h⟩ := bind_eq_ok_iff.1 h
      cases h
      exact ⟨rfl, hh, hs, rfl, ht⟩
    · nomatch h
  · rintro ⟨rfl, hh, hs, hstrings, ht⟩
    refine ⟨_, hh, ?_⟩
    dsimp only
    rw [if_pos hs]
    refine bind_eq_ok_iff.2 ⟨_, hstrings ▸ ht, ?_⟩
    rw [← hstrings]
    rfl

/-- Only the sections can fail when an ELF image is loaded. -/
theorem Elf.Image.load_eq_error_iff {image : Elf.Image} {source : String} {options : Options} {error : LoadError} :
    image.load source options = .error error ↔ image.sections.load source options = .error error := by
  unfold Elf.Image.load
  rw [bind_eq_error_iff]
  simp [Except.pure_eq_ok]

/-- Only the sections can fail when a PE image is loaded. -/
theorem Pe.Image.load_eq_error_iff {image : Pe.Image} {source : String} {options : Options} {error : LoadError} :
    image.load source options = .error error ↔ image.loadSections source options = .error error := by
  unfold Pe.Image.load
  rw [bind_eq_error_iff]
  simp [Except.pure_eq_ok]

/-- The stages before the symbol tables succeed: the format is selected, the headers and the section table are read,
and the sections are loaded. They leave a binary that lacks its symbols, and the symbol tables to take them from. -/
inductive Staged (v : View) (source : String) (hint : FormatHint) (options : Options) :
    (MergedSymbols → Binary) → List LabelledTable → Prop where
  | elf {image : Elf.Image} {sections : List Section} (select : hint.select v = .ok .elf)
      (read : Elf.Image.read v options = .ok image) (load : image.sections.load source options = .ok sections) :
      Staged v source hint options (image.binary source sections) (image.symbolTables options)
  | pe {image : Pe.Image} {sections : List Section} (select : hint.select v = .ok .pe)
      (read : Pe.Image.read v options = .ok image) (load : image.loadSections source options = .ok sections) :
      Staged v source hint options (image.binary source sections) (image.symbolTables options)

/-- A load succeeds exactly when its stages do, and then merges the symbol tables. -/
theorem loadLogged_eq_ok_iff {v : View} {source : String} {hint : FormatHint} {options : Options} {r : Loaded} :
    loadLogged v source hint options = .ok r ↔
      ∃ withSymbols tables, Staged v source hint options withSymbols tables ∧
        r = { binary := withSymbols (merge (tables.map LabelledTable.outcome)), events := tableEvents tables } := by
  unfold loadLogged
  rw [bind_eq_ok_iff]
  constructor
  · rintro ⟨format, hf, h⟩
    cases format with
    | elf =>
      obtain ⟨image, hi, h⟩ := bind_eq_ok_iff.1 h
      obtain ⟨sections, hs, h⟩ := bind_eq_ok_iff.1 h
      cases h
      exact ⟨_, _, .elf hf hi hs, rfl⟩
    | pe =>
      obtain ⟨image, hi, h⟩ := bind_eq_ok_iff.1 h
      obtain ⟨sections, hs, h⟩ := bind_eq_ok_iff.1 h
      cases h
      exact ⟨_, _, .pe hf hi hs, rfl⟩
    | unrecognized => nomatch h
  · rintro ⟨_, _, h, rfl⟩
    cases h with
    | elf hf hi hs => exact ⟨.elf, hf, bind_eq_ok_iff.2 ⟨_, hi, bind_eq_ok_iff.2 ⟨_, hs, rfl⟩⟩⟩
    | pe hf hi hs => exact ⟨.pe, hf, bind_eq_ok_iff.2 ⟨_, hi, bind_eq_ok_iff.2 ⟨_, hs, rfl⟩⟩⟩

/-- An image is loaded exactly when the stages of its load succeed. -/
theorem load_eq_ok_iff {v : View} {source : String} {hint : FormatHint} {options : Options} {b : Binary} :
    load v source hint options = .ok b ↔
      ∃ withSymbols tables, Staged v source hint options withSymbols tables ∧
        b = withSymbols (merge (tables.map LabelledTable.outcome)) := by
  simp only [load, Except.map_eq_ok_iff, loadLogged_eq_ok_iff]
  constructor
  · rintro ⟨_, ⟨withSymbols, tables, h, rfl⟩, rfl⟩
    exact ⟨withSymbols, tables, h, rfl⟩
  · rintro ⟨withSymbols, tables, h, rfl⟩
    exact ⟨_, ⟨withSymbols, tables, h, rfl⟩, rfl⟩

end ExecImage
