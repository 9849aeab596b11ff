import ExecImage.Proofs.Elf.Writer
import ExecImage.Proofs.Pe.Writer
import ExecImage.Proofs.Stages

/-!
# The section that ends a load

A section of code or data is loaded if its addresses fit, its bytes are in the file, and they are not more than may be copied.
The first section that fails one of these ends the load, with the error of the first of them that it fails
(`Image.load_eq_error_iff_first`). The formats do not try them in one order: a PE image looks for the raw data before
it compares them with the limit, and an ELF image does so after. Hence a section outside the file is always reported as
corrupt in a PE image, but in an ELF image only if it is not above the limit (`load_of_firstAtFault`).
-/

namespace ExecImage

open Except (exists_error_iff map_eq_error_iff mapM_eq_error_iff)

variable {source : String} {options : Options} {error : LoadError}

/-! ## ELF images -/

namespace Elf.Image

variable {image : Image} {e : NamedHeader}

/-- What a section of code or data has to satisfy to be loaded. -/
structure Passes (image : Image) (options : Options) (h : SectionHeader) : Prop where
  /-- The addresses fit. -/
  fits : image.sections.cls.width.Fits h.addr.toNat h.size.toNat
  /-- The contents are in the file. -/
  inside : h.hasFileData = true → image.sections.view.Covers h.offset.toNat h.size.toNat
  /-- The contents are not more than may be copied. -/
  within : h.hasFileData = true → h.size.toNat ≤ options.maxSectionBytes.toNat

instance (image : Image) (options : Options) (h : SectionHeader) : Decidable (image.Passes options h) :=
  decidable_of_iff (_ ∧ _ ∧ _) ⟨fun ⟨hf, hi, hw⟩ => ⟨hf, hi, hw⟩, fun ⟨hf, hi, hw⟩ => ⟨hf, hi, hw⟩⟩

/-- The first section of code or data that cannot be loaded. -/
def firstAtFault? (image : Image) (options : Options) : Option NamedHeader :=
  image.sections.entries.find? fun e => e.header.kind?.isSome && !decide (image.Passes options e.header)

/-- A section that can be loaded is one whose addresses fit and whose bytes can be copied. -/
theorem passes_iff (name : String) {h : SectionHeader} :
    image.Passes options h ↔
      image.sections.cls.width.Fits h.addr.toNat h.size.toNat ∧ ∃ bytes, image.sections.copy name h options = .ok bytes := by
  rw [← SectionTable.canLoad_iff name]
  constructor
  · intro hp
    refine ⟨hp.fits, fun htype => ?_⟩
    have hd := SectionHeader.hasFileData_iff.2 htype
    exact ⟨hp.within hd, hp.inside hd⟩
  · intro hl
    have hbytes (hd : h.hasFileData = true) := hl.bytes (SectionHeader.hasFileData_iff.1 hd)
    exact ⟨hl.fits, fun hd => (hbytes hd).2, fun hd => (hbytes hd).1⟩

/-- A load fails at the sections of code or data that cannot be loaded. -/
theorem fails_iff :
    (e.header.kind?.isSome && !decide (image.Passes options e.header)) = true ↔
      ∃ error, image.sections.loadEntry source options e = .error error := by
  simp only [Bool.and_eq_true, Option.isSome_iff_ne_none, Bool.not_eq_true', decide_eq_false_iff_not,
    passes_iff (Section.displayName e.name), SectionTable.loadEntry_eq_error_iff, exists_and_left, exists_error_iff]

/-- A load of an ELF image fails exactly when there is a section that cannot be loaded, with the error of the first one. -/
theorem load_eq_error_iff_first :
    image.load source options = .error error ↔
      ∃ e, image.firstAtFault? options = some e ∧ image.sections.loadEntry source options e = .error error := by
  rw [load_eq_error_iff, SectionTable.load, map_eq_error_iff]
  exact mapM_eq_error_iff fun _ => fails_iff

/-- The first section that cannot be loaded is of code or data. -/
theorem kind?_of_first (h : image.firstAtFault? options = some e) : e.header.kind? ≠ none := by
  have hfails := List.find?_some h
  rw [Bool.and_eq_true] at hfails
  exact Option.isSome_iff_ne_none.1 hfails.1

/-- A section whose addresses fit and whose contents are not in the file ends the load of an ELF image, as one that is too large if
it is above the limit. -/
theorem load_of_first_outside (h : image.firstAtFault? options = some e)
    (hf : image.sections.cls.width.Fits e.header.addr.toNat e.header.size.toNat) (hd : e.header.hasFileData = true)
    (hc : ¬image.sections.view.Covers e.header.offset.toNat e.header.size.toNat) :
    image.load source options = .error (
      if options.maxSectionBytes.toNat < e.header.size.toNat then .outOfMemory e.header.size.toNat
      else .corruptSection (Section.displayName e.name)
        (.contentsOutside e.header.offset.toNat e.header.size.toNat image.sections.view.size)) := by
  refine load_eq_error_iff_first.2 ⟨e, h, SectionTable.loadEntry_eq_error_iff.2 ⟨kind?_of_first h, .inr ⟨hf, ?_⟩⟩⟩
  refine SectionTable.copy_eq_error_iff.2 ⟨hd, ?_⟩
  by_cases hm : options.maxSectionBytes.toNat < e.header.size.toNat
  · exact .inl ⟨hm, if_pos hm⟩
  · exact .inr ⟨Nat.not_lt.1 hm, hc, if_neg hm⟩

/-- A section is too large for an ELF image only if it has contents above the limit. -/
theorem first_of_outOfMemory {n : Nat} (h : image.load source options = .error (.outOfMemory n)) :
    ∃ e, image.firstAtFault? options = some e ∧ image.sections.cls.width.Fits e.header.addr.toNat e.header.size.toNat ∧
      e.header.hasFileData = true ∧ n = e.header.size.toNat ∧ options.maxSectionBytes.toNat < n := by
  obtain ⟨e, hfirst, he⟩ := load_eq_error_iff_first.1 h
  obtain ⟨-, ⟨-, hother⟩ | ⟨hf, hcopy⟩⟩ := SectionTable.loadEntry_eq_error_iff.1 he
  · nomatch hother
  obtain ⟨hd, ⟨hm, hn⟩ | ⟨-, -, hother⟩⟩ := SectionTable.copy_eq_error_iff.1 hcopy
  · cases hn
    exact ⟨e, hfirst, hf, hd, rfl, hm⟩
  · nomatch hother

end Elf.Image

/-! ## PE images -/

namespace Pe.Image

variable {image : Image} {e : NamedHeader}

/-- The addresses of a section, counted from the image base, fit. -/
def Fits (image : Image) (h : SectionHeader) : Prop :=
  image.headers.optional.width.Fits (image.headers.optional.imageBase.toNat + h.virtualAddress.toNat) h.mappedSize.toNat

instance (image : Image) (h : SectionHeader) : Decidable (image.Fits h) :=
  inferInstanceAs (Decidable (Width.Fits _ _ _))

/-- What a section of code or data has to satisfy to be loaded. -/
structure Passes (image : Image) (options : Options) (h : SectionHeader) : Prop where
  /-- The addresses fit. -/
  fits : image.Fits h
  /-- The raw data are in the file. -/
  inside : h.rawSize ≠ 0 → image.view.Covers h.rawPointer.toNat h.rawSize.toNat
  /-- What is mapped of the raw data is not more than may be copied. -/
  within : h.rawSize ≠ 0 → min h.rawSize.toNat h.mappedSize.toNat ≤ options.maxSectionBytes.toNat

instance (image : Image) (options : Options) (h : SectionHeader) : Decidable (image.Passes options h) :=
  decidable_of_iff (_ ∧ _ ∧ _) ⟨fun ⟨hf, hi, hw⟩ => ⟨hf, hi, hw⟩, fun ⟨hf, hi, hw⟩ => ⟨hf, hi, hw⟩⟩

/-- The first section of code or data that cannot be loaded. -/
def firstAtFault? (image : Image) (options : Options) : Option NamedHeader :=
  image.sections.entries.find? fun e => e.header.kind?.isSome && !decide (image.Passes options e.header)

/-- A section that can be loaded is one whose addresses fit and whose bytes can be copied. -/
theorem passes_iff (name : String) {h : SectionHeader} :
    image.Passes options h ↔ image.Fits h ∧ ∃ bytes, SectionTable.copy image.view name h options = .ok bytes := by
  have hiff : SectionTable.CanLoad image.view image.headers.optional.imageBase image.headers.optional.width options h ↔
      image.Fits h ∧ ∃ bytes, SectionTable.copy image.view name h options = .ok bytes := SectionTable.canLoad_iff name
  rw [← hiff]
  constructor
  · intro hp
    exact ⟨hp.fits, fun h0 => ⟨hp.inside h0, hp.within h0⟩⟩
  · intro hl
    exact ⟨hl.fits, fun h0 => (hl.bytes h0).1, fun h0 => (hl.bytes h0).2⟩

/-- The load of a section from the file of an image, at the addresses of the image. -/
abbrev loadEntry (image : Image) (source : String) (options : Options) (e : NamedHeader) :
    Except LoadError (Option Section) :=
  SectionTable.loadEntry image.view image.headers.optional.imageBase image.headers.optional.width source options e

/-- A load fails at the sections of code or data that cannot be loaded. -/
theorem fails_iff :
    (e.header.kind?.isSome && !decide (image.Passes options e.header)) = true ↔
      ∃ error, image.loadEntry source options e = .error error := by
  simp only [Bool.and_eq_true, Option.isSome_iff_ne_none, Bool.not_eq_true', decide_eq_false_iff_not,
    passes_iff (Section.displayName e.name), SectionTable.loadEntry_eq_error_iff, exists_and_left, exists_error_iff,
    Fits, loadEntry]

/-- A load of a PE image fails exactly when there is a section that cannot be loaded, with the error of the first one. -/
theorem load_eq_error_iff_first :
    image.load source options = .error error ↔
      ∃ e, image.firstAtFault? options = some e ∧ image.loadEntry source options e = .error error := by
  rw [load_eq_error_iff, loadSections, SectionTable.load, map_eq_error_iff]
  exact mapM_eq_error_iff fun _ => fails_iff

/-- The first section that cannot be loaded is of code or data. -/
theorem kind?_of_first (h : image.firstAtFault? options = some e) : e.header.kind? ≠ none := by
  have hfails := List.find?_some h
  rw [Bool.and_eq_true] at hfails
  exact Option.isSome_iff_ne_none.1 hfails.1

/-- A section whose addresses fit and whose raw data are not in the file ends the load of a PE image, whatever the limit. -/
theorem load_of_first_outside (h : image.firstAtFault? options = some e) (hf : image.Fits e.header) (h0 : e.header.rawSize ≠ 0)
    (hc : ¬image.view.Covers e.header.rawPointer.toNat e.header.rawSize.toNat) :
    image.load source options = .error (.corruptSection (Section.displayName e.name)
      (.rawDataOutside e.header.rawPointer.toNat e.header.rawSize.toNat image.view.size)) := by
  refine load_eq_error_iff_first.2 ⟨e, h, SectionTable.loadEntry_eq_error_iff.2 ⟨kind?_of_first h, .inr ⟨hf, ?_⟩⟩⟩
  exact SectionTable.copy_eq_error_iff.2 ⟨h0, .inl ⟨hc, rfl⟩⟩

/-- A section is too large for a PE image only if its raw data are in the file and what is mapped of them is above the limit. -/
theorem first_of_outOfMemory {n : Nat} (h : image.load source options = .error (.outOfMemory n)) :
    ∃ e, image.firstAtFault? options = some e ∧ image.Fits e.header ∧ e.header.rawSize ≠ 0 ∧
      image.view.Covers e.header.rawPointer.toNat e.header.rawSize.toNat ∧
      n = min e.header.rawSize.toNat e.header.mappedSize.toNat ∧ options.maxSectionBytes.toNat < n := by
  obtain ⟨e, hfirst, he⟩ := load_eq_error_iff_first.1 h
  obtain ⟨-, ⟨-, hother⟩ | ⟨hf, hcopy⟩⟩ := SectionTable.loadEntry_eq_error_iff.1 he
  · nomatch hother
  obtain ⟨h0, ⟨-, hother⟩ | ⟨hc, hm, hn⟩⟩ := SectionTable.copy_eq_error_iff.1 hcopy
  · nomatch hother
  · cases hn
    exact ⟨e, hfirst, hf, h0, hc, rfl, hm⟩

end Pe.Image

/-! ## Both formats -/

/-- What ends a load at the first section that cannot be loaded, if the addresses of the section fit. Raw data outside the file make
the section corrupt in a PE image, whatever the limit; contents outside the file do so in an ELF image if they are not above
the limit, and above the limit they are too large to be copied. No PE image is refused for a section that is too large
unless its raw data are in the file and what is mapped of them is above the limit; no ELF image unless the section has
contents above the limit. -/
theorem load_of_firstAtFault (source : String) (options : Options) :
    (∀ (image : Pe.Image) (e : Pe.NamedHeader), image.firstAtFault? options = some e → image.Fits e.header →
        e.header.rawSize ≠ 0 → ¬image.view.Covers e.header.rawPointer.toNat e.header.rawSize.toNat →
        image.load source options = .error (.corruptSection (Section.displayName e.name)
          (.rawDataOutside e.header.rawPointer.toNat e.header.rawSize.toNat image.view.size))) ∧
      (∀ (image : Pe.Image) (n : Nat), image.load source options = .error (.outOfMemory n) →
        ∃ e, image.firstAtFault? options = some e ∧ image.Fits e.header ∧ e.header.rawSize ≠ 0 ∧
          image.view.Covers e.header.rawPointer.toNat e.header.rawSize.toNat ∧
          n = min e.header.rawSize.toNat e.header.mappedSize.toNat ∧ options.maxSectionBytes.toNat < n) ∧
      (∀ (image : Elf.Image) (e : Elf.NamedHeader), image.firstAtFault? options = some e →
        image.sections.cls.width.Fits e.header.addr.toNat e.header.size.toNat → e.header.hasFileData = true →
        ¬image.sections.view.Covers e.header.offset.toNat e.header.size.toNat →
        image.load source options = .error (
          if options.maxSectionBytes.toNat < e.header.size.toNat then .outOfMemory e.header.size.toNat
          else .corruptSection (Section.displayName e.name)
            (.contentsOutside e.header.offset.toNat e.header.size.toNat image.sections.view.size))) ∧
      ∀ (image : Elf.Image) (n : Nat), image.load source options = .error (.outOfMemory n) →
        ∃ e, image.firstAtFault? options = some e ∧
          image.sections.cls.width.Fits e.header.addr.toNat e.header.size.toNat ∧
          e.header.hasFileData = true ∧ n = e.header.size.toNat ∧ options.maxSectionBytes.toNat < n :=
  ⟨fun _ _ => Pe.Image.load_of_first_outside, fun _ _ => Pe.Image.first_of_outOfMemory,
    fun _ _ => Elf.Image.load_of_first_outside, fun _ _ => Elf.Image.first_of_outOfMemory⟩

/-- A small image whose section of code declares more bytes than the file has, and more than are copied by default. -/
def Elf.ImageSpec.oversized : Elf.ImageSpec :=
  { ident := { cls := .elf32, order := .big }
    machine := 3
    entry := 0x1000
    sections := [{
      name := ".text", type := 1, flags := 6, addr := 0x1000, data := [0x55, 0xC3], declaredSize := some 0x50000000 }] }

/-- The start of a small image that ends in the raw data of its section of code. -/
def Pe.ImageSpec.sampleStart : View :=
  ⟨Pe.ImageSpec.sample.write.toArray.extract 0 (Pe.ImageSpec.sample.dataStart + 1)⟩

/-- The section of code is reported as corrupt: in the ELF image under a limit that is not below its size, and in the PE image
under a limit that it is above. -/
theorem load_of_firstAtFault_sample :
    (∃ image, Elf.Image.read Elf.ImageSpec.oversized.view {} = .ok image ∧
        image.load "sample" { maxSectionBytes := 0x50000000 } =
          .error (.corruptSection ".text" (.contentsOutside 0x38 0x50000000 0xD0))) ∧
      ∃ image, Pe.Image.read Pe.ImageSpec.sampleStart {} = .ok image ∧
        image.load "sample" { maxSectionBytes := 1 } = .error (.corruptSection ".text" (.rawDataOutside 0x110 2 0x111)) := by
  constructor
  · have h : (Elf.Image.read Elf.ImageSpec.oversized.view {}).toOption.map (fun image =>
        (image.firstAtFault? { maxSectionBytes := 0x50000000 }).map fun e =>
          (e.name, e.header.offset.toNat, e.header.size.toNat, image.sections.view.size,
            decide (image.sections.cls.width.Fits e.header.addr.toNat e.header.size.toNat ∧ e.header.hasFileData = true ∧
              ¬image.sections.view.Covers e.header.offset.toNat e.header.size.toNat))) =
        some (some (".text", 0x38, 0x50000000, 0xD0, true)) := by
      decide +kernel
    obtain ⟨image, hread, hfirst⟩ := Except.exists_of_toOption_map h
    obtain ⟨e, hfirst, hfields⟩ := Option.map_eq_some_iff.1 hfirst
    simp only [Prod.mk.injEq, decide_eq_true_eq] at hfields
    obtain ⟨hname, hoffset, hsize, hfile, hfits, hdata, hcovers⟩ := hfields
    have hload := (load_of_firstAtFault "sample" { maxSectionBytes := 0x50000000 }).2.2.1 image e hfirst hfits hdata hcovers
    rw [hname, hoffset, hsize, hfile, if_neg (by decide)] at hload
    exact ⟨image, hread, hload⟩
  · have h : (Pe.Image.read Pe.ImageSpec.sampleStart {}).toOption.map (fun image =>
        (image.firstAtFault? { maxSectionBytes := 1 }).map fun e =>
          (e.name, e.header.rawPointer.toNat, e.header.rawSize.toNat, image.view.size,
            decide (image.Fits e.header ∧ e.header.rawSize ≠ 0 ∧
              ¬image.view.Covers e.header.rawPointer.toNat e.header.rawSize.toNat))) =
        some (some (".text", 0x110, 2, 0x111, true)) := by
      decide +kernel
    obtain ⟨image, hread, hfirst⟩ := Except.exists_of_toOption_map h
    obtain ⟨e, hfirst, hfields⟩ := Option.map_eq_some_iff.1 hfirst
    simp only [Prod.mk.injEq, decide_eq_true_eq] at hfields
    obtain ⟨hname, hpointer, hsize, hfile, hfits, hraw, hcovers⟩ := hfields
    have hload := (load_of_firstAtFault "sample" { maxSectionBytes := 1 }).1 image e hfirst hfits hraw hcovers
    rw [hname, hpointer, hsize, hfile] at hload
    exact ⟨image, hread, hload⟩

/-- The contents of the section of code of the ELF image are not in the file, but under the default limit the load does not say
so. -/
theorem not_corruptSection_oversized :
    ∃ image e, Elf.Image.read Elf.ImageSpec.oversized.view {} = .ok image ∧ image.firstAtFault? {} = some e ∧
      image.sections.cls.width.Fits e.header.addr.toNat e.header.size.toNat ∧ e.header.hasFileData = true ∧
      ¬image.sections.view.Covers e.header.offset.toNat e.header.size.toNat ∧
      (∀ name fault, image.load "sample" {} ≠ .error (.corruptSection name fault)) ∧
      load Elf.ImageSpec.oversized.view "sample" .auto {} = .error (.outOfMemory 0x50000000) := by
  have h : (Elf.Image.read Elf.ImageSpec.oversized.view {}).toOption.map (fun image =>
      (image.firstAtFault? {}).map fun e =>
        (e.header.size.toNat,
          decide (image.sections.cls.width.Fits e.header.addr.toNat e.header.size.toNat ∧ e.header.hasFileData = true ∧
            ¬image.sections.view.Covers e.header.offset.toNat e.header.size.toNat))) =
      some (some (0x50000000, true)) := by
    decide +kernel
  obtain ⟨image, hread, hfirst⟩ := Except.exists_of_toOption_map h
  obtain ⟨e, hfirst, hfields⟩ := Option.map_eq_some_iff.1 hfirst
  simp only [Prod.mk.injEq, decide_eq_true_eq] at hfields
  obtain ⟨hsize, hfits, hdata, hcovers⟩ := hfields
  have hload : image.load "sample" {} = _ := Elf.Image.load_of_first_outside hfirst hfits hdata hcovers
  rw [if_pos (by rw [hsize]; decide)] at hload
  refine ⟨image, e, hread, hfirst, hfits, hdata, hcovers, ?_, by decide +kernel⟩
  intro name fault hcorrupt
  rw [hload] at hcorrupt
  nomatch hcorrupt

end ExecImage
