import ExecImage.File
import ExecImage.Proofs.Elf.Writer
import ExecImage.Proofs.Steps

/-!
# The label of an image is carried along and never read

A caller gives an image a label, and the image and each of its sections bear it. Nothing else depends on it: a load under another
label is the same load with the label replaced in the result (`loadLogged_relabel`), so it ends with the same error, reports the
same warnings and leaves the same log. The statements go up from a section to the load; each says that replacing the label
commutes with one stage.

An image in a file is loaded under the file's path, so it differs in the label only from an image loaded from memory.
-/

namespace ExecImage

/-- A section under another label. -/
def Section.relabel (label : String) (s : Section) : Section :=
  { s with binary := label }

/-- An image under another label. -/
def Binary.relabel (label : String) (b : Binary) : Binary :=
  { b with source := label, sections := b.sections.map (Section.relabel label) }

/-- A loaded image under another label. The log names no label. -/
def Loaded.relabel (label : String) (r : Loaded) : Loaded :=
  { r with binary := r.binary.relabel label }

/-- An image bears the label that it was given last. -/
theorem Binary.isLabelled_relabel (label : String) (b : Binary) : (b.relabel label).IsLabelled label := by
  refine ⟨rfl, fun s hs => ?_⟩
  obtain ⟨s', -, rfl⟩ := List.mem_map.1 hs
  rfl

/-- Only the last label counts. -/
theorem Binary.relabel_relabel (label label' : String) (b : Binary) :
    (b.relabel label).relabel label' = b.relabel label' := by
  have hsections : (Section.relabel label') ∘ (Section.relabel label) = Section.relabel label' := rfl
  simp only [relabel, List.map_map, hsections]

variable {v : View} {options : Options} (label label' : String)

/-- What is kept of sections that are loaded is kept under another label. -/
theorem mapM_filterMap_relabel {α : Type} {f f' : α → Except LoadError (Option Section)}
    (h : ∀ x, f' x = (f x).map (Option.map (Section.relabel label'))) (xs : List α) :
    (xs.mapM f').map (fun loaded => loaded.filterMap id) =
      ((xs.mapM f).map fun loaded => loaded.filterMap id).map (List.map (Section.relabel label')) := by
  induction xs with
  | nil => rfl
  | cons x xs ih =>
    rw [Except.mapM_filterMap_cons, Except.mapM_filterMap_cons, ih, h]
    cases f x with
    | error e => rfl
    | ok o =>
      cases (xs.mapM f).map fun loaded => loaded.filterMap id with
      | error e => rfl
      | ok sections => cases o <;> rfl

/-! ## ELF images -/

namespace Elf

theorem SectionTable.loadEntry_relabel (t : SectionTable) (e : NamedHeader) :
    t.loadEntry label' options e = (t.loadEntry label options e).map (Option.map (Section.relabel label')) := by
  unfold loadEntry
  cases hk : e.header.kind? with
  | none =>
    simp only [hk]
    rfl
  | some kind =>
    simp only [hk]
    by_cases hfits : t.cls.width.Fits e.header.addr.toNat e.header.size.toNat
    · rw [if_pos hfits, if_pos hfits]
      cases t.copy (Section.displayName e.name) e.header options <;> rfl
    · rw [if_neg hfits, if_neg hfits]
      rfl

theorem SectionTable.load_relabel (t : SectionTable) :
    t.load label' options = (t.load label options).map (List.map (Section.relabel label')) :=
  mapM_filterMap_relabel label' (t.loadEntry_relabel label label') t.entries

theorem Image.load_relabel (image : Image) :
    image.load label' options = (image.load label options).map (Loaded.relabel label') := by
  unfold Image.load
  rw [image.sections.load_relabel label label']
  cases image.sections.load label options <;> rfl

end Elf

/-! ## PE images -/

namespace Pe

theorem SectionTable.loadEntry_relabel (imageBase : UInt64) (width : Width) (e : NamedHeader) :
    loadEntry v imageBase width label' options e =
      (loadEntry v imageBase width label options e).map (Option.map (Section.relabel label')) := by
  unfold loadEntry
  cases hk : e.header.kind? with
  | none =>
    simp only [hk]
    rfl
  | some kind =>
    simp only [hk]
    by_cases hfits : width.Fits (imageBase.toNat + e.header.virtualAddress.toNat) e.header.mappedSize.toUInt64.toNat
    · rw [if_pos hfits, if_pos hfits]
      cases copy v (Section.displayName e.name) e.header options <;> rfl
    · rw [if_neg hfits, if_neg hfits]
      rfl

theorem SectionTable.load_relabel (t : SectionTable) (imageBase : UInt64) (width : Width) :
    t.load v imageBase width label' options =
      (t.load v imageBase width label options).map (List.map (Section.relabel label')) :=
  mapM_filterMap_relabel label' (loadEntry_relabel label label' imageBase width) t.entries

theorem Image.load_relabel (image : Image) :
    image.load label' options = (image.load label options).map (Loaded.relabel label') := by
  unfold Image.load loadSections
  rw [image.sections.load_relabel label label']
  cases image.sections.load image.view image.headers.optional.imageBase image.headers.optional.width label options <;> rfl

end Pe

/-! ## Loads -/

/-- A load under another label is the same load, with the label replaced in what it gives. -/
theorem loadLogged_relabel (v : View) (hint : FormatHint) (options : Options) :
    loadLogged v label' hint options = (loadLogged v label hint options).map (Loaded.relabel label') := by
  unfold loadLogged
  rw [Except.map_bind]
  refine Except.bind_congr_ok fun format _ => ?_
  cases format with
  | elf =>
    dsimp only
    rw [Except.map_bind]
    exact Except.bind_congr_ok fun image _ => image.load_relabel label label'
  | pe =>
    dsimp only
    rw [Except.map_bind]
    exact Except.bind_congr_ok fun image _ => image.load_relabel label label'
  | unrecognized => rfl

theorem load_relabel (v : View) (hint : FormatHint) (options : Options) :
    load v label' hint options = (load v label hint options).map (Binary.relabel label') := by
  unfold load
  rw [loadLogged_relabel label label']
  cases loadLogged v label hint options <;> rfl

/-- A loaded image and all its sections bear the label that the load was given. -/
theorem isLabelled_of_load {label : String} {hint : FormatHint} {b : Binary} (h : load v label hint options = .ok b) :
    b.IsLabelled label := by
  have hrelabel := load_relabel label label v hint options
  rw [h] at hrelabel
  have hb : b = b.relabel label := Except.ok.inj hrelabel
  rw [hb]
  exact b.isLabelled_relabel label

/-- Two loads under two labels end alike: with one error, or with images that bear their labels and are the same image under
any common label. -/
inductive EndAlike (label label' : String) : Except LoadError Binary → Except LoadError Binary → Prop where
  | failed (error : LoadError) : EndAlike label label' (.error error) (.error error)
  | loaded {b b' : Binary} (own : b.IsLabelled label) (own' : b'.IsLabelled label')
      (same : ∀ common, b.relabel common = b'.relabel common) : EndAlike label label' (.ok b) (.ok b')

/-- An image in a file is loaded as its contents are loaded from memory under the file's path, and a file above the limit is not
read. The usual limit and options are a case of this. -/
structure LoadsAsContents (path : String) (contents : View) (limit : Nat) (hint : FormatHint) (options : Options) : Prop where
  within : contents.size ≤ limit → ∃ f, ImageFile.read path (some contents.bytes) limit = .ok f ∧
    f.load hint options = load contents path hint options
  above : limit < contents.size →
    ImageFile.read path (some contents.bytes) limit = .error (.tooLarge limit contents.size)
  usual : contents.size ≤ defaultFileLimit →
    loadFile path (some contents.bytes) hint = (load contents path hint {}).mapError FileError.load
  usualAbove : defaultFileLimit < contents.size →
    loadFile path (some contents.bytes) hint = .error (.tooLarge defaultFileLimit contents.size)

/-- A file within the limit is read with its contents. -/
theorem ImageFile.read_of_le {path : String} {contents : View} {limit : Nat} (h : contents.size ≤ limit) :
    ImageFile.read path (some contents.bytes) limit = .ok { path, contents } :=
  if_neg (Nat.not_lt.2 h)

/-- A file above the limit is refused with the limit and its size. -/
theorem ImageFile.read_of_lt {path : String} {contents : View} {limit : Nat} (h : limit < contents.size) :
    ImageFile.read path (some contents.bytes) limit = .error (.tooLarge limit contents.size) :=
  if_pos h

theorem loadsAsContents (path : String) (contents : View) (limit : Nat) (hint : FormatHint) (options : Options) :
    LoadsAsContents path contents limit hint options where
  within h := ⟨_, ImageFile.read_of_le h, rfl⟩
  above h := ImageFile.read_of_lt h
  usual h := by
    have hload : ImageFile.load ⟨path, contents⟩ hint {} = load contents path hint {} := rfl
    unfold loadFile
    rw [ImageFile.read_of_le h]
    dsimp only [bind, Except.bind]
    rw [hload]
    cases load contents path hint {} <;> rfl
  usualAbove h := by
    unfold loadFile
    rw [ImageFile.read_of_lt h]
    rfl

/-- Loads under two labels end with the same error, or with images that bear their labels and are otherwise the same. An image in
a file of any path and within any limit is loaded as from memory under the path. -/
theorem load_of_labels (v : View) (label label' : String) (hint : FormatHint) (options : Options) :
    EndAlike label label' (load v label hint options) (load v label' hint options) ∧
      ∀ path limit, LoadsAsContents path v limit hint options := by
  refine ⟨?_, fun path limit => loadsAsContents path v limit hint options⟩
  have hown := load_relabel label label' v hint options
  cases h : load v label hint options with
  | error e =>
    rw [hown, h]
    exact .failed e
  | ok b =>
    rw [hown, h]
    refine .loaded (isLabelled_of_load h) (b.isLabelled_relabel label') fun common => ?_
    rw [Binary.relabel_relabel]

/-- The small image is 344 bytes long. It is loaded alike under two labels, and from a file if 344 bytes are allowed; the file is
refused if one byte less is allowed. -/
theorem load_of_labels_sample :
    (∃ b b', load Elf.ImageSpec.sample.view "first" .auto {} = .ok b ∧
        load Elf.ImageSpec.sample.view "second" .auto {} = .ok b' ∧ b.sections.length = 1 ∧ b.IsLabelled "first" ∧
        b'.IsLabelled "second" ∧ b.relabel "" = b'.relabel "") ∧
      (∃ f, ImageFile.read "image" (some Elf.ImageSpec.sample.view.bytes) 344 = .ok f ∧
        f.load .auto {} = load Elf.ImageSpec.sample.view "image" .auto {}) ∧
      ImageFile.read "image" (some Elf.ImageSpec.sample.view.bytes) 343 = .error (.tooLarge 343 344) := by
  have hsize : Elf.ImageSpec.sample.view.size = 344 := by decide +kernel
  have hone : (load Elf.ImageSpec.sample.view "first" .auto {}).toOption.map (fun b => b.sections.length) = some 1 := by
    decide +kernel
  obtain ⟨halike, hfile⟩ := load_of_labels Elf.ImageSpec.sample.view "first" "second" .auto {}
  have hwithin : Elf.ImageSpec.sample.view.size ≤ 344 := Nat.le_of_eq hsize
  refine ⟨?_, (hfile "image" 344).within hwithin, ?_⟩
  · obtain ⟨b, hb, hlength⟩ := Except.exists_of_toOption_map hone
    rw [hb] at halike
    cases hb' : load Elf.ImageSpec.sample.view "second" .auto {} with
    | error e =>
      rw [hb'] at halike
      nomatch halike
    | ok b' =>
      rw [hb'] at halike
      cases halike with
      | loaded own own' same => exact ⟨b, b', hb, rfl, hlength, own, own', same ""⟩
  · have habove : 343 < Elf.ImageSpec.sample.view.size := by omega
    rw [(hfile "image" 343).above habove, hsize]

end ExecImage
