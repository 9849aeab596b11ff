import ExecImage.Proofs.Appended
import ExecImage.Proofs.Recognition

/-!
# The start of an image

An image that is loaded may be cut off at any byte. What is left has the same headers as far as they can be read, so its
machine is supported, and no section of it is too large: a section that is found in the start is the section of the
image, which was loaded. So a start of an image is loaded, or it is refused because not all of it is there
(`errors_load_of_begins`). An ELF image that ends in its section headers is not loaded without its last byte.
-/

namespace ExecImage

open Except (ErrorsIn bind_eq_ok_iff carries_eq_iff map_eq_ok_iff)

variable {v w : View} {options : Options} {source : String}

/-! ## Sections that are loaded elsewhere -/

namespace Elf

namespace SectionTable

variable {t t' : SectionTable} {name name' : String} {e : NamedHeader}

/-- A section that is copied from one file is not too large to be copied from another. -/
theorem errors_copy_of_ok {h : SectionHeader} {bytes : Bytes} (hb : t'.copy name' h options = .ok bytes) :
    ErrorsIn LoadError.IsUnreadable (t.copy name h options) := by
  intro error herror
  obtain ⟨hdata, ⟨hlarge, -⟩ | ⟨-, -, rfl⟩⟩ := copy_eq_error_iff.1 herror
  · rcases copy_eq_ok_iff.1 hb with ⟨hnone, -⟩ | ⟨-, hle, -⟩
    · rw [hdata] at hnone
      nomatch hnone
    · omega
  · exact LoadError.isUnreadable_corruptSection _ _

theorem errors_loadEntry_of_ok {o : Option Section} (ho : t'.loadEntry source options e = .ok o) :
    ErrorsIn LoadError.IsUnreadable (t.loadEntry source options e) := by
  intro error herror
  obtain ⟨hkind, ⟨-, rfl⟩ | ⟨-, hcopy⟩⟩ := loadEntry_eq_error_iff.1 herror
  · exact LoadError.isUnreadable_corruptSection _ _
  cases o with
  | none => exact absurd (loadEntry_eq_none_iff.1 ho) hkind
  | some s =>
    obtain ⟨_, bytes, -, -, hbytes, -⟩ := loadEntry_eq_some_iff.1 ho
    exact errors_copy_of_ok hbytes error hcopy

/-- No section is too large for a table if all are loaded from another file. -/
theorem errors_load_of_ok {sections : List Section} (h : (t.within w).load source options = .ok sections) :
    ErrorsIn LoadError.IsUnreadable (t.load source options) := by
  obtain ⟨loaded, hloaded, -⟩ := map_eq_ok_iff.1 h
  refine .map (.mapM_of_ok (List.forall₂_same.2 fun e _ => rfl) hloaded ?_)
  rintro e _ o rfl ho
  exact errors_loadEntry_of_ok ho

end SectionTable

namespace Image

variable {image : Image}

/-- The machine of a start of an image is supported if that of the image is. -/
theorem errors_read_of_begins (h : v.Begins w) (hread : Image.read w options = .ok image) :
    ErrorsIn LoadError.IsUnreadable (Image.read v options) := by
  obtain ⟨hheader, hsupported, -⟩ := read_eq_ok_iff.1 hread
  unfold Image.read
  refine .bind ((Header.errors_read v).imp fun _ he => he.isUnreadable) fun header hstart => ?_
  cases hheader.symm.trans (carries_eq_iff.1 (Header.read_carries h) header hstart)
  rw [if_pos hsupported]
  exact .bind ((SectionTable.errors_read v _).imp fun _ he => he.isUnreadable) fun sections _ => .ok _

/-- The section headers are in the file. -/
theorem covers_headers (h : Image.read v options = .ok image) (h0 : image.header.tableOffset ≠ 0) :
    v.Covers image.header.tableOffset.toNat (image.sections.count * image.header.entrySize.toNat) := by
  obtain ⟨-, -, htable⟩ := read_eq_ok_iff.1 h
  rcases SectionTable.read_eq_ok_iff.1 htable with ⟨hnone, -⟩ | ⟨-, first, headers, names, d⟩
  · exact absurd hnone h0
  · have hlength := (Except.mapM_eq_ok_iff.1 d.readHeaders).length_eq
    rw [List.length_range] at hlength
    have hcount : image.sections.count = SectionTable.sectionCount image.header first := by
      rw [SectionTable.count, d.table, List.length_map, hlength]
    rw [hcount]
    exact d.covers

end Image

end Elf

namespace Pe

namespace SectionTable

variable {name name' : String} {e e' : NamedHeader} {imageBase : UInt64} {width : Width}

/-- A section that is copied from one file is not too large to be copied from another. -/
theorem errors_copy_of_ok {h : SectionHeader} {bytes : Bytes} (hb : copy w name' h options = .ok bytes) :
    ErrorsIn LoadError.IsUnreadable (copy v name h options) := by
  intro error herror
  obtain ⟨hraw, ⟨-, rfl⟩ | ⟨-, hlarge, -⟩⟩ := copy_eq_error_iff.1 herror
  · exact LoadError.isUnreadable_corruptSection _ _
  · rcases copy_eq_ok_iff.1 hb with ⟨hnone, -⟩ | ⟨-, -, hle, -⟩
    · exact absurd hnone hraw
    · omega

theorem errors_loadEntry_of_ok {o : Option Section} (he : e.header = e'.header)
    (ho : loadEntry w imageBase width source options e' = .ok o) :
    ErrorsIn LoadError.IsUnreadable (loadEntry v imageBase width source options e) := by
  intro error herror
  obtain ⟨hkind, ⟨-, rfl⟩ | ⟨-, hcopy⟩⟩ := loadEntry_eq_error_iff.1 herror
  · exact LoadError.isUnreadable_corruptSection _ _
  rw [he] at hkind hcopy
  cases o with
  | none => exact absurd (loadEntry_eq_none_iff.1 ho) hkind
  | some s =>
    obtain ⟨_, bytes, -, -, hbytes, -⟩ := loadEntry_eq_some_iff.1 ho
    exact errors_copy_of_ok hbytes error hcopy

/-- No section is too large for a table if all are loaded from another file, under whatever names. -/
theorem errors_load_of_ok {t t' : SectionTable} {strings strings' : Option StringTable} {sections : List Section}
    (ht : List.Forall₂ (NamedHeader.Renamed strings strings') t.entries t'.entries)
    (h : t'.load w imageBase width source options = .ok sections) :
    ErrorsIn LoadError.IsUnreadable (t.load v imageBase width source options) := by
  obtain ⟨loaded, hloaded, -⟩ := map_eq_ok_iff.1 h
  refine .map (.mapM_of_ok ht hloaded ?_)
  intro e e' o hr ho
  exact errors_loadEntry_of_ok hr.header_eq ho

end SectionTable

/-- The machine of a start of an image is supported if that of the image is. -/
theorem Image.errors_read_of_begins (h : v.Begins w) {image : Image} (hread : Image.read w options = .ok image) :
    ErrorsIn LoadError.IsUnreadable (Image.read v options) := by
  obtain ⟨-, hheaders, hsupported, -⟩ := read_eq_ok_iff.1 hread
  unfold Image.read
  refine .bind ((Headers.errors_read v).imp fun _ he => he.isUnreadable) fun headers hstart => ?_
  cases hheaders.symm.trans (carries_eq_iff.1 (Headers.read_carries h) headers hstart)
  dsimp only
  rw [if_pos hsupported]
  exact .bind ((SectionTable.errors_read _ _ _).imp fun _ he => he.isUnreadable) fun sections _ => .ok _

end Pe

/-! ## The load -/

/-- A start of an image that is loaded is loaded too, or it cannot be read. -/
theorem errors_load_of_begins (h : v.Begins w) {b : Binary} (hb : load w source .auto options = .ok b) :
    ErrorsIn LoadError.IsUnreadable (load v source .auto options) := by
  obtain ⟨_, _, hstaged, -⟩ := load_eq_ok_iff.1 hb
  unfold load loadLogged
  refine .map (.bind (FormatHint.errors_select_auto v) fun format hformat => ?_)
  have hformat' := carries_eq_iff.1 (FormatHint.auto.select_carries h) format hformat
  cases hstaged with
  | elf hselect hread hload =>
    cases hformat'.symm.trans hselect
    refine .bind (Elf.Image.errors_read_of_begins h hread) fun image hstart => ?_
    obtain ⟨_, hread', rfl⟩ := Elf.Image.read_carries h image hstart
    cases hread.symm.trans hread'
    exact .bind (Elf.SectionTable.errors_load_of_ok hload) fun _ _ => .ok _
  | pe hselect hread hload =>
    cases hformat'.symm.trans hselect
    refine .bind (Pe.Image.errors_read_of_begins h hread) fun image hstart => ?_
    obtain ⟨_, hread', hheaders, -, hentries⟩ := Pe.Image.read_carries h image hstart
    cases hread.symm.trans hread'
    unfold Pe.Image.loadSections at hload
    rw [hheaders] at hload
    exact .bind (Pe.SectionTable.errors_load_of_ok hentries hload) fun _ _ => .ok _

/-- The section headers of the image are the last bytes of the file. -/
def Elf.Image.EndsInHeaders (image : Elf.Image) (v : View) : Prop :=
  image.header.tableOffset ≠ 0 ∧
    image.header.tableOffset.toNat + image.sections.count * image.header.entrySize.toNat = v.size

instance (image : Elf.Image) (v : View) : Decidable (image.EndsInHeaders v) :=
  inferInstanceAs (Decidable (_ ∧ _))

/-- An ELF image that ends in its section headers is not loaded without its last bytes. -/
theorem not_load_of_endsInHeaders (h : v.Begins w) (hlt : v.size < w.size) {image : Elf.Image}
    (hread : Elf.Image.read w options = .ok image) (hend : image.EndsInHeaders w) {b : Binary} :
    load v source .auto options ≠ .ok b := by
  intro hb
  obtain ⟨_, _, hstaged, -⟩ := load_eq_ok_iff.1 hb
  cases hstaged with
  | @elf image' _ _ hstart _ =>
    obtain ⟨_, hread', rfl⟩ := Elf.Image.read_carries h image' hstart
    cases hread.symm.trans hread'
    have hcovers := Elf.Image.covers_headers hstart hend.1
    have hsize : image'.header.tableOffset.toNat + image'.sections.count * image'.header.entrySize.toNat = w.size := hend.2
    unfold View.Covers at hcovers
    omega
  | pe hselect _ _ =>
    have hselect' := carries_eq_iff.1 (FormatHint.auto.select_carries h) _ hselect
    nomatch (FormatHint.sniff_of_select hselect').1.symm.trans (Elf.Image.sniff_of_read hread)

/-- The first bytes of a file begin it. -/
theorem View.begins_extract (d : Bytes) (k : Nat) : View.Begins ⟨d.extract 0 k⟩ ⟨d⟩ := by
  refine ⟨d.extract k d.size, ?_⟩
  rw [Array.extract_append_extract, Nat.zero_min, Array.extract_eq_self_of_le (Nat.le_max_right _ _)]

/-- The first bytes of an image that is loaded are loaded too, or they are refused as an image that cannot be read: never for
its machine, for the size of a section, for its format not being the one asked for, or for a symbol table. If the image is an
ELF image that ends in its section headers, they are refused whenever a byte is missing. -/
theorem load_extract {d : Bytes} {b : Binary} (h : load ⟨d⟩ source .auto options = .ok b) :
    (∀ k, (∃ b', load ⟨d.extract 0 k⟩ source .auto options = .ok b') ∨
        ∃ e, load ⟨d.extract 0 k⟩ source .auto options = .error e ∧ e.IsUnreadable) ∧
      ∀ image, Elf.Image.read ⟨d⟩ options = .ok image → image.EndsInHeaders ⟨d⟩ →
        ∀ k < d.size, ∃ e, load ⟨d.extract 0 k⟩ source .auto options = .error e ∧ e.IsUnreadable := by
  constructor
  · intro k
    have herrors := errors_load_of_begins (View.begins_extract d k) h
    cases hstart : load ⟨d.extract 0 k⟩ source .auto options with
    | ok b' => exact .inl ⟨b', rfl⟩
    | error e => exact .inr ⟨e, rfl, herrors e hstart⟩
  · intro image hread hend k hk
    have herrors := errors_load_of_begins (View.begins_extract d k) h
    have hlt : View.size ⟨d.extract 0 k⟩ < View.size ⟨d⟩ := by
      simp only [View.size, Array.size_extract]
      omega
    cases hstart : load ⟨d.extract 0 k⟩ source .auto options with
    | ok b' => exact absurd hstart (not_load_of_endsInHeaders (View.begins_extract d k) hlt hread hend)
    | error e => exact ⟨e, rfl, herrors e hstart⟩

/-- The small image ends in its section headers, so it is refused whenever a byte is missing. -/
theorem load_extract_sample :
    (∃ b, load Elf.ImageSpec.sample.view "sample" .auto {} = .ok b) ∧
      ∃ image, Elf.Image.read Elf.ImageSpec.sample.view {} = .ok image ∧ image.EndsInHeaders Elf.ImageSpec.sample.view ∧
        ∀ k < Elf.ImageSpec.sample.view.size, ∃ e,
          load ⟨Elf.ImageSpec.sample.write.toArray.extract 0 k⟩ "sample" .auto {} = .error e ∧ e.IsUnreadable := by
  have hload : (load Elf.ImageSpec.sample.view "sample" .auto {}).toOption.map Binary.format = some .elf := by
    decide +kernel
  have hheaders : (Elf.Image.read Elf.ImageSpec.sample.view {}).toOption.map
      (fun image => decide (image.EndsInHeaders Elf.ImageSpec.sample.view)) = some true := by
    decide +kernel
  obtain ⟨b, hb, -⟩ := Except.exists_of_toOption_map hload
  obtain ⟨image, hread, hend⟩ := Except.exists_of_toOption_map hheaders
  have hend := of_decide_eq_true hend
  exact ⟨⟨b, hb⟩, image, hread, hend, (load_extract hb).2 image hread hend⟩

end ExecImage
