import ExecImage.Proofs.Elf.Records
import ExecImage.Proofs.Pe.Records
import ExecImage.Proofs.Stages

/-!
# The errors of the stages of a load

The headers and the section table fail to be read because the bytes are no image or not all of one, and for no other reason
(`IsUnreadable`) but that the machine is not supported. Once the headers are read the format is known, so the section table
fails only because it is damaged (`IsDamaged`), and a section only because it is at fault or too large (`IsOfSection`). No
stage fails with a fault of a symbol table (`errors_load`).
-/

namespace ExecImage

open Except (ErrorsIn)

/-- The error is of an image that cannot be loaded. -/
def LoadError.IsFatal (e : LoadError) : Prop :=
  e.isRecoverable = false

/-- The error says that the bytes are no image, or not all of one: a read went out of bounds, the format is none that is
supported, or a section or the table of the sections is at fault. -/
def LoadError.IsUnreadable (e : LoadError) : Prop :=
  e.IsOutOfBounds ∨ e = .unsupportedFormat ∨ ∃ name fault, e = .corruptSection name fault

theorem LoadError.IsOutOfBounds.isUnreadable {e : LoadError} (h : e.IsOutOfBounds) : e.IsUnreadable :=
  .inl h

theorem LoadError.isUnreadable_unsupportedFormat : LoadError.unsupportedFormat.IsUnreadable :=
  .inr (.inl rfl)

theorem LoadError.isUnreadable_corruptSection (name : String) (fault : Fault) :
    (LoadError.corruptSection name fault).IsUnreadable :=
  .inr (.inr ⟨name, fault, rfl⟩)

theorem LoadError.IsUnreadable.isFatal {e : LoadError} (h : e.IsUnreadable) : e.IsFatal := by
  rcases h with ⟨offset, len, size, rfl⟩ | rfl | ⟨name, fault, rfl⟩
  · rfl
  · rfl
  · rfl

/-- The error is of an image whose format is supported: a read went out of bounds, or a section or the table of the sections is
at fault. -/
def LoadError.IsDamaged (e : LoadError) : Prop :=
  e.IsOutOfBounds ∨ ∃ name fault, e = .corruptSection name fault

theorem LoadError.IsOutOfBounds.isDamaged {e : LoadError} (h : e.IsOutOfBounds) : e.IsDamaged :=
  .inl h

theorem LoadError.isDamaged_corruptSection (name : String) (fault : Fault) :
    (LoadError.corruptSection name fault).IsDamaged :=
  .inr ⟨name, fault, rfl⟩

theorem LoadError.IsDamaged.isUnreadable {e : LoadError} (h : e.IsDamaged) : e.IsUnreadable := by
  rcases h with h | h
  · exact .inl h
  · exact .inr (.inr h)

theorem LoadError.IsDamaged.ne_unsupportedFormat {e : LoadError} (h : e.IsDamaged) : e ≠ .unsupportedFormat := by
  rcases h with ⟨offset, len, size, rfl⟩ | ⟨name, fault, rfl⟩
  · nofun
  · nofun

/-- The error is of one section, which is at fault or too large. -/
def LoadError.IsOfSection (e : LoadError) : Prop :=
  (∃ name fault, e = .corruptSection name fault) ∨ ∃ requested, e = .outOfMemory requested

theorem LoadError.isOfSection_corruptSection (name : String) (fault : Fault) :
    (LoadError.corruptSection name fault).IsOfSection :=
  .inl ⟨name, fault, rfl⟩

theorem LoadError.isOfSection_outOfMemory (requested : Nat) : (LoadError.outOfMemory requested).IsOfSection :=
  .inr ⟨requested, rfl⟩

theorem LoadError.IsOfSection.isFatal {e : LoadError} (h : e.IsOfSection) : e.IsFatal := by
  rcases h with ⟨name, fault, rfl⟩ | ⟨requested, rfl⟩
  · rfl
  · rfl

theorem LoadError.IsOfSection.ne_unsupportedFormat {e : LoadError} (h : e.IsOfSection) : e ≠ .unsupportedFormat := by
  rcases h with ⟨name, fault, rfl⟩ | ⟨requested, rfl⟩
  · nofun
  · nofun

/-- A refused image was of no format or not of the one asked for. -/
theorem FormatHint.errors_select (hint : FormatHint) (v : View) : ErrorsIn LoadError.IsFatal (hint.select v) := by
  unfold FormatHint.select
  split
  · exact .error rfl
  · exact .ok _
  · exact .ok _
  · exact .ok _
  · exact .error rfl

/-- An image that is refused by its magic bytes alone was of no format. -/
theorem FormatHint.errors_select_auto (v : View) : ErrorsIn LoadError.IsUnreadable (FormatHint.auto.select v) := by
  unfold FormatHint.select
  cases sniff v with
  | elf => exact .ok _
  | pe => exact .ok _
  | unrecognized => exact .error LoadError.isUnreadable_unsupportedFormat

namespace Elf

theorem IsForeign.isUnreadable {e : LoadError} (h : IsForeign e) : e.IsUnreadable := by
  rcases h with h | rfl
  · exact h.isUnreadable
  · exact LoadError.isUnreadable_unsupportedFormat

namespace SectionTable

variable {t : SectionTable} {source : String} {options : Options}

theorem errors_namesView (v : View) (headers : List SectionHeader) (index : Nat) :
    ErrorsIn LoadError.IsDamaged (namesView v headers index) := by
  unfold namesView
  split
  · exact .ok _
  split
  · exact .ok _
  split
  · exact .ok _
  · exact .error (LoadError.isDamaged_corruptSection _ _)

theorem errors_read (v : View) (h : Header) : ErrorsIn LoadError.IsDamaged (read v h options) := by
  have readHeader (offset : Nat) : ErrorsIn LoadError.IsDamaged (SectionHeader.read v offset h.ident) :=
    ((SectionHeader.isRecord_read h.ident.cls h.ident.order).errors v offset).imp fun _ he => he.isDamaged
  unfold read
  dsimp only
  split
  · exact .ok _
  split
  · exact .error (LoadError.isDamaged_corruptSection _ _)
  refine .bind (readHeader _) fun first _ => ?_
  split
  · exact .error (LoadError.isDamaged_corruptSection _ _)
  split
  · exact .error (.inl ⟨_, _, _, rfl⟩)
  refine .bind ((v.errors_slice _ _).discard.imp fun _ he => he.isDamaged) fun _ _ => ?_
  refine .bind (.mapM fun i _ => readHeader _) fun headers _ => ?_
  exact .bind (errors_namesView v headers _) fun names _ => .ok _

theorem errors_loadEntry (e : NamedHeader) : ErrorsIn LoadError.IsOfSection (t.loadEntry source options e) := by
  intro error h
  obtain ⟨-, ⟨-, rfl⟩ | ⟨-, hcopy⟩⟩ := loadEntry_eq_error_iff.1 h
  · exact LoadError.isOfSection_corruptSection _ _
  obtain ⟨-, ⟨-, rfl⟩ | ⟨-, -, rfl⟩⟩ := copy_eq_error_iff.1 hcopy
  · exact LoadError.isOfSection_outOfMemory _
  · exact LoadError.isOfSection_corruptSection _ _

/-- The sections of an ELF image fail to load because one of them is at fault or too large. -/
theorem errors_load : ErrorsIn LoadError.IsOfSection (t.load source options) :=
  .map (.mapM fun e _ => errors_loadEntry e)

end SectionTable

/-- The headers of an ELF image fail to be read with no fault of a symbol table. -/
theorem Image.errors_read (v : View) (options : Options) : ErrorsIn LoadError.IsFatal (Image.read v options) := by
  unfold Image.read
  refine .bind ((Header.errors_read v).imp fun _ he => he.isUnreadable.isFatal) fun header _ => ?_
  split
  · exact .bind ((SectionTable.errors_read v header).imp fun _ he => he.isUnreadable.isFatal) fun sections _ => .ok _
  · exact .error rfl

/-- An ELF image whose headers have been read fails to load because of a section. -/
theorem Image.errors_load (image : Image) (source : String) (options : Options) :
    ErrorsIn LoadError.IsOfSection (image.load source options) :=
  .bind SectionTable.errors_load fun _ _ => .ok _

end Elf

namespace Pe

theorem IsForeign.isUnreadable {e : LoadError} (h : IsForeign e) : e.IsUnreadable := by
  rcases h with h | rfl | ⟨fault, rfl⟩
  · exact h.isUnreadable
  · exact LoadError.isUnreadable_unsupportedFormat
  · exact LoadError.isUnreadable_corruptSection _ _

namespace SectionTable

variable {v : View} {source : String} {options : Options}

theorem errors_read (offset : Nat) (count : UInt16) (strings : Option StringTable) :
    ErrorsIn LoadError.IsDamaged (read v offset count strings options) := by
  unfold read
  split
  · exact .error (LoadError.isDamaged_corruptSection _ _)
  refine .bind ((v.errors_sub _ _).imp fun _ he => he.isDamaged) fun table htable => ?_
  refine .bind (.mapM fun i hi => ?_) fun headers _ => .ok _
  -- The table has room for every header, so the headers themselves cannot be outside it.
  refine SectionHeader.read_within.errorsIn _ ?_
  unfold View.Covers
  rw [View.size_of_sub htable]
  exact View.record_le_table (List.mem_range.1 hi) (Nat.le_refl _)

theorem errors_loadEntry (imageBase : UInt64) (width : Width) (e : NamedHeader) :
    ErrorsIn LoadError.IsOfSection (loadEntry v imageBase width source options e) := by
  intro error h
  obtain ⟨-, ⟨-, rfl⟩ | ⟨-, hcopy⟩⟩ := loadEntry_eq_error_iff.1 h
  · exact LoadError.isOfSection_corruptSection _ _
  obtain ⟨-, ⟨-, rfl⟩ | ⟨-, -, rfl⟩⟩ := copy_eq_error_iff.1 hcopy
  · exact LoadError.isOfSection_corruptSection _ _
  · exact LoadError.isOfSection_outOfMemory _

/-- The sections of a PE image fail to load because one of them is at fault or too large. -/
theorem errors_load (t : SectionTable) (imageBase : UInt64) (width : Width) :
    ErrorsIn LoadError.IsOfSection (t.load v imageBase width source options) :=
  .map (.mapM fun e _ => errors_loadEntry imageBase width e)

end SectionTable

/-- The headers of a PE image fail to be read with no fault of a symbol table. -/
theorem Image.errors_read (v : View) (options : Options) : ErrorsIn LoadError.IsFatal (Image.read v options) := by
  unfold Image.read
  refine .bind ((Headers.errors_read v).imp fun _ he => he.isUnreadable.isFatal) fun headers _ => ?_
  dsimp only
  split
  · exact .bind ((SectionTable.errors_read _ _ _).imp fun _ he => he.isUnreadable.isFatal) fun sections _ => .ok _
  · exact .error rfl

/-- A PE image whose headers have been read fails to load because of a section. -/
theorem Image.errors_load (image : Image) (source : String) (options : Options) :
    ErrorsIn LoadError.IsOfSection (image.load source options) :=
  .bind (SectionTable.errors_load _ _ _) fun _ _ => .ok _

end Pe

/-- Every error of a load is fatal. -/
theorem errors_load (v : View) (source : String) (hint : FormatHint) (options : Options) :
    ErrorsIn LoadError.IsFatal (load v source hint options) := by
  unfold load loadLogged
  refine .map (.bind (hint.errors_select v) fun format _ => ?_)
  cases format with
  | elf =>
    refine .bind (Elf.Image.errors_read v options) fun image _ => ?_
    exact (image.errors_load source options).imp fun _ he => he.isFatal
  | pe =>
    refine .bind (Pe.Image.errors_read v options) fun image _ => ?_
    exact (image.errors_load source options).imp fun _ he => he.isFatal
  | unrecognized => exact .error rfl

end ExecImage
