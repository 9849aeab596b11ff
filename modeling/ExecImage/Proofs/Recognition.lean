import ExecImage.Proofs.Elf.Writer
import ExecImage.Proofs.Pe.Writer
import ExecImage.Proofs.StageErrors

/-!
# Recognition and refusal

The magic bytes are looked at twice: once to choose the format, and once more by the reader of the format. The two agree: a
reader succeeds only on an image that is told to be of its format, so a caller's hint changes nothing but which images are
refused (`FormatHint.select_of_wanted`). After the choice, a reader still calls the format unsupported for one reason each: an
ELF image of an unknown class or byte order (`Elf.HasForeignLayout`), and a PE image whose optional header has an unknown
magic number (`Pe.HasForeignMagic`). No later stage does, since its errors are of another kind.
-/

namespace ExecImage

open Except (ErrorsIn bind_eq_ok_iff bind_eq_error_iff map_eq_error_iff)

variable {v : View} {source : String} {options : Options} {hint : FormatHint}

/-! ## The choice of a format -/

/-- The format that a hint asks for. -/
def FormatHint.wanted? : FormatHint → Option Format
  | .auto => none
  | .elf => some .elf
  | .pe => some .pe

/-- Without a hint the magic bytes decide. -/
theorem FormatHint.select_auto (v : View) :
    FormatHint.auto.select v = if sniff v = .unrecognized then .error .unsupportedFormat else .ok (sniff v) := by
  unfold FormatHint.select
  cases sniff v <;> rfl

/-- A hint refuses every format but the one it asks for. -/
theorem FormatHint.select_of_wanted {format : Format} (h : hint.wanted? = some format) (v : View) :
    hint.select v = if sniff v = format then .ok format else .error (.formatMismatch hint.name (sniff v).name) := by
  unfold FormatHint.select
  cases hint with
  | auto => nomatch h
  | elf =>
    cases h
    cases sniff v <;> rfl
  | pe =>
    cases h
    cases sniff v <;> rfl

/-- Whatever the hint, the format that is chosen is the one that the magic bytes tell. -/
theorem FormatHint.sniff_of_select {format : Format} (h : hint.select v = .ok format) :
    sniff v = format ∧ format ≠ .unrecognized := by
  cases hint with
  | auto =>
    rw [FormatHint.select_auto] at h
    split at h
    · nomatch h
    · rename_i hs
      cases h
      exact ⟨rfl, hs⟩
  | elf =>
    rw [FormatHint.select_of_wanted rfl] at h
    split at h
    · rename_i hs
      cases h
      exact ⟨hs, nofun⟩
    · nomatch h
  | pe =>
    rw [FormatHint.select_of_wanted rfl] at h
    split at h
    · rename_i hs
      cases h
      exact ⟨hs, nofun⟩
    · nomatch h

/-! ## The readers agree with the choice -/

theorem sniff_eq_elf_iff : sniff v = .elf ↔ v.startsWith 0 Elf.magic = true := by
  unfold sniff
  split
  · simp [*]
  · split <;> simp [*]

/-- A signed image does not start as an ELF image does: the first bytes differ. -/
theorem sniff_eq_pe_iff : sniff v = .pe ↔ Pe.isSigned v = true := by
  constructor
  · intro h
    unfold sniff at h
    split at h
    · nomatch h
    split at h
    · assumption
    · nomatch h
  · intro h
    have hdos := (View.getElem?_of_startsWith (Pe.isSigned_iff.1 h).1).2
    have helf : ¬v.startsWith 0 Elf.magic = true := by
      intro helf
      rw [(View.getElem?_of_startsWith helf).2] at hdos
      nomatch hdos
    unfold sniff
    rw [if_neg helf, if_pos h]

namespace Elf

/-- What identifies an ELF image starts with its magic bytes. -/
theorem Ident.startsWith_of_read {ident : Ident} (h : Ident.read v = .ok ident) : v.startsWith 0 magic = true := by
  obtain ⟨_, -, h⟩ := bind_eq_ok_iff.1 h
  split at h
  · assumption
  · nomatch h

/-- An image whose headers can be read as those of an ELF image is told to be one. -/
theorem Image.sniff_of_read {image : Image} (h : Image.read v options = .ok image) : sniff v = .elf := by
  obtain ⟨hheader, -⟩ := read_eq_ok_iff.1 h
  obtain ⟨ident, hident, -⟩ := bind_eq_ok_iff.1 hheader
  exact sniff_eq_elf_iff.2 (Ident.startsWith_of_read hident)

end Elf

namespace Pe

/-- The headers of a PE image follow its signature. -/
theorem Headers.isSigned_of_read {headers : Headers} (h : Headers.read v = .ok headers) : isSigned v = true := by
  unfold Headers.read at h
  split at h
  · rename_i hdos
    obtain ⟨offset, hoffset, h⟩ := bind_eq_ok_iff.1 h
    obtain ⟨_, -, h⟩ := bind_eq_ok_iff.1 h
    split at h
    · rename_i hsignature
      exact isSigned_iff.2 ⟨hdos, offset, hoffset, hsignature⟩
    · nomatch h
  · nomatch h

/-- An image whose headers can be read as those of a PE image is told to be one. -/
theorem Image.sniff_of_read {image : Image} (h : Image.read v options = .ok image) : sniff v = .pe := by
  obtain ⟨-, hheaders, -⟩ := read_eq_ok_iff.1 h
  exact sniff_eq_pe_iff.2 (Headers.isSigned_of_read hheaders)

end Pe

/-! ## ELF images of an unknown layout -/

namespace Elf

/-- The bytes that identify an image are there, and the class or the byte order is neither of the two that are known. -/
def HasForeignLayout (v : View) : Prop :=
  v.Covers 0 Ident.size ∧ ∃ cls order, v.byte 4 = .ok cls ∧ v.byte 5 = .ok order ∧
    ¬((cls = 1 ∨ cls = 2) ∧ (order = 1 ∨ order = 2))

theorem Class.ofByte_eq_error_iff {b : UInt8} {e : LoadError} :
    Class.ofByte b = .error e ↔ ¬(b = 1 ∨ b = 2) ∧ e = .unsupportedFormat := by
  unfold Class.ofByte
  by_cases h1 : b = 1
  · simp [h1]
  · by_cases h2 : b = 2
    · simp [h2]
    · simp [h1, h2, eq_comm]

theorem Class.exists_ofByte_iff {b : UInt8} : (∃ cls, Class.ofByte b = .ok cls) ↔ b = 1 ∨ b = 2 := by
  unfold Class.ofByte
  by_cases h1 : b = 1
  · simp [h1]
  · by_cases h2 : b = 2
    · simp [h2]
    · simp [h1, h2]

theorem orderOfByte_eq_error_iff {b : UInt8} {e : LoadError} :
    orderOfByte b = .error e ↔ ¬(b = 1 ∨ b = 2) ∧ e = .unsupportedFormat := by
  unfold orderOfByte
  by_cases h1 : b = 1
  · simp [h1]
  · by_cases h2 : b = 2
    · simp [h2]
    · simp [h1, h2, eq_comm]

/-- The bytes of the class and of the byte order are among those that identify an image. -/
theorem Ident.exists_bytes (hc : v.Covers 0 size) : ∃ cls order, v.byte 4 = .ok cls ∧ v.byte 5 = .ok order := by
  have hfour : v.Covers 4 1 := hc.mono (by decide)
  have hfive : v.Covers 5 1 := hc.mono (by decide)
  obtain ⟨cls, hcls⟩ := View.isOk_byte hfour
  obtain ⟨order, horder⟩ := View.isOk_byte hfive
  exact ⟨cls, order, hcls, horder⟩

/-- An image that starts as an ELF image does is of no supported format exactly when its layout is unknown. -/
theorem Ident.read_eq_unsupportedFormat_iff (h : v.startsWith 0 magic = true) :
    Ident.read v = .error .unsupportedFormat ↔ HasForeignLayout v := by
  unfold Ident.read
  rw [if_pos h]
  by_cases hc : v.Covers 0 size
  · obtain ⟨cls, order, hcls, horder⟩ := Ident.exists_bytes hc
    have hlayout : HasForeignLayout v ↔ ¬((cls = 1 ∨ cls = 2) ∧ (order = 1 ∨ order = 2)) := by
      constructor
      · rintro ⟨-, cls', order', hcls', horder', hforeign⟩
        cases hcls.symm.trans hcls'
        cases horder.symm.trans horder'
        exact hforeign
      · intro hforeign
        exact ⟨hc, cls, order, hcls, horder, hforeign⟩
    rw [hlayout, View.slice_of_covers hc, hcls, horder]
    simp only [discard, Functor.mapConst, bind_eq_error_iff, Except.ok.injEq, exists_eq_left', reduceCtorEq,
      false_or, Class.ofByte_eq_error_iff, orderOfByte_eq_error_iff, Except.pure_eq_ok, and_true, and_false, or_false,
      exists_false, exists_and_right, Class.exists_ofByte_iff]
    tauto
  · have hslice : v.slice 0 size = .error (.outOfBounds 0 size v.size) := if_neg hc
    rw [hslice]
    constructor
    · intro h
      cases h
    · intro h
      exact absurd h.1 hc

/-- Nothing after the identification makes the format of an ELF image unsupported. -/
theorem Image.read_eq_unsupportedFormat_iff (options : Options) (h : v.startsWith 0 magic = true) :
    Image.read v options = .error .unsupportedFormat ↔ HasForeignLayout v := by
  have hsections (header : Header) : ErrorsIn (· ≠ .unsupportedFormat) (SectionTable.read v header options) :=
    (SectionTable.errors_read v header).imp fun _ he => he.ne_unsupportedFormat
  rw [← Ident.read_eq_unsupportedFormat_iff h]
  constructor
  · intro herror
    rcases bind_eq_error_iff.1 herror with hheader | ⟨header, -, herror⟩
    · rcases Header.errors_read_cases v _ hheader with houtside | hident
      · exact absurd rfl houtside.ne_unsupportedFormat
      · exact hident
    · split at herror
      · rcases bind_eq_error_iff.1 herror with htable | ⟨_, -, herror⟩
        · exact absurd rfl (hsections header _ htable)
        · nomatch herror
      · nomatch herror
  · intro hident
    exact bind_eq_error_iff.2 (.inl (bind_eq_error_iff.2 (.inl hident)))

end Elf

/-! ## PE images of an unknown magic number -/

namespace Pe

/-- The file header and the optional header that it declares are in the file, and the optional header has a magic number, which
is neither of the two that are known. -/
def HasForeignMagic (v : View) : Prop :=
  ∃ signatureOffset size magic, v.word32 signaturePointer .little = .ok signatureOffset ∧
    v.Covers (Headers.fileOffset signatureOffset.toNat) FileHeader.size ∧
    v.word16 (Headers.fileOffset signatureOffset.toNat + 16) .little = .ok size ∧
    v.Covers (Headers.optionalOffset signatureOffset.toNat) size.toNat ∧ 2 ≤ size.toNat ∧
    v.word16 (Headers.optionalOffset signatureOffset.toNat) .little = .ok magic ∧
    magic ≠ OptionalHeader.magic32 ∧ magic ≠ OptionalHeader.magic64

theorem OptionalHeader.directoriesOffset?_eq_none_iff {magic : UInt16} :
    directoriesOffset? magic = none ↔ magic ≠ magic32 ∧ magic ≠ magic64 := by
  unfold directoriesOffset?
  split
  · simp [*]
  · split <;> simp [*]

/-- The headers of a signed image are the file header and the optional header after the signature. -/
theorem Headers.read_of_signed {offset : UInt32} (hdos : v.startsWith 0 dosMagic = true)
    (hoffset : v.word32 signaturePointer .little = .ok offset) (hsignature : v.startsWith offset.toNat signature = true) :
    Headers.read v = do
      let file ← FileHeader.read v (fileOffset offset.toNat)
      let header ← v.sub (optionalOffset offset.toNat) file.optionalSize.toNat
      let (optional, directories) ← readOptional header
      return { signatureOffset := offset.toNat, file, optional, directories } := by
  have hslice : v.slice offset.toNat signature.length = .ok _ :=
    View.slice_of_covers (View.getElem?_of_startsWith hsignature).1
  unfold Headers.read
  rw [if_pos hdos, hoffset]
  dsimp only [bind, Except.bind]
  rw [hslice, if_pos hsignature]
  rfl

/-- A signed image is of no supported format exactly when its optional header has a magic number that is not known. -/
theorem Headers.read_eq_unsupportedFormat_iff (h : isSigned v = true) :
    Headers.read v = .error .unsupportedFormat ↔ HasForeignMagic v := by
  obtain ⟨hdos, offset, hoffset, hsignature⟩ := isSigned_iff.1 h
  rw [Headers.read_of_signed hdos hoffset hsignature]
  constructor
  · intro herror
    rcases bind_eq_error_iff.1 herror with hfile | ⟨file, hfile, herror⟩
    · exact absurd rfl (FileHeader.errors_read v _ _ hfile).ne_unsupportedFormat
    rcases bind_eq_error_iff.1 herror with hheader | ⟨header, hheader, herror⟩
    · exact absurd rfl (v.errors_sub _ _ _ hheader).ne_unsupportedFormat
    rcases bind_eq_error_iff.1 herror with hoptional | ⟨_, -, herror⟩
    · obtain ⟨magic, hmagic, hunknown⟩ := Headers.readOptional_eq_unsupportedFormat_iff.1 hoptional
      obtain ⟨hcovers, hsize⟩ := FileHeader.optionalSize_of_read hfile
      have htwo : 2 ≤ file.optionalSize.toNat := by
        obtain ⟨n, hn, -⟩ := Except.map_eq_ok_iff.1 hmagic
        obtain ⟨bs, hbs, -⟩ := Except.map_eq_ok_iff.1 hn
        have hc := (View.slice_eq_ok_iff.1 hbs).1
        unfold View.Covers at hc
        rw [View.size_of_sub hheader] at hc
        omega
      rw [View.word16_of_sub .little hheader (by omega)] at hmagic
      exact ⟨offset, file.optionalSize, magic, hoffset, hcovers, hsize, (View.sub_eq_ok_iff.1 hheader).1, htwo, hmagic,
        OptionalHeader.directoriesOffset?_eq_none_iff.1 hunknown⟩
    · nomatch herror
  · rintro ⟨offset', size, magic, hoffset', hcovers, hsize, hheader, htwo, hmagic, hunknown⟩
    cases hoffset.symm.trans hoffset'
    have hfile := FileHeader.read_eq_ok_iff.2 ⟨hcovers, rfl⟩
    cases hsize.symm.trans (FileHeader.optionalSize_of_read hfile).2
    have hsub := View.sub_eq_ok_iff.2 ⟨hheader, rfl⟩
    have hoptional := Headers.readOptional_eq_unsupportedFormat_iff.2
      ⟨magic, (View.word16_of_sub .little hsub (by omega)).trans hmagic,
        OptionalHeader.directoriesOffset?_eq_none_iff.2 hunknown⟩
    exact bind_eq_error_iff.2 (.inr ⟨_, hfile,
      bind_eq_error_iff.2 (.inr ⟨_, hsub, bind_eq_error_iff.2 (.inl hoptional)⟩)⟩)

/-- Nothing after the headers makes the format of a PE image unsupported. -/
theorem Image.read_eq_unsupportedFormat_iff (options : Options) (h : isSigned v = true) :
    Image.read v options = .error .unsupportedFormat ↔ HasForeignMagic v := by
  rw [← Headers.read_eq_unsupportedFormat_iff h]
  constructor
  · intro herror
    rcases bind_eq_error_iff.1 herror with hheaders | ⟨headers, -, herror⟩
    · exact hheaders
    · dsimp only at herror
      split at herror
      · rcases bind_eq_error_iff.1 herror with htable | ⟨_, -, herror⟩
        · exact absurd rfl (SectionTable.errors_read _ _ _ _ htable).ne_unsupportedFormat
        · nomatch herror
      · nomatch herror
  · intro hheaders
    exact bind_eq_error_iff.2 (.inl hheaders)

end Pe

/-! ## The load -/

/-- A load of an image of a known format refuses the format exactly when the reader of the format does: a section never makes
the format unsupported. -/
theorem load_eq_unsupportedFormat_iff :
    load v source .auto options = .error .unsupportedFormat ↔
      sniff v = .unrecognized ∨ sniff v = .elf ∧ Elf.HasForeignLayout v ∨ sniff v = .pe ∧ Pe.HasForeignMagic v := by
  unfold load loadLogged
  rw [map_eq_error_iff, FormatHint.select_auto]
  cases hs : sniff v with
  | elf =>
    have hread := Elf.Image.read_eq_unsupportedFormat_iff options (sniff_eq_elf_iff.1 hs)
    have hload (image : Elf.Image) : ErrorsIn (· ≠ .unsupportedFormat) (image.load source options) :=
      (image.errors_load source options).imp fun _ he => he.ne_unsupportedFormat
    simp only [reduceCtorEq, if_false, false_or, true_and, false_and, or_false, ← hread]
    exact Except.bind_eq_error_iff_of_errorsIn (fun h => h rfl) fun image _ => hload image
  | pe =>
    have hread := Pe.Image.read_eq_unsupportedFormat_iff options (sniff_eq_pe_iff.1 hs)
    have hload (image : Pe.Image) : ErrorsIn (· ≠ .unsupportedFormat) (image.load source options) :=
      (image.errors_load source options).imp fun _ he => he.ne_unsupportedFormat
    simp only [reduceCtorEq, if_false, false_or, true_and, false_and, ← hread]
    exact Except.bind_eq_error_iff_of_errorsIn (fun h => h rfl) fun image _ => hload image
  | unrecognized => simp [bind, Except.bind]

/-- The format of a binary is the one that the magic bytes of its image tell. -/
theorem format_of_load {b : Binary} (h : load v source hint options = .ok b) :
    b.format = sniff v ∧ b.format ≠ .unrecognized := by
  obtain ⟨_, _, hstaged, rfl⟩ := load_eq_ok_iff.1 h
  cases hstaged with
  | elf hselect _ _ =>
    rw [(FormatHint.sniff_of_select hselect).1]
    exact ⟨rfl, nofun⟩
  | pe hselect _ _ =>
    rw [(FormatHint.sniff_of_select hselect).1]
    exact ⟨rfl, nofun⟩

/-- A load under a hint is the load without one, except that it refuses every other format. -/
theorem load_of_wanted {format : Format} (h : hint.wanted? = some format) :
    load v source hint options =
      if sniff v = format then load v source .auto options else .error (.formatMismatch hint.name (sniff v).name) := by
  unfold load loadLogged
  rw [FormatHint.select_of_wanted h, FormatHint.select_auto]
  by_cases hs : sniff v = format
  · have hknown : format ≠ .unrecognized := by
      cases hint with
      | auto => nomatch h
      | elf =>
        cases h
        nofun
      | pe =>
        cases h
        nofun
    rw [if_pos hs, if_pos hs, hs, if_neg hknown]
  · rw [if_neg hs, if_neg hs]
    rfl

/-- The magic bytes, the hints and the readers of the formats agree. A reader succeeds only on an image that is told to be of its
format. A hint for a format gives the load without a hint if the image is told to be of that format, and a mismatch that names
both otherwise. A binary has the format that its image is told to be of. The format is unsupported exactly when the magic
bytes tell none, when an ELF image has an unknown class or byte order, or when a PE image has an unknown magic number. -/
theorem recognition_agrees (v : View) (source : String) (options : Options) :
    (∀ image, Elf.Image.read v options = .ok image → sniff v = .elf) ∧
      (∀ image, Pe.Image.read v options = .ok image → sniff v = .pe) ∧
      (∀ hint format, FormatHint.wanted? hint = some format →
        load v source hint options =
          if sniff v = format then load v source .auto options else .error (.formatMismatch hint.name (sniff v).name)) ∧
      (∀ hint b, load v source hint options = .ok b → b.format = sniff v ∧ b.format ≠ .unrecognized) ∧
      (load v source .auto options = .error .unsupportedFormat ↔
        sniff v = .unrecognized ∨ sniff v = .elf ∧ Elf.HasForeignLayout v ∨ sniff v = .pe ∧ Pe.HasForeignMagic v) := by
  refine ⟨?_, ?_, ?_, ?_, ?_⟩
  · intro image hread
    exact Elf.Image.sniff_of_read hread
  · intro image hread
    exact Pe.Image.sniff_of_read hread
  · intro hint format hwanted
    exact load_of_wanted hwanted
  · intro hint b hload
    exact format_of_load hload
  · exact load_eq_unsupportedFormat_iff

/-- The small images are loaded under the hint for their format and refused under the other, and an image of class 3 is of no
supported format. -/
theorem recognition_agrees_samples :
    load Elf.ImageSpec.sample.view "sample" .elf {} = load Elf.ImageSpec.sample.view "sample" .auto {} ∧
      load Elf.ImageSpec.sample.view "sample" .pe {} = .error (.formatMismatch "PE" "ELF") ∧
      load Pe.ImageSpec.sample.view "sample" .pe {} = load Pe.ImageSpec.sample.view "sample" .auto {} ∧
      load ⟨#[0x7F, 0x45, 0x4C, 0x46, 3, 1, 1, 0, 0, 0, 0, 0, 0, 0, 0, 0]⟩ "sample" .auto {} = .error .unsupportedFormat := by
  have helf : sniff Elf.ImageSpec.sample.view = .elf := by decide +kernel
  have hpe : sniff Pe.ImageSpec.sample.view = .pe := by decide +kernel
  refine ⟨?_, ?_, ?_, ?_⟩
  · rw [(recognition_agrees Elf.ImageSpec.sample.view "sample" {}).2.2.1 .elf .elf rfl, if_pos helf]
  · rw [(recognition_agrees Elf.ImageSpec.sample.view "sample" {}).2.2.1 .pe .pe rfl, helf]
    rfl
  · rw [(recognition_agrees Pe.ImageSpec.sample.view "sample" {}).2.2.1 .pe .pe rfl, if_pos hpe]
  · refine (recognition_agrees _ "sample" {}).2.2.2.2.2 (.inr (.inl ⟨by decide, by decide, 3, 1, by decide, by decide, ?_⟩))
    decide

end ExecImage
