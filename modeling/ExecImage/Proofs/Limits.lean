import ExecImage.Proofs.Pe.Writer
import ExecImage.Proofs.Stages

/-!
# Limits on sections and limits on symbols

The number of section headers and the number of bytes that are copied for a section are limited, and a load fails above a
limit. No other option can end a load: the rest say which symbols are kept. So a load that succeeds succeeds under limits that
are not lower, with the same sections (`load_of_limits_le`), and a load that fails fails in the same way under any limits on
symbols.

The statements go up from the readers to the load. Each `_mono` says what higher limits keep, each `_congr` that a reader looks
at one limit only.
-/

namespace ExecImage

open Except (Carries carries_eq_iff bind_eq_error_iff map_eq_error_iff)

variable {v : View} {source name : String} {hint : FormatHint} {c c' : Options}

/-! ## ELF images -/

namespace Elf

namespace SectionTable

variable {h : Header} {t : SectionTable}

/-- A section table is read in the same way if more section headers are allowed. -/
theorem read_mono (hs : c.maxSections ≤ c'.maxSections) : Carries Eq (read v h c) (read v h c') := by
  rw [carries_eq_iff]
  intro t ht
  rcases read_eq_ok_iff.1 ht with ⟨h0, rfl⟩ | ⟨hne, first, headers, names, d⟩
  · exact read_eq_ok_iff.2 (.inl ⟨h0, rfl⟩)
  · refine read_eq_ok_iff.2 (.inr ⟨hne, first, headers, names, ?_⟩)
    have hcount := Nat.le_trans d.count_le (UInt64.le_iff_toNat_le.1 hs)
    exact ⟨d.entrySize_le, d.readFirst, hcount, d.length_lt, d.covers, d.readHeaders, d.readNames, d.table⟩

theorem read_congr (hs : c.maxSections = c'.maxSections) : read v h c = read v h c' := by
  unfold read
  rw [hs]

/-- The same bytes are copied for a section if more bytes are allowed. -/
theorem copy_mono (hb : c.maxSectionBytes ≤ c'.maxSectionBytes) (name : String) (h : SectionHeader) :
    Carries Eq (t.copy name h c) (t.copy name h c') := by
  rw [carries_eq_iff]
  intro bytes hbytes
  rcases copy_eq_ok_iff.1 hbytes with ⟨hdata, rfl⟩ | ⟨hdata, hsize, hslice⟩
  · exact copy_eq_ok_iff.2 (.inl ⟨hdata, rfl⟩)
  · exact copy_eq_ok_iff.2 (.inr ⟨hdata, Nat.le_trans hsize (UInt64.le_iff_toNat_le.1 hb), hslice⟩)

/-- The same sections are loaded if more bytes are allowed. -/
theorem load_mono (hb : c.maxSectionBytes ≤ c'.maxSectionBytes) : Carries Eq (t.load source c) (t.load source c') := by
  have hentry (e : NamedHeader) : Carries Eq (t.loadEntry source c e) (t.loadEntry source c' e) :=
    loadEntry_carries_of_copy (copy_mono hb) rfl e
  refine (Carries.mapM_eq hentry t.entries).map fun os os' hos => ?_
  rw [hos]

theorem load_congr (hb : c.maxSectionBytes = c'.maxSectionBytes) : t.load source c = t.load source c' := by
  unfold load loadEntry copy
  rw [hb]

end SectionTable

namespace Image

variable {image : Image}

theorem read_mono (hs : c.maxSections ≤ c'.maxSections) : Carries Eq (Image.read v c) (Image.read v c') := by
  rw [carries_eq_iff]
  intro image hread
  obtain ⟨hheader, hsupported, htable⟩ := read_eq_ok_iff.1 hread
  exact read_eq_ok_iff.2 ⟨hheader, hsupported, carries_eq_iff.1 (SectionTable.read_mono hs) _ htable⟩

theorem read_congr (hs : c.maxSections = c'.maxSections) : Image.read v c = Image.read v c' := by
  unfold Image.read
  simp only [SectionTable.read_congr hs]

end Image

end Elf

/-! ## PE images -/

namespace Pe

namespace SectionTable

variable {t : SectionTable} {offset : Nat} {count : UInt16} {strings : Option StringTable} {imageBase : UInt64} {width : Width}

/-- A section table is read in the same way if more section headers are allowed. -/
theorem read_mono (hs : c.maxSections ≤ c'.maxSections) :
    Carries Eq (read v offset count strings c) (read v offset count strings c') := by
  rw [carries_eq_iff]
  intro t ht
  obtain ⟨hcount, hdecoded⟩ := read_eq_ok_iff.1 ht
  exact read_eq_ok_iff.2 ⟨Nat.le_trans hcount (UInt64.le_iff_toNat_le.1 hs), hdecoded⟩

theorem read_congr (hs : c.maxSections = c'.maxSections) : read v offset count strings c = read v offset count strings c' := by
  unfold read
  rw [hs]

/-- The same bytes are copied for a section, whatever its name, if more bytes are allowed. -/
theorem copy_mono (hb : c.maxSectionBytes ≤ c'.maxSectionBytes) (name name' : String) (h : SectionHeader) :
    Carries Eq (copy v name h c) (copy v name' h c') := by
  rw [carries_eq_iff]
  intro bytes hbytes
  rcases copy_eq_ok_iff.1 hbytes with ⟨h0, rfl⟩ | ⟨hne, hcovers, hsize, hslice⟩
  · exact copy_eq_ok_iff.2 (.inl ⟨h0, rfl⟩)
  · exact copy_eq_ok_iff.2 (.inr ⟨hne, hcovers, Nat.le_trans hsize (UInt64.le_iff_toNat_le.1 hb), hslice⟩)

/-- The same sections are loaded if more bytes are allowed. -/
theorem load_mono (hb : c.maxSectionBytes ≤ c'.maxSectionBytes) :
    Carries Eq (t.load v imageBase width source c) (t.load v imageBase width source c') := by
  have hentry (e : NamedHeader) :
      Carries Eq (loadEntry v imageBase width source c e) (loadEntry v imageBase width source c' e) := by
    refine (loadEntry_carries_of_copy (copy_mono hb) rfl).imp fun o o' ho => ?_
    cases ho with
    | none => rfl
    | some hs => exact congrArg some (hs.1.trans hs.2.symm)
  refine (Carries.mapM_eq hentry t.entries).map fun os os' hos => ?_
  rw [hos]

theorem load_congr (hb : c.maxSectionBytes = c'.maxSectionBytes) :
    t.load v imageBase width source c = t.load v imageBase width source c' := by
  unfold load loadEntry copy
  rw [hb]

end SectionTable

namespace Image

variable {image : Image}

theorem read_mono (hs : c.maxSections ≤ c'.maxSections) : Carries Eq (Image.read v c) (Image.read v c') := by
  rw [carries_eq_iff]
  intro image hread
  obtain ⟨hview, hheaders, hsupported, hstrings, htable⟩ := read_eq_ok_iff.1 hread
  exact read_eq_ok_iff.2 ⟨hview, hheaders, hsupported, hstrings, carries_eq_iff.1 (SectionTable.read_mono hs) _ htable⟩

theorem read_congr (hs : c.maxSections = c'.maxSections) : Image.read v c = Image.read v c' := by
  unfold Image.read
  simp only [SectionTable.read_congr hs]

end Image

end Pe

/-! ## Loads -/

/-- The stages of a load succeed under limits that are not lower, and leave the same binary but for its symbols. -/
theorem Staged.mono (hs : c.maxSections ≤ c'.maxSections) (hb : c.maxSectionBytes ≤ c'.maxSectionBytes)
    {withSymbols : MergedSymbols → Binary} {tables : List LabelledTable} (h : Staged v source hint c withSymbols tables) :
    ∃ tables', Staged v source hint c' withSymbols tables' := by
  cases h with
  | elf hselect hread hload =>
    have hread' := carries_eq_iff.1 (Elf.Image.read_mono hs) _ hread
    have hload' := carries_eq_iff.1 (Elf.SectionTable.load_mono hb) _ hload
    exact ⟨_, .elf hselect hread' hload'⟩
  | pe hselect hread hload =>
    have hread' := carries_eq_iff.1 (Pe.Image.read_mono hs) _ hread
    have hload' := carries_eq_iff.1 (Pe.SectionTable.load_mono hb) _ hload
    exact ⟨_, .pe hselect hread' hload'⟩

/-- The symbols that a load merges are the only part of its binary that depends on them. -/
theorem Staged.eq_with_symbols {withSymbols : MergedSymbols → Binary} {tables : List LabelledTable}
    (h : Staged v source hint c withSymbols tables) (m m' : MergedSymbols) :
    withSymbols m' =
      { withSymbols m with symbols := (withSymbols m').symbols, warnings := (withSymbols m').warnings } := by
  cases h <;> rfl

/-- A load fails in the same way under the same limits on sections. -/
theorem loadLogged_error_congr (hs : c.maxSections = c'.maxSections) (hb : c.maxSectionBytes = c'.maxSectionBytes)
    {e : LoadError} (h : loadLogged v source hint c = .error e) : loadLogged v source hint c' = .error e := by
  unfold loadLogged at h ⊢
  rw [bind_eq_error_iff] at h ⊢
  refine h.imp_right fun ⟨format, hselect, h⟩ => ⟨format, hselect, ?_⟩
  cases format with
  | elf =>
    dsimp only at h ⊢
    rw [bind_eq_error_iff] at h ⊢
    rw [← Elf.Image.read_congr hs]
    refine h.imp_right fun ⟨image, hread, hload⟩ => ⟨image, hread, ?_⟩
    rw [Elf.Image.load_eq_error_iff] at hload ⊢
    rw [← Elf.SectionTable.load_congr hb]
    exact hload
  | pe =>
    dsimp only at h ⊢
    rw [bind_eq_error_iff] at h ⊢
    rw [← Pe.Image.read_congr hs]
    refine h.imp_right fun ⟨image, hread, hload⟩ => ⟨image, hread, ?_⟩
    rw [Pe.Image.load_eq_error_iff] at hload ⊢
    unfold Pe.Image.loadSections at hload ⊢
    rw [← Pe.SectionTable.load_congr hb]
    exact hload
  | unrecognized => exact h

/-- A load that succeeds succeeds under limits on sections that are not lower, whatever the other options, and gives the same
binary but for its symbols and warnings. If the limits on sections are the same, a load that fails ends with the same error. -/
theorem load_of_limits_le (v : View) (source : String) (hint : FormatHint) (c c' : Options)
    (hs : c.maxSections ≤ c'.maxSections) (hb : c.maxSectionBytes ≤ c'.maxSectionBytes) :
    (∀ b, load v source hint c = .ok b → ∃ b', load v source hint c' = .ok b' ∧
        b' = { b with symbols := b'.symbols, warnings := b'.warnings }) ∧
      (c.maxSections = c'.maxSections → c.maxSectionBytes = c'.maxSectionBytes →
        ∀ e, load v source hint c = .error e → load v source hint c' = .error e) := by
  constructor
  · intro b hload
    obtain ⟨withSymbols, tables, hstaged, rfl⟩ := load_eq_ok_iff.1 hload
    obtain ⟨tables', hstaged'⟩ := hstaged.mono hs hb
    exact ⟨_, load_eq_ok_iff.2 ⟨withSymbols, tables', hstaged', rfl⟩, hstaged.eq_with_symbols _ _⟩
  · intro hs hb e he
    unfold load at he ⊢
    rw [map_eq_error_iff] at he ⊢
    exact loadLogged_error_congr hs hb he

/-- The small PE image has two sections, of which the longer one has 52 bytes. It is loaded under just these limits, so it is
loaded under the usual ones and without its symbols; with one section allowed, it is loaded neither with its symbols nor
without. -/
theorem load_of_limits_le_sample :
    (∃ b b', load Pe.ImageSpec.sample.view "sample" .auto { maxSections := 2, maxSectionBytes := 52 } = .ok b ∧
        load Pe.ImageSpec.sample.view "sample" .auto { coffSymbols := false } = .ok b' ∧ b'.sections = b.sections) ∧
      ∃ e, load Pe.ImageSpec.sample.view "sample" .auto { maxSections := 1 } = .error e ∧
        load Pe.ImageSpec.sample.view "sample" .auto { maxSections := 1, coffSymbols := false } = .error e := by
  have hok : (load Pe.ImageSpec.sample.view "sample" .auto { maxSections := 2, maxSectionBytes := 52 }).toOption.map
      Binary.format = some .pe := by
    decide +kernel
  have herror : load Pe.ImageSpec.sample.view "sample" .auto { maxSections := 1 } =
      .error (.corruptSection Pe.SectionTable.tableName (.sectionCount 2 1)) := by
    decide +kernel
  obtain ⟨b, hload, -⟩ := Except.exists_of_toOption_map hok
  obtain ⟨hmono, -⟩ := load_of_limits_le Pe.ImageSpec.sample.view "sample" .auto
    { maxSections := 2, maxSectionBytes := 52 } { coffSymbols := false } (by decide) (by decide)
  obtain ⟨b', hload', hb'⟩ := hmono b hload
  obtain ⟨-, hcongr⟩ := load_of_limits_le Pe.ImageSpec.sample.view "sample" .auto
    { maxSections := 1 } { maxSections := 1, coffSymbols := false } (by decide) (by decide)
  refine ⟨⟨b, b', hload, hload', ?_⟩, _, herror, hcongr rfl rfl _ herror⟩
  rw [hb']

end ExecImage
