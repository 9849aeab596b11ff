import ExecImage.Proofs.Elf.Appended
import ExecImage.Proofs.Elf.Writer
import ExecImage.Proofs.Pe.Appended

/-!
# Bytes appended to an image do no harm

An image that is loaded is loaded too when bytes are added at its end, as the same image: every field but the symbols
and the warnings is the same, and so are the sections, of which a PE image may resolve some names only in the longer
file. Symbol tables of an ELF image that are loaded stay as they are, so if all are, nothing changes.
-/

namespace ExecImage

open Except (Carries carries_eq_iff)

variable {v w : View} {options : Options} {source : String} {hint : FormatHint}

/-! ## The format -/

/-- A signed image is signed in a longer file. -/
theorem Pe.isSigned_of_begins (h : v.Begins w) (hs : Pe.isSigned v = true) : Pe.isSigned w = true := by
  obtain ⟨hdos, offset, hoffset, hsignature⟩ := Pe.isSigned_iff.1 hs
  exact Pe.isSigned_iff.2 ⟨h.startsWith hdos, offset, carries_eq_iff.1 (h.word32 _ _) offset hoffset, h.startsWith hsignature⟩

/-- A signed image is long enough to tell that it is no ELF image. -/
theorem Pe.covers_of_isSigned (hs : Pe.isSigned v = true) : v.Covers 0 Elf.magic.length := by
  obtain ⟨-, offset, hoffset, -⟩ := Pe.isSigned_iff.1 hs
  obtain ⟨n, hn, -⟩ := Except.map_eq_ok_iff.1 hoffset
  obtain ⟨bs, hbs, -⟩ := Except.map_eq_ok_iff.1 hn
  exact (View.slice_eq_ok_iff.1 hbs).1.mono (by decide)

/-- A format that the magic bytes tell is told of a longer file. -/
theorem sniff_eq (h : v.Begins w) (hs : sniff v ≠ .unrecognized) : sniff w = sniff v := by
  unfold sniff at hs ⊢
  by_cases hm : v.startsWith 0 Elf.magic = true
  · rw [if_pos hm, if_pos (h.startsWith hm)]
  rw [if_neg hm] at hs ⊢
  by_cases hsigned : Pe.isSigned v = true
  · have hm' : ¬w.startsWith 0 Elf.magic = true := by
      rw [h.startsWith_eq (Pe.covers_of_isSigned hsigned)]
      exact hm
    rw [if_neg hm', if_pos (Pe.isSigned_of_begins h hsigned), if_pos hsigned]
  · rw [if_neg hsigned] at hs
    exact absurd rfl hs

/-- A format that is selected is selected for a longer file. -/
theorem FormatHint.select_carries (h : v.Begins w) (hint : FormatHint) : Carries Eq (hint.select v) (hint.select w) := by
  rw [carries_eq_iff]
  intro f hf
  have hs : sniff v ≠ .unrecognized := by
    intro hs
    unfold FormatHint.select at hf
    rw [hs] at hf
    cases hint <;> nomatch hf
  rw [← hf]
  unfold FormatHint.select
  rw [sniff_eq h hs]

/-! ## The image -/

/-- How the binary of an ELF image relates to that of a longer file: the sections are the same, and so is every symbol
table that is loaded; the binaries are the same if all are. -/
def Elf.SameInLonger (v w : View) (options : Options) (b b' : Binary) : Prop :=
  b'.sections = b.sections ∧
    ∃ image image', Elf.Image.read v options = .ok image ∧ Elf.Image.read w options = .ok image' ∧
    List.Forall₂ (fun t t' => t.label = t'.label ∧ ∀ table, t.outcome = .loaded table → t'.outcome = .loaded table)
      (image.symbolTables options) (image'.symbolTables options) ∧
    ((∀ t ∈ image.symbolTables options, ∃ table, t.outcome = .loaded table) → b' = b)

/-- How the binary of a PE image relates to that of a longer file: the sections are the same, but names may be resolved later. -/
def Pe.SameInLonger (v w : View) (source : String) (options : Options) (b b' : Binary) : Prop :=
  ∃ image image', Pe.Image.read v options = .ok image ∧ Pe.Image.read w options = .ok image' ∧
    List.Forall₂ (fun s s' => s' = { s with name := s'.name } ∧
      (s'.name = s.name ∨ Pe.ResolvedLater image image' source s s')) b.sections b'.sections

/-- Outcomes that are the same where they are loaded are the same if all are. -/
theorem outcomes_eq {tables tables' : List LabelledTable}
    (h : List.Forall₂ (fun t t' => t.label = t'.label ∧ ∀ table, t.outcome = .loaded table → t'.outcome = .loaded table)
      tables tables')
    (hl : ∀ t ∈ tables, ∃ table, t.outcome = .loaded table) :
    tables'.map LabelledTable.outcome = tables.map LabelledTable.outcome := by
  induction h with
  | nil => rfl
  | @cons t t' ts ts' ht _ ih =>
    obtain ⟨table, htable⟩ := hl t (by simp)
    rw [List.map_cons, List.map_cons, htable, ht.2 table htable, ih fun t ht => hl t (by simp [ht])]

/-- An image that is loaded is loaded from a longer file too, as the same image. -/
theorem load_of_begins (h : v.Begins w) {b : Binary} (hb : load v source hint options = .ok b) :
    ∃ b', load w source hint options = .ok b' ∧
      b' = { b with sections := b'.sections, symbols := b'.symbols, warnings := b'.warnings } ∧
      (b.format = .elf ∧ Elf.SameInLonger v w options b b' ∨ b.format = .pe ∧ Pe.SameInLonger v w source options b b') := by
  obtain ⟨withSymbols, tables, hstaged, rfl⟩ := load_eq_ok_iff.1 hb
  cases hstaged with
  | @elf image sections hselect hread hload =>
    obtain ⟨-, -, htable⟩ := Elf.Image.read_eq_ok_iff.1 hread
    obtain ⟨hview, -⟩ := Elf.SectionTable.view_of_read htable
    have h' : image.sections.view.Begins w := hview ▸ h
    obtain ⟨_, hread', rfl⟩ := Elf.Image.read_carries h image hread
    have hselect' := carries_eq_iff.1 (hint.select_carries h) _ hselect
    have hload' := carries_eq_iff.1 (Elf.SectionTable.load_carries h') sections hload
    have htables := Elf.Image.forall₂_symbolTables options h'
    refine ⟨_, load_eq_ok_iff.2 ⟨_, _, .elf hselect' hread' hload', rfl⟩, rfl,
      .inl ⟨rfl, rfl, image, image.within w, hread, hread', htables, fun hl => ?_⟩⟩
    rw [outcomes_eq htables hl]
    rfl
  | @pe image sections hselect hread hload =>
    obtain ⟨image', hread', hheaders, hstrings, hentries⟩ := Pe.Image.read_carries h image hread
    obtain ⟨hview, -⟩ := Pe.Image.read_eq_ok_iff.1 hread
    obtain ⟨hview', -⟩ := Pe.Image.read_eq_ok_iff.1 hread'
    have hselect' := carries_eq_iff.1 (hint.select_carries h) _ hselect
    unfold Pe.Image.loadSections at hload
    rw [hview] at hload
    obtain ⟨sections', hload', hsections⟩ := Pe.SectionTable.load_carries h hentries sections hload
    rw [← hview', ← hheaders] at hload'
    refine ⟨_, load_eq_ok_iff.2 ⟨_, _, .pe hselect' hread' hload', rfl⟩, ?_,
      .inr ⟨rfl, image, image', hread, hread', ?_⟩⟩
    · simp only [Pe.Image.binary, hheaders]
    · refine hsections.imp fun s s' hs => ?_
      obtain ⟨e, he, e', he', hr, hs, hs'⟩ := hs
      exact Pe.agree_of_renamed hstrings he he' hr hs hs'

/-- Appending bytes to an image is harmless: an image that is loaded is loaded with any bytes after it, as the same image. -/
theorem load_append {p : Bytes} {b : Binary} (h : load ⟨p⟩ source hint options = .ok b) (q : Bytes) :
    ∃ b', load ⟨p ++ q⟩ source hint options = .ok b' ∧
      b' = { b with sections := b'.sections, symbols := b'.symbols, warnings := b'.warnings } ∧
      (b.format = .elf ∧ Elf.SameInLonger ⟨p⟩ ⟨p ++ q⟩ options b b' ∨
        b.format = .pe ∧ Pe.SameInLonger ⟨p⟩ ⟨p ++ q⟩ source options b b') :=
  load_of_begins ⟨q, rfl⟩ h

/-- A byte after a small image, whose symbol table is loaded, changes nothing. -/
theorem load_append_sample : ∃ b, load ⟨Elf.ImageSpec.sample.write.toArray⟩ "sample" .auto {} = .ok b ∧
    load ⟨Elf.ImageSpec.sample.write.toArray ++ #[0]⟩ "sample" .auto {} = .ok b := by
  have h : (load ⟨Elf.ImageSpec.sample.write.toArray⟩ "sample" .auto {}).toOption.map Binary.format = some .elf := by
    decide +kernel
  have htables : (Elf.Image.read ⟨Elf.ImageSpec.sample.write.toArray⟩ {}).toOption.map
      (fun image => (image.symbolTables {}).all fun t => t.read.reading.failure.isNone) = some true := by
    decide +kernel
  obtain ⟨b, hb, hformat⟩ := Except.exists_of_toOption_map h
  obtain ⟨image, himage, hloaded⟩ := Except.exists_of_toOption_map htables
  obtain ⟨b', hb', -, ⟨-, -, image', _, himage', -, -, heq⟩ | ⟨hpe, -⟩⟩ := load_append hb #[0]
  · cases himage.symm.trans himage'
    rw [List.all_eq_true] at hloaded
    refine ⟨b, hb, ?_⟩
    rw [hb', heq fun t ht => ?_]
    have hnone := Option.isNone_iff_eq_none.1 (hloaded t ht)
    refine ⟨{ table := t.read.table, symbols := t.read.reading.symbols, warnings := t.read.warnings }, ?_⟩
    rw [LabelledTable.outcome_eq_loaded_iff, TableReading.result, hnone]
  · rw [hformat] at hpe
    cases hpe

/-- A small image of one section, whose name is the string at offset 4 of a string table that would follow the image. -/
def Pe.slashed : Bytes :=
  let half (n : Nat) := littleDigits 2 n
  let word (n : Nat) := littleDigits 4 n
  let stub := Pe.dosMagic ++ List.replicate 58 0 ++ word 64 ++ Pe.signature
  let file := half 0x14C ++ half 1 ++ word 0 ++ word 224 ++ word 0 ++ half 96 ++ half 0
  let optional := half 0x10B ++ List.replicate 94 0
  let header :=
    [0x2F, 0x34, 0, 0, 0, 0, 0, 0] ++ word 16 ++ word 0x1000 ++ word 0 ++ word 0 ++ List.replicate 12 0 ++ word 0x20000020
  (stub ++ file ++ optional ++ header).toArray

/-- A string table of one string. -/
def Pe.longString : Bytes :=
  (littleDigits 4 10 ++ [0x2E, 0x6C, 0x6F, 0x6E, 0x67, 0]).toArray

-- A name can indeed be resolved in the longer file only.
example : (load ⟨Pe.slashed⟩ "sample" .auto {}).toOption.map (fun b => b.sections.map Section.name) = some ["/4"] ∧
    (load ⟨Pe.slashed ++ Pe.longString⟩ "sample" .auto {}).toOption.map (fun b => b.sections.map Section.name) =
      some [".long"] := by
  decide +kernel

end ExecImage
