import ExecImage.Proofs.Elf.Records

/-!
# What the ELF section table and its load give

One statement for each step: what `SectionTable.read` gives (`read_eq_ok_iff`), what is copied for a section
(`copy_eq_ok_iff`), and which section a header becomes (`loadEntry_eq_some_iff`). The statements are exact, so a proof
about a load never opens the readers again.
-/

namespace ExecImage.Elf.SectionTable

open Except (bind_eq_ok_iff)

variable {t : SectionTable} {options : Options} {source name : String} {e : NamedHeader} {s : Section}

/-- What a section table with headers is made of: the table and its headers are inside the file, and so is the section
of names. -/
structure Decoded (v : View) (h : Header) (options : Options) (t : SectionTable) (first : SectionHeader)
    (headers : List SectionHeader) (names : Option View) : Prop where
  entrySize_le : h.ident.cls.sectionHeaderSize ≤ h.entrySize.toNat
  readFirst : SectionHeader.read v h.tableOffset.toNat h.ident = .ok first
  count_le : sectionCount h first ≤ options.maxSections.toNat
  length_lt : sectionCount h first * h.entrySize.toNat < UInt64.size
  covers : v.Covers h.tableOffset.toNat (sectionCount h first * h.entrySize.toNat)
  readHeaders : (List.range (sectionCount h first)).mapM (fun i => SectionHeader.read v (headerOffset h i) h.ident) = .ok headers
  readNames : namesView v headers (namesIndex h first) = .ok names
  table : t = { view := v, cls := h.ident.cls, entries := headers.map fun sh => ⟨sh, nameAt names sh.nameOffset⟩ }

/-- A section table is read exactly when there is none, or when its parts can be decoded. -/
theorem read_eq_ok_iff {v : View} {h : Header} :
    read v h options = .ok t ↔
      (h.tableOffset = 0 ∧ t = { view := v, cls := h.ident.cls, entries := [] }) ∨
        (h.tableOffset ≠ 0 ∧ ∃ first headers names, Decoded v h options t first headers names) := by
  unfold read
  by_cases h0 : h.tableOffset = 0
  · simp [h0, Except.pure_eq_ok, eq_comm]
  · simp only [h0, if_false, false_and, false_or, ne_eq, not_false_eq_true, true_and]
    constructor
    · intro hr
      split at hr
      · nomatch hr
      obtain ⟨first, hfirst, hr⟩ := bind_eq_ok_iff.1 hr
      split at hr
      · nomatch hr
      split at hr
      · nomatch hr
      obtain ⟨u, hu, hr⟩ := bind_eq_ok_iff.1 hr
      obtain ⟨bs, hbs⟩ := Except.discard_eq_ok_iff.1 hu
      obtain ⟨headers, hheaders, hr⟩ := bind_eq_ok_iff.1 hr
      obtain ⟨names, hnames, hr⟩ := bind_eq_ok_iff.1 hr
      cases hr
      exact ⟨first, headers, names, by omega, hfirst, by omega, by omega, (View.slice_eq_ok_iff.1 hbs).1, hheaders,
        hnames, rfl⟩
    · rintro ⟨first, headers, names, d⟩
      rw [if_neg (Nat.not_lt.2 d.entrySize_le)]
      refine bind_eq_ok_iff.2 ⟨first, d.readFirst, ?_⟩
      rw [if_neg (Nat.not_lt.2 d.count_le), if_neg (Nat.not_le.2 d.length_lt)]
      refine bind_eq_ok_iff.2 ⟨⟨⟩, Except.discard_eq_ok_iff.2 ⟨_, View.slice_of_covers d.covers⟩, ?_⟩
      refine bind_eq_ok_iff.2 ⟨headers, d.readHeaders, bind_eq_ok_iff.2 ⟨names, d.readNames, ?_⟩⟩
      rw [d.table]
      rfl

/-- A section table is of the file it was read from. -/
theorem view_of_read {v : View} {h : Header} (hr : read v h options = .ok t) : t.view = v ∧ t.cls = h.ident.cls := by
  rcases read_eq_ok_iff.1 hr with ⟨-, rfl⟩ | ⟨-, _, _, _, d⟩
  · exact ⟨rfl, rfl⟩
  · rw [d.table]
    exact ⟨rfl, rfl⟩

/-- The bytes copied for a section are its range of the file, if it has one and it is within the limit. -/
theorem copy_eq_ok_iff {h : SectionHeader} {bytes : Bytes} :
    t.copy name h options = .ok bytes ↔
      (h.hasFileData = false ∧ bytes = #[]) ∨
        (h.hasFileData = true ∧ h.size.toNat ≤ options.maxSectionBytes.toNat ∧
          t.view.slice h.offset.toNat h.size.toNat = .ok bytes) := by
  unfold copy
  cases h.hasFileData with
  | false => simp [eq_comm]
  | true =>
    simp only [if_true, Bool.true_eq_false, false_and, false_or, true_and]
    by_cases hm : options.maxSectionBytes < h.size
    · have : ¬h.size.toNat ≤ options.maxSectionBytes.toNat := by simpa [UInt64.lt_iff_toNat_lt] using hm
      simp [hm, this]
    · have : h.size.toNat ≤ options.maxSectionBytes.toNat := by simpa [UInt64.lt_iff_toNat_lt] using hm
      simp only [hm, if_false, this, true_and]
      cases hs : t.view.slice h.offset.toNat h.size.toNat <;> simp

/-- What a section of code or data has to satisfy to be loaded: its addresses fit, and unless it is of type 8, which has no bytes in
the file, its bytes are not more than may be copied and the file has them. -/
structure CanLoad (t : SectionTable) (options : Options) (h : SectionHeader) : Prop where
  fits : t.cls.width.Fits h.addr.toNat h.size.toNat
  bytes : h.type ≠ 8 →
    h.size.toNat ≤ options.maxSectionBytes.toNat ∧ t.view.Covers h.offset.toNat h.size.toNat

/-- A section can be loaded if its addresses fit and its bytes can be copied. -/
theorem canLoad_iff (name : String) {h : SectionHeader} :
    t.CanLoad options h ↔
      t.cls.width.Fits h.addr.toNat h.size.toNat ∧ ∃ bytes, t.copy name h options = .ok bytes := by
  simp only [copy_eq_ok_iff]
  constructor
  · intro hload
    refine ⟨hload.fits, ?_⟩
    cases hdata : h.hasFileData with
    | false => exact ⟨_, .inl ⟨rfl, rfl⟩⟩
    | true =>
      obtain ⟨hmax, hcovers⟩ := hload.bytes (SectionHeader.hasFileData_iff.1 hdata)
      exact ⟨_, .inr ⟨rfl, hmax, View.slice_of_covers hcovers⟩⟩
  · rintro ⟨hfits, bytes, ⟨hdata, -⟩ | ⟨-, hmax, hslice⟩⟩
    · exact ⟨hfits, fun htype => absurd (SectionHeader.hasFileData_eq_false_iff.1 hdata) htype⟩
    · exact ⟨hfits, fun _ => ⟨hmax, (View.slice_eq_ok_iff.1 hslice).1⟩⟩

/-- The bytes of a section cannot be copied if they are more than the limit, or else if they are not in the file. -/
theorem copy_eq_error_iff {h : SectionHeader} {error : LoadError} :
    t.copy name h options = .error error ↔
      h.hasFileData = true ∧
        (options.maxSectionBytes.toNat < h.size.toNat ∧ error = .outOfMemory h.size.toNat ∨
          h.size.toNat ≤ options.maxSectionBytes.toNat ∧ ¬t.view.Covers h.offset.toNat h.size.toNat ∧
            error = .corruptSection name (.contentsOutside h.offset.toNat h.size.toNat t.view.size)) := by
  unfold copy
  cases h.hasFileData with
  | false => simp
  | true =>
    simp only [if_true, true_and, UInt64.lt_iff_toNat_lt]
    by_cases hm : options.maxSectionBytes.toNat < h.size.toNat
    · have : ¬h.size.toNat ≤ options.maxSectionBytes.toNat := Nat.not_le.2 hm
      simp [hm, this, eq_comm]
    · have : h.size.toNat ≤ options.maxSectionBytes.toNat := Nat.not_lt.1 hm
      simp only [hm, if_false, this, false_and, true_and, false_or]
      by_cases hc : t.view.Covers h.offset.toNat h.size.toNat
      · simp [View.slice, hc]
      · simp [View.slice, hc, eq_comm]

/-- The section that a header becomes, given its kind and its bytes. -/
def sectionOf (source : String) (e : NamedHeader) (kind : SectionKind) (bytes : Bytes) : Section :=
  { binary := source, name := Section.displayName e.name, kind, vma := e.header.addr, size := e.header.size
    fileOffset := e.header.offset, flags := e.header.flags, bytes }

/-- A header becomes a section exactly when it is of code or data, its addresses fit and its bytes can be copied. -/
theorem loadEntry_eq_some_iff :
    t.loadEntry source options e = .ok (some s) ↔
      ∃ kind bytes, e.header.kind? = some kind ∧ t.cls.width.Fits e.header.addr.toNat e.header.size.toNat ∧
        t.copy (Section.displayName e.name) e.header options = .ok bytes ∧ s = sectionOf source e kind bytes := by
  unfold loadEntry
  cases hk : e.header.kind? with
  | none => simp [hk]
  | some kind =>
    simp only [hk]
    by_cases hf : t.cls.width.Fits e.header.addr.toNat e.header.size.toNat
    · simp only [hf, if_true, bind_eq_ok_iff, Except.pure_eq_ok, Except.ok.injEq, Option.some.injEq, true_and]
      constructor
      · rintro ⟨bytes, hb, rfl⟩
        exact ⟨kind, bytes, rfl, hb, rfl⟩
      · rintro ⟨_, bytes, rfl, hb, rfl⟩
        exact ⟨bytes, hb, rfl⟩
    · simp [hf, Except.throw_eq_error]

/-- A header is passed over exactly when it is of neither code nor data. -/
theorem loadEntry_eq_none_iff : t.loadEntry source options e = .ok none ↔ e.header.kind? = none := by
  unfold loadEntry
  cases hk : e.header.kind? with
  | none => simp [hk]
  | some kind =>
    simp only [hk]
    split
    · simp [bind_eq_ok_iff, Except.pure_eq_ok]
    · simp [Except.throw_eq_error]

/-- A header of code or data fails the load if its addresses do not fit, or else if its bytes cannot be copied. -/
theorem loadEntry_eq_error_iff {error : LoadError} :
    t.loadEntry source options e = .error error ↔
      e.header.kind? ≠ none ∧
        (¬t.cls.width.Fits e.header.addr.toNat e.header.size.toNat ∧
            error = .corruptSection (Section.displayName e.name)
              (.addressRange e.header.addr.toNat e.header.size.toNat t.cls.width.bits) ∨
          t.cls.width.Fits e.header.addr.toNat e.header.size.toNat ∧
            t.copy (Section.displayName e.name) e.header options = .error error) := by
  unfold loadEntry
  cases hk : e.header.kind? with
  | none => simp [hk]
  | some kind =>
    simp only [hk]
    by_cases hf : t.cls.width.Fits e.header.addr.toNat e.header.size.toNat
    · simp [hf, Except.bind_eq_error_iff, Except.pure_eq_ok]
    · simp [hf, Except.throw_eq_error, eq_comm]

/-- A header becomes the same section in a second run that copies the same bytes for it. -/
theorem loadEntry_carries_of_copy {t' : SectionTable} {options' : Options}
    (hcopy : ∀ name h, Except.Carries Eq (t.copy name h options) (t'.copy name h options')) (hcls : t'.cls = t.cls)
    (e : NamedHeader) :
    Except.Carries Eq (t.loadEntry source options e) (t'.loadEntry source options' e) := by
  rw [Except.carries_eq_iff]
  intro o ho
  cases o with
  | none => exact loadEntry_eq_none_iff.2 (loadEntry_eq_none_iff.1 ho)
  | some s =>
    obtain ⟨kind, bytes, hkind, hfits, hbytes, rfl⟩ := loadEntry_eq_some_iff.1 ho
    rw [← hcls] at hfits
    have hbytes' := Except.carries_eq_iff.1 (hcopy _ _) bytes hbytes
    exact loadEntry_eq_some_iff.2 ⟨kind, bytes, hkind, hfits, hbytes', rfl⟩

/-- The sections of a load are what its headers become, in order. -/
theorem load_eq_ok_iff {sections : List Section} :
    t.load source options = .ok sections ↔
      ∃ loaded, List.Forall₂ (fun e o => t.loadEntry source options e = .ok o) t.entries loaded ∧
        sections = loaded.filterMap id :=
  Except.mapM_filterMap_eq_ok_iff

end ExecImage.Elf.SectionTable
