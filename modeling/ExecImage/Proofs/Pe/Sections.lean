import ExecImage.Pe.SectionTable
import ExecImage.Proofs.View

/-!
# What the PE section table and its load give

The counterpart of the statements on ELF sections. What is copied is the mapped part of the raw data, while all raw
data must be in the file; the addresses count from the image base.
-/

namespace ExecImage.Pe.SectionTable

open Except (bind_eq_ok_iff)

variable {t : SectionTable} {v : View} {options : Options} {source name : String} {e : NamedHeader} {s : Section}
  {imageBase : UInt64} {width : Width}

/-- A section table is read exactly when its headers are as many as are allowed and all inside the file. -/
theorem read_eq_ok_iff {offset : Nat} {count : UInt16} {strings : Option StringTable} :
    read v offset count strings options = .ok t ↔
      count.toNat ≤ options.maxSections.toNat ∧ ∃ table headers,
        v.sub offset (count.toNat * SectionHeader.size) = .ok table ∧
        (List.range count.toNat).mapM (fun i => SectionHeader.read table (i * SectionHeader.size)) = .ok headers ∧
        t = { entries := headers.map fun h => ⟨h, resolveName h strings⟩ } := by
  unfold read
  by_cases hc : options.maxSections.toNat < count.toNat
  · have : ¬count.toNat ≤ options.maxSections.toNat := Nat.not_le.2 hc
    simp [hc, this, Except.throw_eq_error]
  · have : count.toNat ≤ options.maxSections.toNat := Nat.not_lt.1 hc
    simp only [hc, if_false, this, true_and, bind_eq_ok_iff, Except.pure_eq_ok, Except.ok.injEq, eq_comm (b := t)]
    constructor
    · rintro ⟨table, htable, headers, hheaders, ht⟩
      exact ⟨table, headers, htable, hheaders, ht⟩
    · rintro ⟨table, headers, htable, hheaders, ht⟩
      exact ⟨table, htable, headers, hheaders, ht⟩

/-- The bytes copied for a section are the mapped part of its raw data, if it has any. -/
theorem copy_eq_ok_iff {h : SectionHeader} {bytes : Bytes} :
    copy v name h options = .ok bytes ↔
      (h.rawSize = 0 ∧ bytes = #[]) ∨
        (h.rawSize ≠ 0 ∧ v.Covers h.rawPointer.toNat h.rawSize.toNat ∧
          min h.rawSize.toNat h.mappedSize.toNat ≤ options.maxSectionBytes.toNat ∧
          v.slice h.rawPointer.toNat (min h.rawSize.toNat h.mappedSize.toNat) = .ok bytes) := by
  unfold copy
  by_cases h0 : h.rawSize = 0
  · simp [h0, eq_comm]
  · by_cases hc : v.Covers h.rawPointer.toNat h.rawSize.toNat
    · by_cases hm : options.maxSectionBytes.toNat < min h.rawSize.toNat h.mappedSize.toNat
      · have : ¬min h.rawSize.toNat h.mappedSize.toNat ≤ options.maxSectionBytes.toNat := Nat.not_le.2 hm
        simp only [h0, hc, hm, this, if_false, if_true, not_true_eq_false, false_and, and_false, or_self, reduceCtorEq]
      · have : min h.rawSize.toNat h.mappedSize.toNat ≤ options.maxSectionBytes.toNat := Nat.not_lt.1 hm
        simp only [h0, hc, hm, this, if_false, not_true_eq_false, false_and, false_or, ne_eq, not_false_eq_true, true_and]
    · simp [h0, hc]

/-- What a section of code or data has to satisfy to be loaded: its addresses fit, counted from the image base, and if it has raw data,
the file has them and what is mapped of them is not more than may be copied. -/
structure CanLoad (v : View) (imageBase : UInt64) (width : Width) (options : Options) (h : SectionHeader) : Prop where
  fits : width.Fits (imageBase.toNat + h.virtualAddress.toNat) h.mappedSize.toNat
  bytes : h.rawSize ≠ 0 → v.Covers h.rawPointer.toNat h.rawSize.toNat ∧
    min h.rawSize.toNat h.mappedSize.toNat ≤ options.maxSectionBytes.toNat

/-- A section can be loaded if its addresses fit and its bytes can be copied. -/
theorem canLoad_iff (name : String) {h : SectionHeader} :
    CanLoad v imageBase width options h ↔
      width.Fits (imageBase.toNat + h.virtualAddress.toNat) h.mappedSize.toNat ∧
        ∃ bytes, copy v name h options = .ok bytes := by
  simp only [copy_eq_ok_iff]
  constructor
  · intro hload
    refine ⟨hload.fits, ?_⟩
    by_cases h0 : h.rawSize = 0
    · exact ⟨_, .inl ⟨h0, rfl⟩⟩
    · obtain ⟨hcovers, hmax⟩ := hload.bytes h0
      exact ⟨_, .inr ⟨h0, hcovers, hmax, View.slice_of_covers (hcovers.mono (by omega))⟩⟩
  · rintro ⟨hfits, bytes, ⟨h0, -⟩ | ⟨-, hcovers, hmax, -⟩⟩
    · exact ⟨hfits, fun hne => absurd h0 hne⟩
    · exact ⟨hfits, fun _ => ⟨hcovers, hmax⟩⟩

/-- The bytes of a section cannot be copied if its raw data are not in the file, or else if what is mapped of them is more than
the limit. -/
theorem copy_eq_error_iff {h : SectionHeader} {error : LoadError} :
    copy v name h options = .error error ↔
      h.rawSize ≠ 0 ∧
        (¬v.Covers h.rawPointer.toNat h.rawSize.toNat ∧
            error = .corruptSection name (.rawDataOutside h.rawPointer.toNat h.rawSize.toNat v.size) ∨
          v.Covers h.rawPointer.toNat h.rawSize.toNat ∧
            options.maxSectionBytes.toNat < min h.rawSize.toNat h.mappedSize.toNat ∧
            error = .outOfMemory (min h.rawSize.toNat h.mappedSize.toNat)) := by
  unfold copy
  by_cases h0 : h.rawSize = 0
  · simp [h0]
  · by_cases hc : v.Covers h.rawPointer.toNat h.rawSize.toNat
    · simp only [h0, hc, if_false, not_true_eq_false, ne_eq, not_false_eq_true, true_and, false_and, false_or]
      by_cases hm : options.maxSectionBytes.toNat < min h.rawSize.toNat h.mappedSize.toNat
      · simp only [hm, if_true, true_and, Except.error.injEq, eq_comm]
      · -- What is mapped is no more than the raw data, so it can be read.
        have hmapped : v.Covers h.rawPointer.toNat (min h.rawSize.toNat h.mappedSize.toNat) := hc.mono (by omega)
        simp only [hm, if_false, View.slice_of_covers hmapped, reduceCtorEq, false_and]
    · simp [h0, hc, eq_comm]

/-- The section that a header becomes, given its kind and its bytes. -/
def sectionOf (imageBase : UInt64) (source : String) (e : NamedHeader) (kind : SectionKind) (bytes : Bytes) : Section :=
  { binary := source, name := Section.displayName e.name, kind, vma := imageBase + e.header.virtualAddress.toUInt64
    size := e.header.mappedSize.toUInt64, fileOffset := e.header.rawPointer.toUInt64
    flags := e.header.characteristics.toUInt64, bytes }

/-- A header becomes a section exactly when it is of code or data, its addresses fit and its bytes can be copied. -/
theorem loadEntry_eq_some_iff :
    loadEntry v imageBase width source options e = .ok (some s) ↔
      ∃ kind bytes, e.header.kind? = some kind ∧
        width.Fits (imageBase.toNat + e.header.virtualAddress.toNat) e.header.mappedSize.toNat ∧
        copy v (Section.displayName e.name) e.header options = .ok bytes ∧ s = sectionOf imageBase source e kind bytes := by
  unfold loadEntry
  cases hk : e.header.kind? with
  | none => simp [hk]
  | some kind =>
    simp only [hk, UInt32.toNat_toUInt64]
    by_cases hf : width.Fits (imageBase.toNat + e.header.virtualAddress.toNat) e.header.mappedSize.toNat
    · simp only [hf, if_true, bind_eq_ok_iff, Except.pure_eq_ok, Except.ok.injEq, Option.some.injEq, true_and]
      constructor
      · rintro ⟨bytes, hb, rfl⟩
        exact ⟨kind, bytes, rfl, hb, rfl⟩
      · rintro ⟨_, bytes, rfl, hb, rfl⟩
        exact ⟨bytes, hb, rfl⟩
    · simp [hf, Except.throw_eq_error]

/-- A header is passed over exactly when it is of neither code nor data. -/
theorem loadEntry_eq_none_iff :
    loadEntry v imageBase width source options e = .ok none ↔ e.header.kind? = none := by
  unfold loadEntry
  cases hk : e.header.kind? with
  | none => simp [hk]
  | some kind =>
    simp only [hk]
    split
    · simp [bind_eq_ok_iff, Except.pure_eq_ok]
    · simp [Except.throw_eq_error]

/-- A header of code or data fails the load if its addresses do not fit, or else if its bytes cannot be copied. -/
theorem loadEntry_eq_error_iff {error : LoadError} :
    loadEntry v imageBase width source options e = .error error ↔
      e.header.kind? ≠ none ∧
        (¬width.Fits (imageBase.toNat + e.header.virtualAddress.toNat) e.header.mappedSize.toNat ∧
            error = .corruptSection (Section.displayName e.name)
              (.relativeRange e.header.virtualAddress.toNat e.header.mappedSize.toNat width.bits) ∨
          width.Fits (imageBase.toNat + e.header.virtualAddress.toNat) e.header.mappedSize.toNat ∧
            copy v (Section.displayName e.name) e.header options = .error error) := by
  unfold loadEntry
  cases hk : e.header.kind? with
  | none => simp [hk]
  | some kind =>
    simp only [hk, UInt32.toNat_toUInt64]
    by_cases hf : width.Fits (imageBase.toNat + e.header.virtualAddress.toNat) e.header.mappedSize.toNat
    · simp [hf, Except.bind_eq_error_iff, Except.pure_eq_ok]
    · simp [hf, Except.throw_eq_error, eq_comm]

/-- A header becomes a section of the same kind and with the same bytes in a second run that copies the same bytes for it, under
the name that it has there. -/
theorem loadEntry_carries_of_copy {w : View} {options' : Options} {e e' : NamedHeader}
    (hcopy : ∀ name name' h, Except.Carries Eq (copy v name h options) (copy w name' h options'))
    (he : e.header = e'.header) :
    Except.Carries (Option.Rel fun s s' => s = sectionOf imageBase source e s.kind s.bytes ∧
        s' = sectionOf imageBase source e' s.kind s.bytes)
      (loadEntry v imageBase width source options e) (loadEntry w imageBase width source options' e') := by
  intro o ho
  cases o with
  | none =>
    have hkind := loadEntry_eq_none_iff.1 ho
    exact ⟨none, loadEntry_eq_none_iff.2 (he ▸ hkind), .none⟩
  | some s =>
    obtain ⟨kind, bytes, hkind, hfits, hbytes, rfl⟩ := loadEntry_eq_some_iff.1 ho
    rw [he] at hkind hfits hbytes
    have hbytes' := Except.carries_eq_iff.1 (hcopy _ (Section.displayName e'.name) _) bytes hbytes
    exact ⟨_, loadEntry_eq_some_iff.2 ⟨kind, bytes, hkind, hfits, hbytes', rfl⟩, .some ⟨rfl, rfl⟩⟩

end ExecImage.Pe.SectionTable
