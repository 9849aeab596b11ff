import ExecImage.Proofs.Lists
import ExecImage.Proofs.Pe.Records
import ExecImage.Proofs.Stages

/-!
# Bytes after the end of a PE image

A longer file has the same headers and the same section headers. Its string table may lie where the shorter file has
ended, so a name that is a slash and the offset of a string may stand for the string only in the longer file; a string
table that is in the shorter file is the same in both.
-/

namespace ExecImage.Pe

open Except (Carries carries_eq_iff)

variable {v w : View} {options : Options} {source : String}

/-- A string table that is in the file is the same in a longer file. -/
theorem StringTable.locate?_eq_some (h : v.Begins w) {pointer count : UInt32} {t : StringTable}
    (ht : locate? v pointer count = some t) : locate? w pointer count = some t := by
  obtain ⟨size, hlies, hview⟩ := locate?_eq_some_iff.1 ht
  have hdeclared := carries_eq_iff.1 (h.word32 _ _) size hlies.declared
  exact locate?_eq_some_iff.2 ⟨size, ⟨hlies.present, hdeclared, hlies.sizeField_le, h.covers hlies.covers⟩,
    carries_eq_iff.1 (h.sub _ _) t.view hview⟩

/-- A name that is not one of a slash and a number stands for itself. -/
theorem head?_of_longName? {rawName : List UInt8} {strings : Option StringTable} {long : String}
    (h : longName? rawName strings = some long) : rawName.head? = some 0x2F := by
  unfold longName? longNameOffset? at h
  split at h
  · rename_i hoffset
    split at hoffset
    · rfl
    · nomatch hoffset
  · nomatch h

/-- Without a string table every name stands for itself. -/
theorem longName?_none (rawName : List UInt8) : longName? rawName none = none := by
  unfold longName?
  cases longNameOffset? rawName <;> rfl

/-- The same section header, with the names that two string tables give it. -/
def NamedHeader.Renamed (strings strings' : Option StringTable) (e e' : NamedHeader) : Prop :=
  ∃ header, e = ⟨header, resolveName header strings⟩ ∧ e' = ⟨header, resolveName header strings'⟩

theorem NamedHeader.Renamed.header_eq {strings strings' : Option StringTable} {e e' : NamedHeader}
    (h : NamedHeader.Renamed strings strings' e e') : e.header = e'.header := by
  obtain ⟨header, rfl, rfl⟩ := h
  rfl

namespace SectionTable

/-- A longer file has the same section headers. -/
theorem read_carries (h : v.Begins w) (offset : Nat) (count : UInt16) (strings strings' : Option StringTable) :
    Carries (fun t t' => List.Forall₂ (NamedHeader.Renamed strings strings') t.entries t'.entries)
      (read v offset count strings options) (read w offset count strings' options) := by
  intro t ht
  obtain ⟨hcount, table, headers, htable, hheaders, rfl⟩ := read_eq_ok_iff.1 ht
  have htable' := carries_eq_iff.1 (h.sub _ _) table htable
  refine ⟨_, read_eq_ok_iff.2 ⟨hcount, table, headers, htable', hheaders, rfl⟩, ?_⟩
  dsimp only
  rw [List.forall₂_map_left_iff, List.forall₂_map_right_iff]
  exact List.forall₂_same.2 fun header _ => ⟨header, rfl, rfl⟩

/-- What is copied for a section does not depend on its name, and is the same in a longer file. -/
theorem copy_carries (h : v.Begins w) (name name' : String) (sh : SectionHeader) :
    Carries Eq (copy v name sh options) (copy w name' sh options) := by
  rw [carries_eq_iff]
  intro bytes hb
  rcases copy_eq_ok_iff.1 hb with ⟨h0, rfl⟩ | ⟨hne, hc, hm, hs⟩
  · exact copy_eq_ok_iff.2 (.inl ⟨h0, rfl⟩)
  · exact copy_eq_ok_iff.2 (.inr ⟨hne, h.covers hc, hm, carries_eq_iff.1 (h.slice _ _) bytes hs⟩)

/-- A longer file has the same sections, but for names. -/
theorem load_carries (h : v.Begins w) {imageBase : UInt64} {width : Width} {t t' : SectionTable}
    {strings strings' : Option StringTable} (ht : List.Forall₂ (NamedHeader.Renamed strings strings') t.entries t'.entries) :
    Carries (List.Forall₂ fun s s' => ∃ e ∈ t.entries, ∃ e' ∈ t'.entries, NamedHeader.Renamed strings strings' e e' ∧
        s = sectionOf imageBase source e s.kind s.bytes ∧ s' = sectionOf imageBase source e' s.kind s.bytes)
      (t.load v imageBase width source options) (t'.load w imageBase width source options) := by
  refine (Carries.mapM ht.and_mem fun e e' hee' => ?_).map fun os os' hos => List.rel_filterMap (fun o o' ho => ho) hos
  obtain ⟨he, he', hr⟩ := hee'
  refine (loadEntry_carries_of_copy (copy_carries h) hr.header_eq).imp fun o o' ho => ?_
  cases ho with
  | none => exact .none
  | some hs => exact .some ⟨e, he, e', he', hr, hs⟩

end SectionTable

namespace Image

/-- A longer file has the same headers, and the same string table if the shorter file has one. -/
theorem read_carries (h : v.Begins w) :
    Carries (fun image image' => image'.headers = image.headers ∧ (image.strings = none ∨ image'.strings = image.strings) ∧
        List.Forall₂ (NamedHeader.Renamed image.strings image'.strings) image.sections.entries image'.sections.entries)
      (Image.read v options) (Image.read w options) := by
  intro image hi
  obtain ⟨-, hheaders, hsupported, hstrings, htable⟩ := read_eq_ok_iff.1 hi
  let file := image.headers.file
  let strings' := StringTable.locate? w file.symbolPointer file.symbolCount
  obtain ⟨sections', htable', hentries⟩ := SectionTable.read_carries h _ _ image.strings strings' _ htable
  have hheaders' := carries_eq_iff.1 (Headers.read_carries h) _ hheaders
  refine ⟨{ view := w, headers := image.headers, strings := strings', sections := sections' },
    read_eq_ok_iff.2 ⟨rfl, hheaders', hsupported, rfl, htable'⟩, rfl, ?_, hentries⟩
  cases hs : image.strings with
  | none => exact .inl rfl
  | some t => exact .inr (StringTable.locate?_eq_some h (hstrings ▸ hs))

end Image

/-- The section bears a name in the second image that the first image does not resolve: the name in its header starts
with a slash, and the string that it stands for is in the file of the second image only. -/
def ResolvedLater (image image' : Image) (source : String) (s s' : Section) : Prop :=
  ∃ header long, ⟨header, Utf8.decode header.rawName⟩ ∈ image.sections.entries ∧
    ⟨header, long⟩ ∈ image'.sections.entries ∧
    header.rawName.head? = some 0x2F ∧ longName? header.rawName image.strings = none ∧
    longName? header.rawName image'.strings = some long ∧
    s = SectionTable.sectionOf image.headers.optional.imageBase source ⟨header, Utf8.decode header.rawName⟩ s.kind s.bytes ∧
    s' = SectionTable.sectionOf image.headers.optional.imageBase source ⟨header, long⟩ s.kind s.bytes

/-- Two sections of one header agree but for their names, and in their names too unless the name is resolved later. -/
theorem agree_of_renamed {image image' : Image} {e e' : NamedHeader} {s s' : Section}
    (hstrings : image.strings = none ∨ image'.strings = image.strings) (he : e ∈ image.sections.entries)
    (he' : e' ∈ image'.sections.entries) (hr : NamedHeader.Renamed image.strings image'.strings e e')
    (hs : s = SectionTable.sectionOf image.headers.optional.imageBase source e s.kind s.bytes)
    (hs' : s' = SectionTable.sectionOf image.headers.optional.imageBase source e' s.kind s.bytes) :
    s' = { s with name := s'.name } ∧ (s'.name = s.name ∨ ResolvedLater image image' source s s') := by
  obtain ⟨header, rfl, rfl⟩ := hr
  refine ⟨?_, ?_⟩
  · rw [hs', hs]
    rfl
  have hname {name name' : String} (h : name = name') (hs : s.name = Section.displayName name)
      (hs' : s'.name = Section.displayName name') : s'.name = s.name := by
    rw [hs, hs', h]
  rcases hstrings with hnone | hsame
  · have hdecode : resolveName header image.strings = Utf8.decode header.rawName := by
      rw [resolveName, hnone, longName?_none]
      rfl
    cases hlong : longName? header.rawName image'.strings with
    | none =>
      have hdecode' : resolveName header image'.strings = Utf8.decode header.rawName := by
        rw [resolveName, hlong]
        rfl
      exact .inl (hname (hdecode.trans hdecode'.symm) (congrArg Section.name hs) (congrArg Section.name hs'))
    | some long =>
      have hresolved : resolveName header image'.strings = long := by
        rw [resolveName, hlong]
        rfl
      rw [hdecode] at he hs
      rw [hresolved] at he' hs'
      exact .inr ⟨header, long, he, he', head?_of_longName? hlong, hnone ▸ longName?_none _, hlong, hs, hs'⟩
  · exact .inl (hname (congrArg (resolveName header) hsame.symm) (congrArg Section.name hs) (congrArg Section.name hs'))

end ExecImage.Pe
