import ExecImage.Proofs.Agreement
import ExecImage.Proofs.Elf.Appended
import ExecImage.Proofs.Elf.Writer
import ExecImage.Proofs.Recognition

/-!
# What a load of an ELF image reads

A load reads the file header, the section headers, and the contents of some sections: of the names of sections, of code and
data, of the symbol tables, and of the sections that these are linked to. Each of these ranges is found in the ones before
it, so the ranges of an image can be listed (`readSet`), and two files of one size that agree on the ranges of one of them have
the same ranges. Every reader gives the same result or the same error on both (`loadLogged_eq_of_readAlike`): the rest of
the bytes is never looked at, not even to find out what is wrong.
-/

namespace ExecImage

open Except (bind_eq_ok_iff)

namespace Elf

variable {v w : View} {options : Options} {source : String}

/-! ## The ranges of an image -/

/-- The class that an image names, if it names one. -/
def class? (v : View) : Option Class :=
  (v.byte 4 >>= Class.ofByte).toOption

/-- The range of a section's contents. -/
def SectionHeader.extent (h : SectionHeader) : Extent :=
  ⟨h.offset.toNat, h.size.toNat⟩

/-- The section is a static or a dynamic symbol table. -/
def SectionHeader.isSymbolTable (h : SectionHeader) : Bool :=
  h.type == SectionHeader.typeSymtab || h.type == SectionHeader.typeDynsym

/-- The contents of the section at an index that is referred to; index 0 refers to none. -/
def linkedExtent (headers : List SectionHeader) (index : Nat) : List Extent :=
  if index = 0 then [] else (headers[index]?.map SectionHeader.extent).toList

/-- The contents that are read when sections and symbol tables are loaded: of code and data in the file, of the symbol tables and
of the sections that these are linked to. -/
def loadedExtents (headers : List SectionHeader) : List Extent :=
  (headers.filter fun h => (h.isExecutable || h.isWritable) && h.hasFileData).map SectionHeader.extent ++
    (headers.filter SectionHeader.isSymbolTable).flatMap fun h => h.extent :: linkedExtent headers h.link.toNat

/-- What is read after the file header: the first section header, all section headers, the names of sections, and the contents
that are loaded. Ranges that cannot be found are left out, with those that depend on them. -/
def sectionExtents (v : View) (h : Header) : List Extent :=
  if h.tableOffset = 0 then []
  else
    ⟨h.tableOffset.toNat, h.ident.cls.sectionHeaderSize⟩ ::
      match SectionHeader.read v h.tableOffset.toNat h.ident with
      | .error _ => []
      | .ok first =>
        let count := SectionTable.sectionCount h first
        ⟨h.tableOffset.toNat, count * h.entrySize.toNat⟩ ::
          match (List.range count).mapM fun i => SectionHeader.read v (SectionTable.headerOffset h i) h.ident with
          | .error _ => []
          | .ok headers => linkedExtent headers (SectionTable.namesIndex h first) ++ loadedExtents headers

/-- The ranges of an image that a load reads. -/
def readSet (v : View) : List Extent :=
  match class? v with
  | none => []
  | some cls =>
    ⟨0, cls.headerSize⟩ ::
      match Header.read v with
      | .error _ => []
      | .ok h => sectionExtents v h

/-! ## The file header -/

/-- The class of an identification is the one that the image names. -/
theorem Ident.class?_of_read {ident : Ident} (h : Ident.read v = .ok ident) : class? v = some ident.cls := by
  obtain ⟨_, -, h⟩ := bind_eq_ok_iff.1 h
  split at h
  · obtain ⟨b, hb, h⟩ := bind_eq_ok_iff.1 h
    obtain ⟨cls, hcls, h⟩ := bind_eq_ok_iff.1 h
    obtain ⟨b', -, h⟩ := bind_eq_ok_iff.1 h
    obtain ⟨order, -, h⟩ := bind_eq_ok_iff.1 h
    cases h
    unfold class?
    rw [hb]
    exact congrArg Except.toOption hcls
  · nomatch h

/-- An image that names no class cannot be identified. -/
theorem Ident.read_of_class?_eq_none (hstart : v.startsWith 0 magic = true) (h : class? v = none) :
    Ident.read v = if v.Covers 0 size then .error .unsupportedFormat else .error (.outOfBounds 0 size v.size) := by
  by_cases hc : v.Covers 0 size
  · obtain ⟨cls, order, hcls, horder⟩ := Ident.exists_bytes hc
    rw [if_pos hc, Ident.read_eq_unsupportedFormat_iff hstart]
    refine ⟨hc, cls, order, hcls, horder, fun hknown => ?_⟩
    obtain ⟨c, hc⟩ := Class.exists_ofByte_iff.2 hknown.1
    have hsome : class? v = some c := by
      unfold class?
      rw [hcls]
      exact congrArg Except.toOption hc
    rw [h] at hsome
    nomatch hsome
  · have hslice : v.slice 0 size = .error (.outOfBounds 0 size v.size) := if_neg hc
    rw [if_neg hc]
    unfold Ident.read
    rw [hslice]
    rfl

theorem Class.size_le_headerSize (cls : Class) : Ident.size ≤ cls.headerSize := by
  cases cls <;> decide

/-- Every field lies in the header. -/
theorem Header.layout_le_headerSize (cls : Class) :
    Header.machineOffset + 2 ≤ cls.headerSize ∧ (Header.layout cls).entry + cls.width.bytes ≤ cls.headerSize ∧
      (Header.layout cls).tableOffset + cls.width.bytes ≤ cls.headerSize ∧
      (Header.layout cls).entrySize + 2 ≤ cls.headerSize ∧ (Header.layout cls).count + 2 ≤ cls.headerSize ∧
      (Header.layout cls).namesIndex + 2 ≤ cls.headerSize := by
  cases cls <;> decide

/-- Two files are ELF images of one size and class that agree on every range that the load of the first reads. -/
structure ReadAlike (v w : View) : Prop where
  sniff_left : sniff v = .elf
  sniff_right : sniff w = .elf
  size_eq : v.size = w.size
  class_eq : class? v = class? w
  agree : ∀ r ∈ readSet v, v.AgreeOn w r

theorem ReadAlike.agreeOn_header (h : ReadAlike v w) {cls : Class} (hclass : class? v = some cls) :
    v.AgreeOn w ⟨0, cls.headerSize⟩ := by
  refine h.agree _ ?_
  unfold readSet
  rw [hclass]
  exact List.mem_cons_self

theorem sectionExtents_subset_readSet {header : Header} (hheader : Header.read v = .ok header) :
    sectionExtents v header ⊆ readSet v := by
  obtain ⟨ident, hident, -⟩ := bind_eq_ok_iff.1 hheader
  unfold readSet
  rw [Ident.class?_of_read hident, hheader]
  intro r hr
  exact List.mem_cons_of_mem _ hr

/-- Images are identified alike. -/
theorem Ident.read_eq_of_readAlike (h : ReadAlike v w) : Ident.read v = Ident.read w := by
  have hstart := sniff_eq_elf_iff.1 h.sniff_left
  have hstart' := sniff_eq_elf_iff.1 h.sniff_right
  cases hc : class? v with
  | none =>
    -- Nothing is known of the other bytes then, and none of them is looked at.
    rw [Ident.read_of_class?_eq_none hstart hc, Ident.read_of_class?_eq_none hstart' (h.class_eq ▸ hc)]
    simp only [View.covers_iff_of_size h.size_eq, h.size_eq]
  | some cls =>
    have hheader := h.agreeOn_header hc
    have hle := cls.size_le_headerSize
    have hident : v.AgreeOn w ⟨0, size⟩ := hheader.mono (Nat.le_refl _) (by simpa using hle)
    unfold Ident.read
    rw [hident.slice_eq h.size_eq, if_pos hstart, if_pos hstart', hident.byte_eq h.size_eq (by decide) (by decide),
      hident.byte_eq h.size_eq (by decide) (by decide)]

/-- Images have the same file header. -/
theorem Header.read_eq_of_readAlike (h : ReadAlike v w) : Header.read v = Header.read w := by
  unfold Header.read
  rw [← Ident.read_eq_of_readAlike h]
  refine Except.bind_congr_ok fun ident hident => ?_
  have hheader := h.agreeOn_header (Ident.class?_of_read hident)
  have half {offset : Nat} (hend : offset + 2 ≤ ident.cls.headerSize) :
      v.word16 offset ident.order = w.word16 offset ident.order :=
    hheader.word16_eq h.size_eq _ (Nat.zero_le _) (by simpa using hend)
  have address {offset : Nat} (hend : offset + ident.cls.width.bytes ≤ ident.cls.headerSize) :
      v.address offset ident.cls.width ident.order = w.address offset ident.cls.width ident.order :=
    hheader.address_eq h.size_eq _ (Nat.zero_le _) (by simpa using hend)
  obtain ⟨hmachine, hentry, htableOffset, hentrySize, hcount, hnamesIndex⟩ := Header.layout_le_headerSize ident.cls
  dsimp only
  rw [hheader.slice_eq h.size_eq, half hmachine, address hentry, address htableOffset, half hentrySize, half hcount,
    half hnamesIndex]

/-! ## The section headers -/

namespace SectionTable

/-- The section of names is read alike, or is missing alike. -/
theorem namesView_eq_of_agreeOn (hsize : v.size = w.size) {headers : List SectionHeader} {index : Nat}
    (hagree : ∀ r ∈ linkedExtent headers index, v.AgreeOn w r) : namesView v headers index = namesView w headers index := by
  unfold namesView
  by_cases h0 : index = 0
  · rw [if_pos h0, if_pos h0]
  rw [if_neg h0, if_neg h0]
  cases hget : headers[index]? with
  | none => rfl
  | some h =>
    have hnames : v.AgreeOn w h.extent := by
      refine hagree _ ?_
      unfold linkedExtent
      rw [if_neg h0, hget]
      exact List.mem_singleton_self _
    dsimp only
    rw [View.AgreeOn.sub_eq hsize hnames, hsize]

section

variable {h : Header} {first : SectionHeader} {headers : List SectionHeader}

theorem first_mem_sectionExtents (h0 : h.tableOffset ≠ 0) :
    ⟨h.tableOffset.toNat, h.ident.cls.sectionHeaderSize⟩ ∈ sectionExtents v h := by
  unfold sectionExtents
  rw [if_neg h0]
  exact List.mem_cons_self

theorem table_mem_sectionExtents (h0 : h.tableOffset ≠ 0)
    (hfirst : SectionHeader.read v h.tableOffset.toNat h.ident = .ok first) :
    ⟨h.tableOffset.toNat, sectionCount h first * h.entrySize.toNat⟩ ∈ sectionExtents v h := by
  unfold sectionExtents
  rw [if_neg h0, hfirst]
  exact List.mem_cons_of_mem _ List.mem_cons_self

theorem contents_subset_sectionExtents (h0 : h.tableOffset ≠ 0)
    (hfirst : SectionHeader.read v h.tableOffset.toNat h.ident = .ok first)
    (hheaders : (List.range (sectionCount h first)).mapM (fun i => SectionHeader.read v (headerOffset h i) h.ident) =
      .ok headers) :
    linkedExtent headers (namesIndex h first) ++ loadedExtents headers ⊆ sectionExtents v h := by
  unfold sectionExtents
  rw [if_neg h0, hfirst]
  dsimp only
  rw [hheaders]
  intro r hr
  exact List.mem_cons_of_mem _ (List.mem_cons_of_mem _ hr)

/-- A header of the table lies in the table, since the headers are far enough apart. -/
theorem headerOffset_add_le {i count size : Nat} (hi : i < count) (hsize : size ≤ h.entrySize.toNat) :
    headerOffset h i + size ≤ h.tableOffset.toNat + count * h.entrySize.toNat := by
  have hrecord := View.record_le_table hi hsize
  unfold headerOffset
  omega

/-- Images have the same section table, but for the file that contents are read from. -/
theorem read_eq_of_agreeOn (hsize : v.size = w.size) (hagree : ∀ r ∈ sectionExtents v h, v.AgreeOn w r) :
    read w h options = (read v h options).map (·.within w) := by
  have readHeader {offset : Nat} (hheader : v.AgreeOn w ⟨offset, h.ident.cls.sectionHeaderSize⟩) :
      SectionHeader.read v offset h.ident = SectionHeader.read w offset h.ident :=
    hheader.record_eq hsize (SectionHeader.isRecord_read h.ident.cls h.ident.order)
  unfold read
  by_cases h0 : h.tableOffset = 0
  · rw [if_pos h0, if_pos h0]
    rfl
  rw [if_neg h0, if_neg h0]
  by_cases hentry : h.entrySize.toNat < h.ident.cls.sectionHeaderSize
  · rw [if_pos hentry, if_pos hentry]
    rfl
  rw [if_neg hentry, if_neg hentry, Except.map_bind, ← readHeader (hagree _ (first_mem_sectionExtents h0))]
  refine Except.bind_congr_ok fun first hfirst => ?_
  dsimp only
  by_cases hlimit : options.maxSections.toNat < sectionCount h first
  · rw [if_pos hlimit, if_pos hlimit]
    rfl
  rw [if_neg hlimit, if_neg hlimit]
  by_cases hlength : UInt64.size ≤ sectionCount h first * h.entrySize.toNat
  · rw [if_pos hlength, if_pos hlength, hsize]
    rfl
  have htable := hagree _ (table_mem_sectionExtents h0 hfirst)
  rw [if_neg hlength, if_neg hlength, Except.map_bind, htable.slice_eq hsize]
  refine Except.bind_congr_ok fun _ _ => ?_
  have hheaders : (List.range (sectionCount h first)).mapM (fun i => SectionHeader.read v (headerOffset h i) h.ident) =
      (List.range (sectionCount h first)).mapM fun i => SectionHeader.read w (headerOffset h i) h.ident := by
    refine Except.mapM_congr fun i hi => readHeader (htable.mono (Nat.le_add_right _ _) ?_)
    exact headerOffset_add_le (List.mem_range.1 hi) (Nat.not_lt.1 hentry)
  rw [Except.map_bind, ← hheaders]
  refine Except.bind_congr_ok fun headers hheaders => ?_
  have hcontents := contents_subset_sectionExtents h0 hfirst hheaders
  have hnames : namesView v headers (namesIndex h first) = namesView w headers (namesIndex h first) := by
    refine namesView_eq_of_agreeOn hsize fun r hr => ?_
    exact hagree r (hcontents (List.mem_append_left _ hr))
  rw [Except.map_bind, ← hnames]
  exact Except.bind_congr_ok fun names _ => rfl

/-- The contents that are loaded from the sections of a table are among the ranges of the image. -/
theorem loadedExtents_subset {t : SectionTable} (ht : read v h options = .ok t) :
    loadedExtents (t.entries.map NamedHeader.header) ⊆ sectionExtents v h := by
  intro r hr
  rcases read_eq_ok_iff.1 ht with ⟨-, rfl⟩ | ⟨h0, first, headers, names, d⟩
  · nomatch hr
  · have hheaders : t.entries.map NamedHeader.header = headers := by
      rw [d.table, List.map_map]
      exact List.map_id _
    rw [hheaders] at hr
    exact contents_subset_sectionExtents h0 d.readFirst d.readHeaders (List.mem_append_right _ hr)

end

/-! ## Sections -/

section

variable {t : SectionTable}

/-- The contents of a section are copied alike. -/
theorem copy_within (hsize : t.view.size = w.size) {name : String} {h : SectionHeader}
    (hagree : h.hasFileData = true → t.view.AgreeOn w h.extent) : (t.within w).copy name h options = t.copy name h options := by
  unfold copy
  by_cases hdata : h.hasFileData = true
  · have hview : (t.within w).view = w := rfl
    rw [if_pos hdata, if_pos hdata, hview, View.AgreeOn.slice_eq hsize (hagree hdata), hsize]
  · rw [if_neg hdata, if_neg hdata]

theorem isSome_kind? (h : SectionHeader) : h.kind?.isSome = (h.isExecutable || h.isWritable) := by
  unfold SectionHeader.kind? SectionKind.classify
  cases h.isExecutable <;> cases h.isWritable <;> rfl

/-- A header becomes the same section, or fails to alike. -/
theorem loadEntry_within (hsize : t.view.size = w.size) {e : NamedHeader} (he : e ∈ t.entries)
    (hagree : ∀ r ∈ loadedExtents (t.entries.map NamedHeader.header), t.view.AgreeOn w r) :
    (t.within w).loadEntry source options e = t.loadEntry source options e := by
  unfold loadEntry
  dsimp only
  cases hkind : e.header.kind? with
  | none => rfl
  | some kind =>
    have hcopied : e.header.hasFileData = true → t.view.AgreeOn w e.header.extent := by
      intro hdata
      have hloaded : (e.header.isExecutable || e.header.isWritable) = true := by
        rw [← isSome_kind?, hkind]
        rfl
      refine hagree _ (List.mem_append_left _ (List.mem_map_of_mem (List.mem_filter.2 ⟨List.mem_map_of_mem he, ?_⟩)))
      rw [hloaded, hdata]
      rfl
    dsimp only
    rw [copy_within hsize hcopied]
    rfl

/-- Images have the same sections, or fail to alike. -/
theorem load_within (hsize : t.view.size = w.size)
    (hagree : ∀ r ∈ loadedExtents (t.entries.map NamedHeader.header), t.view.AgreeOn w r) :
    (t.within w).load source options = t.load source options := by
  unfold load
  exact congrArg _ (Except.mapM_congr fun e he => loadEntry_within hsize he hagree)

/-! ## Symbol tables -/

theorem contentsOf_within (hsize : t.view.size = w.size) {h : SectionHeader} (hagree : t.view.AgreeOn w h.extent) :
    (t.within w).contentsOf h = t.contentsOf h := by
  unfold contentsOf
  by_cases hdata : h.hasFileData = true
  · have hview : (t.within w).view = w := rfl
    rw [if_pos hdata, if_pos hdata, hview, View.AgreeOn.sub_eq hsize hagree]
  · rw [if_neg hdata, if_neg hdata]

/-- The contents of a section that is referred to are read alike, or are missing alike. -/
theorem contents_within (hsize : t.view.size = w.size) {index : Nat} (h0 : index ≠ 0)
    (hagree : ∀ r ∈ linkedExtent (t.entries.map NamedHeader.header) index, t.view.AgreeOn w r) :
    (t.within w).contents index = t.contents index := by
  have hheader : (t.within w).header? index = t.header? index := rfl
  unfold contents
  rw [hheader]
  cases hget : t.header? index with
  | none => rfl
  | some h =>
    refine contentsOf_within hsize (hagree _ ?_)
    unfold linkedExtent
    rw [if_neg h0, List.getElem?_map, show t.entries[index]?.map NamedHeader.header = some h from hget]
    exact List.mem_singleton_self _

end

end SectionTable

namespace SymbolTable

variable {t : SectionTable} {order : Endianness} {kind : SymbolSource}

/-- A symbol table has the same parts, or the same fault. -/
theorem parts_within (hsize : t.view.size = w.size) {h : SectionHeader} (htable : t.view.AgreeOn w h.extent)
    (hlinked : ∀ r ∈ linkedExtent (t.entries.map NamedHeader.header) h.link.toNat, t.view.AgreeOn w r) :
    parts (t.within w) h = parts t h := by
  have hcount : (t.within w).count = t.count := rfl
  unfold parts
  dsimp only
  by_cases hlink : h.link.toNat = 0 ∨ t.count ≤ h.link.toNat
  · rw [hcount, if_pos hlink, if_pos hlink]
  · rw [hcount, if_neg hlink, if_neg hlink, SectionTable.contentsOf_within hsize htable,
      SectionTable.contents_within hsize (fun h0 => hlink (.inl h0)) hlinked]
    rfl

/-- A symbol table is read alike. -/
theorem readEntry_within (hsize : t.view.size = w.size) {e : NamedHeader} (he : e ∈ t.entries)
    (htable : e.header.isSymbolTable = true)
    (hagree : ∀ r ∈ loadedExtents (t.entries.map NamedHeader.header), t.view.AgreeOn w r) :
    readEntry (t.within w) e order kind options = readEntry t e order kind options := by
  have hread : e.header.extent :: linkedExtent (t.entries.map NamedHeader.header) e.header.link.toNat ⊆
      loadedExtents (t.entries.map NamedHeader.header) := by
    intro r hr
    refine List.mem_append_right _ (List.mem_flatMap.2 ⟨e.header, ?_, hr⟩)
    exact List.mem_filter.2 ⟨List.mem_map_of_mem he, htable⟩
  unfold readEntry
  rw [parts_within hsize (hagree _ (hread List.mem_cons_self)) fun r hr => hagree r (hread (List.mem_cons_of_mem _ hr))]
  rfl

end SymbolTable

namespace Image

variable {image : Image}

/-- Images have the same symbol tables. -/
theorem symbolTables_within (hsize : image.sections.view.size = w.size)
    (hagree : ∀ r ∈ loadedExtents (image.sections.entries.map NamedHeader.header), image.sections.view.AgreeOn w r) :
    (image.within w).symbolTables options = image.symbolTables options := by
  have main (type : UInt32) (kind : SymbolSource) (hkind : kind = .dynamic ↔ type = SectionHeader.typeDynsym)
      (htype : type = SectionHeader.typeSymtab ∨ type = SectionHeader.typeDynsym) :
      (image.within w).tablesOfType options type kind = image.tablesOfType options type kind := by
    rw [tablesOfType_eq hkind, tablesOfType_eq hkind]
    refine List.map_congr_left fun e he => ?_
    obtain ⟨he, htypeOf⟩ := List.mem_filter.1 he
    have htable : e.header.isSymbolTable = true := by
      unfold SectionHeader.isSymbolTable
      rw [beq_iff_eq] at htypeOf
      rw [Bool.or_eq_true, beq_iff_eq, beq_iff_eq, htypeOf]
      exact htype
    exact congrArg _ (SymbolTable.readEntry_within hsize he htable hagree)
  unfold symbolTables
  rw [main _ _ (by decide) (.inl rfl), main _ _ (by decide) (.inr rfl)]

/-- Images are loaded alike once their headers have been read. -/
theorem load_within (hsize : image.sections.view.size = w.size)
    (hagree : ∀ r ∈ loadedExtents (image.sections.entries.map NamedHeader.header), image.sections.view.AgreeOn w r) :
    (image.within w).load source options = image.load source options := by
  have hsections : (image.within w).sections.load source options = image.sections.load source options :=
    SectionTable.load_within hsize hagree
  unfold load
  rw [hsections, symbolTables_within hsize hagree]
  rfl

end Image

/-! ## The load -/

/-- Images have the same headers, but for the file that contents are read from. -/
theorem Image.read_eq_of_readAlike (h : ReadAlike v w) : Image.read w options = (Image.read v options).map (·.within w) := by
  unfold Image.read
  rw [← Header.read_eq_of_readAlike h, Except.map_bind]
  refine Except.bind_congr_ok fun header hheader => ?_
  by_cases hsupported : header.isSupported = true
  · have hsections : SectionTable.read w header options = (SectionTable.read v header options).map (·.within w) := by
      refine SectionTable.read_eq_of_agreeOn h.size_eq fun r hr => h.agree r ?_
      exact sectionExtents_subset_readSet hheader hr
    rw [if_pos hsupported, if_pos hsupported, hsections]
    cases SectionTable.read v header options <;> rfl
  · rw [if_neg hsupported, if_neg hsupported]
    rfl

/-- Images are loaded alike, with the same log. -/
theorem loadLogged_eq_of_readAlike (h : ReadAlike v w) (hint : FormatHint) :
    loadLogged v source hint options = loadLogged w source hint options := by
  have hselect : hint.select v = hint.select w := by
    unfold FormatHint.select
    rw [h.sniff_left, h.sniff_right]
  unfold loadLogged
  rw [← hselect]
  refine Except.bind_congr_ok fun format hformat => ?_
  cases (FormatHint.sniff_of_select hformat).1.symm.trans h.sniff_left
  dsimp only
  rw [Image.read_eq_of_readAlike h]
  cases hread : Image.read v options with
  | error e => rfl
  | ok image =>
    obtain ⟨hheader, -, htable⟩ := Image.read_eq_ok_iff.1 hread
    have hview := (SectionTable.view_of_read htable).1
    have hload : (image.within w).load source options = image.load source options := by
      refine Image.load_within (hview ▸ h.size_eq) fun r hr => hview ▸ h.agree r ?_
      exact sectionExtents_subset_readSet hheader (SectionTable.loadedExtents_subset htable hr)
    exact hload.symm

/-- A load of an ELF image depends only on the bytes that it is meant to read. Two ELF images of one size that name the same
class and agree on the ranges of the first one's read set, as far as these are in the file, give the same binary or the same
error. -/
theorem load_eq_of_agreeOn (hv : sniff v = .elf) (hw : sniff w = .elf) (hsize : v.size = w.size)
    (hclass : class? v = class? w) (hagree : ∀ r ∈ readSet v, v.AgreeOn w r) (source : String) (hint : FormatHint)
    (options : Options) : load v source hint options = load w source hint options := by
  have halike : ReadAlike v w := ⟨hv, hw, hsize, hclass, hagree⟩
  unfold load
  rw [loadLogged_eq_of_readAlike halike hint]

/-- The bytes between the sections of the small image do not matter. -/
theorem load_eq_of_agreeOn_sample :
    sniff ImageSpec.sample.view = .elf ∧ sniff ⟨ImageSpec.sample.write.toArray.setIfInBounds 60 0xCC⟩ = .elf ∧
      ImageSpec.sample.view.size = View.size ⟨ImageSpec.sample.write.toArray.setIfInBounds 60 0xCC⟩ ∧
      class? ImageSpec.sample.view = class? ⟨ImageSpec.sample.write.toArray.setIfInBounds 60 0xCC⟩ ∧
      (∀ r ∈ readSet ImageSpec.sample.view,
        ImageSpec.sample.view.AgreeOn ⟨ImageSpec.sample.write.toArray.setIfInBounds 60 0xCC⟩ r) ∧
      load ImageSpec.sample.view "sample" .auto {} =
        load ⟨ImageSpec.sample.write.toArray.setIfInBounds 60 0xCC⟩ "sample" .auto {} := by
  have hv : sniff ImageSpec.sample.view = .elf := by decide +kernel
  have hw : sniff ⟨ImageSpec.sample.write.toArray.setIfInBounds 60 0xCC⟩ = .elf := by decide +kernel
  have hsize : ImageSpec.sample.view.size = View.size ⟨ImageSpec.sample.write.toArray.setIfInBounds 60 0xCC⟩ := by
    decide +kernel
  have hclass : class? ImageSpec.sample.view = class? ⟨ImageSpec.sample.write.toArray.setIfInBounds 60 0xCC⟩ := by
    decide +kernel
  have houtside : ∀ r ∈ readSet ImageSpec.sample.view, 60 < r.offset ∨ r.offset + r.len ≤ 60 := by decide +kernel
  have hagree : ∀ r ∈ readSet ImageSpec.sample.view,
      ImageSpec.sample.view.AgreeOn ⟨ImageSpec.sample.write.toArray.setIfInBounds 60 0xCC⟩ r :=
    fun r hr => View.AgreeOn.setIfInBounds _ _ (houtside r hr)
  exact ⟨hv, hw, hsize, hclass, hagree, load_eq_of_agreeOn hv hw hsize hclass hagree "sample" .auto {}⟩

end Elf

end ExecImage
