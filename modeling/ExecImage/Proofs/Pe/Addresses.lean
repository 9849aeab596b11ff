import Mathlib.Algebra.Group.Nat.Defs
import ExecImage.Proofs.Confinement
import ExecImage.Proofs.Pe.Functions
import ExecImage.Proofs.Pe.Loaded
import ExecImage.Proofs.Pe.Symbols

/-!
# The addresses of a PE image and its sections

A section's first address is the image base plus its relative address, and a load refuses a sum that does not fit. The
entry and the symbols add the same numbers but wrap the sum to the width of addresses. Inside a loaded section no sum wraps, so
all of them go by the addresses of the sections: the entry lies in the section that maps it, and the binary lists in a section
the functions that the symbol table and the exports place there.
-/

namespace ExecImage

/-- A binary lists a function in a section, at a distance from the section's first address. -/
def Binary.ListsAt (b : Binary) (s : Section) (d : Nat) (name : String) (source : SymbolSource) : Prop :=
  ∃ i ∈ b.functionsIn s, ∃ sym, b.symbols[i]? = some sym ∧ sym.name = name ∧ sym.source = source ∧
    sym.addr.toNat = s.vma.toNat + d

/-- A symbol of a binary is listed in a section that contains its address. -/
theorem Binary.listsAt_of_mem {b : Binary} {s : Section} {sym : Symbol} {d : Nat} (hsym : sym ∈ b.symbols)
    (haddr : sym.addr.toNat = s.vma.toNat + d) (hs : s.Contains sym.addr) : b.ListsAt s d sym.name sym.source := by
  obtain ⟨i, hi⟩ := List.getElem?_of_mem hsym
  exact ⟨i, Binary.mem_indexesWhere.2 ⟨sym, hi, decide_eq_true hs⟩, sym, hi, rfl, rfl, haddr⟩

/-- A table that is loaded was read to its end. -/
theorem LabelledTable.failure_of_outcome {t : LabelledTable} {table : LoadedTable} (h : t.outcome = .loaded table) :
    t.read.reading.failure = none := by
  cases hf : t.read.reading.failure with
  | none => rfl
  | some e => nomatch (outcome_of_failure_eq_some hf).symm.trans h

/-- The functions of a table that is loaded are among the merged symbols. -/
theorem mem_merge_symbols {tables : List LabelledTable} {t : LabelledTable} {sym : Symbol} (ht : t ∈ tables)
    (hf : t.read.reading.failure = none) (hsym : sym ∈ t.read.reading.symbols) (hfun : sym.isFunction = true) :
    sym ∈ (merge (tables.map LabelledTable.outcome)).symbols := by
  refine List.mem_flatMap.2 ⟨t.outcome, List.mem_map_of_mem ht, ?_⟩
  rw [LabelledTable.outcome_of_failure_eq_none hf]
  exact List.mem_filter.2 ⟨hsym, hfun⟩

/-- Every address of a range that fits the address space is one of its addresses. -/
theorem Width.Fits.address {w : Width} {start len d : Nat} (h : w.Fits start len) (hd : d < len) : w.Fits (start + d) 1 := by
  cases w with
  | w32 =>
    have hend : start + len ≤ UInt32.size := h
    exact Nat.le_trans (by omega) hend
  | w64 =>
    have hend : start + len < UInt64.size := h
    exact Nat.lt_of_le_of_lt (by omega) hend

namespace Pe

variable {source : String} {options : Options}

/-! ## Addresses that do not wrap -/

/-- An address of the address space is not changed by wrapping. -/
theorem OptionalHeader.toNat_va {o : OptionalHeader} {rva : UInt64} (h : o.width.Fits (o.imageBase.toNat + rva.toNat) 1) :
    (o.va rva).toNat = o.imageBase.toNat + rva.toNat := by
  have hsum : (o.imageBase + rva).toNat = o.imageBase.toNat + rva.toNat := by
    have := h.lt
    rw [UInt64.toNat_add, Nat.mod_eq_of_lt (by omega)]
  unfold va
  unfold width at h
  split
  · exact hsum
  · rename_i h64
    rw [if_neg h64] at h
    have hlt : o.imageBase.toNat + rva.toNat + 1 ≤ 2 ^ 32 := h
    rw [UInt64.toNat_and, hsum, show (0xFFFFFFFF : UInt64).toNat = 2 ^ 32 - 1 from rfl, Nat.and_two_pow_sub_one_eq_mod,
      Nat.mod_eq_of_lt (by omega)]

/-- A relative address that a loaded section maps wraps to the address at the same distance in the section. -/
theorem SectionTable.va_of_loadEntry {v : View} {o : OptionalHeader} {e : NamedHeader} {s : Section}
    (h : loadEntry v o.imageBase o.width source options e = .ok (some s)) {d : Nat} (hd : d < e.header.mappedSize.toNat)
    {rva : UInt64} (hrva : rva.toNat = e.header.virtualAddress.toNat + d) :
    (o.va rva).toNat = s.vma.toNat + d ∧ s.Contains (o.va rva) := by
  obtain ⟨kind, bytes, -, hfits, -, rfl⟩ := loadEntry_eq_some_iff.1 h
  have hva : (o.va rva).toNat = o.imageBase.toNat + rva.toNat := by
    refine OptionalHeader.toNat_va ?_
    rw [hrva, ← Nat.add_assoc]
    exact hfits.address hd
  have hvma : (o.imageBase + e.header.virtualAddress.toUInt64).toNat = o.imageBase.toNat + e.header.virtualAddress.toNat :=
    toNat_vma hfits
  unfold Section.Contains
  dsimp only [sectionOf]
  rw [hva, hvma, hrva, UInt32.toNat_toUInt64]
  omega

/-! ## What lies in a loaded section -/

namespace Image

variable {image : Image} {r : Loaded} {i : Nat} {h : SectionHeader} {s : Section}

/-- A relative address that a header maps has its address in the section that the header is loaded as. -/
theorem va_of_loadedAs (hload : image.load source options = .ok r) (hs : image.sections.LoadedAs r.binary.sections i h s)
    {d : Nat} (hd : d < h.mappedSize.toNat) {rva : UInt64} (hrva : rva.toNat = h.virtualAddress.toNat + d) :
    (image.headers.optional.va rva).toNat = s.vma.toNat + d ∧ s.Contains (image.headers.optional.va rva) := by
  obtain ⟨sections, hsections, rfl⟩ := load_eq_ok_iff.1 hload
  obtain ⟨e, rfl, he⟩ := hs.loadEntry hsections
  exact SectionTable.va_of_loadEntry he hd hrva

/-- The entry of an image that has one goes by the same rule as every relative address. -/
theorem entry_of_load (hload : image.load source options = .ok r) (hne : image.headers.optional.entryRva ≠ 0) :
    r.binary.entry = image.headers.optional.va image.headers.optional.entryRva.toUInt64 := by
  obtain ⟨sections, -, rfl⟩ := load_eq_ok_iff.1 hload
  exact if_neg hne

/-- A symbol of a table that is loaded is listed in the section that contains its address. -/
theorem listsAt_of_mem (hload : image.load source options = .ok r) {t : LabelledTable} (ht : t ∈ image.symbolTables options)
    (hf : t.read.reading.failure = none) {name : String} {addr : UInt64} {kind : SymbolSource}
    (hsym : .function name addr kind ∈ t.read.reading.symbols) {d : Nat} (haddr : addr.toNat = s.vma.toNat + d)
    (hs : s.Contains addr) : r.binary.ListsAt s d name kind := by
  obtain ⟨sections, -, rfl⟩ := load_eq_ok_iff.1 hload
  have hmem := mem_merge_symbols ht hf hsym rfl
  exact Binary.listsAt_of_mem (b := image.binary source sections (merge ((image.symbolTables options).map LabelledTable.outcome)))
    hmem haddr hs

/-- A function that a record of a loaded symbol table defines below the mapped size of a section is listed in the section. -/
theorem listsAt_of_primary (hload : image.load source options = .ok r)
    (hs : image.sections.LoadedAs r.binary.sections i h s) {t : LabelledTable} (ht : t ∈ image.coffTables options)
    (hf : t.read.reading.failure = none) {index : Nat} {record : CoffRecord}
    (hprimary : CoffSymbols.Primary image.view image.headers.file (CoffSymbols.limit image.headers.file options) index record)
    (hfun : record.isFunction = true) (hdef : record.isDefined = true) (hnumber : record.sectionNumber.toNat = i + 1)
    (hvalue : record.value.toNat < h.mappedSize.toNat) :
    r.binary.ListsAt s record.value.toNat (CoffSymbols.displayName record image.strings) .static := by
  have hmem : t ∈ image.symbolTables options := List.mem_append_left _ ht
  have hheader : image.sections.header? (record.sectionNumber.toNat - 1) = some h := by
    rw [hnumber]
    exact hs.header
  have hrva : (h.virtualAddress.toUInt64 + record.value.toUInt64).toNat = h.virtualAddress.toNat + record.value.toNat := by
    have := h.virtualAddress.toNat_lt
    have := record.value.toNat_lt
    rw [UInt64.toNat_add, UInt32.toNat_toUInt64, UInt32.toNat_toUInt64, Nat.mod_eq_of_lt (by omega)]
  obtain ⟨haddr, hcontains⟩ := va_of_loadedAs hload hs hvalue hrva
  cases eq_of_mem_coffTables ht
  exact listsAt_of_mem hload hmem hf (CoffSymbols.mem_symbols_read hf hprimary hfun hdef hheader) haddr hcontains

/-- An export that is kept and whose address a section maps is listed in the section. -/
theorem listsAt_of_kept (hload : image.load source options = .ok r) (hs : image.sections.LoadedAs r.binary.sections i h s)
    {directory : DataDirectory} (hdirectory : image.headers.exportDirectory? = some directory) {t : LabelledTable}
    (ht : t ∈ image.exportTables options) (hf : t.read.reading.failure = none) {index : Nat} {nameRva functionRva : UInt32}
    (hkept : Exports.Kept image.view image.sections directory options index nameRva functionRva) {d : Nat}
    (hd : d < h.mappedSize.toNat) (hrva : functionRva.toNat = h.virtualAddress.toNat + d) :
    r.binary.ListsAt s d (Exports.displayName image.view image.sections nameRva) .exported := by
  have hmem : t ∈ image.symbolTables options := List.mem_append_right _ ht
  obtain ⟨haddr, hcontains⟩ := va_of_loadedAs hload hs hd ((UInt32.toNat_toUInt64 functionRva).trans hrva)
  obtain ⟨directory', hdirectory', rfl⟩ := eq_of_mem_exportTables ht
  cases hdirectory.symm.trans hdirectory'
  exact listsAt_of_mem hload hmem hf (Exports.mem_symbols_read hf hkept) haddr hcontains

end Image

/-- The addresses of an image agree with a section that a header is loaded as. A relative address that the header maps has its
address in the section, at the same distance from the first; so has the entry, if the image has one that the header
maps. The functions that records of a loaded symbol table define in the section, and the exports whose addresses the header
maps, are listed in the section at the distances that the tables say. -/
theorem addresses_of_loadedAs {v : View} {image : Image} {r : Loaded} {i : Nat} {h : SectionHeader} {s : Section}
    (hread : Image.read v options = .ok image) (hload : image.load source options = .ok r)
    (hs : image.sections.LoadedAs r.binary.sections i h s) :
    (∀ d < h.mappedSize.toNat,
        (image.headers.optional.va (.ofNat (h.virtualAddress.toNat + d))).toNat = s.vma.toNat + d ∧
          s.Contains (image.headers.optional.va (.ofNat (h.virtualAddress.toNat + d)))) ∧
      (image.headers.optional.entryRva ≠ 0 → ∀ d < h.mappedSize.toNat,
        image.headers.optional.entryRva.toNat = h.virtualAddress.toNat + d →
          r.binary.entry.toNat = s.vma.toNat + d ∧ s.Contains r.binary.entry) ∧
      (∀ t ∈ image.coffTables options, ∀ table, t.outcome = .loaded table → ∀ index record,
        CoffSymbols.Primary v image.headers.file (CoffSymbols.limit image.headers.file options) index record →
          record.isFunction = true → record.isDefined = true → record.sectionNumber.toNat = i + 1 →
          record.value.toNat < h.mappedSize.toNat →
          r.binary.ListsAt s record.value.toNat (CoffSymbols.displayName record image.strings) .static) ∧
      ∀ directory, image.headers.exportDirectory? = some directory → ∀ t ∈ image.exportTables options, ∀ table,
        t.outcome = .loaded table → ∀ index nameRva functionRva,
          Exports.Kept v image.sections directory options index nameRva functionRva → ∀ d < h.mappedSize.toNat,
          functionRva.toNat = h.virtualAddress.toNat + d →
          r.binary.ListsAt s d (Exports.displayName v image.sections nameRva) .exported := by
  obtain ⟨rfl, -⟩ := Image.read_eq_ok_iff.1 hread
  refine ⟨fun d hd => ?_, fun hne d hd hentry => ?_, ?_, ?_⟩
  · have hlt : h.virtualAddress.toNat + d < UInt64.size := by
      have := h.virtualAddress.toNat_lt
      have := h.mappedSize.toNat_lt
      unfold UInt64.size
      omega
    exact Image.va_of_loadedAs hload hs hd (UInt64.toNat_ofNat_of_lt hlt)
  · rw [Image.entry_of_load hload hne]
    exact Image.va_of_loadedAs hload hs hd ((UInt32.toNat_toUInt64 _).trans hentry)
  · intro t ht table hloaded index record hprimary hfun hdef hnumber hvalue
    have hf := LabelledTable.failure_of_outcome hloaded
    exact Image.listsAt_of_primary hload hs ht hf hprimary hfun hdef hnumber hvalue
  · intro directory hdirectory t ht table hloaded index nameRva functionRva hkept d hd hrva
    have hf := LabelledTable.failure_of_outcome hloaded
    exact Image.listsAt_of_kept hload hs hdirectory ht hf hkept hd hrva

/-- In the small image the entry is the third address of the section of code, and the section lists a function of the symbol
table at its first address and an export at its second. -/
theorem addresses_of_loadedAs_sample : ∃ r, Image.read ImageSpec.sample.view {} = .ok ImageSpec.sampleImage ∧
    ImageSpec.sampleImage.load "sample" {} = .ok r ∧
    ImageSpec.sampleImage.sections.LoadedAs r.binary.sections 0 ImageSpec.sampleHeader ImageSpec.sampleSection ∧
    r.binary.entry.toNat = ImageSpec.sampleSection.vma.toNat + 2 ∧ ImageSpec.sampleSection.Contains r.binary.entry ∧
    r.binary.ListsAt ImageSpec.sampleSection 0 "main" .static ∧ r.binary.ListsAt ImageSpec.sampleSection 1 "f" .exported := by
  obtain ⟨r, hload, hs⟩ := ImageSpec.exists_loadedAs_sample
  obtain ⟨-, hentry, hcoff, hexports⟩ := addresses_of_loadedAs ImageSpec.read_sample hload hs
  obtain ⟨haddr, hcontains⟩ := hentry (by decide) 2 (by decide) (by decide)
  have hmain : r.binary.ListsAt ImageSpec.sampleSection 0 "main" .static := by
    refine hcoff ⟨coffName, CoffSymbols.read ImageSpec.sample.view ImageSpec.sample.file ImageSpec.sampleImage.strings
      ImageSpec.sampleImage.sections ImageSpec.sample.optional {}⟩ (by decide +kernel)
      { table := coffName, symbols := [.function "main" 0x401000 .static] } (by decide +kernel) 0
      (ImageSpec.sample.records.head (by decide)) (.first (by decide +kernel) (by decide +kernel)) ?_ ?_ ?_ ?_
    all_goals decide
  have hf : r.binary.ListsAt ImageSpec.sampleSection 1 "f" .exported := by
    have hname : Exports.displayName ImageSpec.sample.view ImageSpec.sampleImage.sections 0x2032 = "f" := by
      decide +kernel
    rw [← hname]
    refine hexports { rva := 0x2000, size := 52 } rfl ⟨Exports.tableName, Exports.read ImageSpec.sample.view
      ImageSpec.sampleImage.sections { rva := 0x2000, size := 52 } ImageSpec.sample.optional {}⟩ (by decide +kernel)
      { table := Exports.tableName, symbols := [.function "f" 0x401001 .exported] } (by decide +kernel) 0 0x2032 0x1001 ?_ 1
      (by decide) (by decide)
    refine ⟨ImageSpec.sampleExports, { addresses := 314, names := 318, ordinals := 322 }, 0, ?_⟩
    decide +kernel
  exact ⟨r, ImageSpec.read_sample, hload, hs, haddr, hcontains, hmain, hf⟩

end Pe

end ExecImage
