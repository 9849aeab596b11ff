import ExecImage.Proofs.Confinement
import ExecImage.Proofs.Lists
import ExecImage.Proofs.Pe.Writer
import ExecImage.Proofs.SymbolTable

/-!
# Queries on loaded binaries

A load checks that the addresses of a section fit the width of the image, and copies its bytes from the file (`Section.Mapped`). So
the sum that says where the addresses stop does not saturate, the two ways to say that an address lies in a section
agree, and the queries that look for sections and functions at an address fit together (`Binary.Coherent`). What a section
answers at an address is what the file has from there on, except at the first address that the file says nothing about: there the
answer is no bytes, and not none (`Section.IsFirstFilled`).
-/

namespace ExecImage

variable {v : View} {source : String} {hint : FormatHint} {options : Options} {b : Binary} {s : Section} {addr : UInt64}

/-! ## What a load leaves -/

/-- The addresses of a section do not wrap, and its bytes are those of the file at its offset. -/
structure Section.Mapped (s : Section) (v : View) : Prop where
  stop_lt : s.vma.toNat + s.size.toNat < UInt64.size
  bytes : s.bytes = #[] ∨
    (s.fileOffset.toNat + s.bytes.size ≤ v.size ∧
      s.bytes = v.bytes.extract s.fileOffset.toNat (s.fileOffset.toNat + s.bytes.size))

/-- A section that is confined to a file and to the addresses of a width is mapped. -/
theorem Section.Confined.mapped {w : Width} (h : s.Confined v source options w.bits) : s.Mapped v := by
  refine ⟨?_, h.bytes⟩
  cases w with
  | w32 => exact Nat.lt_of_le_of_lt (h.addresses32 rfl) (by decide)
  | w64 => exact h.addresses64 rfl

/-- Every section of a loaded binary is mapped. -/
theorem mapped_of_load (h : load v source hint options = .ok b) : ∀ s ∈ b.sections, s.Mapped v := by
  intro s hs
  obtain ⟨withSymbols, tables, hstaged, rfl⟩ := load_eq_ok_iff.1 h
  cases hstaged with
  | elf _ hread hload =>
    obtain ⟨e, -, he⟩ := Except.exists_of_mem_mapM_filterMap hload hs
    obtain ⟨-, -, htable⟩ := Elf.Image.read_eq_ok_iff.1 hread
    rw [← (Elf.SectionTable.view_of_read htable).1]
    exact (Elf.SectionTable.confined_of_loadEntry he).mapped
  | pe _ hread hload =>
    obtain ⟨e, -, he⟩ := Except.exists_of_mem_mapM_filterMap hload hs
    rw [← (Pe.Image.read_eq_ok_iff.1 hread).1]
    exact (Pe.SectionTable.confined_of_loadEntry he).mapped

/-! ## Bytes at addresses -/

namespace Section

/-- The answer at an address is right: there is one exactly if the section contains the address and the file provides a byte for it,
and then it is the bytes that the file has for the address and those after it. -/
structure Answers (s : Section) (v : View) (addr : UInt64) : Prop where
  provided : (∃ bs, s.bytesAt? addr = some bs) ↔ s.Contains addr ∧ addr.toNat - s.vma.toNat < s.bytes.size
  bytes : ∀ bs, s.bytesAt? addr = some bs → bs ≠ #[] ∧ s.fileOffset.toNat + s.bytes.size ≤ v.size ∧
    bs = v.bytes.extract (s.fileOffset.toNat + (addr.toNat - s.vma.toNat)) (s.fileOffset.toNat + s.bytes.size)
  filled : s.Contains addr → s.bytes.size ≤ addr.toNat - s.vma.toNat → s.bytesAt? addr = none

/-- The address is the first one of the section for which the file provides no byte. -/
def IsFirstFilled (s : Section) (addr : UInt64) : Prop :=
  s.Contains addr ∧ addr.toNat = s.vma.toNat + s.bytes.size

instance (s : Section) (addr : UInt64) : Decidable (s.IsFirstFilled addr) :=
  inferInstanceAs (Decidable (_ ∧ _))

/-- There is an answer at the addresses of a section up to the first one that the file provides no byte for. -/
theorem bytesAt?_eq_some_iff {bs : Bytes} :
    s.bytesAt? addr = some bs ↔
      (s.Contains addr ∧ addr.toNat - s.vma.toNat ≤ s.bytes.size) ∧
        s.bytes.extract (addr.toNat - s.vma.toNat) s.bytes.size = bs := by
  unfold bytesAt?
  rw [Option.ite_none_right_eq_some, Option.some.injEq]

/-- At the first address that the file provides no byte for, the answer is no bytes. -/
theorem IsFirstFilled.bytesAt?_eq (h : s.IsFirstFilled addr) : s.bytesAt? addr = some #[] := by
  have hstart : addr.toNat - s.vma.toNat = s.bytes.size := by
    have := h.2
    omega
  rw [bytesAt?_eq_some_iff, hstart, Array.extract_eq_empty_of_le (Nat.min_le_left _ _)]
  exact ⟨⟨h.1, Nat.le_refl _⟩, rfl⟩

/-- No bytes are never the right answer. -/
theorem Answers.ne_empty (h : s.Answers v addr) : s.bytesAt? addr ≠ some #[] :=
  fun hempty => (h.bytes _ hempty).1 rfl

namespace Mapped

variable (h : s.Mapped v)

include h

/-- The bytes of a section from one of them on are those of the file from its place on. -/
theorem extract_bytes {start : Nat} (hlt : start < s.bytes.size) :
    s.fileOffset.toNat + s.bytes.size ≤ v.size ∧
      s.bytes.extract start s.bytes.size =
        v.bytes.extract (s.fileOffset.toNat + start) (s.fileOffset.toNat + s.bytes.size) := by
  rcases h.bytes with hempty | ⟨hle, hbytes⟩
  · rw [hempty] at hlt
    exact absurd hlt (Nat.not_lt_zero _)
  · refine ⟨hle, ?_⟩
    calc s.bytes.extract start s.bytes.size
        = (v.bytes.extract s.fileOffset.toNat (s.fileOffset.toNat + s.bytes.size)).extract start s.bytes.size := by
          rw [← hbytes]
      _ = v.bytes.extract (s.fileOffset.toNat + start)
            (min (s.fileOffset.toNat + s.bytes.size) (s.fileOffset.toNat + s.bytes.size)) := Array.extract_extract
      _ = v.bytes.extract (s.fileOffset.toNat + start) (s.fileOffset.toNat + s.bytes.size) := by rw [Nat.min_self]

/-- The answer is right at every address but the first that the file provides no byte for. -/
theorem answers_iff : s.Answers v addr ↔ ¬s.IsFirstFilled addr := by
  constructor
  · exact fun hanswers hfirst => hanswers.ne_empty hfirst.bytesAt?_eq
  intro hnot
  have hlt (hcontains : s.Contains addr) (hle : addr.toNat - s.vma.toNat ≤ s.bytes.size) :
      addr.toNat - s.vma.toNat < s.bytes.size := by
    refine Nat.lt_of_le_of_ne hle fun heq => hnot ⟨hcontains, ?_⟩
    have := hcontains.1
    omega
  refine ⟨⟨?provided, ?answered⟩, ?bytes, ?filled⟩
  case provided =>
    rintro ⟨bs, hbs⟩
    obtain ⟨⟨hcontains, hle⟩, -⟩ := bytesAt?_eq_some_iff.1 hbs
    exact ⟨hcontains, hlt hcontains hle⟩
  case answered =>
    rintro ⟨hcontains, hstart⟩
    exact ⟨_, bytesAt?_eq_some_iff.2 ⟨⟨hcontains, Nat.le_of_lt hstart⟩, rfl⟩⟩
  case bytes =>
    intro bs hbs
    obtain ⟨⟨hcontains, hle⟩, rfl⟩ := bytesAt?_eq_some_iff.1 hbs
    have hstart := hlt hcontains hle
    refine ⟨Array.ne_empty_of_size_pos ?_, h.extract_bytes hstart⟩
    rw [Array.size_extract]
    omega
  case filled =>
    intro hcontains hge
    refine Option.eq_none_iff_forall_ne_some.2 fun bs hbs => ?_
    obtain ⟨⟨-, hle⟩, -⟩ := bytesAt?_eq_some_iff.1 hbs
    exact absurd (hlt hcontains hle) (Nat.not_lt.2 hge)

end Mapped

end Section

/-- What a section of a loaded binary answers at an address is right, except at the first address that the file provides no byte
for; there the answer is no bytes. -/
theorem bytesAt?_of_load (h : load v source hint options = .ok b) :
    ∀ s ∈ b.sections, ∀ addr,
      (s.Answers v addr ↔ ¬s.IsFirstFilled addr) ∧ (s.IsFirstFilled addr → s.bytesAt? addr = some #[]) :=
  fun s hs _ => ⟨(mapped_of_load h s hs).answers_iff, Section.IsFirstFilled.bytesAt?_eq⟩

/-- An image with two sections that are longer than their raw data: four addresses of code with two bytes, and data without any. A
function stands in each. -/
def Pe.ImageSpec.zeroFilled : Pe.ImageSpec :=
  { imageBase := 0x400000
    sections := [
      { name := ".text", virtualSize := 4, virtualAddress := 0x1000, characteristics := 0x60000020, data := [0x55, 0xC3] },
      { name := ".bss", virtualSize := 0x10, virtualAddress := 0x2000, characteristics := 0xC0000080, data := [] }]
    records := [
      { nameField := nameField "main", value := 1, sectionNumber := 1, type := 0x20, storageClass := 2, auxiliaries := 0 },
      { nameField := nameField "thunk", value := 8, sectionNumber := 2, type := 0x20, storageClass := 2, auxiliaries := 0 }] }

/-- The code of that image. -/
def Section.zeroFilledCode : Section :=
  { binary := "sample", name := ".text", kind := .code, vma := 0x401000, size := 4, fileOffset := 0x108, flags := 0x60000020
    bytes := #[0x55, 0xC3] }

/-- The data of that image. -/
def Section.zeroFilledData : Section :=
  { binary := "sample", name := ".bss", kind := .data, vma := 0x402000, size := 0x10, fileOffset := 0x10A, flags := 0xC0000080
    bytes := #[] }

/-- What is loaded of that image. -/
def Binary.zeroFilled : Binary :=
  { source := "sample", format := .pe, formatName := "pei-i386", arch := .x86, archName := "i386", bits := 32
    endianness := .little, entry := 0, sections := [.zeroFilledCode, .zeroFilledData]
    symbols := [.function "main" 0x401001 .static, .function "thunk" 0x402008 .static], warnings := [] }

theorem load_zeroFilled : load Pe.ImageSpec.zeroFilled.view "sample" .auto {} = .ok Binary.zeroFilled := by
  decide +kernel

/-- The code of the image answers at its second address with the second byte, and after that with no bytes. -/
theorem bytesAt?_of_load_zeroFilled :
    load Pe.ImageSpec.zeroFilled.view "sample" .auto {} = .ok Binary.zeroFilled ∧
      Section.zeroFilledCode ∈ Binary.zeroFilled.sections ∧
      Section.zeroFilledCode.Answers Pe.ImageSpec.zeroFilled.view 0x401001 ∧
      Section.zeroFilledCode.bytesAt? 0x401001 = some #[0xC3] ∧ Section.zeroFilledCode.bytesAt? 0x401002 = some #[] := by
  have hanswers := bytesAt?_of_load load_zeroFilled Section.zeroFilledCode List.mem_cons_self
  exact ⟨load_zeroFilled, List.mem_cons_self, (hanswers 0x401001).1.2 (by decide), by decide, (hanswers 0x401002).2 (by decide)⟩

/-- The answer of the code of the image at its third address and that of the data at its first are not right. -/
theorem not_answers_zeroFilled : ∃ b code data, load Pe.ImageSpec.zeroFilled.view "sample" .auto {} = .ok b ∧
    b.sections = [code, data] ∧ ¬code.Answers Pe.ImageSpec.zeroFilled.view 0x401002 ∧
    ¬data.Answers Pe.ImageSpec.zeroFilled.view 0x402000 := by
  have hcode : Section.zeroFilledCode.IsFirstFilled 0x401002 := by decide
  have hdata : Section.zeroFilledData.IsFirstFilled 0x402000 := by decide
  exact ⟨Binary.zeroFilled, _, _, load_zeroFilled, rfl, fun hanswers => hanswers.ne_empty hcode.bytesAt?_eq,
    fun hanswers => hanswers.ne_empty hdata.bytesAt?_eq⟩

/-! ## Addresses of sections -/

/-- The address is not before the first one of the section and before the one at which its addresses stop. -/
def Section.Spans (s : Section) (addr : UInt64) : Prop :=
  s.vma ≤ addr ∧ addr < s.stop

namespace Section.Mapped

variable (h : s.Mapped v)

include h

/-- The sum that says where the addresses stop does not saturate. -/
theorem toNat_stop : s.stop.toNat = s.vma.toNat + s.size.toNat := by
  have hlt := h.stop_lt
  have hmin : min (s.vma.toNat + s.size.toNat) (UInt64.size - 1) = s.vma.toNat + s.size.toNat := by omega
  rw [stop, hmin, UInt64.toNat_ofNat_of_lt' hlt]

/-- A section contains the addresses that it spans. -/
theorem contains_iff : s.Contains addr ↔ s.Spans addr := by
  have hstop := h.toNat_stop
  unfold Contains Spans
  rw [UInt64.le_iff_toNat_le, UInt64.lt_iff_toNat_lt]
  omega

end Section.Mapped

/-! ## Sections and functions at addresses -/

namespace Binary

/-- The section at an address is the first one that contains it. -/
theorem sectionAt?_eq_some_iff {i : Nat} :
    b.sectionAt? addr = some i ↔
      ∃ s, b.sections[i]? = some s ∧ s.Contains addr ∧
        ∀ j < i, ∀ s', b.sections[j]? = some s' → ¬s'.Contains addr := by
  unfold sectionAt?
  rw [List.findIdx?_eq_some_iff_getElem]
  constructor
  · rintro ⟨hi, hs, hfirst⟩
    refine ⟨b.sections[i], List.getElem?_eq_getElem hi, of_decide_eq_true hs, fun j hj s' hs' => ?_⟩
    obtain ⟨hlt, rfl⟩ := List.getElem?_eq_some_iff.1 hs'
    simpa using hfirst j hj
  · rintro ⟨s, hs, hcontains, hfirst⟩
    obtain ⟨hi, rfl⟩ := List.getElem?_eq_some_iff.1 hs
    refine ⟨hi, decide_eq_true hcontains, fun j hj => ?_⟩
    simpa using hfirst j hj _ (List.getElem?_eq_getElem (Nat.lt_trans hj hi))

/-- There is a section at an address exactly if one contains it. -/
theorem exists_sectionAt?_iff : (∃ i, b.sectionAt? addr = some i) ↔ ∃ s ∈ b.sections, s.Contains addr := by
  rw [← Option.isSome_iff_exists, sectionAt?, List.findIdx?_isSome, List.any_eq_true]
  simp only [decide_eq_true_eq]

/-- The functions in a section are those whose addresses it contains. -/
theorem mem_functionsIn {k : Nat} : k ∈ b.functionsIn s ↔ ∃ sym, b.symbols[k]? = some sym ∧ s.Contains sym.addr := by
  simp only [functionsIn, mem_indexesWhere, decide_eq_true_eq]

/-- The functions in a section stand in the order of the symbols. -/
theorem pairwise_functionsIn (b : Binary) (s : Section) : (b.functionsIn s).Pairwise (· < ·) := by
  have hsublist : (b.functionsIn s).Sublist (List.range' 0 b.symbols.length) := by
    rw [← List.zipIdx_map_snd]
    exact List.filter_sublist.map Prod.snd
  exact List.Pairwise.sublist hsublist List.pairwise_lt_range'

/-- The queries of a binary about addresses fit together. -/
structure Coherent (b : Binary) : Prop where
  /-- Where the addresses of a section stop is the sum of its first address and its size. -/
  stop : ∀ s ∈ b.sections, s.stop.toNat = s.vma.toNat + s.size.toNat
  /-- The addresses of a section go from its first one to where they stop. -/
  contains : ∀ s ∈ b.sections, ∀ addr, s.Contains addr ↔ s.Spans addr
  /-- There is a section at the addresses that some section has. -/
  found : ∀ addr, (∃ i, b.sectionAt? addr = some i) ↔ ∃ s ∈ b.sections, s.Spans addr
  /-- It is the first section that has the address. -/
  first : ∀ addr i, b.sectionAt? addr = some i ↔
    ∃ s, b.sections[i]? = some s ∧ s.Spans addr ∧ ∀ j < i, ∀ s', b.sections[j]? = some s' → ¬s'.Spans addr
  /-- There is none at the addresses from the last stop on. -/
  beyond : ∀ addr, (∀ s ∈ b.sections, s.stop ≤ addr) → b.sectionAt? addr = none
  /-- The functions in a section are the symbols at its addresses, in their order. -/
  functions : ∀ s ∈ b.sections, (b.functionsIn s).Pairwise (· < ·) ∧
    ∀ k, k ∈ b.functionsIn s ↔ ∃ sym, b.symbols[k]? = some sym ∧ s.Spans sym.addr
  /-- A symbol at an address that some section has is a function in the section at its address. -/
  listed : ∀ k sym, b.symbols[k]? = some sym → (∃ s ∈ b.sections, s.Spans sym.addr) →
    ∃ i s, b.sectionAt? sym.addr = some i ∧ b.sections[i]? = some s ∧ k ∈ b.functionsIn s
  /-- If no address is that of two sections, no symbol is a function in two of them. -/
  once : Apart Section.Spans b.sections → ∀ (i j : Nat) (s s' : Section) (k : Nat),
    b.sections[i]? = some s → b.sections[j]? = some s' → k ∈ b.functionsIn s → k ∈ b.functionsIn s' → i = j

/-- The queries of a binary fit together if its sections are mapped. -/
theorem coherent_of_mapped (h : ∀ s ∈ b.sections, s.Mapped v) : b.Coherent := by
  have hcontains : ∀ s ∈ b.sections, ∀ addr, s.Contains addr ↔ s.Spans addr := fun s hs _ => (h s hs).contains_iff
  have hfound (addr : UInt64) : (∃ i, b.sectionAt? addr = some i) ↔ ∃ s ∈ b.sections, s.Spans addr := by
    rw [exists_sectionAt?_iff]
    exact exists_congr fun s => and_congr_right fun hs => hcontains s hs addr
  have hfunctions : ∀ s ∈ b.sections, ∀ k,
      k ∈ b.functionsIn s ↔ ∃ sym, b.symbols[k]? = some sym ∧ s.Spans sym.addr := by
    intro s hs k
    rw [mem_functionsIn]
    exact exists_congr fun sym => and_congr_right fun _ => hcontains s hs sym.addr
  refine ⟨fun s hs => (h s hs).toNat_stop, hcontains, hfound, ?first, ?beyond, ?functions, ?listed, ?once⟩
  case first =>
    intro addr i
    rw [sectionAt?_eq_some_iff]
    refine exists_congr fun s => and_congr_right fun hs => and_congr (hcontains s (List.mem_of_getElem? hs) addr) ?_
    exact forall₂_congr fun j _ => forall₂_congr fun s' hs' => not_congr (hcontains s' (List.mem_of_getElem? hs') addr)
  case beyond =>
    intro addr hstops
    refine Option.eq_none_iff_forall_ne_some.2 fun i hi => ?_
    obtain ⟨s, hs, hspans⟩ := (hfound addr).1 ⟨i, hi⟩
    exact absurd hspans.2 (UInt64.not_lt.2 (hstops s hs))
  case functions =>
    exact fun s hs => ⟨pairwise_functionsIn b s, hfunctions s hs⟩
  case listed =>
    intro k sym hsym hspans
    obtain ⟨i, hi⟩ := (hfound sym.addr).2 hspans
    obtain ⟨s, hs, hcontained, -⟩ := sectionAt?_eq_some_iff.1 hi
    exact ⟨i, s, hi, hs, mem_functionsIn.2 ⟨sym, hsym, hcontained⟩⟩
  case once =>
    intro hapart i j s s' k hs hs' hk hk'
    obtain ⟨sym, hsym, hspans⟩ := (hfunctions s (List.mem_of_getElem? hs) k).1 hk
    obtain ⟨sym', hsym', hspans'⟩ := (hfunctions s' (List.mem_of_getElem? hs') k).1 hk'
    cases hsym.symm.trans hsym'
    exact hapart.index_eq hs hs' hspans hspans'

end Binary

/-- The queries of a loaded binary about addresses fit together. -/
theorem coherent_of_load (h : load v source hint options = .ok b) : b.Coherent :=
  Binary.coherent_of_mapped (mapped_of_load h)

/-- The queries of an image with a function in each of its two sections fit together. -/
theorem coherent_of_load_zeroFilled :
    load Pe.ImageSpec.zeroFilled.view "sample" .auto {} = .ok Binary.zeroFilled ∧ Binary.zeroFilled.Coherent ∧
      Binary.zeroFilled.sections.map Binary.zeroFilled.functionsIn = [[0], [1]] ∧
      Binary.zeroFilled.sectionAt? 0x402008 = some 1 ∧ Binary.zeroFilled.sectionAt? 0x402010 = none :=
  ⟨load_zeroFilled, coherent_of_load load_zeroFilled, by decide, by decide, by decide⟩

end ExecImage
