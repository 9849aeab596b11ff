import ExecImage.Proofs.Confinement
import ExecImage.Proofs.Digits
import ExecImage.Proofs.Lists
import ExecImage.Proofs.Merge
import ExecImage.Proofs.Pe.Writer
import ExecImage.Proofs.Stages

/-!
# Addresses and the width of an image

An address comes to a binary in one of two ways. An ELF image stores it in a field that is as wide as its addresses, so it
cannot be larger. A PE image adds relative addresses to its image base. The entry and the symbols wrap the sum to the width;
sections do not wrap it, and a load checks the end of their addresses instead. The check admits a section without addresses
that starts right after the last 32-bit address, and this is the only address of a 32-bit image that is no 32-bit address.
-/

namespace ExecImage

open Except (bind_eq_ok_iff map_eq_ok_iff)

/-! ## Addresses of a width -/

/-- The address is one of the address space of a width. -/
def Width.IsAddress (w : Width) (a : UInt64) : Prop :=
  a ≤ w.maxAddress

instance (w : Width) (a : UInt64) : Decidable (w.IsAddress a) :=
  inferInstanceAs (Decidable (a ≤ w.maxAddress))

namespace Width

/-- The addresses of a width are the numbers that a field of its bytes can hold. -/
theorem isAddress_iff {w : Width} {a : UInt64} : w.IsAddress a ↔ a.toNat < 256 ^ w.bytes := by
  have ha := a.toNat_lt
  unfold IsAddress
  rw [UInt64.le_iff_toNat_le]
  cases w with
  | w32 =>
    have hmax : w32.maxAddress.toNat = 2 ^ 32 - 1 := rfl
    have hpow : 256 ^ w32.bytes = 2 ^ 32 := rfl
    omega
  | w64 =>
    have hmax : w64.maxAddress.toNat = 2 ^ 64 - 1 := rfl
    have hpow : 256 ^ w64.bytes = 2 ^ 64 := rfl
    omega

/-- Every word is a 64-bit address. -/
theorem isAddress_w64 (a : UInt64) : w64.IsAddress a := by
  rw [isAddress_iff]
  exact a.toNat_lt

end Width

/-- A field of a width holds an address of the width. -/
theorem View.isAddress_of_address {v : View} {offset : Nat} {w : Width} {order : Endianness} {a : UInt64}
    (h : v.address offset w order = .ok a) : w.IsAddress a := by
  obtain ⟨n, hn, rfl⟩ := map_eq_ok_iff.1 h
  obtain ⟨bs, hbs, rfl⟩ := map_eq_ok_iff.1 hn
  have hsize := View.size_of_slice hbs
  have hvalue : order.value bs.toList < 256 ^ w.bytes := by
    rw [← hsize, ← Array.length_toList]
    exact order.value_lt bs.toList
  rw [Width.isAddress_iff]
  exact Nat.lt_of_le_of_lt (UInt64.toNat_ofNat' ▸ Nat.mod_le _ _) hvalue

/-! ## ELF images -/

namespace Elf

variable {v : View} {options : Options}

/-- The entry address of an image is an address of its width. -/
theorem Header.isAddress_entry {h : Header} (hr : Header.read v = .ok h) : h.width.IsAddress h.entry := by
  obtain ⟨ident, -, hr⟩ := bind_eq_ok_iff.1 hr
  obtain ⟨-, -, hr⟩ := bind_eq_ok_iff.1 hr
  obtain ⟨machine, -, hr⟩ := bind_eq_ok_iff.1 hr
  obtain ⟨entry, hentry, hr⟩ := bind_eq_ok_iff.1 hr
  simp only [bind_eq_ok_iff, Except.pure_eq_ok, Except.ok.injEq] at hr
  obtain ⟨_, -, _, -, _, -, _, -, rfl⟩ := hr
  exact View.isAddress_of_address hentry

/-- The first address of a section is an address of the image's width. -/
theorem SectionHeader.isAddress_addr {offset : Nat} {ident : Ident} {h : SectionHeader}
    (hr : SectionHeader.read v offset ident = .ok h) : ident.cls.width.IsAddress h.addr := by
  obtain ⟨-, -, hr⟩ := bind_eq_ok_iff.1 hr
  cases hcls : ident.cls with
  | elf32 =>
    simp only [hcls, bind_eq_ok_iff, Except.pure_eq_ok, Except.ok.injEq] at hr
    obtain ⟨_, -, _, -, _, -, addr, haddr, _, -, _, -, _, -, _, -, _, -, rfl⟩ := hr
    exact View.isAddress_of_address haddr
  | elf64 => exact Width.isAddress_w64 _

/-- The address of a symbol is an address of the image's width. -/
theorem SymbolEntry.isAddress_value {offset : Nat} {ident : Ident} {e : SymbolEntry}
    (hr : SymbolEntry.read v offset ident = .ok e) : ident.cls.width.IsAddress e.value := by
  unfold SymbolEntry.read at hr
  cases hcls : ident.cls with
  | elf32 =>
    simp only [hcls, bind_eq_ok_iff, Except.pure_eq_ok, Except.ok.injEq] at hr
    obtain ⟨_, -, value, hvalue, _, -, _, -, _, -, _, -, rfl⟩ := hr
    exact View.isAddress_of_address hvalue
  | elf64 => exact Width.isAddress_w64 _

/-- Every header of a section table was read of the file. -/
theorem SectionTable.exists_read_of_mem {h : Header} {t : SectionTable} (hr : SectionTable.read v h options = .ok t)
    {e : NamedHeader} (he : e ∈ t.entries) : ∃ offset, SectionHeader.read v offset h.ident = .ok e.header := by
  rcases SectionTable.read_eq_ok_iff.1 hr with ⟨-, rfl⟩ | ⟨-, first, headers, names, d⟩
  · nomatch he
  · rw [d.table] at he
    obtain ⟨sh, hsh, rfl⟩ := List.mem_map.1 he
    obtain ⟨i, hi⟩ := List.getElem?_of_mem hsh
    obtain ⟨j, -, hj⟩ := (Except.mapM_eq_ok_iff.1 d.readHeaders).getElem?_right hi
    exact ⟨_, hj⟩

/-- The symbols of a table have the addresses of its entries. -/
theorem SymbolTable.isAddress_of_mem {t : SectionTable} {e : NamedHeader} {order : Endianness} {source : SymbolSource}
    {s : Symbol} (hs : s ∈ (readEntry t e order source options).reading.symbols) : t.cls.width.IsAddress s.addr := by
  unfold readEntry at hs
  dsimp only at hs
  split at hs
  · nomatch hs
  · obtain ⟨i, te, hte, hsymbol⟩ := exists_entry_of_mem_symbols hs
    obtain ⟨entry, hentry, hte⟩ := bind_eq_ok_iff.1 hte
    cases hte
    have haddr : s.addr = entry.value := by
      split at hsymbol
      · unfold keep at hsymbol
        split at hsymbol
        · cases hsymbol
          rfl
        · split at hsymbol
          · cases hsymbol
            rfl
          · cases hsymbol
            rfl
      · nomatch hsymbol
    rw [haddr]
    exact SymbolEntry.isAddress_value hentry

/-- The symbols of an image have addresses of its width. -/
theorem Image.isAddress_of_mem_symbols {image : Image} (hread : Image.read v options = .ok image) {s : Symbol}
    (hs : s ∈ (merge ((image.symbolTables options).map LabelledTable.outcome)).symbols) :
    image.header.width.IsAddress s.addr := by
  obtain ⟨-, -, htable⟩ := Image.read_eq_ok_iff.1 hread
  obtain ⟨-, hcls⟩ := SectionTable.view_of_read htable
  obtain ⟨t, ht, hs⟩ := exists_table_of_mem_merge hs
  rw [symbolTables, tablesOfType_eq (by decide), tablesOfType_eq (by decide)] at ht
  have hwidth : image.header.width = image.sections.cls.width := by
    rw [hcls]
    rfl
  rw [hwidth]
  rcases List.mem_append.1 ht with ht | ht
  · obtain ⟨e, -, rfl⟩ := List.mem_map.1 ht
    exact SymbolTable.isAddress_of_mem hs
  · obtain ⟨e, -, rfl⟩ := List.mem_map.1 ht
    exact SymbolTable.isAddress_of_mem hs

/-- The sections of an image start at addresses of its width. -/
theorem Image.isAddress_of_mem_sections {image : Image} (hread : Image.read v options = .ok image) {source : String}
    {sections : List Section} (hload : image.sections.load source options = .ok sections) {s : Section} (hs : s ∈ sections) :
    image.header.width.IsAddress s.vma := by
  obtain ⟨-, -, htable⟩ := Image.read_eq_ok_iff.1 hread
  obtain ⟨e, he, hentry⟩ := Except.exists_of_mem_mapM_filterMap hload hs
  obtain ⟨offset, hheader⟩ := SectionTable.exists_read_of_mem htable he
  obtain ⟨kind, bytes, -, -, -, rfl⟩ := SectionTable.loadEntry_eq_some_iff.1 hentry
  exact SectionHeader.isAddress_addr hheader

end Elf

/-! ## PE images -/

namespace Pe

variable {v : View} {options : Options} {sections : SectionTable} {optional : OptionalHeader}

/-- The address of a relative address is wrapped to the image's width. -/
theorem OptionalHeader.isAddress_va (o : OptionalHeader) (rva : UInt64) : o.width.IsAddress (o.va rva) := by
  unfold va width
  cases o.is64 with
  | true => exact Width.isAddress_w64 _
  | false =>
    have hand : ((o.imageBase + rva) &&& 0xFFFFFFFF).toNat ≤ 2 ^ 32 - 1 := by
      rw [UInt64.toNat_and]
      exact Nat.and_le_right
    exact UInt64.le_iff_toNat_le.2 hand

/-- The entry address of an image is an address of its width. -/
theorem OptionalHeader.isAddress_entry (o : OptionalHeader) : o.width.IsAddress o.entry := by
  unfold entry
  split
  · exact UInt64.le_iff_toNat_le.2 (Nat.zero_le _)
  · exact o.isAddress_va _

/-- The symbols of the COFF symbol table have wrapped addresses. -/
theorem CoffSymbols.isAddress_of_mem {file : FileHeader} {strings : Option StringTable} {s : Symbol}
    (hs : s ∈ (read v file strings sections optional options).reading.symbols) : optional.width.IsAddress s.addr := by
  obtain ⟨i, te, hte, hsymbol⟩ := exists_entry_of_mem_symbols hs
  unfold entryAt at hte
  split at hte
  · rename_i r _
    cases hte
    have haddr : ∃ rva, s.addr = optional.va rva := by
      unfold keep at hsymbol
      split at hsymbol
      · split at hsymbol
        · nomatch hsymbol
        · split at hsymbol
          · cases hsymbol
            exact ⟨_, rfl⟩
          · cases hsymbol
            exact ⟨_, rfl⟩
      · nomatch hsymbol
    obtain ⟨rva, haddr⟩ := haddr
    rw [haddr]
    exact optional.isAddress_va rva
  · nomatch hte
  · nomatch hte

/-- The symbols of the exports have wrapped addresses. -/
theorem Exports.isAddress_of_mem {directory : DataDirectory} {s : Symbol}
    (hs : s ∈ (read v sections directory optional options).reading.symbols) : optional.width.IsAddress s.addr := by
  unfold read at hs
  split at hs
  · nomatch hs
  dsimp only [Reading.noting] at hs
  unfold readNames at hs
  split at hs
  · nomatch hs
  split at hs
  · nomatch hs
  obtain ⟨i, te, hte, hsymbol⟩ := exists_entry_of_mem_symbols hs
  obtain ⟨nameRva, -, hte⟩ := bind_eq_ok_iff.1 hte
  obtain ⟨ordinal, -, hte⟩ := bind_eq_ok_iff.1 hte
  split at hte
  · cases hte
    nomatch hsymbol
  · obtain ⟨functionRva, -, hte⟩ := bind_eq_ok_iff.1 hte
    cases hte
    have haddr : s.addr = optional.va functionRva.toUInt64 := by
      unfold keep at hsymbol
      split at hsymbol
      · nomatch hsymbol
      · dsimp only at hsymbol
        split at hsymbol
        · cases hsymbol
          rfl
        · cases hsymbol
          rfl
    rw [haddr]
    exact optional.isAddress_va _

/-- The symbols of an image have addresses of its width. -/
theorem Image.isAddress_of_mem_symbols {image : Image} {s : Symbol}
    (hs : s ∈ (merge ((image.symbolTables options).map LabelledTable.outcome)).symbols) :
    image.headers.optional.width.IsAddress s.addr := by
  obtain ⟨t, ht, hs⟩ := exists_table_of_mem_merge hs
  rcases List.mem_append.1 ht with ht | ht
  · rw [eq_of_mem_coffTables ht] at hs
    exact CoffSymbols.isAddress_of_mem hs
  · obtain ⟨directory, -, rfl⟩ := eq_of_mem_exportTables ht
    exact Exports.isAddress_of_mem hs

end Pe

/-! ## Sections after the last address -/

/-- The section has no addresses, and it starts right after the last 32-bit address. -/
structure Section.IsPastEnd (s : Section) : Prop where
  vma : s.vma = 0x100000000
  size : s.size = 0
  bytes : s.bytes = #[]

/-- A section that is confined to 32-bit addresses starts at one of them, unless it has none and starts right after the last. -/
theorem Section.Confined.isAddress_or {s : Section} {v : View} {source : String} {options : Options}
    (h : s.Confined v source options 32) : Width.w32.IsAddress s.vma ∨ s.IsPastEnd := by
  have hend := h.addresses32 rfl
  by_cases hvma : s.vma.toNat < 2 ^ 32
  · exact .inl (Width.isAddress_iff.2 hvma)
  · have hsize : s.size.toNat = 0 := by omega
    have hbytes := h.size_le
    rw [hsize] at hbytes
    refine .inr ⟨UInt64.toNat_inj.1 ?_, UInt64.toNat_inj.1 hsize, Array.eq_empty_of_size_eq_zero (Nat.le_zero.1 hbytes)⟩
    change s.vma.toNat = 2 ^ 32
    omega

/-- Every address in a section that is confined to 32-bit addresses is one of them. -/
theorem Section.Confined.isAddress_of_contains {s : Section} {v : View} {source : String} {options : Options}
    (h : s.Confined v source options 32) {addr : UInt64} (ha : s.Contains addr) : Width.w32.IsAddress addr := by
  have hend := h.addresses32 rfl
  obtain ⟨hle, hlt⟩ := ha
  rw [Width.isAddress_iff]
  change addr.toNat < 2 ^ 32
  omega

/-! ## The addresses of a binary -/

/-- Only 32-bit addresses are 32 bits wide. -/
theorem Width.eq_w32_of_bits {w : Width} (h : w.bits = 32) : w = .w32 := by
  cases w with
  | w32 => rfl
  | w64 => exact absurd h (by decide)

/-- The entry and the symbols of a 32-bit binary are at 32-bit addresses, and so is every address in a section. A section
starts at a 32-bit address too, unless the image is a PE image and the section has no addresses and starts right after the
last one. -/
theorem addresses_of_bits_32 {v : View} {source : String} {hint : FormatHint} {options : Options} {b : Binary}
    (h : load v source hint options = .ok b) (hbits : b.bits = 32) :
    b.entry ≤ 0xFFFFFFFF ∧ (∀ s ∈ b.symbols, s.addr ≤ 0xFFFFFFFF) ∧
      ∀ s ∈ b.sections, (s.vma ≤ 0xFFFFFFFF ∨ b.format = .pe ∧ s.IsPastEnd) ∧ ∀ addr, s.Contains addr → addr ≤ 0xFFFFFFFF := by
  obtain ⟨withSymbols, tables, hstaged, rfl⟩ := load_eq_ok_iff.1 h
  cases hstaged with
  | @elf image sections _ hread hload =>
    obtain ⟨hheader, -, htable⟩ := Elf.Image.read_eq_ok_iff.1 hread
    obtain ⟨-, hcls⟩ := Elf.SectionTable.view_of_read htable
    have hwidth : image.header.width = .w32 := Width.eq_w32_of_bits hbits
    have hentry := Elf.Header.isAddress_entry hheader
    rw [hwidth] at hentry
    refine ⟨hentry, fun s hs => ?_, fun s hs => ⟨.inl ?_, fun addr ha => ?_⟩⟩
    · have hsymbol := Elf.Image.isAddress_of_mem_symbols hread hs
      rwa [hwidth] at hsymbol
    · have hsection := Elf.Image.isAddress_of_mem_sections hread hload hs
      rwa [hwidth] at hsection
    · obtain ⟨e, -, he⟩ := Except.exists_of_mem_mapM_filterMap hload hs
      have hc := Elf.SectionTable.confined_of_loadEntry he
      rw [hcls, show image.header.ident.cls.width = .w32 from hwidth] at hc
      exact hc.isAddress_of_contains ha
  | @pe image sections _ hread hload =>
    have hwidth : image.headers.optional.width = .w32 := Width.eq_w32_of_bits hbits
    have hentry := image.headers.optional.isAddress_entry
    rw [hwidth] at hentry
    refine ⟨hentry, fun s hs => ?_, fun s hs => ?_⟩
    · have hsymbol := Pe.Image.isAddress_of_mem_symbols hs
      rwa [hwidth] at hsymbol
    · obtain ⟨e, -, he⟩ := Except.exists_of_mem_mapM_filterMap hload hs
      have hc := Pe.SectionTable.confined_of_loadEntry he
      rw [hwidth] at hc
      exact ⟨hc.isAddress_or.imp_right fun hpast => ⟨rfl, hpast⟩, fun addr ha => hc.isAddress_of_contains ha⟩

/-- A small image whose section of code has no addresses and starts right after the last 32-bit address. The entry and the
function of the section are beyond it, so they wrap. -/
def Pe.ImageSpec.pastEnd : Pe.ImageSpec :=
  { entryRva := 0xFFC01000
    imageBase := 0x400000
    sections := [{ name := ".text", virtualSize := 0, virtualAddress := 0xFFC00000, characteristics := 0x60000020, data := [] }]
    records := [{
      nameField := nameField "main", value := 4, sectionNumber := 1, type := 0x20, storageClass := 2, auxiliaries := 0 }] }

/-- The entry and the symbol of the small image are at 32-bit addresses. -/
theorem addresses_of_bits_32_pastEnd : ∃ b, load Pe.ImageSpec.pastEnd.view "sample" .auto {} = .ok b ∧ b.bits = 32 ∧
    b.symbols.length = 1 ∧ b.entry ≤ 0xFFFFFFFF ∧ ∀ s ∈ b.symbols, s.addr ≤ 0xFFFFFFFF := by
  have h : (load Pe.ImageSpec.pastEnd.view "sample" .auto {}).toOption.map (fun b => (b.bits, b.symbols.length)) =
      some (32, 1) := by
    decide +kernel
  obtain ⟨b, hb, hpair⟩ := Except.exists_of_toOption_map h
  obtain ⟨hbits, hlength⟩ := Prod.mk.inj hpair
  obtain ⟨hentry, hsymbols, -⟩ := addresses_of_bits_32 hb hbits
  exact ⟨b, hb, hbits, hlength, hentry, hsymbols⟩

/-- The small image is a 32-bit binary with a section that starts at no 32-bit address. -/
theorem not_isAddress_pastEnd : ∃ b, load Pe.ImageSpec.pastEnd.view "sample" .auto {} = .ok b ∧ b.bits = 32 ∧
    ∃ s ∈ b.sections, ¬s.vma ≤ 0xFFFFFFFF := by
  have h : (load Pe.ImageSpec.pastEnd.view "sample" .auto {}).toOption.map
      (fun b => (b.bits, decide (∃ s ∈ b.sections, ¬s.vma ≤ 0xFFFFFFFF))) = some (32, true) := by
    decide +kernel
  obtain ⟨b, hb, hpair⟩ := Except.exists_of_toOption_map h
  obtain ⟨hbits, hsections⟩ := Prod.mk.inj hpair
  exact ⟨b, hb, hbits, of_decide_eq_true hsections⟩

end ExecImage
