import ExecImage.Proofs.Pe.WrittenExports
import ExecImage.Proofs.Pe.WrittenSymbols

/-!
# Symbol tables that a linker writes are read back

The exports of a section that is found at its relative addresses, and the symbols of a COFF symbol table with its strings,
are what the readers give, with their names, in order.
-/

namespace ExecImage.Pe

/-- Exports that were written in a section are read back: their names in order, at their addresses, without a warning. Of symbols
that were written, the string table is found, and the functions among them are read back: their names in order, however long
they are, at the addresses of their sections plus their values. A limit on records leaves out the symbols whose records are not
below it, with a warning; under any other limit there are all functions and no warning. -/
theorem tables_of_written (v : View) (sections : SectionTable) (optional : OptionalHeader) (options : Options) :
    (∀ (base : UInt32) (image : String) (exports : List ExportSpec) (h : SectionHeader) (directory : DataDirectory),
      Backs v sections base (ExportSpec.write base image exports) h → ExportSpec.Fits directory options exports →
      directory.rva = base →
        (Exports.read v sections directory optional options).result = .ok
          { table := Exports.tableName
            symbols := exports.map fun e => .function e.name (optional.va e.rva.toUInt64) .exported
            warnings := [] }) ∧
    ∀ (file : FileHeader) (others : List UInt8) (symbols : List CoffSpec),
      CoffSpec.Written v file others symbols → (∀ s ∈ symbols, s.Valid sections) →
        ∃ strings, StringTable.locate? v file.symbolPointer file.symbolCount = some strings ∧
          (CoffSymbols.read v file (some strings) sections optional options).result = .ok
            { table := coffName
              symbols := ((CoffSpec.below options.maxSymbolsPerTable.toNat 0 symbols).filter CoffSpec.isFunction).map
                (CoffSpec.symbol sections optional)
              warnings :=
                truncationWarnings coffName .recordsTruncated file.symbolCount.toNat options.maxSymbolsPerTable.toNat } ∧
          (file.symbolCount.toNat ≤ options.maxSymbolsPerTable.toNat →
            (CoffSymbols.read v file (some strings) sections optional options).result = .ok
              { table := coffName
                symbols := (symbols.filter CoffSpec.isFunction).map (CoffSpec.symbol sections optional)
                warnings := [] }) := by
  refine ⟨fun base image exports h directory hb hf hdirectory => ExportSpec.result_of_backs hb hf hdirectory,
    fun file others symbols hw hvalid => ⟨_, CoffSpec.locate?_of_written hw,
      CoffSpec.result_of_written hw optional options hvalid, fun hlimit => ?_⟩⟩
  have hcount := hw.count
  have hresult := CoffSpec.result_of_written hw optional options hvalid
  have hbelow : CoffSpec.below options.maxSymbolsPerTable.toNat 0 symbols = symbols :=
    CoffSpec.below_eq_self (StringTable.sizeField + others.length) (by rw [CoffSpec.allRecords] at hcount; omega)
  rw [hbelow, truncationWarnings, if_neg (Nat.not_lt.2 hlimit)] at hresult
  exact hresult

namespace ImageSpec

/-- Two exports, of which the second comes first in the code. -/
def linkedExports : List ExportSpec :=
  [⟨"Alpha", 0x1001⟩, ⟨"Beta", 0x1000⟩]

/-- A function, a variable, and a function with a name that is too long for a record. -/
def linkedSymbols : List CoffSpec :=
  [⟨"_main", 0, 1, true⟩, ⟨"_counter", 2, 1, false⟩, ⟨"_long_internal_helper", 1, 1, true⟩]

/-- An image with the exports and the symbols. Its string table starts with a string that no symbol has. -/
def linked : ImageSpec :=
  { sample with
    directories := [{ rva := 0x2000, size := 83 }]
    sections := [
      { name := ".text", virtualSize := 4, virtualAddress := 0x1000, characteristics := 0x60000020, data := [0x55, 0xC3] },
      { name := ".edata", virtualSize := 83, virtualAddress := 0x2000, characteristics := 0x40000040
        data := ExportSpec.write 0x2000 "fixture.dll" linkedExports }]
    records := CoffSpec.allRecords [0x41, 0] linkedSymbols
    strings := CoffSpec.strings [0x41, 0] linkedSymbols }

/-- The header of the section of exports. -/
def edataHeader : SectionHeader :=
  { nameField := nameField ".edata", virtualSize := 83, virtualAddress := 0x2000, rawSize := 83, rawPointer := 274
    characteristics := 0x40000040 }

/-- The sections of the image. -/
def linkedSections : SectionTable :=
  { entries := [
      ⟨{ nameField := nameField ".text", virtualSize := 4, virtualAddress := 0x1000, rawSize := 2, rawPointer := 272
         characteristics := 0x60000020 }, ".text"⟩,
      ⟨edataHeader, ".edata"⟩] }

/-- No other section holds the addresses of the section of exports. -/
theorem backs_linked :
    Backs linked.view linkedSections 0x2000 (ExportSpec.write 0x2000 "fixture.dll" linkedExports) edataHeader := by
  have hlength : (ExportSpec.write 0x2000 "fixture.dll" linkedExports).length = 83 := by decide +kernel
  refine ⟨by decide +kernel, rfl, by decide +kernel, by decide +kernel, by decide +kernel,
    fun h hmem rva hstart hend hholds => ?_⟩
  rcases List.mem_cons.1 hmem with rfl | hmem
  · -- The first section ends before.
    obtain ⟨-, hlt⟩ := hholds
    change rva.toNat - 0x1000 < 4 at hlt
    change 0x2000 ≤ rva.toNat at hstart
    omega
  · exact List.mem_singleton.1 hmem

end ImageSpec

open ImageSpec in
/-- The sections and headers of the image are those that are read of it, and its symbol tables are read back. -/
theorem tables_of_written_linked :
    (∃ image, Image.read linked.view {} = .ok image ∧ image.sections = linkedSections ∧ image.headers.file = linked.file ∧
      image.headers.optional = linked.optional ∧ image.headers.directories = linked.directories) ∧
    (Exports.read linked.view linkedSections ⟨0x2000, 83⟩ linked.optional {}).result = .ok
      { table := "exports"
        symbols := [.function "Alpha" 0x401001 .exported, .function "Beta" 0x401000 .exported]
        warnings := [] } ∧
    ∃ strings, StringTable.locate? linked.view linked.file.symbolPointer linked.file.symbolCount = some strings ∧
      (CoffSymbols.read linked.view linked.file (some strings) linkedSections linked.optional {}).result = .ok
        { table := "coff"
          symbols := [.function "_main" 0x401000 .static, .function "_long_internal_helper" 0x401001 .static]
          warnings := [] } := by
  have himage : (Image.read linked.view {}).toOption.map (fun image =>
      (image.sections, image.headers.file, image.headers.optional, image.headers.directories)) =
        some (linkedSections, linked.file, linked.optional, linked.directories) := by
    decide +kernel
  obtain ⟨image, hread, hparts⟩ := Except.exists_of_toOption_map himage
  obtain ⟨hsections, hparts⟩ := Prod.mk.inj hparts
  obtain ⟨hfile, hparts⟩ := Prod.mk.inj hparts
  obtain ⟨hoptional, hdirectories⟩ := Prod.mk.inj hparts
  obtain ⟨hexports, hsymbols⟩ := tables_of_written linked.view linkedSections linked.optional {}
  have hfits : ExportSpec.Fits ⟨0x2000, 83⟩ {} linkedExports := ⟨by decide, by decide +kernel, by decide +kernel⟩
  have hwritten : CoffSpec.Written linked.view linked.file [0x41, 0] linkedSymbols :=
    ⟨by decide +kernel, by decide +kernel, by decide +kernel, by decide +kernel⟩
  have hvalid : ∀ s ∈ linkedSymbols, s.Valid linkedSections := by
    intro s hs
    have hall : ∀ s ∈ linkedSymbols, IsName StringTable.maxLength s.name ∧ s.name ≠ "" ∧ 0 < s.sectionNumber.toBitVec.toInt ∧
        s.sectionNumber.toNat ≤ linkedSections.count := by
      decide +kernel
    obtain ⟨hname, hnamed, hpositive, hle⟩ := hall s hs
    exact ⟨hname, hnamed, hpositive, hle⟩
  obtain ⟨strings, hstrings, -, hall⟩ := hsymbols linked.file [0x41, 0] linkedSymbols hwritten hvalid
  have hlimit : linked.file.symbolCount.toNat ≤ ({} : Options).maxSymbolsPerTable.toNat := by decide +kernel
  refine ⟨⟨image, hread, hsections, hfile, hoptional, hdirectories⟩, ?_, strings, hstrings, ?_⟩
  · rw [hexports 0x2000 "fixture.dll" linkedExports edataHeader ⟨0x2000, 83⟩ backs_linked hfits rfl]
    rfl
  · rw [hall hlimit]
    rfl

end ExecImage.Pe
