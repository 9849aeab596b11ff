import ExecImage.Proofs.Elf.Writer
import ExecImage.Proofs.Merge
import ExecImage.Proofs.Pe.Writer
import ExecImage.Proofs.StageErrors

/-!
# A symbol table cannot break a load

The stages that can end a load fail with no fault of a symbol table, and the symbol tables, which alone have such
faults, are read after them and cannot end it. A table that fails leaves one warning; nothing else of it, and nothing
of any other table, is lost.
-/

namespace ExecImage

/-- When the stages of a load succeed it gives a binary, which has the symbols and the warnings that the symbol tables add, one table
after the other; they are all of the binary that depends on the tables. -/
theorem exists_load_of_staged {v : View} {source : String} {hint : FormatHint} {options : Options}
    {withSymbols : MergedSymbols → Binary} {tables : List LabelledTable} (h : Staged v source hint options withSymbols tables) :
    ∃ b shares, load v source hint options = .ok b ∧ List.Forall₂ (fun t share => t.outcome.Adds t.label share) tables shares ∧
      b.symbols = shares.flatMap MergedSymbols.symbols ∧ b.warnings = shares.flatMap MergedSymbols.warnings ∧
      b = withSymbols { symbols := b.symbols, warnings := b.warnings } := by
  have hload := load_eq_ok_iff.2 ⟨withSymbols, tables, h, rfl⟩
  cases h with
  | elf select read load =>
    obtain ⟨shares, hadds, hsymbols, hwarnings⟩ :=
      exists_shares (fun _ => Elf.Image.contained_of_mem_symbolTables) fun _ => Elf.Image.function_of_mem_symbolTables
    exact ⟨_, shares, hload, hadds, hsymbols, hwarnings, rfl⟩
  | pe select read load =>
    obtain ⟨shares, hadds, hsymbols, hwarnings⟩ :=
      exists_shares (fun _ => Pe.Image.contained_of_mem_symbolTables) fun _ => Pe.Image.function_of_mem_symbolTables
    exact ⟨_, shares, hload, hadds, hsymbols, hwarnings, rfl⟩

/-- A load fails with no fault of a symbol table, and it succeeds exactly when the stages before the symbol tables do.
Every symbol table of an image goes by its label: if it was read to its end it adds its symbols and its warnings, and if it failed it
adds its own fault as a warning and nothing else. The symbols and the warnings of a binary are what the tables add, one table after
the other, and the rest of the binary does not depend on them. -/
theorem symbolTables_contained (v : View) (source : String) (hint : FormatHint) (options : Options) :
    (∀ table fault, load v source hint options ≠ .error (.symbolTable table fault)) ∧
      ((∃ b, load v source hint options = .ok b) ↔
        ∃ withSymbols tables, Staged v source hint options withSymbols tables) ∧
      (∀ image : Elf.Image, ∀ t ∈ image.symbolTables options, ∃ share, t.outcome.Adds t.label share) ∧
      (∀ image : Pe.Image, ∀ t ∈ image.symbolTables options, ∃ share, t.outcome.Adds t.label share) ∧
      ∀ withSymbols tables, Staged v source hint options withSymbols tables →
        ∃ b shares, load v source hint options = .ok b ∧
          List.Forall₂ (fun t share => t.outcome.Adds t.label share) tables shares ∧
          b.symbols = shares.flatMap MergedSymbols.symbols ∧ b.warnings = shares.flatMap MergedSymbols.warnings ∧
          b = withSymbols { symbols := b.symbols, warnings := b.warnings } := by
  refine ⟨fun table fault h => ?_, ?_, fun image t ht => ?_, fun image t ht => ?_, fun withSymbols tables h => ?_⟩
  · have : LoadError.IsFatal (.symbolTable table fault) := errors_load v source hint options _ h
    exact absurd this (by simp [LoadError.IsFatal, LoadError.isRecoverable])
  · constructor
    · rintro ⟨b, hb⟩
      obtain ⟨withSymbols, tables, h, -⟩ := load_eq_ok_iff.1 hb
      exact ⟨withSymbols, tables, h⟩
    · rintro ⟨withSymbols, tables, h⟩
      obtain ⟨b, -, hb, -⟩ := exists_load_of_staged h
      exact ⟨b, hb⟩
  · exact ⟨_, (Elf.Image.contained_of_mem_symbolTables ht).adds⟩
  · exact ⟨_, (Pe.Image.contained_of_mem_symbolTables ht).adds⟩
  · exact exists_load_of_staged h

/-- A small image whose symbol table is linked to no strings. -/
def Elf.ImageSpec.unlinked : Elf.ImageSpec :=
  { Elf.ImageSpec.sample with
    sections := Elf.ImageSpec.sample.sections ++ [{ name := ".symtab", type := 2, flags := 0, addr := 0, data := [] }]
    symtab := none }

/-- A small image whose symbol table is at fault is loaded, with one warning and no symbol. So is one with exports that are at fault,
which add one warning after what the other table adds. -/
theorem symbolTables_contained_faulty :
    (∀ table fault, load Elf.ImageSpec.unlinked.view "sample" .auto {} ≠ .error (.symbolTable table fault)) ∧
      (∃ b, load Elf.ImageSpec.unlinked.view "sample" .auto {} = .ok b ∧ b.symbols = [] ∧
        b.warnings = [⟨".symtab", "string table link 0 out of range"⟩]) ∧
      ∃ withSymbols tables b shares, Staged Pe.ImageSpec.faulty.view "sample" .auto {} withSymbols tables ∧
        load Pe.ImageSpec.faulty.view "sample" .auto {} = .ok b ∧
        List.Forall₂ (fun t share => t.outcome.Adds t.label share) tables shares ∧
        b.symbols = shares.flatMap MergedSymbols.symbols ∧ b.symbols = [⟨.function, "main", 0x401000, .static⟩] ∧
        b.warnings = shares.flatMap MergedSymbols.warnings ∧
        b.warnings = [⟨"coff", "symbol 1: section number 9 out of range"⟩,
          ⟨"exports", "name table RVA 0x9000 not backed by file data"⟩] := by
  have helf : (load Elf.ImageSpec.unlinked.view "sample" .auto {}).toOption.map (fun b => (b.symbols, b.warnings)) =
      some ([], [⟨".symtab", "string table link 0 out of range"⟩]) := by
    decide +kernel
  have hpe : (load Pe.ImageSpec.faulty.view "sample" .auto {}).toOption.map (fun b => (b.symbols, b.warnings)) =
      some ([⟨.function, "main", 0x401000, .static⟩], [⟨"coff", "symbol 1: section number 9 out of range"⟩,
        ⟨"exports", "name table RVA 0x9000 not backed by file data"⟩]) := by
    decide +kernel
  obtain ⟨b, hb, hpair⟩ := Except.exists_of_toOption_map helf
  obtain ⟨hsymbols, hwarnings⟩ := Prod.mk.inj hpair
  obtain ⟨hfatal, -⟩ := symbolTables_contained Elf.ImageSpec.unlinked.view "sample" .auto {}
  obtain ⟨b', hb', hpair'⟩ := Except.exists_of_toOption_map hpe
  obtain ⟨hsymbols', hwarnings'⟩ := Prod.mk.inj hpair'
  obtain ⟨-, hstaged, -, -, hstages⟩ := symbolTables_contained Pe.ImageSpec.faulty.view "sample" .auto {}
  obtain ⟨withSymbols, tables, hs⟩ := hstaged.1 ⟨b', hb'⟩
  obtain ⟨c, shares, hc, hadds, hsum, hwarned, -⟩ := hstages withSymbols tables hs
  cases hb'.symm.trans hc
  exact ⟨hfatal, ⟨b, hb, hsymbols, hwarnings⟩, withSymbols, tables, b', shares, hs, hc, hadds, hsum, hsymbols', hwarned, hwarnings'⟩

end ExecImage
