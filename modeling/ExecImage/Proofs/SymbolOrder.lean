import ExecImage.Proofs.Elf.Writer
import ExecImage.Proofs.Merge
import ExecImage.Proofs.Pe.Writer
import ExecImage.Proofs.Stages

/-!
# The order of the symbols of a binary

Merging puts tables one after the other and keeps functions only. The readers give functions only, each table from one source, so
nothing is dropped: the symbols of a binary are those of the tables that were read to their end, table by table, with static
ones first (`symbols_of_load`).
-/

namespace ExecImage

/-! ## Static symbols first -/

/-- Every symbol names a function, and the static symbols come before those of the source `later`, which are the others. -/
structure StaticFirst (later : SymbolSource) (symbols : List Symbol) : Prop where
  /-- The kind of every symbol. -/
  function : ∀ s ∈ symbols, s.kind = .function
  /-- The sources of the symbols. -/
  source : ∀ s ∈ symbols, s.source = .static ∨ s.source = later
  /-- A static symbol stands before a symbol that is not. -/
  before : ∀ (i j : Nat) (s s' : Symbol), symbols[i]? = some s → symbols[j]? = some s' →
    s.source = .static → s'.source ≠ .static → i < j

/-- Static functions and then functions of another source. -/
theorem staticFirst_append {later : SymbolSource} (hlater : later ≠ .static) {statics others : List Symbol}
    (hs : FunctionsOf .static statics) (ho : FunctionsOf later others) : StaticFirst later (statics ++ others) := by
  refine ⟨?_, ?_, ?_⟩
  · intro s hmem
    rcases List.mem_append.1 hmem with h | h
    · exact (hs s h).1
    · exact (ho s h).1
  · intro s hmem
    rcases List.mem_append.1 hmem with h | h
    · exact .inl (hs s h).2
    · exact .inr (ho s h).2
  · intro i j s s' hi hj hstatic hother
    have hilt : i < statics.length := by
      by_contra hge
      rw [List.getElem?_append_right (by omega)] at hi
      have hsource := (ho s (List.mem_of_getElem? hi)).2
      exact hlater (hsource.symm.trans hstatic)
    have hjge : statics.length ≤ j := by
      by_contra hlt
      rw [List.getElem?_append_left (by omega)] at hj
      exact hother (hs s' (List.mem_of_getElem? hj)).2
    omega

/-- The functions of tables of one source are functions of the source. -/
theorem functionsOf_flatMap {source : SymbolSource} {tables : List LabelledTable}
    (h : ∀ t ∈ tables, FunctionsOf source t.read.reading.symbols) :
    FunctionsOf source ((tables.map LabelledTable.outcome).flatMap TableOutcome.readSymbols) := by
  intro s hs
  rw [List.flatMap_map] at hs
  obtain ⟨t, ht, hs⟩ := List.mem_flatMap.1 hs
  exact h t ht s (LabelledTable.mem_of_mem_readSymbols hs)

/-- Tables of static functions and then tables of functions of another source are merged without loss. -/
theorem merge_static_later {later : SymbolSource} (hlater : later ≠ .static) {statics others : List LabelledTable}
    (hs : ∀ t ∈ statics, FunctionsOf .static t.read.reading.symbols)
    (ho : ∀ t ∈ others, FunctionsOf later t.read.reading.symbols) :
    (merge ((statics ++ others).map LabelledTable.outcome)).symbols =
        ((statics ++ others).map LabelledTable.outcome).flatMap TableOutcome.readSymbols ∧
      StaticFirst later (merge ((statics ++ others).map LabelledTable.outcome)).symbols := by
  have hfirst := staticFirst_append hlater (functionsOf_flatMap hs) (functionsOf_flatMap ho)
  rw [← List.flatMap_append, ← List.map_append] at hfirst
  have hsymbols := symbols_merge_of_functions fun o ho s hs => hfirst.function s (List.mem_flatMap.2 ⟨o, ho, hs⟩)
  rw [hsymbols]
  exact ⟨rfl, hfirst⟩

/-! ## The symbols of a binary -/

namespace Elf.Image

variable {image : Image} {options : Options}

/-- What became of the tables of a type: one outcome for each section of the type, in the order of the table. -/
def outcomesOfType (image : Image) (options : Options) (type : UInt32) (source : SymbolSource) : List TableOutcome :=
  (image.sections.entries.filter fun e => e.header.type == type).map fun e =>
    .ofResult (SymbolTable.nameOf e) (SymbolTable.readEntry image.sections e image.header.order source options).result

theorem outcome_tablesOfType {type : UInt32} {source : SymbolSource} (hs : source = .dynamic ↔ type = SectionHeader.typeDynsym) :
    (image.tablesOfType options type source).map LabelledTable.outcome = image.outcomesOfType options type source := by
  rw [tablesOfType_eq hs, List.map_map]
  rfl

end Elf.Image

/-- Merging is table by table, and keeps the functions, the warnings of tables that were read to their end, and one warning for each
other table. The symbols of a binary are all those of the tables that were read to their end, and its warnings are those of such
tables and one for each other table, in the order of the tables. They are
functions, static ones first; the others are dynamic in an ELF binary and exported in a PE binary. The tables of an ELF
image are those of its static sections of symbols and then those of its dynamic ones, in the order of the section table. -/
theorem symbols_of_load :
    (∀ xs ys : List TableOutcome, merge (xs ++ ys) =
      { symbols := (merge xs).symbols ++ (merge ys).symbols, warnings := (merge xs).warnings ++ (merge ys).warnings }) ∧
      (∀ xs : List TableOutcome, (merge xs).symbols = (xs.flatMap TableOutcome.readSymbols).filter Symbol.isFunction ∧
        (merge xs).warnings = xs.flatMap TableOutcome.leftWarnings) ∧
      ∀ (v : View) (source : String) (hint : FormatHint) (options : Options) (b : Binary),
        load v source hint options = .ok b →
        ∃ outcomes : List TableOutcome,
          b.symbols = outcomes.flatMap TableOutcome.readSymbols ∧
          b.warnings = outcomes.flatMap TableOutcome.leftWarnings ∧
          ((b.format = .elf ∧ StaticFirst .dynamic b.symbols ∧ ∃ image : Elf.Image, Elf.Image.read v options = .ok image ∧
              outcomes = (image.symbolTables options).map LabelledTable.outcome ∧
              outcomes = image.outcomesOfType options Elf.SectionHeader.typeSymtab .static ++
                image.outcomesOfType options Elf.SectionHeader.typeDynsym .dynamic) ∨
            (b.format = .pe ∧ StaticFirst .exported b.symbols ∧ ∃ image : Pe.Image, Pe.Image.read v options = .ok image ∧
              outcomes = (image.symbolTables options).map LabelledTable.outcome)) := by
  refine ⟨merge_append, fun xs => ⟨symbols_merge xs, leftWarnings_merge xs⟩, ?_⟩
  intro v source hint options b h
  obtain ⟨withSymbols, tables, hstaged, rfl⟩ := load_eq_ok_iff.1 h
  cases hstaged with
  | @elf image sections _ hread _ =>
    have hstatic : ∀ t ∈ image.tablesOfType options Elf.SectionHeader.typeSymtab .static,
        FunctionsOf .static t.read.reading.symbols := Elf.Image.functionsOf_tablesOfType (by decide)
    have hdynamic : ∀ t ∈ image.tablesOfType options Elf.SectionHeader.typeDynsym .dynamic,
        FunctionsOf .dynamic t.read.reading.symbols := Elf.Image.functionsOf_tablesOfType (by decide)
    obtain ⟨hsymbols, hfirst⟩ := merge_static_later (by decide) hstatic hdynamic
    refine ⟨_, hsymbols, leftWarnings_merge _, .inl ⟨rfl, hfirst, image, hread, rfl, ?_⟩⟩
    rw [List.map_append, Elf.Image.outcome_tablesOfType (by decide), Elf.Image.outcome_tablesOfType (by decide)]
  | @pe image sections _ hread _ =>
    have hstatic : ∀ t ∈ image.coffTables options, FunctionsOf .static t.read.reading.symbols :=
      fun _ => Pe.Image.functionsOf_coffTables
    have hexported : ∀ t ∈ image.exportTables options, FunctionsOf .exported t.read.reading.symbols :=
      fun _ => Pe.Image.functionsOf_exportTables
    obtain ⟨hsymbols, hfirst⟩ := merge_static_later (by decide) hstatic hexported
    exact ⟨_, hsymbols, leftWarnings_merge _, .inr ⟨rfl, hfirst, image, hread, rfl⟩⟩

/-- A small image with a dynamic symbol too. -/
def Elf.ImageSpec.shared : Elf.ImageSpec :=
  { Elf.ImageSpec.sample with dynsym := some [{ name := "puts", value := 0, info := 0x12, sectionIndex := 0 }] }

/-- In small images of either format the static symbol stands before the other one. If the exports are at fault, there is no
exported symbol, and the warning of the fault stands after the warning of the table of static symbols. -/
theorem symbols_of_load_samples :
    (∃ b, load Elf.ImageSpec.shared.view "sample" .auto {} = .ok b ∧
        b.symbols.map Symbol.source = [.static, .dynamic] ∧ StaticFirst .dynamic b.symbols) ∧
      (∃ b, load Pe.ImageSpec.sample.view "sample" .auto {} = .ok b ∧
        b.symbols.map Symbol.source = [.static, .exported] ∧ StaticFirst .exported b.symbols) ∧
      ∃ b, load Pe.ImageSpec.faulty.view "sample" .auto {} = .ok b ∧ b.symbols.map Symbol.source = [.static] ∧
        b.warnings = [⟨"coff", "symbol 1: section number 9 out of range"⟩,
          ⟨"exports", "name table RVA 0x9000 not backed by file data"⟩] ∧
        ∃ image : Pe.Image, Pe.Image.read Pe.ImageSpec.faulty.view {} = .ok image ∧
          b.warnings = ((image.symbolTables {}).map LabelledTable.outcome).flatMap TableOutcome.leftWarnings := by
  have helf : (load Elf.ImageSpec.shared.view "sample" .auto {}).toOption.map
      (fun b => (b.format, b.symbols.map Symbol.source)) = some (.elf, [.static, .dynamic]) := by
    decide +kernel
  have hpe : (load Pe.ImageSpec.sample.view "sample" .auto {}).toOption.map
      (fun b => (b.format, b.symbols.map Symbol.source)) = some (.pe, [.static, .exported]) := by
    decide +kernel
  have hfaulty : (load Pe.ImageSpec.faulty.view "sample" .auto {}).toOption.map
      (fun b => (b.format, b.symbols.map Symbol.source, b.warnings)) =
        some (.pe, [.static], [⟨"coff", "symbol 1: section number 9 out of range"⟩,
          ⟨"exports", "name table RVA 0x9000 not backed by file data"⟩]) := by
    decide +kernel
  obtain ⟨b, hb, hpair⟩ := Except.exists_of_toOption_map helf
  obtain ⟨b', hb', hpair'⟩ := Except.exists_of_toOption_map hpe
  obtain ⟨c, hc, hpairc⟩ := Except.exists_of_toOption_map hfaulty
  obtain ⟨hformat, hsources⟩ := Prod.mk.inj hpair
  obtain ⟨hformat', hsources'⟩ := Prod.mk.inj hpair'
  obtain ⟨hformatc, hpairc⟩ := Prod.mk.inj hpairc
  obtain ⟨hsourcesc, hwarnings⟩ := Prod.mk.inj hpairc
  refine ⟨⟨b, hb, hsources, ?_⟩, ⟨b', hb', hsources', ?_⟩, ?_⟩
  · obtain ⟨_, -, -, ⟨-, hfirst, -⟩ | ⟨hother, -⟩⟩ := symbols_of_load.2.2 _ _ _ _ b hb
    · exact hfirst
    · cases hformat.symm.trans hother
  · obtain ⟨_, -, -, ⟨hother, -⟩ | ⟨-, hfirst, -⟩⟩ := symbols_of_load.2.2 _ _ _ _ b' hb'
    · cases hformat'.symm.trans hother
    · exact hfirst
  · obtain ⟨_, -, hleft, ⟨hother, -⟩ | ⟨-, -, image, himage, rfl⟩⟩ := symbols_of_load.2.2 _ _ _ _ c hc
    · cases hformatc.symm.trans hother
    · exact ⟨c, hc, hsourcesc, hwarnings, image, himage, hleft⟩

end ExecImage
