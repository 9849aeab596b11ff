import ExecImage.Proofs.Elf.Symbols
import ExecImage.Proofs.Entries
import ExecImage.Proofs.Pe.Symbols

/-!
# What symbol tables add to a binary

Merging puts tables one after the other and keeps functions only. The readers give functions only, so a table that was read to its
end adds all its symbols, with its warnings. A table that failed adds no symbol, and one warning, which is its own fault
(`TableOutcome.Adds`). What tables add together is what each of them adds, one after the other (`exists_shares`).
-/

namespace ExecImage

/-! ## Outcomes -/

namespace TableOutcome

/-- The symbols of a table that was read to its end, whatever they name. -/
def readSymbols : TableOutcome → List Symbol
  | .loaded t => t.symbols
  | .failed _ _ => []

/-- The warnings of a table that was read to its end, or the one warning that stands for a failed table. -/
def leftWarnings : TableOutcome → List Warning
  | .loaded t => t.warnings
  | .failed label error => [.ofError label error]

/-- What the outcome of a table under a label adds to the symbols and to the warnings of a binary. -/
inductive Adds (label : String) : TableOutcome → MergedSymbols → Prop where
  /-- A table that was read to its end goes by the label, and so do its warnings. It adds all its symbols, and its warnings. -/
  | loaded {t : LoadedTable} (table : t.table = label) (warnings : ∀ w ∈ t.warnings, w.table = label) :
      Adds label (.loaded t) { symbols := t.symbols, warnings := t.warnings }
  /-- A failed table goes by the label and is at fault itself. It adds no symbol, and one warning that lays the fault to the label. -/
  | failed (fault : Fault) :
      Adds label (.failed label (.symbolTable label fault)) { symbols := [], warnings := [⟨label, fault.message⟩] }

end TableOutcome

/-- Tables merged in two parts are merged one part after the other. -/
theorem merge_append (xs ys : List TableOutcome) :
    merge (xs ++ ys) =
      { symbols := (merge xs).symbols ++ (merge ys).symbols, warnings := (merge xs).warnings ++ (merge ys).warnings } := by
  simp only [merge, List.flatMap_append]

/-- Merging keeps the functions of the tables that were read to their end. -/
theorem symbols_merge (outcomes : List TableOutcome) :
    (merge outcomes).symbols = (outcomes.flatMap TableOutcome.readSymbols).filter Symbol.isFunction := by
  simp only [merge, List.filter_flatMap]
  congr 1
  funext o
  cases o with
  | loaded t => rfl
  | failed table error => rfl

/-- Merging keeps the warnings of the tables that were read to their end, and makes one of each other table. -/
theorem leftWarnings_merge (outcomes : List TableOutcome) :
    (merge outcomes).warnings = outcomes.flatMap TableOutcome.leftWarnings := by
  have hwarnings : TableOutcome.warnings = TableOutcome.leftWarnings := by
    funext o
    cases o with
    | loaded t => rfl
    | failed table error => rfl
  rw [merge, hwarnings]

/-- Nothing is dropped from tables of functions. -/
theorem symbols_merge_of_functions {outcomes : List TableOutcome}
    (h : ∀ o ∈ outcomes, ∀ s ∈ o.readSymbols, s.kind = .function) :
    (merge outcomes).symbols = outcomes.flatMap TableOutcome.readSymbols := by
  rw [symbols_merge, List.filter_eq_self]
  intro s hs
  obtain ⟨o, ho, hs⟩ := List.mem_flatMap.1 hs
  exact decide_eq_true (h o ho s hs)

/-! ## Tables -/

/-- The symbols of an outcome are those that were read. -/
theorem LabelledTable.mem_of_mem_readSymbols {t : LabelledTable} {s : Symbol} (h : s ∈ t.outcome.readSymbols) :
    s ∈ t.read.reading.symbols := by
  cases hf : t.read.reading.failure with
  | none =>
    rw [outcome_of_failure_eq_none hf] at h
    exact h
  | some e =>
    rw [outcome_of_failure_eq_some hf] at h
    nomatch h

/-- Every merged symbol was read of one of the tables. -/
theorem exists_table_of_mem_merge {tables : List LabelledTable} {s : Symbol}
    (h : s ∈ (merge (tables.map LabelledTable.outcome)).symbols) : ∃ t ∈ tables, s ∈ t.read.reading.symbols := by
  rw [symbols_merge, List.mem_filter, List.flatMap_map] at h
  obtain ⟨t, ht, hs⟩ := List.mem_flatMap.1 h.1
  exact ⟨t, ht, LabelledTable.mem_of_mem_readSymbols hs⟩

/-- A contained table adds what it holds under its label, or its own fault. -/
theorem LabelledTable.Contained.adds {t : LabelledTable} (h : t.Contained) :
    t.outcome.Adds t.label { symbols := t.outcome.readSymbols, warnings := t.outcome.leftWarnings } := by
  cases hf : t.read.reading.failure with
  | none =>
    rw [outcome_of_failure_eq_none hf]
    exact .loaded h.table fun w hw => (TableReading.table_of_mem_warnings hw).trans h.table
  | some e =>
    obtain ⟨fault, rfl⟩ := h.failure e hf
    rw [outcome_of_failure_eq_some hf]
    exact .failed fault

/-- Contained tables of functions add their shares, one after the other. -/
theorem exists_shares {tables : List LabelledTable} (hc : ∀ t ∈ tables, t.Contained)
    (hf : ∀ t ∈ tables, ∀ s ∈ t.read.reading.symbols, s.kind = .function) :
    ∃ shares, List.Forall₂ (fun t share => t.outcome.Adds t.label share) tables shares ∧
      (merge (tables.map LabelledTable.outcome)).symbols = shares.flatMap MergedSymbols.symbols ∧
      (merge (tables.map LabelledTable.outcome)).warnings = shares.flatMap MergedSymbols.warnings := by
  have hfunctions : ∀ o ∈ tables.map LabelledTable.outcome, ∀ s ∈ o.readSymbols, s.kind = .function := by
    intro o ho s hs
    obtain ⟨t, ht, rfl⟩ := List.mem_map.1 ho
    exact hf t ht s (LabelledTable.mem_of_mem_readSymbols hs)
  refine ⟨tables.map fun t => { symbols := t.outcome.readSymbols, warnings := t.outcome.leftWarnings }, ?_, ?_, ?_⟩
  · exact List.forall₂_map_right_iff.2 (List.forall₂_same.2 fun t ht => (hc t ht).adds)
  · rw [symbols_merge_of_functions hfunctions, List.flatMap_map, List.flatMap_map]
  · rw [leftWarnings_merge, List.flatMap_map, List.flatMap_map]

/-! ## The readers give functions -/

namespace Elf

theorem SymbolTable.functionsOf_readEntry {t : SectionTable} {options : Options} {source : SymbolSource} {e : NamedHeader}
    {order : Endianness} : FunctionsOf source (readEntry t e order source options).reading.symbols := by
  unfold readEntry
  dsimp only
  split
  · exact functionsOf_nil source
  · exact (isOf_readEntries isOf_entryAt _).symbols

namespace Image

variable {image : Image} {options : Options} {t : LabelledTable}

theorem functionsOf_tablesOfType {type : UInt32} {source : SymbolSource}
    (hs : source = .dynamic ↔ type = SectionHeader.typeDynsym) :
    ∀ t ∈ image.tablesOfType options type source, FunctionsOf source t.read.reading.symbols := by
  rw [tablesOfType_eq hs]
  intro t ht
  obtain ⟨e, -, rfl⟩ := List.mem_map.1 ht
  exact SymbolTable.functionsOf_readEntry

/-- Every symbol that is read of an ELF image names a function. -/
theorem function_of_mem_symbolTables (ht : t ∈ image.symbolTables options) : ∀ s ∈ t.read.reading.symbols, s.kind = .function := by
  intro s hs
  rcases List.mem_append.1 ht with ht | ht
  · exact (functionsOf_tablesOfType (by decide) t ht s hs).1
  · exact (functionsOf_tablesOfType (by decide) t ht s hs).1

end Image

end Elf

namespace Pe

variable {v : View} {sections : SectionTable} {optional : OptionalHeader} {options : Options}

theorem CoffSymbols.functionsOf_read {file : FileHeader} {strings : Option StringTable} :
    FunctionsOf .static (read v file strings sections optional options).reading.symbols :=
  (isOf_readEntries isOf_entryAt _).symbols

theorem Exports.functionsOf_read {directory : DataDirectory} :
    FunctionsOf .exported (read v sections directory optional options).reading.symbols := by
  unfold read
  split
  · exact functionsOf_nil _
  · exact (isOf_readNames _ _).symbols

namespace Image

variable {image : Image} {t : LabelledTable}

theorem functionsOf_coffTables (ht : t ∈ image.coffTables options) : FunctionsOf .static t.read.reading.symbols := by
  rw [eq_of_mem_coffTables ht]
  exact CoffSymbols.functionsOf_read

theorem functionsOf_exportTables (ht : t ∈ image.exportTables options) : FunctionsOf .exported t.read.reading.symbols := by
  obtain ⟨directory, -, rfl⟩ := eq_of_mem_exportTables ht
  exact Exports.functionsOf_read

/-- Every symbol that is read of a PE image names a function. -/
theorem function_of_mem_symbolTables (ht : t ∈ image.symbolTables options) : ∀ s ∈ t.read.reading.symbols, s.kind = .function := by
  intro s hs
  rcases List.mem_append.1 ht with ht | ht
  · exact (functionsOf_coffTables ht s hs).1
  · exact (functionsOf_exportTables ht s hs).1

end Image

end Pe

end ExecImage
