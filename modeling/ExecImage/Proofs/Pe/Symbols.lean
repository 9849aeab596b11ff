import ExecImage.Pe.Image
import ExecImage.Proofs.Pe.Records
import ExecImage.Proofs.SymbolTable

/-!
# PE symbol tables are contained

A record of the COFF symbol table that is outside the file, and a part of the exports that cannot be found or read,
are faults of their table; no other error leaves the readers.
-/

namespace ExecImage.Pe

open Except (ErrorsIn)

variable {v : View} {sections : SectionTable} {optional : OptionalHeader} {options : Options}

/-! ## The COFF symbol table -/

namespace CoffSymbols

variable {file : FileHeader} {strings : Option StringTable}

/-- A record that cannot be read is a fault of the table. -/
theorem errors_entryAt (i : Nat) : ErrorsIn (LoadError.IsFaultOf coffName) (entryAt v file strings sections optional i) := by
  unfold entryAt
  cases hr : CoffRecord.read v (recordOffset file i) with
  | ok r => exact .ok _
  | error e =>
    obtain ⟨offset, len, size, rfl⟩ := CoffRecord.isRecord_read.errors v _ e hr
    exact .error ⟨_, rfl⟩

/-- The COFF symbol table is contained. -/
theorem contained_read : LabelledTable.Contained ⟨coffName, read v file strings sections optional options⟩ := by
  refine ⟨rfl, fun e h => ?_⟩
  obtain ⟨i, -, hi⟩ := exists_of_failure (Reading.failure_noting _ _ ▸ h)
  exact errors_entryAt i e hi

end CoffSymbols

/-! ## The exports -/

namespace Exports

variable {directory : DataDirectory}

theorem errors_fault {α : Type} (f : Fault) : ErrorsIn (LoadError.IsFaultOf tableName) (fault f : Except LoadError α) :=
  .error ⟨f, rfl⟩

theorem errors_resolve (part : ExportPart) (rva : UInt32) :
    ErrorsIn (LoadError.IsFaultOf tableName) (resolve sections part rva) := by
  unfold resolve
  split
  · exact .ok _
  · exact errors_fault _

theorem errors_locate (d : ExportDirectory) : ErrorsIn (LoadError.IsFaultOf tableName) (locate sections d) := by
  unfold locate
  refine .bind (errors_resolve .addressTable _) fun addresses _ => ?_
  refine .bind (errors_resolve .nameTable _) fun names _ => ?_
  exact .bind (errors_resolve .ordinalTable _) fun ordinals _ => .ok _

theorem errors_field {α : Type} (part : ExportPart) (index : Nat) (r : Except LoadError α) :
    ErrorsIn (LoadError.IsFaultOf tableName) (field part index r) := by
  unfold field
  split
  · exact .ok _
  · exact errors_fault _

/-- The fields of the directory lie in the range that is asked for first, so only that range can be missing. -/
theorem errors_readDirectory (offset : Nat) :
    ErrorsIn (LoadError.IsFaultOf tableName) (ExportDirectory.read v offset) := by
  by_cases hc : v.Covers offset ExportDirectory.size
  · rw [ExportDirectory.read_eq_ok hc]
    exact .ok _
  · have hslice : v.slice offset ExportDirectory.size = .error (.outOfBounds offset ExportDirectory.size v.size) := if_neg hc
    unfold ExportDirectory.read View.sub
    rw [hslice]
    exact errors_fault _

theorem errors_findDirectory : ErrorsIn (LoadError.IsFaultOf tableName) (findDirectory v sections directory) :=
  .bind (errors_resolve .directory _) fun offset _ => errors_readDirectory offset

/-- A field of an export that cannot be read is a fault of the exports. -/
theorem errors_entryAt (functionCount : UInt32) (t : Tables) (i : Nat) :
    ErrorsIn (LoadError.IsFaultOf tableName) (entryAt v sections directory optional functionCount t i) := by
  unfold entryAt
  refine .bind (errors_field .nameTable i _) fun nameRva _ => ?_
  refine .bind (errors_field .ordinalTable i _) fun ordinal _ => ?_
  split
  · exact .ok _
  · exact .bind (errors_field .addressTable _ _) fun functionRva _ => .ok _

/-- The reading of the names ends early only with a fault of the exports. -/
theorem isFaultOf_of_failure_readNames {d : ExportDirectory} {count : Nat} {e : LoadError}
    (h : (readNames v sections directory optional d count).failure = some e) : e.IsFaultOf tableName := by
  unfold readNames at h
  split at h
  · nomatch h
  · split at h
    · rename_i error herror
      rw [Reading.failure_failed, Option.some.injEq] at h
      exact errors_locate d e (h ▸ herror)
    · obtain ⟨i, -, hi⟩ := exists_of_failure h
      exact errors_entryAt d.functionCount _ i e hi

/-- The exports are contained. -/
theorem contained_read : LabelledTable.Contained ⟨tableName, read v sections directory optional options⟩ := by
  unfold read
  cases hd : findDirectory v sections directory with
  | error error =>
    refine ⟨rfl, fun e h => ?_⟩
    cases h
    exact errors_findDirectory _ hd
  | ok d => exact ⟨rfl, fun e h => isFaultOf_of_failure_readNames (Reading.failure_noting _ _ ▸ h)⟩

end Exports

/-! ## The tables of an image -/

namespace Image

variable {image : Image} {t : LabelledTable}

/-- The one table of symbol records is the one that the file header points to. -/
theorem eq_of_mem_coffTables (ht : t ∈ image.coffTables options) :
    t = ⟨coffName,
      CoffSymbols.read image.view image.headers.file image.strings image.sections image.headers.optional options⟩ := by
  unfold coffTables at ht
  dsimp only at ht
  split at ht
  · exact List.mem_singleton.1 ht
  · cases ht

/-- The one table of exports is the one that the directory of exports leads to. -/
theorem eq_of_mem_exportTables (ht : t ∈ image.exportTables options) :
    ∃ directory, image.headers.exportDirectory? = some directory ∧
      t = ⟨Exports.tableName, Exports.read image.view image.sections directory image.headers.optional options⟩ := by
  unfold exportTables at ht
  cases hd : image.headers.exportDirectory? with
  | none =>
    rw [hd] at ht
    cases ht
  | some directory =>
    rw [hd] at ht
    dsimp only at ht
    split at ht
    · exact ⟨directory, rfl, List.mem_singleton.1 ht⟩
    · cases ht

/-- Every symbol table of a PE image is contained. -/
theorem contained_of_mem_symbolTables (ht : t ∈ image.symbolTables options) : t.Contained := by
  rcases List.mem_append.1 ht with ht | ht
  · rw [eq_of_mem_coffTables ht]
    exact CoffSymbols.contained_read
  · obtain ⟨directory, -, rfl⟩ := eq_of_mem_exportTables ht
    exact Exports.contained_read

end Image

end ExecImage.Pe
