import ExecImage.Json.Value
import ExecImage.Options

/-!
# Load options as JSON

Options are stored as a JSON object with a line for every field. On the way back a field that is missing has its usual
value; a field that is there must have a value of its type, and must be there once.
-/

namespace ExecImage.Options

/-- The names of the fields, in order. -/
def fieldNames : List String :=
  ["max_sections", "max_symbols_per_table", "max_exports", "max_section_bytes", "include_undefined_symbols",
    "coff_symbols"]

/-- The values of the fields, in order. -/
def fieldValues (o : Options) : List Json :=
  [.natural o.maxSections.toNat, .natural o.maxSymbolsPerTable.toNat, .natural o.maxExports.toNat,
    .natural o.maxSectionBytes.toNat, .bool o.includeUndefinedSymbols, .bool o.coffSymbols]

/-- Options as a JSON document. -/
def serialize (o : Options) : String :=
  Json.indented (fieldNames.zip o.fieldValues)

/-- Reads a field, or takes its usual value. -/
def fieldOr {α : Type} (usual : α) (read? : Json → Option α) : Option Json → Option α
  | none => some usual
  | some j => read? j

/-- Reads options. -/
def ofJson? (j : Json) : Option Options := do
  let usual : Options := {}
  match ← j.fields? fieldNames with
  | [maxSections, maxSymbolsPerTable, maxExports, maxSectionBytes, includeUndefinedSymbols, coffSymbols] =>
    return {
      maxSections := ← fieldOr usual.maxSections Json.uint64? maxSections
      maxSymbolsPerTable := ← fieldOr usual.maxSymbolsPerTable Json.uint64? maxSymbolsPerTable
      maxExports := ← fieldOr usual.maxExports Json.uint64? maxExports
      maxSectionBytes := ← fieldOr usual.maxSectionBytes Json.uint64? maxSectionBytes
      includeUndefinedSymbols := ← fieldOr usual.includeUndefinedSymbols Json.bool? includeUndefinedSymbols
      coffSymbols := ← fieldOr usual.coffSymbols Json.bool? coffSymbols }
  | _ => none

/-- Reads options from a JSON document. -/
def deserialize? (s : String) : Option Options :=
  (Json.parse? s).bind ofJson?

end ExecImage.Options
