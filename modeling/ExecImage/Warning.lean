import ExecImage.Error

/-!
# Warnings and load events

Trouble in a symbol table does not stop a load. What an entry lacks is a `Notice`, reported the moment it is found. A
table that is read to its end keeps its notices as warnings; a table that fails is skipped, and its error becomes one warning.
The log of a load holds an event for every notice, kept or not, and one for every table that was skipped.
-/

namespace ExecImage

open Text

/-- Trouble met while a symbol table is read, none of which stops the reading. -/
inductive Notice where
  /-- An ELF table has more entries than are read. -/
  | entriesTruncated (count limit : Nat)
  /-- A COFF table has more records than are read. -/
  | recordsTruncated (count limit : Nat)
  /-- More exports are named than are read. -/
  | exportsTruncated (count limit : Nat)
  /-- The name of an entry is not inside the string table. -/
  | symbolName (index offset : Nat)
  /-- The section that a record names does not exist. -/
  | symbolSection (index number : Nat)
  /-- The place of an export in the address table does not exist. -/
  | exportOrdinal (index ordinal : Nat)
  /-- The name of an export has no bytes in the file. -/
  | exportName (index rva : Nat)
  deriving DecidableEq, Repr

namespace Notice

/-- The text of a notice. -/
def message : Notice → String
  | entriesTruncated count limit => s!"{count} entries truncated to {limit}"
  | recordsTruncated count limit => s!"{count} records truncated to {limit}"
  | exportsTruncated count limit => s!"{count} named exports truncated to {limit}"
  | symbolName index offset => s!"symbol {index}: name offset {hex offset} outside string table"
  | symbolSection index number => s!"symbol {index}: section number {number} out of range"
  | exportOrdinal index ordinal => s!"export {index}: ordinal index {ordinal} out of range"
  | exportName index rva => s!"export {index}: name RVA {hex rva} not readable"

end Notice

/-- Trouble that did not stop a load. -/
structure Warning where
  /-- The table that the trouble is in. -/
  table : String
  /-- What the trouble is. -/
  message : String
  deriving DecidableEq, Repr, Inhabited

namespace Warning

/-- The warning that stands for a failed table: a fault of a symbol table keeps the table it names, any other error is
laid to the table given. -/
def ofError (table : String) : LoadError → Warning
  | .symbolTable own fault => ⟨own, fault.message⟩
  | error => ⟨table, error.message⟩

/-- The warning as a line of a listing. -/
def line (w : Warning) : String :=
  s!"{w.table}: {w.message}"

end Warning

/-- An entry of the log of a load. -/
inductive Event where
  /-- Trouble was met while a table was read. -/
  | noticed (warning : Warning)
  /-- A table was left out because of an error. -/
  | skipped (table : String) (error : LoadError)
  deriving DecidableEq, Repr

namespace Event

/-- The fields of an event by name. -/
def fields : Event → List (String × String)
  | .noticed w => [("level", "WARN"), ("table", w.table), ("message", w.message)]
  | .skipped table error =>
    [("level", "WARN"), ("table", table), ("error", error.message), ("message", "symbol table skipped")]

/-- The warning that an event gives rise to if its table is kept or skipped as the event says. -/
def warning : Event → Warning
  | .noticed w => w
  | .skipped table error => .ofError table error

end Event

end ExecImage
