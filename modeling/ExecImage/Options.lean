/-!
# Load options

The limits that keep a hostile image from taking too much, and the switches that choose which symbols are read. A limit on
sections or bytes stops a load; a limit on symbols shortens a table.
-/

namespace ExecImage

/-- Limits and switches of a load. -/
structure Options where
  /-- The most section headers that a table may declare. -/
  maxSections : UInt64 := 65536
  /-- The most entries that are read of one symbol table. -/
  maxSymbolsPerTable : UInt64 := 1000000
  /-- The most named exports that are read. -/
  maxExports : UInt64 := 10000
  /-- The most bytes that are copied for one section. -/
  maxSectionBytes : UInt64 := 1073741824
  /-- Keep the function symbols of an ELF table that the image does not define itself. -/
  includeUndefinedSymbols : Bool := true
  /-- Read the COFF symbol table of a PE image. -/
  coffSymbols : Bool := true
  deriving DecidableEq, Repr

instance : Inhabited Options := ⟨{}⟩

end ExecImage
