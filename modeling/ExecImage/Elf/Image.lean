import ExecImage.Elf.SymbolTable

/-!
# ELF images

An image is read in three steps: its header, its section table, and, when it is loaded, its sections and its symbol tables.
Static symbol tables come before dynamic ones.
-/

namespace ExecImage.Elf

/-- An image of which the headers have been read. -/
structure Image where
  /-- The file header. -/
  header : Header
  /-- The sections. -/
  sections : SectionTable
  deriving DecidableEq, Inhabited

namespace Image

/-- Reads the headers of an image for a supported machine. -/
def read (v : View) (options : Options) : Except LoadError Image := do
  let header ← Header.read v
  if header.isSupported then
    return { header, sections := ← SectionTable.read v header options }
  else
    throw (.unsupportedArchitecture Format.elf.name header.machine)

/-- The label of the symbol table at an index: the section's name, or the usual one for the kind of table that is asked for
if the section has none. -/
def tableLabel (image : Image) (index : Nat) (source : SymbolSource) : String :=
  let name := image.sections.name index
  if name = "" then
    if source = .dynamic then ".dynsym" else ".symtab"
  else name

/-- Reads the tables of a type. -/
def tablesOfType (image : Image) (options : Options) (type : UInt32) (source : SymbolSource) : List LabelledTable :=
  (image.sections.indexesOfType type).map fun index =>
    ⟨image.tableLabel index source, SymbolTable.read image.sections index image.header.order source options⟩

/-- Reads the symbol tables, static ones first. -/
def symbolTables (image : Image) (options : Options) : List LabelledTable :=
  image.tablesOfType options SectionHeader.typeSymtab .static ++
    image.tablesOfType options SectionHeader.typeDynsym .dynamic

/-- The image as a binary, given its sections and its symbols. -/
def binary (image : Image) (source : String) (sections : List Section) (symbols : MergedSymbols) : Binary :=
  { source
    format := .elf
    formatName := image.header.formatName
    arch := .x86
    archName := image.header.archName
    bits := image.header.width.bits
    endianness := image.header.order
    entry := image.header.entry
    sections
    symbols := symbols.symbols
    warnings := symbols.warnings }

end Image

end ExecImage.Elf
