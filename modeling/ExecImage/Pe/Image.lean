import ExecImage.Pe.CoffSymbols
import ExecImage.Pe.Exports

/-!
# PE images

An image is read in three steps: its headers, its section table, and, when it is loaded, its sections and its symbols. The
COFF symbol table comes before the exports.
-/

namespace ExecImage.Pe

/-- An image of which the headers have been read. -/
structure Image where
  /-- The whole file. -/
  view : View
  /-- The headers. -/
  headers : Headers
  /-- The COFF string table. -/
  strings : Option StringTable
  /-- The sections. -/
  sections : SectionTable
  deriving DecidableEq, Inhabited

namespace Image

/-- Reads the headers of an image for a supported machine. -/
def read (v : View) (options : Options) : Except LoadError Image := do
  let headers ← Headers.read v
  let file := headers.file
  if file.isSupported then
    let strings := StringTable.locate? v file.symbolPointer file.symbolCount
    let sections ← SectionTable.read v headers.sectionTableOffset file.sectionCount strings options
    return { view := v, headers, strings, sections }
  else
    throw (.unsupportedArchitecture Format.pe.name file.machine)

/-- Reads the COFF symbol table, if there is one and it is asked for. -/
def coffTables (image : Image) (options : Options) : List LabelledTable :=
  let file := image.headers.file
  if options.coffSymbols && file.symbolPointer != 0 && file.symbolCount != 0 then
    [⟨coffName, CoffSymbols.read image.view file image.strings image.sections image.headers.optional options⟩]
  else []

/-- Reads the exports, if there are any. -/
def exportTables (image : Image) (options : Options) : List LabelledTable :=
  match image.headers.exportDirectory? with
  | none => []
  | some directory =>
    if directory.isPresent then
      [⟨Exports.tableName, Exports.read image.view image.sections directory image.headers.optional options⟩]
    else []

/-- Reads the symbol tables, the COFF symbol table first. -/
def symbolTables (image : Image) (options : Options) : List LabelledTable :=
  image.coffTables options ++ image.exportTables options

/-- Loads the sections of code and data. -/
def loadSections (image : Image) (source : String) (options : Options) : Except LoadError (List Section) :=
  image.sections.load image.view image.headers.optional.imageBase image.headers.optional.width source options

/-- The image as a binary, given its sections and its symbols. -/
def binary (image : Image) (source : String) (sections : List Section) (symbols : MergedSymbols) : Binary :=
  { source
    format := .pe
    formatName := image.headers.file.formatName
    arch := .x86
    archName := image.headers.file.archName
    bits := image.headers.optional.width.bits
    endianness := .little
    entry := image.headers.optional.entry
    sections
    symbols := symbols.symbols
    warnings := symbols.warnings }

end Image

end ExecImage.Pe
