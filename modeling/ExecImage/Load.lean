import ExecImage.Elf.Image
import ExecImage.Pe.Image

/-!
# Loading an image

A load chooses the format, reads the headers and the section table, loads the sections, and reads the symbol tables, in
this order. Every step but the last can fail the load. The symbol tables cannot: a table that fails is left out, and a
warning takes its place.
-/

namespace ExecImage

/-- The label of an image that the caller gave none. -/
def defaultSource : String := "<memory>"

/-- A loaded image with the log of its load. -/
structure Loaded where
  /-- The image. -/
  binary : Binary
  /-- The events of the load, in order. -/
  events : List Event
  deriving DecidableEq, Inhabited

namespace Elf.Image

/-- Loads the sections and the symbols of an image. -/
def load (image : Image) (source : String) (options : Options) : Except LoadError Loaded := do
  let sections ← image.sections.load source options
  let tables := image.symbolTables options
  return {
    binary := image.binary source sections (merge (tables.map LabelledTable.outcome))
    events := tableEvents tables }

end Elf.Image

namespace Pe.Image

/-- Loads the sections and the symbols of an image. -/
def load (image : Image) (source : String) (options : Options) : Except LoadError Loaded := do
  let sections ← image.loadSections source options
  let tables := image.symbolTables options
  return {
    binary := image.binary source sections (merge (tables.map LabelledTable.outcome))
    events := tableEvents tables }

end Pe.Image

/-- Loads an image under a label, with the log of the load. -/
def loadLogged (v : View) (source : String) (hint : FormatHint) (options : Options) : Except LoadError Loaded := do
  match ← hint.select v with
  | .elf => (← Elf.Image.read v options).load source options
  | .pe => (← Pe.Image.read v options).load source options
  | .unrecognized => throw .unsupportedFormat

/-- Loads an image under a label. -/
def load (v : View) (source : String) (hint : FormatHint) (options : Options) : Except LoadError Binary :=
  (loadLogged v source hint options).map Loaded.binary

end ExecImage
