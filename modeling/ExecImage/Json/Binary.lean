import ExecImage.Binary
import ExecImage.Json.Value

/-!
# Binaries as JSON

A loaded image is stored as a JSON object with a member for every field, in the order of the fields. The bytes of sections
are not stored. On the way back every field must be there once; members of other names are passed over.
-/

namespace ExecImage

namespace Format

/-- The name of a format in stored images. -/
def key : Format → String
  | .elf => "Elf"
  | .pe => "Pe"
  | .unrecognized => "Unrecognized"

/-- Reads a format. -/
def ofJson? (j : Json) : Option Format :=
  j.choice?.bind fun s => [Format.elf, .pe, .unrecognized].find? fun f => f.key == s

end Format

namespace Arch

/-- The name of a processor family in stored images. -/
def key : Arch → String
  | .x86 => "X86"

/-- Reads a processor family. -/
def ofJson? (j : Json) : Option Arch :=
  j.choice?.bind fun s => [Arch.x86].find? fun a => a.key == s

end Arch

namespace Endianness

/-- Reads a byte order. -/
def ofJson? (j : Json) : Option Endianness :=
  j.choice?.bind fun s => [Endianness.little, .big].find? fun e => e.name == s

end Endianness

namespace SectionKind

/-- The name of a kind of section in stored images. -/
def key : SectionKind → String
  | .code => "Code"
  | .data => "Data"

/-- Reads a kind of section. -/
def ofJson? (j : Json) : Option SectionKind :=
  j.choice?.bind fun s => [SectionKind.code, .data].find? fun k => k.key == s

end SectionKind

namespace SymbolKind

/-- The name of a kind of symbol in stored images. -/
def key : SymbolKind → String
  | .function => "Function"
  | .unknown => "Unknown"

/-- Reads a kind of symbol. -/
def ofJson? (j : Json) : Option SymbolKind :=
  j.choice?.bind fun s => [SymbolKind.function, .unknown].find? fun k => k.key == s

end SymbolKind

namespace SymbolSource

/-- The name of a source of symbols in stored images. -/
def key : SymbolSource → String
  | .static => "Static"
  | .dynamic => "Dynamic"
  | .exported => "Export"

/-- Reads a source of symbols. -/
def ofJson? (j : Json) : Option SymbolSource :=
  j.choice?.bind fun s => [SymbolSource.static, .dynamic, .exported].find? fun k => k.key == s

end SymbolSource

/-- The number of a word. -/
def Json.ofUInt64 (n : UInt64) : Json :=
  .natural n.toNat

namespace Section

/-- The names of the stored fields of a section. -/
def fieldNames : List String :=
  ["binary", "name", "kind", "vma", "size", "file_offset", "flags"]

/-- A section as it is stored. -/
def toJson (s : Section) : Json :=
  .ofMembers (fieldNames.zip
    [.ofString s.binary, .ofString s.name, .ofString s.kind.key, .ofUInt64 s.vma, .ofUInt64 s.size,
      .ofUInt64 s.fileOffset, .ofUInt64 s.flags])

/-- Reads a stored section, which has no bytes. -/
def ofJson? (j : Json) : Option Section := do
  match ← j.fields? fieldNames with
  | [some binary, some name, some kind, some vma, some size, some fileOffset, some flags] =>
    return {
      binary := ← binary.string?
      name := ← name.string?
      kind := ← SectionKind.ofJson? kind
      vma := ← vma.uint64?
      size := ← size.uint64?
      fileOffset := ← fileOffset.uint64?
      flags := ← flags.uint64?
      bytes := #[] }
  | _ => none

end Section

namespace Symbol

/-- The names of the fields of a symbol. -/
def fieldNames : List String :=
  ["kind", "name", "addr", "source"]

/-- A symbol as it is stored. -/
def toJson (s : Symbol) : Json :=
  .ofMembers (fieldNames.zip
    [.ofString s.kind.key, .ofString s.name, .ofUInt64 s.addr, .ofString s.source.key])

/-- Reads a stored symbol. -/
def ofJson? (j : Json) : Option Symbol := do
  match ← j.fields? fieldNames with
  | [some kind, some name, some addr, some source] =>
    return {
      kind := ← SymbolKind.ofJson? kind
      name := ← name.string?
      addr := ← addr.uint64?
      source := ← SymbolSource.ofJson? source }
  | _ => none

end Symbol

namespace Warning

/-- The names of the fields of a warning. -/
def fieldNames : List String :=
  ["table", "message"]

/-- A warning as it is stored. -/
def toJson (w : Warning) : Json :=
  .ofMembers (fieldNames.zip [.ofString w.table, .ofString w.message])

/-- Reads a stored warning. -/
def ofJson? (j : Json) : Option Warning := do
  match ← j.fields? fieldNames with
  | [some table, some message] => return { table := ← table.string?, message := ← message.string? }
  | _ => none

end Warning

namespace Binary

/-- The names of the fields of an image. -/
def fieldNames : List String :=
  ["source", "format", "format_name", "arch", "arch_name", "bits", "endianness", "entry", "sections", "symbols",
    "warnings"]

/-- An image as it is stored. -/
def toJson (b : Binary) : Json :=
  .ofMembers (fieldNames.zip
    [.ofString b.source, .ofString b.format.key, .ofString b.formatName, .ofString b.arch.key, .ofString b.archName,
      .natural b.bits.toNat, .ofString b.endianness.name, .ofUInt64 b.entry, .array (b.sections.map Section.toJson),
      .array (b.symbols.map Symbol.toJson), .array (b.warnings.map Warning.toJson)])

/-- Reads a stored image. -/
def ofJson? (j : Json) : Option Binary := do
  match ← j.fields? fieldNames with
  | [some source, some format, some formatName, some arch, some archName, some bits, some endianness, some entry,
      some sections, some symbols, some warnings] =>
    return {
      source := ← source.string?
      format := ← Format.ofJson? format
      formatName := ← formatName.string?
      arch := ← Arch.ofJson? arch
      archName := ← archName.string?
      bits := ← bits.uint8?
      endianness := ← Endianness.ofJson? endianness
      entry := ← entry.uint64?
      sections := ← sections.list? Section.ofJson?
      symbols := ← symbols.list? Symbol.ofJson?
      warnings := ← warnings.list? Warning.ofJson? }
  | _ => none

/-- An image as a JSON document. -/
def serialize (b : Binary) : String :=
  b.toJson.compact

/-- Reads an image from a JSON document. -/
def deserialize? (s : String) : Option Binary :=
  (Json.parse? s).bind ofJson?

end Binary

end ExecImage
