import ExecImage.Bytes
import ExecImage.Section
import ExecImage.Symbol
import ExecImage.Warning

/-!
# Loaded binaries and queries on them

A `Binary` is what a load gives: the format and the architecture, the entry point, the sections, the function symbols and the
trouble met with them. Queries answer with indexes into the lists of sections and symbols; of several that match, the
first one answers.
-/

namespace ExecImage

/-- The format of an image. -/
inductive Format where
  | elf
  | pe
  /-- Neither of the supported formats. -/
  | unrecognized
  deriving DecidableEq, Repr, Inhabited

namespace Format

/-- A format as it is named in messages. -/
def name : Format → String
  | .elf => "ELF"
  | .pe => "PE"
  | .unrecognized => "Unrecognized"

end Format

/-- The processor family of an image. -/
inductive Arch where
  /-- 32-bit or 64-bit x86; the number of bits is told apart by `Binary.bits`. -/
  | x86
  deriving DecidableEq, Repr, Inhabited

namespace Arch

/-- A family as it is named in reports. -/
def name : Arch → String
  | .x86 => "x86"

end Arch

/-- A loaded executable image. -/
structure Binary where
  /-- The label that the caller gave the image. -/
  source : String
  /-- The format. -/
  format : Format
  /-- The name of the target, such as `elf64-x86-64`. -/
  formatName : String
  /-- The processor family. -/
  arch : Arch
  /-- The name of the architecture, such as `i386:x86-64`. -/
  archName : String
  /-- The width of an address, 32 or 64 in a loaded image. -/
  bits : UInt8
  /-- The byte order of the image. -/
  endianness : Endianness
  /-- The address at which the image is entered. -/
  entry : UInt64
  /-- The sections of code and data, in the order of the image's table. -/
  sections : List Section
  /-- The function symbols. -/
  symbols : List Symbol
  /-- The trouble met with symbol tables. -/
  warnings : List Warning
  deriving DecidableEq, Inhabited

namespace Binary

/-- The first section that contains an address. -/
def sectionAt? (b : Binary) (addr : UInt64) : Option Nat :=
  b.sections.findIdx? fun s => s.Contains addr

/-- The first section of a name. -/
def sectionByName? (b : Binary) (name : String) : Option Nat :=
  b.sections.findIdx? fun s => s.name == name

/-- The main section of code. -/
def textSection? (b : Binary) : Option Nat :=
  b.sectionByName? Section.textName

/-- The first section that contains the entry address. -/
def entrySection? (b : Binary) : Option Nat :=
  b.sectionAt? b.entry

/-- The indexes of the elements of a list that satisfy a test, in order. -/
def indexesWhere {α : Type} (p : α → Bool) (xs : List α) : List Nat :=
  (xs.zipIdx.filter fun (x, _) => p x).map Prod.snd

/-- The sections of a kind. -/
def sectionsOfKind (b : Binary) (kind : SectionKind) : List Nat :=
  indexesWhere (fun s => decide (s.kind = kind)) b.sections

/-- The first symbol of a name. -/
def symbolByName? (b : Binary) (name : String) : Option Nat :=
  b.symbols.findIdx? fun s => s.name == name

/-- The symbols whose addresses lie in a section. -/
def functionsIn (b : Binary) (s : Section) : List Nat :=
  indexesWhere (fun sym => decide (s.Contains sym.addr)) b.symbols

/-- The image has 64-bit addresses. -/
def is64Bit (b : Binary) : Bool :=
  b.bits == 64

/-- Trouble was met while the image was loaded. -/
def hasWarnings (b : Binary) : Bool :=
  !b.warnings.isEmpty

/-- The image and all its sections bear a label. -/
def IsLabelled (b : Binary) (label : String) : Prop :=
  b.source = label ∧ ∀ s ∈ b.sections, s.binary = label

instance (b : Binary) (label : String) : Decidable (b.IsLabelled label) :=
  inferInstanceAs (Decidable (_ ∧ _))

/-- The image in one line. -/
def line (b : Binary) : String :=
  s!"{b.source} ({b.formatName}/{b.archName}, {b.bits}-bit, entry {Text.hex b.entry.toNat}, " ++
    s!"{b.sections.length} sections, {b.symbols.length} symbols)"

end Binary

end ExecImage
