import ExecImage.Binary
import ExecImage.View

/-!
# Recognising a format

An image is told by its magic bytes. ELF images start with `7F` and `ELF`. PE images start with `MZ`, and the four bytes at the
offset stored at `3C` are `PE` and two zeros. A caller may leave the choice to the magic bytes or ask for a format, and then
an image of another format is refused.
-/

namespace ExecImage

namespace Elf

/-- The bytes that an ELF image starts with. -/
def magic : List UInt8 := [0x7F, 0x45, 0x4C, 0x46]

end Elf

namespace Pe

/-- The bytes that a PE image starts with. -/
def dosMagic : List UInt8 := [0x4D, 0x5A]

/-- Where a PE image stores the offset of its signature. -/
def signaturePointer : Nat := 0x3C

/-- The signature before the headers of a PE image. -/
def signature : List UInt8 := [0x50, 0x45, 0, 0]

/-- The image starts as a PE image does, and points to a signature. -/
def isSigned (v : View) : Bool :=
  v.startsWith 0 dosMagic &&
    match v.word32 signaturePointer .little with
    | .ok offset => v.startsWith offset.toNat signature
    | .error _ => false

end Pe

/-- The format that an image's magic bytes tell. -/
def sniff (v : View) : Format :=
  if v.startsWith 0 Elf.magic then .elf
  else if Pe.isSigned v then .pe
  else .unrecognized

/-- Which format a caller expects. -/
inductive FormatHint where
  /-- Whichever the magic bytes tell. -/
  | auto
  | elf
  | pe
  deriving DecidableEq, Repr, Inhabited

namespace FormatHint

/-- A hint as it is named in messages. -/
def name : FormatHint → String
  | .auto => "auto"
  | .elf => "ELF"
  | .pe => "PE"

/-- The format to load an image as. -/
def select (hint : FormatHint) (v : View) : Except LoadError Format :=
  match hint, sniff v with
  | .auto, .unrecognized => .error .unsupportedFormat
  | .auto, found => .ok found
  | .elf, .elf => .ok .elf
  | .pe, .pe => .ok .pe
  | hint, found => .error (.formatMismatch hint.name found.name)

end FormatHint

end ExecImage
