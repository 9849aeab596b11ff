import ExecImage.Bytes
import ExecImage.Text

/-!
# Sections

A section is a named range of addresses that holds code or data, with the bytes that the file provides for it. The file may
provide fewer bytes than the range has addresses; the rest is filled with zeros when the image is run.
-/

namespace ExecImage

/-- What a section holds. -/
inductive SectionKind where
  /-- Executable contents. -/
  | code
  /-- Contents that can be written and not executed. -/
  | data
  deriving DecidableEq, Repr, Inhabited

namespace SectionKind

/-- What a section with these permissions holds: a section that can be executed is code even if it can be written too,
and one that can be neither executed nor written is not loaded. -/
def classify (executable writable : Bool) : Option SectionKind :=
  if executable then some .code
  else if writable then some .data
  else none

/-- A kind as it is shown in listings. -/
def label : SectionKind → String
  | .code => "CODE"
  | .data => "DATA"

end SectionKind

/-- A loaded section. -/
structure Section where
  /-- The label of the image that the section belongs to. -/
  binary : String
  /-- The name, which is never empty in a loaded image. -/
  name : String
  /-- Code or data. -/
  kind : SectionKind
  /-- The first address. -/
  vma : UInt64
  /-- The number of addresses. -/
  size : UInt64
  /-- Where the bytes start in the file. -/
  fileOffset : UInt64
  /-- The flags as the file gives them. -/
  flags : UInt64
  /-- The bytes that the file provides, from the first address on. -/
  bytes : Bytes
  deriving DecidableEq, Inhabited

namespace Section

/-- The name given to a section that has none. -/
def unnamed : String := "<unnamed>"

/-- The name of the main section of code. -/
def textName : String := ".text"

/-- The name under which a section is loaded. -/
def displayName (name : String) : String :=
  if name = "" then unnamed else name

/-- The address after the last one, or the largest address if there is none after it. -/
def stop (s : Section) : UInt64 :=
  UInt64.ofNat (min (s.vma.toNat + s.size.toNat) (UInt64.size - 1))

/-- The address lies in the section. -/
def Contains (s : Section) (addr : UInt64) : Prop :=
  s.vma.toNat ≤ addr.toNat ∧ addr.toNat - s.vma.toNat < s.size.toNat

instance (s : Section) (addr : UInt64) : Decidable (s.Contains addr) :=
  inferInstanceAs (Decidable (_ ∧ _))

/-- The section holds code. -/
def isCode (s : Section) : Bool :=
  s.kind = .code

/-- The section holds data. -/
def isData (s : Section) : Bool :=
  s.kind = .data

/-- The bytes from an address of the section on, if the file reaches that far. An address just after the last byte that
the file provides gives no bytes, but still an answer. -/
def bytesAt? (s : Section) (addr : UInt64) : Option Bytes :=
  let start := addr.toNat - s.vma.toNat
  if s.Contains addr ∧ start ≤ s.bytes.size then some (s.bytes.extract start s.bytes.size)
  else none

/-- The section as a line of a listing. -/
def line (s : Section) : String :=
  s!"{Text.hexAddress s.vma.toNat} {Text.column 8 (toString s.size)} {Text.column 20 s.name} {s.kind.label}"

end Section

end ExecImage
