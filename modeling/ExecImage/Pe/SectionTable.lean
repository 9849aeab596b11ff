import ExecImage.Options
import ExecImage.Pe.StringTable

/-!
# The PE section table

A section is mapped at a relative address; its raw data are a range of the file. The number of addresses is the
virtual size, or the raw size if the virtual size is zero, and of the raw data only what is mapped is copied. A relative
address is found in the file through the first section that holds it, if that section's raw data reach it.

Loading takes the headers in order and keeps those of code and data. It fails at the first kept section whose addresses
do not fit the address space, whose raw data are not in the file, or whose bytes are more than may be copied.
-/

namespace ExecImage.Pe

/-- A section header. -/
structure SectionHeader where
  /-- The eight bytes of the name, padded with zeros. -/
  nameField : Bytes
  /-- The number of addresses; zero if the raw size says it. -/
  virtualSize : UInt32
  /-- The first address, relative to the image base. -/
  virtualAddress : UInt32
  /-- The number of bytes in the file. -/
  rawSize : UInt32
  /-- Where the bytes start in the file. -/
  rawPointer : UInt32
  /-- The permissions and other flags. -/
  characteristics : UInt32
  deriving DecidableEq, Repr, Inhabited

namespace SectionHeader

/-- The size of a section header. -/
def size : Nat := 40

/-- The bytes of the name up to the first zero. -/
def rawName (h : SectionHeader) : List UInt8 :=
  h.nameField.toList.takeWhile (· != 0)

/-- The section holds code or can be executed. -/
def isExecutable (h : SectionHeader) : Bool :=
  h.characteristics &&& 0x20000020 != 0

/-- The section can be written. -/
def isWritable (h : SectionHeader) : Bool :=
  h.characteristics &&& 0x80000000 != 0

/-- What the section holds, if it is loaded. -/
def kind? (h : SectionHeader) : Option SectionKind :=
  SectionKind.classify h.isExecutable h.isWritable

/-- The number of addresses. -/
def mappedSize (h : SectionHeader) : UInt32 :=
  if h.virtualSize = 0 then h.rawSize else h.virtualSize

/-- The section holds a relative address, in its addresses or in its raw data. -/
def Holds (h : SectionHeader) (rva : UInt32) : Prop :=
  h.virtualAddress.toNat ≤ rva.toNat ∧
    rva.toNat - h.virtualAddress.toNat < max h.virtualSize.toNat h.rawSize.toNat

instance (h : SectionHeader) (rva : UInt32) : Decidable (h.Holds rva) :=
  inferInstanceAs (Decidable (_ ∧ _))

/-- Where the raw data of a relative address lie in the file, if they reach it. -/
def fileOffset? (h : SectionHeader) (rva : UInt32) : Option Nat :=
  let delta := rva.toNat - h.virtualAddress.toNat
  if delta < h.rawSize.toNat then some (h.rawPointer.toNat + delta) else none

/-- Reads a section header. -/
def read (v : View) (offset : Nat) : Except LoadError SectionHeader := do
  return {
    nameField := ← v.slice offset 8
    virtualSize := ← v.word32 (offset + 8) .little
    virtualAddress := ← v.word32 (offset + 12) .little
    rawSize := ← v.word32 (offset + 16) .little
    rawPointer := ← v.word32 (offset + 20) .little
    characteristics := ← v.word32 (offset + 36) .little }

end SectionHeader

/-- The value of a byte that is an ASCII decimal digit. -/
def digitValue? (b : UInt8) : Option Nat :=
  if 0x30 ≤ b ∧ b ≤ 0x39 then some (b.toNat - 0x30) else none

/-- The number that bytes write in decimal digits, with the digits read before them. -/
def decimalFrom? : Nat → List UInt8 → Option Nat
  | n, [] => some n
  | n, b :: bs => (digitValue? b).bind fun d => decimalFrom? (n * 10 + d) bs

/-- The number that bytes write in one or more decimal digits, after a plus sign or none. -/
def decimal? (bs : List UInt8) : Option Nat :=
  let digits := if bs.head? = some 0x2B then bs.tail else bs
  if digits.isEmpty then none else decimalFrom? 0 digits

/-- A name as it stands in a section header, and the offset of the string that stands for it if it is a slash and a
number. -/
def longNameOffset? (rawName : List UInt8) : Option Nat :=
  match rawName with
  | 0x2F :: digits => decimal? digits
  | _ => none

/-- The string that stands for a name in a section header, if it is a slash and the offset of a string. -/
def longName? (rawName : List UInt8) (strings : Option StringTable) : Option String :=
  match longNameOffset? rawName, strings with
  | some offset, some t =>
    match t.get offset with
    | .ok name => some name
    | .error _ => none
  | _, _ => none

/-- The name of a section: the string that stands for it, or else the name as it stands in the header. -/
def resolveName (h : SectionHeader) (strings : Option StringTable) : String :=
  (longName? h.rawName strings).getD (Utf8.decode h.rawName)

/-- A section header with its name. -/
structure NamedHeader where
  /-- The header. -/
  header : SectionHeader
  /-- The name. -/
  name : String
  deriving DecidableEq, Repr, Inhabited

/-- The sections of an image, in the order of its table. -/
structure SectionTable where
  /-- The headers. -/
  entries : List NamedHeader
  deriving DecidableEq, Repr, Inhabited

namespace SectionTable

/-- The name under which faults of the table itself are reported. -/
def tableName : String := "<section table>"

/-- Reads the section headers and their names. -/
def read (v : View) (offset : Nat) (count : UInt16) (strings : Option StringTable) (options : Options) :
    Except LoadError SectionTable := do
  if options.maxSections.toNat < count.toNat then
    throw (.corruptSection tableName (.sectionCount count.toNat options.maxSections.toNat))
  else
    let table ← v.sub offset (count.toNat * SectionHeader.size)
    let headers ← (List.range count.toNat).mapM fun i => SectionHeader.read table (i * SectionHeader.size)
    return { entries := headers.map fun h => ⟨h, resolveName h strings⟩ }

/-- The number of sections. -/
def count (t : SectionTable) : Nat :=
  t.entries.length

/-- The header at an index. -/
def header? (t : SectionTable) (index : Nat) : Option SectionHeader :=
  t.entries[index]?.map NamedHeader.header

/-- The first section that holds a relative address. -/
def holder? (t : SectionTable) (rva : UInt32) : Option SectionHeader :=
  (t.entries.map NamedHeader.header).find? fun h => h.Holds rva

/-- Where a relative address lies in the file. -/
def fileOffset? (t : SectionTable) (rva : UInt32) : Option Nat :=
  (t.holder? rva).bind fun h => h.fileOffset? rva

/-- The bytes that are copied for a section under a name. All raw data must be in the file, though only what is mapped is
copied and counted against the limit. -/
def copy (v : View) (name : String) (h : SectionHeader) (options : Options) : Except LoadError Bytes :=
  if h.rawSize = 0 then .ok #[]
  else if ¬ v.Covers h.rawPointer.toNat h.rawSize.toNat then
    .error (.corruptSection name (.rawDataOutside h.rawPointer.toNat h.rawSize.toNat v.size))
  else
    let len := min h.rawSize.toNat h.mappedSize.toNat
    if options.maxSectionBytes.toNat < len then .error (.outOfMemory len)
    else v.slice h.rawPointer.toNat len

/-- Loads one section, or passes over it. -/
def loadEntry (v : View) (imageBase : UInt64) (width : Width) (source : String) (options : Options) (e : NamedHeader) :
    Except LoadError (Option Section) :=
  let h := e.header
  match h.kind? with
  | none => .ok none
  | some kind => do
    let name := Section.displayName e.name
    let size := h.mappedSize.toUInt64
    if width.Fits (imageBase.toNat + h.virtualAddress.toNat) size.toNat then
      let bytes ← copy v name h options
      return some {
        binary := source, name, kind, vma := imageBase + h.virtualAddress.toUInt64, size
        fileOffset := h.rawPointer.toUInt64, flags := h.characteristics.toUInt64, bytes }
    else
      throw (.corruptSection name (.relativeRange h.virtualAddress.toNat size.toNat width.bits))

/-- Loads the sections of code and data. -/
def load (t : SectionTable) (v : View) (imageBase : UInt64) (width : Width) (source : String) (options : Options) :
    Except LoadError (List Section) :=
  (t.entries.mapM (loadEntry v imageBase width source options)).map fun loaded => loaded.filterMap id

end SectionTable

end ExecImage.Pe
