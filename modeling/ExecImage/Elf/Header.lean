import ExecImage.Sniff

/-!
# The ELF file header

The first sixteen bytes of an ELF image say how wide its addresses are and in which byte order its fields are. The rest of
the header follows, at offsets that depend on the width. Of its fields those are read that lead to the section headers and
name the machine and the entry address.
-/

namespace ExecImage.Elf

/-- The class of an image, which fixes the layout of its tables. -/
inductive Class where
  | elf32
  | elf64
  deriving DecidableEq, Repr, Inhabited

namespace Class

/-- The class that the fifth byte of an image names. -/
def ofByte (b : UInt8) : Except LoadError Class :=
  if b = 1 then .ok .elf32
  else if b = 2 then .ok .elf64
  else .error .unsupportedFormat

/-- The width of addresses. -/
def width : Class → Width
  | .elf32 => .w32
  | .elf64 => .w64

/-- The size of the file header. -/
def headerSize : Class → Nat
  | .elf32 => 52
  | .elf64 => 64

/-- The size of a section header. -/
def sectionHeaderSize : Class → Nat
  | .elf32 => 40
  | .elf64 => 64

/-- The size of an entry of a symbol table. -/
def symbolSize : Class → Nat
  | .elf32 => 16
  | .elf64 => 24

/-- A class as it is named in reports. -/
def name : Class → String
  | .elf32 => "Elf32"
  | .elf64 => "Elf64"

end Class

/-- The byte order that the sixth byte of an image names. -/
def orderOfByte (b : UInt8) : Except LoadError Endianness :=
  if b = 1 then .ok .little
  else if b = 2 then .ok .big
  else .error .unsupportedFormat

/-- What the first sixteen bytes of an image say. -/
structure Ident where
  /-- The class. -/
  cls : Class
  /-- The byte order of every field after these bytes. -/
  order : Endianness
  deriving DecidableEq, Repr, Inhabited

namespace Ident

/-- The number of bytes that identify an image. -/
def size : Nat := 16

/-- Reads the identification of an image. -/
def read (v : View) : Except LoadError Ident := do
  discard <| v.slice 0 size
  if v.startsWith 0 magic then
    let cls ← Class.ofByte (← v.byte 4)
    let order ← orderOfByte (← v.byte 5)
    return { cls, order }
  else
    throw .unsupportedFormat

end Ident

/-- The fields of the file header that a load needs. -/
structure Header where
  /-- The class and the byte order. -/
  ident : Ident
  /-- The code of the machine. -/
  machine : UInt16
  /-- The entry address. -/
  entry : UInt64
  /-- Where the section headers start in the file; zero if there are none. -/
  tableOffset : UInt64
  /-- The distance between section headers. -/
  entrySize : UInt16
  /-- The number of section headers; zero if section 0 holds it. -/
  count : UInt16
  /-- The index of the section that holds the names of sections; `FFFF` if section 0 holds it. -/
  namesIndex : UInt16
  deriving DecidableEq, Repr, Inhabited

namespace Header

/-- The width of addresses. -/
def width (h : Header) : Width :=
  h.ident.cls.width

/-- The byte order. -/
def order (h : Header) : Endianness :=
  h.ident.order

/-- Where the fields of a header of each class lie. -/
structure Layout where
  /-- The entry address. -/
  entry : Nat
  /-- The offset of the section headers. -/
  tableOffset : Nat
  /-- The distance between section headers. -/
  entrySize : Nat
  /-- The number of section headers. -/
  count : Nat
  /-- The index of the section of names. -/
  namesIndex : Nat

/-- Where the code of the machine lies, in headers of either class. -/
def machineOffset : Nat := 18

/-- The layout of a header of a class. -/
def layout : Class → Layout
  | .elf32 => { entry := 24, tableOffset := 32, entrySize := 46, count := 48, namesIndex := 50 }
  | .elf64 => { entry := 24, tableOffset := 40, entrySize := 58, count := 60, namesIndex := 62 }

/-- Reads the file header. The whole of it must be in the file before a field of it is used. -/
def read (v : View) : Except LoadError Header := do
  let ident ← Ident.read v
  let order := ident.order
  let width := ident.cls.width
  let l := layout ident.cls
  discard <| v.slice 0 ident.cls.headerSize
  return {
    ident
    machine := ← v.word16 machineOffset order
    entry := ← v.address l.entry width order
    tableOffset := ← v.address l.tableOffset width order
    entrySize := ← v.word16 l.entrySize order
    count := ← v.word16 l.count order
    namesIndex := ← v.word16 l.namesIndex order }

/-- The code of 32-bit x86. -/
def machine386 : UInt16 := 3

/-- The code of 64-bit x86. -/
def machineX8664 : UInt16 := 62

/-- The machine is one that is loaded. -/
def isSupported (h : Header) : Bool :=
  h.machine == machine386 || h.machine == machineX8664

/-- The name of the target. Images in big-endian order have no name of their own for a machine. -/
def formatName (h : Header) : String :=
  match h.ident.cls, h.ident.order with
  | .elf32, .big => "elf32-big"
  | .elf64, .big => "elf64-big"
  | .elf32, .little => if h.machine = machineX8664 then "elf32-x86-64" else "elf32-i386"
  | .elf64, .little => "elf64-x86-64"

/-- The name of the architecture. -/
def archName (h : Header) : String :=
  if h.machine = machineX8664 then
    match h.ident.cls with
    | .elf32 => "i386:x64-32"
    | .elf64 => "i386:x86-64"
  else "i386"

end Header

end ExecImage.Elf
