import ExecImage.Load
import ExecImage.Proofs.Utf8

/-!
# Writing PE images

The counterpart of the readers: the bytes of the headers, of section headers, of symbol records and of an export directory,
and the image that they make. The stub, the headers and the section headers come first. The raw data of the sections
follow without gaps, and after them the records of the COFF symbol table and its strings.
-/

namespace ExecImage.Pe

/-! ## Records -/

/-- A field of two bytes. -/
def half (n : UInt16) : List UInt8 :=
  littleDigits 2 n.toNat

/-- A field of four bytes. -/
def word (n : UInt32) : List UInt8 :=
  littleDigits 4 n.toNat

/-- Bytes that no reader looks at. -/
def unread (n : Nat) : List UInt8 :=
  List.replicate n 0

/-- The bytes of a file header. -/
def FileHeader.write (h : FileHeader) : List UInt8 :=
  half h.machine ++ (half h.sectionCount ++ (unread 4 ++ (word h.symbolPointer ++ (word h.symbolCount ++
    (half h.optionalSize ++ half h.characteristics)))))

/-- The bytes of an optional header up to its data directories. The image base lies where the width of addresses says. -/
def OptionalHeader.write (h : OptionalHeader) : List UInt8 :=
  let base := if h.is64 then littleDigits 8 h.imageBase.toNat ++ unread 76
    else unread 4 ++ (littleDigits 4 h.imageBase.toNat ++ unread 60)
  half h.magic ++ (unread 14 ++ (word h.entryRva ++ (unread 4 ++ (base ++ word h.directoryCount))))

/-- The bytes of a data directory. -/
def DataDirectory.write (d : DataDirectory) : List UInt8 :=
  word d.rva ++ word d.size

/-- The bytes of a section header. -/
def SectionHeader.write (h : SectionHeader) : List UInt8 :=
  h.nameField.toList ++ (word h.virtualSize ++ (word h.virtualAddress ++ (word h.rawSize ++ (word h.rawPointer ++
    (unread 12 ++ word h.characteristics)))))

/-- The bytes of a record of the COFF symbol table. -/
def CoffRecord.write (r : CoffRecord) : List UInt8 :=
  r.nameField.toList ++ (word r.value ++ (half r.sectionNumber ++ (half r.type ++ [r.storageClass, r.auxiliaries])))

/-- The bytes of an export directory. -/
def ExportDirectory.write (d : ExportDirectory) : List UInt8 :=
  unread 12 ++ (word d.nameRva ++ (word d.ordinalBase ++ (word d.functionCount ++ (word d.nameCount ++
    (word d.addressTableRva ++ (word d.nameTableRva ++ word d.ordinalTableRva))))))

/-- The bytes of a text, with a zero byte after it. -/
def text (s : String) : List UInt8 :=
  Utf8.encode s ++ [0]

/-- The eight bytes of a name that is not longer. -/
def nameField (name : String) : Bytes :=
  ((Utf8.encode name ++ unread 8).take 8).toArray

/-! ## Images -/

/-- A section to be written. -/
structure SectionSpec where
  /-- The name, of at most eight bytes. -/
  name : String
  /-- The number of addresses; zero if the number of bytes says it. -/
  virtualSize : UInt32
  /-- The first address, relative to the image base. -/
  virtualAddress : UInt32
  /-- The permissions and other flags. -/
  characteristics : UInt32
  /-- The raw data. -/
  data : List UInt8
  deriving DecidableEq, Repr

namespace SectionSpec

/-- The header of a section whose raw data lie at an offset of the file. -/
def header (s : SectionSpec) (offset : Nat) : SectionHeader :=
  { nameField := nameField s.name, virtualSize := s.virtualSize, virtualAddress := s.virtualAddress
    rawSize := .ofNat s.data.length, rawPointer := .ofNat offset, characteristics := s.characteristics }

/-- The headers of sections whose raw data follow `start` bytes. -/
def headersFrom : (start : Nat) → List SectionSpec → List SectionHeader
  | _, [] => []
  | start, s :: ss => s.header start :: headersFrom (start + s.data.length) ss

end SectionSpec

/-- An image to be written. -/
structure ImageSpec where
  /-- The code of the machine. -/
  machine : UInt16 := FileHeader.machineI386
  /-- The image has 64-bit addresses. -/
  is64 : Bool := false
  /-- The entry address, relative to the image base; zero for none. -/
  entryRva : UInt32 := 0
  /-- The address that relative addresses count from. -/
  imageBase : UInt64
  /-- The data directories. -/
  directories : List DataDirectory := []
  /-- The sections. -/
  sections : List SectionSpec := []
  /-- The records of the COFF symbol table, auxiliary ones included. -/
  records : List CoffRecord := []
  /-- The strings of the COFF symbol table, after the four bytes of their size. -/
  strings : List UInt8 := []
  deriving DecidableEq, Repr

namespace ImageSpec

/-- The optional header. -/
def optional (spec : ImageSpec) : OptionalHeader :=
  { magic := if spec.is64 then OptionalHeader.magic64 else OptionalHeader.magic32
    entryRva := spec.entryRva, imageBase := spec.imageBase, directoryCount := .ofNat spec.directories.length }

/-- The bytes of the optional header with the data directories. -/
def optionalBytes (spec : ImageSpec) : List UInt8 :=
  spec.optional.write ++ spec.directories.flatMap DataDirectory.write

/-- The bytes before the file header. -/
def stub : List UInt8 :=
  dosMagic ++ (unread (signaturePointer - dosMagic.length) ++ (word 0x40 ++ signature))

/-- Where the raw data of the sections start. -/
def dataStart (spec : ImageSpec) : Nat :=
  stub.length + FileHeader.size + spec.optionalBytes.length + spec.sections.length * SectionHeader.size

/-- The raw data of the sections. -/
def data (spec : ImageSpec) : List UInt8 :=
  spec.sections.flatMap SectionSpec.data

/-- The file header. The symbol table follows the raw data, and there is one if it has records. -/
def file (spec : ImageSpec) : FileHeader :=
  { machine := spec.machine, sectionCount := .ofNat spec.sections.length
    symbolPointer := if spec.records.isEmpty then 0 else .ofNat (spec.dataStart + spec.data.length)
    symbolCount := .ofNat spec.records.length, optionalSize := .ofNat spec.optionalBytes.length, characteristics := 0x102 }

/-- The bytes of the symbol table and of its strings, if there is one. -/
def symbolBytes (spec : ImageSpec) : List UInt8 :=
  if spec.records.isEmpty then []
  else spec.records.flatMap CoffRecord.write ++ (word (.ofNat (StringTable.sizeField + spec.strings.length)) ++ spec.strings)

/-- The bytes of an image. -/
def write (spec : ImageSpec) : List UInt8 :=
  stub ++ (spec.file.write ++ (spec.optionalBytes ++
    ((SectionSpec.headersFrom spec.dataStart spec.sections).flatMap SectionHeader.write ++ (spec.data ++ spec.symbolBytes))))

/-- The view of an image. -/
def view (spec : ImageSpec) : View :=
  ⟨spec.write.toArray⟩

/-- The export directory of the small image. -/
def sampleExports : ExportDirectory :=
  { nameRva := 0, ordinalBase := 1, functionCount := 1, nameCount := 1
    addressTableRva := 0x2028, nameTableRva := 0x202C, ordinalTableRva := 0x2030 }

/-- A small image: two bytes of code in four addresses, and an export directory behind them. A record of the symbol table
names the first address, an export the second. -/
def sample : ImageSpec :=
  { entryRva := 0x1002
    imageBase := 0x400000
    directories := [{ rva := 0x2000, size := 52 }]
    sections := [
      { name := ".text", virtualSize := 4, virtualAddress := 0x1000, characteristics := 0x60000020, data := [0x55, 0xC3] },
      { name := ".edata", virtualSize := 52, virtualAddress := 0x2000, characteristics := 0x40000040
        data := sampleExports.write ++ (word 0x1001 ++ (word 0x2032 ++ (half 0 ++ [0x66, 0]))) }]
    records := [{
      nameField := nameField "main", value := 0, sectionNumber := 1, type := 0x20, storageClass := 2, auxiliaries := 0 }] }

/-- The small image with two faults: a second record names a section that does not exist, and the names of the exports are in no
section. -/
def faulty : ImageSpec :=
  { sample with
    sections := sample.sections.take 1 ++ [
      { name := ".edata", virtualSize := 52, virtualAddress := 0x2000, characteristics := 0x40000040
        data := { sampleExports with nameTableRva := 0x9000 }.write ++ word 0x1001 }]
    records := sample.records ++ [{
      nameField := nameField "lost", value := 0, sectionNumber := 9, type := 0x20, storageClass := 2, auxiliaries := 0 }] }

end ImageSpec

end ExecImage.Pe
