import ExecImage.Sniff

/-!
# PE headers

A PE image starts with a stub that stores the offset of a signature. The file header follows the signature, and the optional
header follows the file header; the file header states the optional header's size. The optional header's magic number
fixes the width of addresses, and its last part is an array of data directories, of which as many are read as are
declared, fit the stated size, and are at most sixteen.
-/

namespace ExecImage.Pe

/-- The file header. -/
structure FileHeader where
  /-- The code of the machine. -/
  machine : UInt16
  /-- The number of sections. -/
  sectionCount : UInt16
  /-- Where the COFF symbol table starts in the file; zero if there is none. -/
  symbolPointer : UInt32
  /-- The number of records of the COFF symbol table. -/
  symbolCount : UInt32
  /-- The size of the optional header. -/
  optionalSize : UInt16
  /-- The flags of the image. -/
  characteristics : UInt16
  deriving DecidableEq, Repr, Inhabited

namespace FileHeader

/-- The size of the file header. -/
def size : Nat := 20

/-- The code of 32-bit x86. -/
def machineI386 : UInt16 := 0x14C

/-- The code of 64-bit x86. -/
def machineAmd64 : UInt16 := 0x8664

/-- The machine is one that is loaded. -/
def isSupported (h : FileHeader) : Bool :=
  h.machine == machineI386 || h.machine == machineAmd64

/-- The name of the target. -/
def formatName (h : FileHeader) : String :=
  if h.machine = machineAmd64 then "pei-x86-64" else "pei-i386"

/-- The name of the architecture. -/
def archName (h : FileHeader) : String :=
  if h.machine = machineAmd64 then "i386:x86-64" else "i386"

/-- Reads the file header. -/
def read (v : View) (offset : Nat) : Except LoadError FileHeader := do
  let h ← v.sub offset size
  return {
    machine := ← h.word16 0 .little
    sectionCount := ← h.word16 2 .little
    symbolPointer := ← h.word32 8 .little
    symbolCount := ← h.word32 12 .little
    optionalSize := ← h.word16 16 .little
    characteristics := ← h.word16 18 .little }

end FileHeader

/-- The fields of the optional header that a load needs. -/
structure OptionalHeader where
  /-- The number that fixes the layout. -/
  magic : UInt16
  /-- The entry address, relative to the image base; zero for none. -/
  entryRva : UInt32
  /-- The address that relative addresses count from. -/
  imageBase : UInt64
  /-- The number of data directories that are declared. -/
  directoryCount : UInt32
  deriving DecidableEq, Repr, Inhabited

namespace OptionalHeader

/-- The magic number of images with 32-bit addresses. -/
def magic32 : UInt16 := 0x10B

/-- The magic number of images with 64-bit addresses. -/
def magic64 : UInt16 := 0x20B

/-- Where the data directories start in an optional header. -/
def directoriesOffset? (magic : UInt16) : Option Nat :=
  if magic = magic32 then some 96
  else if magic = magic64 then some 112
  else none

/-- The image has 64-bit addresses. -/
def is64 (h : OptionalHeader) : Bool :=
  h.magic == magic64

/-- The width of addresses. -/
def width (h : OptionalHeader) : Width :=
  if h.is64 then .w64 else .w32

/-- The address of a relative address, wrapped to the width of addresses. -/
def va (h : OptionalHeader) (rva : UInt64) : UInt64 :=
  if h.is64 then h.imageBase + rva else (h.imageBase + rva) &&& 0xFFFFFFFF

/-- The entry address, zero for an image that has none. -/
def entry (h : OptionalHeader) : UInt64 :=
  if h.entryRva = 0 then 0 else h.va h.entryRva.toUInt64

end OptionalHeader

/-- A range of relative addresses that holds a table. -/
structure DataDirectory where
  /-- The first relative address. -/
  rva : UInt32
  /-- The number of bytes. -/
  size : UInt32
  deriving DecidableEq, Repr, Inhabited

namespace DataDirectory

/-- The directory names a range. -/
def isPresent (d : DataDirectory) : Bool :=
  d.rva != 0 && d.size != 0

/-- A relative address lies in the directory. -/
def Contains (d : DataDirectory) (rva : UInt32) : Prop :=
  d.rva.toNat ≤ rva.toNat ∧ rva.toNat - d.rva.toNat < d.size.toNat

instance (d : DataDirectory) (rva : UInt32) : Decidable (d.Contains rva) :=
  inferInstanceAs (Decidable (_ ∧ _))

/-- The size of a directory in the file. -/
def entrySize : Nat := 8

/-- The most directories that are read. -/
def maxCount : Nat := 16

/-- Reads a directory. -/
def read (v : View) (offset : Nat) : Except LoadError DataDirectory := do
  return { rva := ← v.word32 offset .little, size := ← v.word32 (offset + 4) .little }

end DataDirectory

/-- The headers of an image. -/
structure Headers where
  /-- Where the signature lies in the file. -/
  signatureOffset : Nat
  /-- The file header. -/
  file : FileHeader
  /-- The optional header. -/
  optional : OptionalHeader
  /-- The data directories. -/
  directories : List DataDirectory
  deriving DecidableEq, Repr, Inhabited

namespace Headers

/-- Where the file header lies in the file. -/
def fileOffset (signatureOffset : Nat) : Nat :=
  signatureOffset + signature.length

/-- Where the optional header lies in the file. -/
def optionalOffset (signatureOffset : Nat) : Nat :=
  fileOffset signatureOffset + FileHeader.size

/-- Where the section table lies in the file. -/
def sectionTableOffset (h : Headers) : Nat :=
  optionalOffset h.signatureOffset + h.file.optionalSize.toNat

/-- The name under which faults of the optional header are reported. -/
def optionalName : String := "<optional header>"

/-- The index of the directory of exports. -/
def exportIndex : Nat := 0

/-- The directory of exports. -/
def exportDirectory? (h : Headers) : Option DataDirectory :=
  h.directories[exportIndex]?

/-- The number of directories that are read of an optional header of a size. -/
def directoryCount (declared size directoriesOffset : Nat) : Nat :=
  min (min declared DataDirectory.maxCount) ((size - directoriesOffset) / DataDirectory.entrySize)

/-- Reads the optional header and the data directories from its bytes. -/
def readOptional (v : View) : Except LoadError (OptionalHeader × List DataDirectory) := do
  let magic ←
    match v.word16 0 .little with
    | .ok magic => pure magic
    | .error _ => throw (.corruptSection optionalName (.optionalHeaderTooSmall v.size))
  match OptionalHeader.directoriesOffset? magic with
  | none => throw .unsupportedFormat
  | some start =>
    if v.size < start then
      throw (.corruptSection optionalName (.optionalHeaderShort v.size start))
    else
      let entryRva ← v.word32 16 .little
      let imageBase ←
        if magic = OptionalHeader.magic64 then v.word64 24 .little
        else v.address 28 .w32 .little
      let directoryCount ← v.word32 (start - 4) .little
      let directories ← (List.range (Headers.directoryCount directoryCount.toNat v.size start)).mapM fun i =>
        DataDirectory.read v (start + i * DataDirectory.entrySize)
      return ({ magic, entryRva, imageBase, directoryCount }, directories)

/-- Reads the headers of an image. -/
def read (v : View) : Except LoadError Headers := do
  if v.startsWith 0 dosMagic then
    let signatureOffset := (← v.word32 signaturePointer .little).toNat
    discard <| v.slice signatureOffset signature.length
    if v.startsWith signatureOffset signature then
      let file ← FileHeader.read v (fileOffset signatureOffset)
      let header ← v.sub (optionalOffset signatureOffset) file.optionalSize.toNat
      let (optional, directories) ← readOptional header
      return { signatureOffset, file, optional, directories }
    else throw .unsupportedFormat
  else throw .unsupportedFormat

end Headers

end ExecImage.Pe
