import ExecImage.Elf.Header
import ExecImage.Options

/-!
# The ELF section table

The section headers lie in the file one after the other. Section 0 is no section: where the header's fields are too narrow
for the number of sections, or for the index of the section that holds their names, it holds the number or the index
instead.

Loading takes the headers in order and keeps those of code and data. It fails at the first kept section whose
addresses do not fit the address space, whose bytes are more than may be copied, or whose bytes are not in the file; of
these the first that applies is reported.
-/

namespace ExecImage.Elf

/-- A section header. -/
structure SectionHeader where
  /-- Where the name starts in the section of names. -/
  nameOffset : UInt32
  /-- What the section is for. -/
  type : UInt32
  /-- The permissions and other flags. -/
  flags : UInt64
  /-- The first address. -/
  addr : UInt64
  /-- Where the contents start in the file. -/
  offset : UInt64
  /-- The number of addresses, and of bytes in the file if there are any. -/
  size : UInt64
  /-- The index of a section that belongs to this one. -/
  link : UInt32
  /-- Further information, which depends on the type. -/
  info : UInt32
  /-- The distance between entries, for a section that is a table. -/
  entrySize : UInt64
  deriving DecidableEq, Repr, Inhabited

namespace SectionHeader

/-- The type of a static symbol table. -/
def typeSymtab : UInt32 := 2

/-- The type of a section that has no bytes in the file. -/
def typeNobits : UInt32 := 8

/-- The type of a dynamic symbol table. -/
def typeDynsym : UInt32 := 11

/-- The section can be written. -/
def isWritable (h : SectionHeader) : Bool :=
  h.flags &&& 1 != 0

/-- The section can be executed. -/
def isExecutable (h : SectionHeader) : Bool :=
  h.flags &&& 4 != 0

/-- The section has bytes in the file. -/
def hasFileData (h : SectionHeader) : Bool :=
  h.type != typeNobits

/-- What the section holds, if it is loaded. -/
def kind? (h : SectionHeader) : Option SectionKind :=
  SectionKind.classify h.isExecutable h.isWritable

/-- Reads a section header. -/
def read (v : View) (offset : Nat) (ident : Ident) : Except LoadError SectionHeader := do
  let order := ident.order
  discard <| v.slice offset ident.cls.sectionHeaderSize
  match ident.cls with
  | .elf32 =>
    return {
      nameOffset := ← v.word32 offset order
      type := ← v.word32 (offset + 4) order
      flags := ← v.address (offset + 8) .w32 order
      addr := ← v.address (offset + 12) .w32 order
      offset := ← v.address (offset + 16) .w32 order
      size := ← v.address (offset + 20) .w32 order
      link := ← v.word32 (offset + 24) order
      info := ← v.word32 (offset + 28) order
      entrySize := ← v.address (offset + 36) .w32 order }
  | .elf64 =>
    return {
      nameOffset := ← v.word32 offset order
      type := ← v.word32 (offset + 4) order
      flags := ← v.address (offset + 8) .w64 order
      addr := ← v.address (offset + 16) .w64 order
      offset := ← v.address (offset + 24) .w64 order
      size := ← v.address (offset + 32) .w64 order
      link := ← v.word32 (offset + 40) order
      info := ← v.word32 (offset + 44) order
      entrySize := ← v.address (offset + 56) .w64 order }

end SectionHeader

/-- A section header with its name. -/
structure NamedHeader where
  /-- The header. -/
  header : SectionHeader
  /-- The name, empty if it cannot be read. -/
  name : String
  deriving DecidableEq, Repr, Inhabited

/-- The sections of an image, in the order of its table. -/
structure SectionTable where
  /-- The whole file. -/
  view : View
  /-- The class of the image. -/
  cls : Class
  /-- The headers. -/
  entries : List NamedHeader
  deriving DecidableEq, Inhabited

namespace SectionTable

/-- The name under which faults of the table itself are reported. -/
def headersName : String := "<section headers>"

/-- The name under which a fault of the section of names is reported. -/
def namesName : String := ".shstrtab"

/-- The most bytes of a name that are read. -/
def maxNameLength : Nat := 256

/-- The index that stands for an index held in section 0. -/
def extendedIndex : UInt16 := 0xFFFF

/-- The number of sections: section 0 holds it if the header's field is zero. -/
def sectionCount (h : Header) (first : SectionHeader) : Nat :=
  if h.count = 0 then first.size.toNat else h.count.toNat

/-- The index of the section of names: section 0 holds it if the header's field is `FFFF`. -/
def namesIndex (h : Header) (first : SectionHeader) : Nat :=
  if h.namesIndex = extendedIndex then first.link.toNat else h.namesIndex.toNat

/-- Where the header at an index lies in the file. -/
def headerOffset (h : Header) (index : Nat) : Nat :=
  h.tableOffset.toNat + index * h.entrySize.toNat

/-- The bytes that the names of sections are read from. Index 0 and an index beyond the table mean that there are none. -/
def namesView (v : View) (headers : List SectionHeader) (index : Nat) : Except LoadError (Option View) :=
  if index = 0 then .ok none
  else
    match headers[index]? with
    | none => .ok none
    | some h =>
      match v.sub h.offset.toNat h.size.toNat with
      | .ok names => .ok (some names)
      | .error _ =>
        .error (.corruptSection namesName (.contentsOutside h.offset.toNat h.size.toNat v.size))

/-- The name that starts at an offset of the section of names, or no name. -/
def nameAt (names : Option View) (offset : UInt32) : String :=
  match names with
  | none => ""
  | some v =>
    match v.cstring offset.toNat maxNameLength with
    | .ok name => name
    | .error _ => ""

/-- Reads the section headers and their names. -/
def read (v : View) (h : Header) (options : Options) : Except LoadError SectionTable := do
  let cls := h.ident.cls
  let entrySize := h.entrySize.toNat
  if h.tableOffset = 0 then
    return { view := v, cls, entries := [] }
  else if entrySize < cls.sectionHeaderSize then
    throw (.corruptSection headersName (.entrySize entrySize cls.sectionHeaderSize))
  else
    let first ← SectionHeader.read v h.tableOffset.toNat h.ident
    let count := sectionCount h first
    if options.maxSections.toNat < count then
      throw (.corruptSection headersName (.sectionCount count options.maxSections.toNat))
    else if UInt64.size ≤ count * entrySize then
      throw (.outOfBounds h.tableOffset.toNat (UInt64.size - 1) v.size)
    else
      discard <| v.slice h.tableOffset.toNat (count * entrySize)
      let headers ← (List.range count).mapM fun i => SectionHeader.read v (headerOffset h i) h.ident
      let names ← namesView v headers (namesIndex h first)
      return { view := v, cls, entries := headers.map fun sh => ⟨sh, nameAt names sh.nameOffset⟩ }

/-- The number of sections. -/
def count (t : SectionTable) : Nat :=
  t.entries.length

/-- The header at an index. -/
def header? (t : SectionTable) (index : Nat) : Option SectionHeader :=
  t.entries[index]?.map NamedHeader.header

/-- The name at an index, empty if there is none. -/
def name (t : SectionTable) (index : Nat) : String :=
  match t.entries[index]? with
  | some e => e.name
  | none => ""

/-- The indexes of the sections of a type, in order. -/
def indexesOfType (t : SectionTable) (type : UInt32) : List Nat :=
  Binary.indexesWhere (fun e => e.header.type == type) t.entries

/-- The bytes of a section's contents; a section without bytes in the file has none. -/
def contentsOf (t : SectionTable) (h : SectionHeader) : Except LoadError View :=
  if h.hasFileData then t.view.sub h.offset.toNat h.size.toNat
  else .ok ⟨#[]⟩

/-- The bytes of the contents of the section at an index. -/
def contents (t : SectionTable) (index : Nat) : Except LoadError View :=
  match t.header? index with
  | none => .error (.corruptSection headersName (.sectionIndex index))
  | some h => t.contentsOf h

/-- The bytes that are copied for a section under a name. The limit comes before the end of the file. -/
def copy (t : SectionTable) (name : String) (h : SectionHeader) (options : Options) : Except LoadError Bytes :=
  if h.hasFileData then
    if options.maxSectionBytes < h.size then .error (.outOfMemory h.size.toNat)
    else
      match t.view.slice h.offset.toNat h.size.toNat with
      | .ok bytes => .ok bytes
      | .error _ => .error (.corruptSection name (.contentsOutside h.offset.toNat h.size.toNat t.view.size))
  else .ok #[]

/-- Loads one section, or passes over it. -/
def loadEntry (t : SectionTable) (source : String) (options : Options) (e : NamedHeader) :
    Except LoadError (Option Section) :=
  let h := e.header
  match h.kind? with
  | none => .ok none
  | some kind => do
    let name := Section.displayName e.name
    if t.cls.width.Fits h.addr.toNat h.size.toNat then
      let bytes ← t.copy name h options
      return some {
        binary := source, name, kind, vma := h.addr, size := h.size, fileOffset := h.offset, flags := h.flags, bytes }
    else
      throw (.corruptSection name (.addressRange h.addr.toNat h.size.toNat t.cls.width.bits))

/-- Loads the sections of code and data. -/
def load (t : SectionTable) (source : String) (options : Options) : Except LoadError (List Section) :=
  (t.entries.mapM (t.loadEntry source options)).map fun loaded => loaded.filterMap id

end SectionTable

end ExecImage.Elf
