import ExecImage.Load
import ExecImage.Proofs.Utf8

/-!
# Writing ELF images

The counterpart of the readers: the bytes of a file header, of section headers and of symbol entries, and the image
that lists of sections and of symbols make. The parts of an image follow the file header, each at a multiple of eight
bytes: the sections given, the static and the dynamic symbols each with their strings, and the names of the sections.
The section headers come last.
-/

namespace ExecImage.Elf

/-! ## Records -/

/-- The byte that names a class. -/
def Class.byte : Class → UInt8
  | .elf32 => 1
  | .elf64 => 2

/-- The byte that names a byte order. -/
def orderByte : Endianness → UInt8
  | .little => 1
  | .big => 2

namespace Ident

/-- A field of two bytes. -/
def half (ident : Ident) (n : UInt16) : List UInt8 :=
  ident.order.digits 2 n.toNat

/-- A field of four bytes. -/
def word (ident : Ident) (n : UInt32) : List UInt8 :=
  ident.order.digits 4 n.toNat

/-- A field as wide as an address. -/
def address (ident : Ident) (n : UInt64) : List UInt8 :=
  ident.order.digits ident.cls.width.bytes n.toNat

/-- The bytes that identify an image, with the version of the format. -/
def write (ident : Ident) : List UInt8 :=
  magic ++ [ident.cls.byte, orderByte ident.order, 1] ++ List.replicate 9 0

end Ident

/-- The bytes of a file header: of an executable, version 1, without program headers. -/
def Header.write (h : Header) : List UInt8 :=
  let i := h.ident
  i.write ++ (i.half 2 ++ (i.half h.machine ++ (i.word 1 ++ (i.address h.entry ++ (i.address 0 ++ (i.address h.tableOffset ++
    (i.word 0 ++ (i.half (.ofNat i.cls.headerSize) ++ (i.half 0 ++ (i.half 0 ++ (i.half h.entrySize ++ (i.half h.count ++
      i.half h.namesIndex))))))))))))

/-- The bytes of a section header, with the alignment of the section. -/
def SectionHeader.write (ident : Ident) (alignment : UInt64) (h : SectionHeader) : List UInt8 :=
  ident.word h.nameOffset ++ (ident.word h.type ++ (ident.address h.flags ++ (ident.address h.addr ++ (ident.address h.offset ++
    (ident.address h.size ++ (ident.word h.link ++ (ident.word h.info ++ (ident.address alignment ++
      ident.address h.entrySize))))))))

/-- The bytes of a symbol entry. The order of the fields depends on the class. -/
def SymbolEntry.write (ident : Ident) (e : SymbolEntry) : List UInt8 :=
  match ident.cls with
  | .elf32 => ident.word e.nameOffset ++ (ident.address e.value ++ (ident.address e.size ++ ([e.info] ++ ([e.other] ++
      ident.half e.sectionIndex))))
  | .elf64 => ident.word e.nameOffset ++ ([e.info] ++ ([e.other] ++ (ident.half e.sectionIndex ++ (ident.address e.value ++
      ident.address e.size))))

/-! ## Strings -/

/-- What a string adds to a string table. The empty string adds nothing: it is found at the zero byte that starts the table. -/
def stored (s : String) : List UInt8 :=
  if s = "" then [] else Utf8.encode s ++ [0]

/-- A string table of some strings. -/
def stringTable (strings : List String) : List UInt8 :=
  0 :: strings.flatMap stored

/-- The offset of a string that is added to a string table of `next` bytes. -/
def offsetOf (next : Nat) (s : String) : UInt32 :=
  if s = "" then 0 else .ofNat next

/-! ## Symbols -/

/-- A symbol to be written. -/
structure SymbolSpec where
  /-- The name. -/
  name : String
  /-- The address. -/
  value : UInt64
  /-- The type in the low four bits, the binding above them. -/
  info : UInt8
  /-- The index of the section that the symbol is defined in; zero for none. -/
  sectionIndex : UInt16
  deriving DecidableEq, Repr

namespace SymbolSpec

/-- The entry of a symbol. -/
def entry (s : SymbolSpec) (nameOffset : UInt32) : SymbolEntry :=
  { nameOffset, value := s.value, size := 0, info := s.info, other := 0, sectionIndex := s.sectionIndex }

/-- The entries of symbols whose names are added to a string table of `next` bytes. -/
def entriesFrom : (next : Nat) → List SymbolSpec → List SymbolEntry
  | _, [] => []
  | next, s :: ss => s.entry (offsetOf next s.name) :: entriesFrom (next + (stored s.name).length) ss

/-- The first entry of a table, which is no symbol. -/
def nullEntry : SymbolEntry :=
  { nameOffset := 0, value := 0, size := 0, info := 0, other := 0, sectionIndex := 0 }

/-- The entries of a table of symbols. -/
def entries (symbols : List SymbolSpec) : List SymbolEntry :=
  nullEntry :: entriesFrom 1 symbols

/-- The string table of symbols. -/
def strings (symbols : List SymbolSpec) : List UInt8 :=
  stringTable (symbols.map SymbolSpec.name)

end SymbolSpec

/-! ## Parts -/

/-- A section to be written. -/
structure SectionSpec where
  /-- The name. -/
  name : String
  /-- What the section is for. -/
  type : UInt32
  /-- The permissions and other flags. -/
  flags : UInt64
  /-- The first address. -/
  addr : UInt64
  /-- The contents. -/
  data : List UInt8
  /-- The number of addresses, for a section that has no bytes in the file. -/
  declaredSize : Option UInt64 := none
  deriving DecidableEq, Repr

namespace SectionSpec

/-- The number of addresses. -/
def size (s : SectionSpec) : Nat :=
  match s.declaredSize with
  | some size => size.toNat
  | none => s.data.length

/-- The bytes of a section that are in the file. -/
def fileBytes (s : SectionSpec) : List UInt8 :=
  if s.type = SectionHeader.typeNobits then [] else s.data

end SectionSpec

/-- A part of an image: a section with what it needs to be found and read. -/
structure Part extends SectionSpec where
  /-- The index of a section that belongs to this one. -/
  link : Nat := 0
  /-- The distance between entries, for a section that is a table. -/
  entrySize : Nat := 0
  deriving DecidableEq, Repr

/-- The part that a section makes. -/
def SectionSpec.part (s : SectionSpec) : Part :=
  { toSectionSpec := s }

namespace Part

/-- The header of a part. -/
def header (p : Part) (nameOffset : UInt32) (offset : Nat) : SectionHeader :=
  { nameOffset, type := p.type, flags := p.flags, addr := p.addr, offset := .ofNat offset, size := .ofNat p.size
    link := .ofNat p.link, info := 0, entrySize := .ofNat p.entrySize }

/-- The least multiple of eight from a number on. -/
def align (n : Nat) : Nat :=
  (n + 7) / 8 * 8

/-- The bytes of parts that follow `start` bytes. -/
def contentsFrom : (start : Nat) → List Part → List UInt8
  | _, [] => []
  | start, p :: ps =>
    List.replicate (align start - start) 0 ++ (p.fileBytes ++ contentsFrom (align start + p.fileBytes.length) ps)

/-- The headers of parts whose names are added to a string table of `next` bytes and whose contents follow `start` bytes. -/
def headersFrom : (next start : Nat) → List Part → List SectionHeader
  | _, _, [] => []
  | next, start, p :: ps =>
    p.header (offsetOf next p.name) (align start) ::
      headersFrom (next + (stored p.name).length) (align start + p.fileBytes.length) ps

end Part

/-! ## Images -/

/-- An image to be written. -/
structure ImageSpec where
  /-- The class and the byte order. -/
  ident : Ident
  /-- The code of the machine. -/
  machine : UInt16
  /-- The entry address. -/
  entry : UInt64
  /-- The sections. -/
  sections : List SectionSpec := []
  /-- The static symbols, if there is a table of them. -/
  symtab : Option (List SymbolSpec) := none
  /-- The dynamic symbols, if there is a table of them. -/
  dynsym : Option (List SymbolSpec) := none
  deriving DecidableEq, Repr

/-- The type of a string table. -/
def SectionHeader.typeStrtab : UInt32 := 3

namespace ImageSpec

/-- The part that holds strings. -/
def stringsPart (name : String) (flags : UInt64) (data : List UInt8) : Part :=
  { name, type := SectionHeader.typeStrtab, flags, addr := 0, data }

/-- The bytes of a table of symbols. -/
def symbolBytes (spec : ImageSpec) (symbols : List SymbolSpec) : List UInt8 :=
  (SymbolSpec.entries symbols).flatMap (SymbolEntry.write spec.ident)

/-- The part that holds the entries of a table of symbols. It follows `before` parts, and it is linked to its strings,
which come next; section 0 is none of the parts. -/
def tablePart (spec : ImageSpec) (name : String) (type : UInt32) (flags : UInt64) (before : Nat) (symbols : List SymbolSpec) :
    Part :=
  { name, type, flags, addr := 0, data := spec.symbolBytes symbols, link := before + 2, entrySize := spec.ident.cls.symbolSize }

/-- The two parts of a table of symbols, if there is one. -/
def tableParts (spec : ImageSpec) (name stringsName : String) (type : UInt32) (flags : UInt64) (before : Nat) :
    Option (List SymbolSpec) → List Part
  | none => []
  | some symbols =>
    [spec.tablePart name type flags before symbols, stringsPart stringsName flags (SymbolSpec.strings symbols)]

/-- The parts of the static symbols. -/
def staticParts (spec : ImageSpec) : List Part :=
  spec.tableParts ".symtab" ".strtab" SectionHeader.typeSymtab 0 spec.sections.length spec.symtab

/-- The parts of the dynamic symbols. -/
def dynamicParts (spec : ImageSpec) : List Part :=
  spec.tableParts ".dynsym" ".dynstr" SectionHeader.typeDynsym 2 (spec.sections.length + spec.staticParts.length) spec.dynsym

/-- The parts before the names of sections. -/
def bodyParts (spec : ImageSpec) : List Part :=
  spec.sections.map SectionSpec.part ++ spec.staticParts ++ spec.dynamicParts

/-- The names of the sections, the last of which is the section that holds them. -/
def sectionNames (spec : ImageSpec) : List UInt8 :=
  stringTable (spec.bodyParts.map (·.name) ++ [SectionTable.namesName])

/-- The parts of an image. -/
def parts (spec : ImageSpec) : List Part :=
  spec.bodyParts ++ [stringsPart SectionTable.namesName 0 spec.sectionNames]

/-- The bytes of the parts. -/
def contents (spec : ImageSpec) : List UInt8 :=
  Part.contentsFrom spec.ident.cls.headerSize spec.parts

/-- Where the bytes of the parts end. -/
def contentsEnd (spec : ImageSpec) : Nat :=
  spec.ident.cls.headerSize + spec.contents.length

/-- Where the section headers start. -/
def tableOffset (spec : ImageSpec) : Nat :=
  Part.align spec.contentsEnd

/-- The file header. -/
def header (spec : ImageSpec) : Header :=
  { ident := spec.ident, machine := spec.machine, entry := spec.entry, tableOffset := .ofNat spec.tableOffset
    entrySize := .ofNat spec.ident.cls.sectionHeaderSize, count := .ofNat (spec.parts.length + 1)
    namesIndex := .ofNat spec.parts.length }

/-- The first section header, which is of no section. -/
def nullHeader : SectionHeader :=
  { nameOffset := 0, type := 0, flags := 0, addr := 0, offset := 0, size := 0, link := 0, info := 0, entrySize := 0 }

/-- The headers of the parts. -/
def headers (spec : ImageSpec) : List SectionHeader :=
  Part.headersFrom 1 spec.ident.cls.headerSize spec.parts

/-- The bytes of an image. -/
def write (spec : ImageSpec) : List UInt8 :=
  spec.header.write ++ (spec.contents ++ (List.replicate (spec.tableOffset - spec.contentsEnd) 0 ++
    (nullHeader.write spec.ident 0 ++ spec.headers.flatMap (SectionHeader.write spec.ident 1))))

/-- The view of an image. -/
def view (spec : ImageSpec) : View :=
  ⟨spec.write.toArray⟩

/-- A small image: two bytes of code, and a symbol for them. -/
def sample : ImageSpec :=
  { ident := { cls := .elf32, order := .big }
    machine := 3
    entry := 0x1000
    sections := [{ name := ".text", type := 1, flags := 6, addr := 0x1000, data := [0x55, 0xC3] }]
    symtab := some [{ name := "main", value := 0x1000, info := 0x12, sectionIndex := 1 }] }

end ImageSpec

end ExecImage.Elf
