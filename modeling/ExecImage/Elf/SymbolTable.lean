import ExecImage.Elf.SectionTable
import ExecImage.SymbolTable

/-!
# ELF symbol tables

A symbol table is a section of entries of one size, linked to the section that holds the names. Its functions become
symbols. A fault of the table as a whole fails it; a name outside the section of names costs the symbol its name
only.
-/

namespace ExecImage.Elf

/-- An entry of a symbol table. -/
structure SymbolEntry where
  /-- Where the name starts in the linked section; zero for no name. -/
  nameOffset : UInt32
  /-- The address. -/
  value : UInt64
  /-- The number of bytes that the symbol stands for. -/
  size : UInt64
  /-- The type in the low four bits, the binding above them. -/
  info : UInt8
  /-- The visibility. -/
  other : UInt8
  /-- The index of the section that the symbol is defined in; zero for none. -/
  sectionIndex : UInt16
  deriving DecidableEq, Repr, Inhabited

namespace SymbolEntry

/-- The type. -/
def type (e : SymbolEntry) : UInt8 :=
  e.info &&& 0xF

/-- The entry names a function, plain (2) or chosen when the image is started (10). -/
def isFunction (e : SymbolEntry) : Bool :=
  e.type == 2 || e.type == 10

/-- The image refers to the symbol and does not define it. -/
def isUndefined (e : SymbolEntry) : Bool :=
  e.sectionIndex == 0

/-- Reads an entry. -/
def read (v : View) (offset : Nat) (ident : Ident) : Except LoadError SymbolEntry := do
  let order := ident.order
  match ident.cls with
  | .elf32 =>
    return {
      nameOffset := ← v.word32 offset order
      value := ← v.address (offset + 4) .w32 order
      size := ← v.address (offset + 8) .w32 order
      info := ← v.byte (offset + 12)
      other := ← v.byte (offset + 13)
      sectionIndex := ← v.word16 (offset + 14) order }
  | .elf64 =>
    return {
      nameOffset := ← v.word32 offset order
      info := ← v.byte (offset + 4)
      other := ← v.byte (offset + 5)
      sectionIndex := ← v.word16 (offset + 6) order
      value := ← v.address (offset + 8) .w64 order
      size := ← v.address (offset + 16) .w64 order }

/-- The entry is kept: it names a function, and the image defines it unless undefined symbols are asked for. -/
def isKept (e : SymbolEntry) (options : Options) : Bool :=
  e.isFunction && (options.includeUndefinedSymbols || !e.isUndefined)

end SymbolEntry

namespace SymbolTable

/-- The most bytes of a name that are read. -/
def maxNameLength : Nat := 4096

/-- The name under which a request for a section that does not exist is reported. -/
def unknownName : String := "<symbols>"

/-- The name of a symbol table: the section's own, or the usual one for its type if it has none. -/
def nameOf (e : NamedHeader) : String :=
  if e.name = "" then
    if e.header.type = SectionHeader.typeDynsym then ".dynsym" else ".symtab"
  else e.name

/-- What a kept entry contributes. -/
def keep (strings : View) (source : SymbolSource) (index : Nat) (e : SymbolEntry) : TableEntry :=
  if e.nameOffset = 0 then { symbol := some (.function "" e.value source) }
  else
    match strings.cstring e.nameOffset.toNat maxNameLength with
    | .ok name => { symbol := some (.function name e.value source) }
    | .error _ =>
      { symbol := some (.function "" e.value source), notice := some (.symbolName index e.nameOffset.toNat) }

/-- What the entry at an index contributes. -/
def entryAt (entries strings : View) (ident : Ident) (entrySize : Nat) (source : SymbolSource) (options : Options)
    (index : Nat) : Except LoadError TableEntry := do
  let e ← SymbolEntry.read entries (index * entrySize) ident
  return if e.isKept options then keep strings source index e else {}

/-- The distance between entries. A table that states none has entries of the format's size. -/
def entrySize (cls : Class) (h : SectionHeader) : Except Fault Nat :=
  if h.entrySize = 0 then .ok cls.symbolSize
  else if h.entrySize.toNat < cls.symbolSize then .error (.entrySize h.entrySize.toNat cls.symbolSize)
  else .ok h.entrySize.toNat

/-- The contents of a table and of its linked section, and the distance between entries. -/
def parts (t : SectionTable) (h : SectionHeader) : Except Fault (View × View × Nat) :=
  let link := h.link.toNat
  if link = 0 ∨ t.count ≤ link then .error (.stringLink link)
  else
    match t.contentsOf h with
    | .error _ => .error (.entriesOutside h.offset.toNat h.size.toNat)
    | .ok entries =>
      match t.contents link with
      | .error _ => .error (.stringsOutside link)
      | .ok strings => (entrySize t.cls h).map fun size => (entries, strings, size)

/-- Reads a symbol table. -/
def readEntry (t : SectionTable) (e : NamedHeader) (order : Endianness) (source : SymbolSource) (options : Options) :
    TableReading :=
  let table := nameOf e
  match parts t e.header with
  | .error fault => ⟨table, .failed (.symbolTable table fault)⟩
  | .ok (entries, strings, size) =>
    let count := entries.size / size
    let limit := options.maxSymbolsPerTable.toNat
    let truncated := if limit < count then some (Notice.entriesTruncated count limit) else none
    ⟨table, .noting truncated
      (readEntries (entryAt entries strings ⟨t.cls, order⟩ size source options) (min count limit))⟩

/-- Reads the section at an index as a symbol table. -/
def read (t : SectionTable) (index : Nat) (order : Endianness) (source : SymbolSource) (options : Options) :
    TableReading :=
  match t.entries[index]? with
  | none => ⟨unknownName, .failed (.symbolTable unknownName (.sectionIndex index))⟩
  | some e => readEntry t e order source options

end SymbolTable

end ExecImage.Elf
