import ExecImage.Pe.SectionTable
import ExecImage.SymbolTable

/-!
# The COFF symbol table

The table is a sequence of records of eighteen bytes. A record may be followed by auxiliary records that belong to it and are
no symbols; it says how many. Functions that are defined in a section become symbols at the section's address plus their
value.
-/

namespace ExecImage.Pe

/-- A record of the COFF symbol table. -/
structure CoffRecord where
  /-- The eight bytes of the name: the name itself, or four zeros and the offset of a string. -/
  nameField : Bytes
  /-- The offset from the start of the section. -/
  value : UInt32
  /-- The number of the section, from 1; zero and, read as a signed number, negative numbers name none. -/
  sectionNumber : UInt16
  /-- The type. -/
  type : UInt16
  /-- How the symbol is stored. -/
  storageClass : UInt8
  /-- The number of auxiliary records that follow. -/
  auxiliaries : UInt8
  deriving DecidableEq, Repr, Inhabited

namespace CoffRecord

/-- The record is of a function, external (2) or static (3). -/
def isFunction (r : CoffRecord) : Bool :=
  r.type &&& 0x30 == 0x20 && (r.storageClass == 2 || r.storageClass == 3)

/-- The record names a section by number. -/
def isDefined (r : CoffRecord) : Bool :=
  0 < r.sectionNumber && r.sectionNumber < 0x8000

/-- The offset of the string that is the name, if the name does not stand in the record. -/
def stringOffset? (r : CoffRecord) : Option Nat :=
  let field := r.nameField.toList
  if field.take 4 = [0, 0, 0, 0] then some (littleValue (field.drop 4)) else none

/-- The name that stands in the record. -/
def inlineName (r : CoffRecord) : String :=
  Utf8.decode (r.nameField.toList.takeWhile (· != 0))

/-- Reads a record. -/
def read (v : View) (offset : Nat) : Except LoadError CoffRecord := do
  discard <| v.slice offset symbolRecordSize
  return {
    nameField := ← v.slice offset 8
    value := ← v.word32 (offset + 8) .little
    sectionNumber := ← v.word16 (offset + 12) .little
    type := ← v.word16 (offset + 14) .little
    storageClass := ← v.byte (offset + 16)
    auxiliaries := ← v.byte (offset + 17) }

end CoffRecord

namespace CoffSymbols

/-- The name of a record, or the offset at which there is none. -/
def nameOf (r : CoffRecord) (strings : Option StringTable) : Except Nat String :=
  match r.stringOffset? with
  | none => .ok r.inlineName
  | some offset =>
    match strings with
    | none => .error offset
    | some t =>
      match t.get offset with
      | .ok name => .ok name
      | .error _ => .error offset

/-- The symbol of a record in a section. -/
def symbol (r : CoffRecord) (h : SectionHeader) (name : String) (optional : OptionalHeader) : Symbol :=
  .function name (optional.va (h.virtualAddress.toUInt64 + r.value.toUInt64)) .static

/-- What a record contributes besides its auxiliary records. -/
def keep (r : CoffRecord) (strings : Option StringTable) (sections : SectionTable) (optional : OptionalHeader)
    (index : Nat) : TableEntry :=
  if r.isFunction && r.isDefined then
    match sections.header? (r.sectionNumber.toNat - 1) with
    | none => { notice := some (.symbolSection index r.sectionNumber.toNat) }
    | some h =>
      match nameOf r strings with
      | .ok name => { symbol := some (symbol r h name optional) }
      | .error offset =>
        { symbol := some (symbol r h "" optional), notice := some (.symbolName index offset) }
  else {}

/-- Where the record at an index lies in the file. -/
def recordOffset (file : FileHeader) (index : Nat) : Nat :=
  file.symbolPointer.toNat + index * symbolRecordSize

/-- What the record at an index contributes. A record outside the file is a fault of the table. -/
def entryAt (v : View) (file : FileHeader) (strings : Option StringTable) (sections : SectionTable)
    (optional : OptionalHeader) (index : Nat) : Except LoadError TableEntry :=
  match CoffRecord.read v (recordOffset file index) with
  | .ok r => .ok { keep r strings sections optional index with trailing := r.auxiliaries.toNat }
  | .error (.outOfBounds offset len size) => .error (.symbolTable coffName (.recordOutside offset len size))
  | .error error => .error error

/-- Reads the COFF symbol table. -/
def read (v : View) (file : FileHeader) (strings : Option StringTable) (sections : SectionTable)
    (optional : OptionalHeader) (options : Options) : TableReading :=
  let count := file.symbolCount.toNat
  let limit := options.maxSymbolsPerTable.toNat
  let truncated := if limit < count then some (Notice.recordsTruncated count limit) else none
  ⟨coffName, .noting truncated (readEntries (entryAt v file strings sections optional) (min count limit))⟩

end CoffSymbols

end ExecImage.Pe
