import ExecImage.Pe.SectionTable
import ExecImage.SymbolTable

/-!
# The export directory

The directory leads to three tables: names, for each name an ordinal, and the addresses that ordinals select. Every named
export whose address is not inside the directory itself becomes a symbol; an address inside it means that another image
provides the function, and such an export is passed over.
-/

namespace ExecImage.Pe

/-- The fields of the export directory. -/
structure ExportDirectory where
  /-- Where the name of the image is. -/
  nameRva : UInt32
  /-- The number that ordinals start from. -/
  ordinalBase : UInt32
  /-- The number of addresses. -/
  functionCount : UInt32
  /-- The number of names. -/
  nameCount : UInt32
  /-- Where the addresses are. -/
  addressTableRva : UInt32
  /-- Where the names are. -/
  nameTableRva : UInt32
  /-- Where the ordinals are. -/
  ordinalTableRva : UInt32
  deriving DecidableEq, Repr, Inhabited

namespace Exports

/-- The name under which exports are reported. -/
def tableName : String := "exports"

/-- The most bytes of a name that are read. -/
def maxNameLength : Nat := 512

/-- A fault of the exports. -/
def fault {α : Type} (f : Fault) : Except LoadError α :=
  .error (.symbolTable tableName f)

end Exports

namespace ExportDirectory

/-- The size of the directory. -/
def size : Nat := 40

/-- Reads the directory. -/
def read (v : View) (offset : Nat) : Except LoadError ExportDirectory := do
  match v.sub offset size with
  | .error _ => Exports.fault (.directoryOutside offset)
  | .ok d =>
    return {
      nameRva := ← d.word32 12 .little
      ordinalBase := ← d.word32 16 .little
      functionCount := ← d.word32 20 .little
      nameCount := ← d.word32 24 .little
      addressTableRva := ← d.word32 28 .little
      nameTableRva := ← d.word32 32 .little
      ordinalTableRva := ← d.word32 36 .little }

end ExportDirectory

namespace Exports

/-- Where a part of the exports lies in the file. -/
def resolve (sections : SectionTable) (part : ExportPart) (rva : UInt32) : Except LoadError Nat :=
  match sections.fileOffset? rva with
  | some offset => .ok offset
  | none => fault (.notBacked part rva.toNat)

/-- Where the three tables lie in the file. -/
structure Tables where
  addresses : Nat
  names : Nat
  ordinals : Nat
  deriving DecidableEq, Repr, Inhabited

/-- Finds the three tables. -/
def locate (sections : SectionTable) (d : ExportDirectory) : Except LoadError Tables := do
  return {
    addresses := ← resolve sections .addressTable d.addressTableRva
    names := ← resolve sections .nameTable d.nameTableRva
    ordinals := ← resolve sections .ordinalTable d.ordinalTableRva }

/-- A field of a table, or the fault that it is not in the file. -/
def field {α : Type} (part : ExportPart) (index : Nat) (r : Except LoadError α) : Except LoadError α :=
  match r with
  | .ok x => .ok x
  | .error _ => fault (.exportEntryOutside part index)

/-- The name at a relative address, if it can be read. -/
def name? (v : View) (sections : SectionTable) (rva : UInt32) : Option String :=
  match sections.fileOffset? rva with
  | none => none
  | some offset =>
    match v.cstring offset maxNameLength with
    | .ok name => some name
    | .error _ => none

/-- What an export with a function address contributes. -/
def keep (v : View) (sections : SectionTable) (directory : DataDirectory) (optional : OptionalHeader)
    (index : Nat) (nameRva functionRva : UInt32) : TableEntry :=
  if directory.Contains functionRva then {}
  else
    let addr := optional.va functionRva.toUInt64
    match name? v sections nameRva with
    | some name => { symbol := some (.function name addr .exported) }
    | none =>
      { symbol := some (.function "" addr .exported), notice := some (.exportName index nameRva.toNat) }

/-- What the export at an index of the names contributes. -/
def entryAt (v : View) (sections : SectionTable) (directory : DataDirectory) (optional : OptionalHeader)
    (functionCount : UInt32) (t : Tables) (index : Nat) : Except LoadError TableEntry := do
  let nameRva ← field .nameTable index (v.word32 (t.names + index * 4) .little)
  let ordinal ← field .ordinalTable index (v.word16 (t.ordinals + index * 2) .little)
  if functionCount.toNat ≤ ordinal.toNat then
    return { notice := some (.exportOrdinal index ordinal.toNat) }
  else
    let functionRva ← field .addressTable ordinal.toNat (v.word32 (t.addresses + ordinal.toNat * 4) .little)
    return keep v sections directory optional index nameRva functionRva

/-- Reads the named exports of a directory that has been found. A directory without names needs no tables. -/
def readNames (v : View) (sections : SectionTable) (directory : DataDirectory) (optional : OptionalHeader)
    (d : ExportDirectory) (count : Nat) : Reading :=
  if count = 0 then {}
  else
    match locate sections d with
    | .error error => .failed error
    | .ok t => readEntries (entryAt v sections directory optional d.functionCount t) count

/-- Finds and reads the directory. -/
def findDirectory (v : View) (sections : SectionTable) (directory : DataDirectory) :
    Except LoadError ExportDirectory := do
  ExportDirectory.read v (← resolve sections .directory directory.rva)

/-- Reads the exports. -/
def read (v : View) (sections : SectionTable) (directory : DataDirectory) (optional : OptionalHeader)
    (options : Options) : TableReading :=
  match findDirectory v sections directory with
  | .error error => ⟨tableName, .failed error⟩
  | .ok d =>
    let count := d.nameCount.toNat
    let limit := options.maxExports.toNat
    let truncated := if limit < count then some (Notice.exportsTruncated count limit) else none
    ⟨tableName, .noting truncated (readNames v sections directory optional d (min count limit))⟩

end Exports

end ExecImage.Pe
