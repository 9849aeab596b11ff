import ExecImage.Pe.Header

/-!
# The COFF string table

Names that are longer than eight bytes lie in a string table after the records of the COFF symbol table. It starts with its
own size, four bytes that count as part of it, and offsets into it count from there.
-/

namespace ExecImage.Pe

/-- The size of a record of the COFF symbol table. -/
def symbolRecordSize : Nat := 18

/-- The name under which faults of the COFF tables are reported. -/
def coffName : String := "coff"

/-- The string table of an image, with the four bytes of its size. -/
structure StringTable where
  /-- The bytes. -/
  view : View
  deriving DecidableEq, Inhabited

namespace StringTable

/-- The most bytes of a string that are read. -/
def maxLength : Nat := 4096

/-- The size of the size field. -/
def sizeField : Nat := 4

/-- Where the string table starts in the file. -/
def offset (symbolPointer symbolCount : UInt32) : Nat :=
  symbolPointer.toNat + symbolCount.toNat * symbolRecordSize

/-- Finds the string table. There is none if there is no symbol table, or if it does not lie in the file as its size
says. -/
def locate? (v : View) (symbolPointer symbolCount : UInt32) : Option StringTable :=
  if symbolPointer = 0 then none
  else
    let start := offset symbolPointer symbolCount
    match v.word32 start .little with
    | .error _ => none
    | .ok size =>
      if size.toNat < sizeField then none
      else
        match v.sub start size.toNat with
        | .ok view => some ⟨view⟩
        | .error _ => none

/-- The string at an offset. -/
def get (t : StringTable) (offset : Nat) : Except LoadError String :=
  if offset < sizeField then .error (.symbolTable coffName (.stringOffset offset))
  else t.view.cstring offset maxLength

end StringTable

end ExecImage.Pe
