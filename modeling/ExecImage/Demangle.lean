import ExecImage.Symbol
import ExecImage.Mangled.HashedPath
import ExecImage.Mangled.Itanium.Parser
import ExecImage.Mangled.Itanium.Printer
import ExecImage.Mangled.Microsoft.Symbol
import ExecImage.Mangled.PathPrinter

/-!
# Readable forms of mangled names

A linker sees a name with all that tells it apart from others of the same spelling packed into its characters. There are
several schemes, and a name is read in the first of them that it fits.
-/

namespace ExecImage

namespace Mangled

/-- What an optimizer puts after a name that it makes visible to other parts of a program. -/
def importMark : List Char := ".llvm.".toList

/-- The parts of a name before and after the first occurrence of a mark. -/
def splitAtMark? (mark : List Char) : List Char → Option (List Char × List Char)
  | [] => none
  | c :: cs =>
    if mark.isPrefixOf (c :: cs) then some ([], (c :: cs).drop mark.length)
    else (splitAtMark? mark cs).map fun (before, after) => (c :: before, after)

/-- The character may follow the mark of an import. -/
def isImportDigit (c : Char) : Bool :=
  c.isDigit || ('A' ≤ c && c ≤ 'F') || c = '@'

/-- A name without the mark of an import at its end. -/
def dropImport (cs : List Char) : List Char :=
  match splitAtMark? importMark cs with
  | some (before, after) => if after.all isImportDigit then before else cs
  | none => cs

/-- What may be left of a name after a path: nothing, or words that start with a period. -/
def isPathSuffix : List Char → Bool
  | [] => true
  | c :: cs => c = '.' && cs.all fun d => 0x21 ≤ d.toNat && d.toNat ≤ 0x7E

/-- The readable form of a name in one of the two path schemes. -/
def readPath? (cs : List Char) : Option (List Char) := do
  let name := dropImport cs
  let (shown, suffix) ← (HashedPath.read? name).or (PathName.read? name)
  if isPathSuffix suffix then some (shown ++ suffix) else none

/-- The readable form of a name in the Itanium scheme. -/
def readItanium? (cs : List Char) : Option (List Char) := do
  let (p, suffixes) ← Itanium.parse? cs
  Itanium.render? p suffixes

end Mangled

/-- The readable form of a mangled name. -/
def demangle? (name : String) : Option String :=
  let cs := name.toList
  (((Mangled.readPath? cs).or (Mangled.readItanium? cs)).or (Mangled.Microsoft.read? cs)).map String.ofList

namespace Symbol

/-- The readable form of the symbol's name, if it is a mangled name. -/
def demangledName? (s : Symbol) : Option String :=
  demangle? s.name

end Symbol

end ExecImage
