import ExecImage.Mangled.Itanium.Expressions
import ExecImage.Mangled.Itanium.Names
import ExecImage.Mangled.Itanium.Types

/-!
# Reading whole names of the Itanium scheme

The rules of the grammar, level on level. At most ninety-six constructs may be open in one another.
-/

namespace ExecImage.Mangled.Itanium

open Reader Parse

/-- Readers one level further out. -/
def Readers.outward (inner : Readers) : Readers where
  encoding := inner.readEncoding
  special := inner.readSpecial
  name := inner.readName
  nested := inner.readNested
  path := inner.readPath
  pathStep := inner.readPathStep
  localName := inner.readLocalName
  unqualified := inner.readUnqualified
  operatorName := inner.readOperatorName
  arguments := inner.readArguments
  argument := inner.readArgument
  signature := inner.readSignature
  type := inner.readType
  classType := inner.readClassType
  functionType := inner.readFunctionType
  decltype := inner.readDecltype
  primary := inner.readPrimary
  unresolved := inner.readUnresolved
  expression := inner.readExpression

/-- Readers at a level inside which a number of constructs may be opened in one another. -/
def readersWith : (room : Nat) → Readers
  | 0 => .innermost
  | room + 1 => (readersWith room).outward

/-- The most constructs that may be open in one another. -/
def maxOpen : Nat := 96

/-- What a compiler appends to the name of a copy of a function: a word and numbers, each after a period. -/
def cloneSuffix : Parse (List Char) := do
  exactly "."
  let word ← takeWhile fun c => c.isAlphanum || c = '$' || c = '_'
  if word.isEmpty then failure
  let numbers ← many (do exactly "."; decimal)
  return '.' :: word ++ (numbers.flatMap fun n => '.' :: (toString n).toList)

/-- A mangled name: what it is made of and the suffixes of copies. -/
def mangledName : Parse (Part × List (List Char)) := do
  if !(← accept "_Z") then exactly "__Z"
  let p ← (readersWith (maxOpen - 1)).encoding
  return (p, ← many cloneSuffix)

/-- What a mangled name is made of, if the scheme leaves no characters over. -/
def parse? (cs : List Char) : Option (Part × List (List Char)) :=
  match mangledName { rest := cs, kept := {} } with
  | some (p, s) => if s.rest.isEmpty then some p else none
  | none => none

end ExecImage.Mangled.Itanium
