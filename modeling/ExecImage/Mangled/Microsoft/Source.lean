import ExecImage.Mangled.Reader
import ExecImage.Mangled.Microsoft.Vocabulary

/-!
# Reading names of the Microsoft scheme: types as they are written, numbers and identifiers

A name of this scheme is shown as it is read. The first ten identifiers and the first ten types of parameters that are longer
than one letter are kept, as they are shown, and later places refer back to them by a digit.
-/

namespace ExecImage.Mangled.Microsoft

/-- What decides how a type is wrapped. -/
inductive Shape where
  | plain
  | pointer
  /-- A function that is called in some way. -/
  | function (convention : String)
  | array
  deriving DecidableEq, Repr

/-- A type as it is written: what stands before and what stands behind the thing declared. -/
structure Written where
  left : List Char
  right : List Char := []
  shape : Shape := .plain
  deriving DecidableEq, Repr

/-- A text with a space after it, unless it ends with one or opens a parenthesis. -/
def spaced (cs : List Char) : List Char :=
  if cs.getLast?.all (· ∈ [' ', '(']) then cs else cs ++ [' ']

namespace Written

/-- A type that is a text. -/
def ofText (cs : List Char) : Written :=
  { left := cs }

/-- The type as it is written with nothing declared. -/
def text (w : Written) : List Char :=
  w.left ++ w.right

/-- The type with qualifiers. -/
def qualified (w : Written) (words : String) : Written :=
  { w with left := w.left ++ words.toList }

/-- A pointer or a reference to the type, or to a member of the type if a class comes before the symbol. -/
def pointer (w : Written) (owner : List Char) (symbol : String) : Written :=
  let mark := owner ++ symbol.toList
  match w.shape with
  | .function convention =>
    let called := spaced w.left ++ '(' :: convention.toList
    { left := (if owner.isEmpty then called else spaced called) ++ mark, right := ')' :: w.right, shape := .pointer }
  | .array => { left := spaced w.left ++ '(' :: mark, right := ')' :: w.right, shape := .pointer }
  | _ => { left := spaced w.left ++ mark, right := w.right, shape := .pointer }

end Written

/-- What is kept of the characters of a name that have been read. -/
structure Memory where
  /-- Identifiers and names of templates with their arguments. -/
  names : List (List Char) := []
  /-- Types of parameters. -/
  types : List Written := []

/-- A reader of some part of a mangled name. -/
abbrev Parse := Reader Memory

namespace Parse

open Reader

/-- The most names and the most types that are kept. -/
def maxKept : Nat := 10

/-- Keeps a name that is not kept yet. -/
def rememberName (name : List Char) : Parse Unit :=
  keep fun m => if name ∈ m.names ∨ maxKept ≤ m.names.length then m else { m with names := m.names ++ [name] }

/-- Keeps a type. -/
def rememberType (w : Written) : Parse Unit :=
  keep fun m => if maxKept ≤ m.types.length then m else { m with types := m.types ++ [w] }

/-- A decimal digit. -/
def digit : Parse Nat := do
  let c ← next
  if c.isDigit then return c.toNat - '0'.toNat else failure

/-- A name that was kept. -/
def knownName : Parse (List Char) := do
  match (← kept).names[← digit]? with
  | some name => return name
  | none => failure

/-- A type that was kept. -/
def knownType : Parse Written := do
  match (← kept).types[← digit]? with
  | some w => return w
  | none => failure

/-- A word with a code. -/
def word (words : List Word) : Parse String :=
  Word.text <$> choose Word.code words

/-- A number: a digit that is one less, or digits in base 16 from the letter `A` on, up to an at sign. -/
def natural : Parse Nat :=
  ((· + 1) <$> digit) <|>
    (do let digits ← takeWhile fun c => 'A' ≤ c && c ≤ 'P'
        exactly "@"
        return digits.foldl (fun n c => n * 16 + (c.toNat - 'A'.toNat)) 0)

/-- A number after the mark for a sign, if it is negative. -/
def integer : Parse Int := do
  let isNegative ← accept "?"
  let n ← natural
  return if isNegative then -n else n

/-- Characters up to an at sign, of which there is one. A digit or a question mark starts no identifier. -/
def identifier : Parse (List Char) := do
  let name ← takeWhile (· != '@')
  exactly "@"
  match name with
  | c :: _ => if c.isDigit || c = '?' then failure else return name
  | [] => failure

/-- An identifier, which is kept. -/
def newName : Parse (List Char) := do
  let name ← identifier
  rememberName name
  return name

/-- What a reader reads with nothing kept, after which what was kept before is kept again. -/
def apart {α : Type} (p : Parse α) : Parse α := do
  let before ← kept
  keep fun _ => {}
  let x ← p
  keep fun _ => before
  return x

/-- Marks of pointers that are not shown: of their size and of how they may be used. -/
def pointerMarks : Parse Unit := do
  let _ ← many (oneOf ['E', 'F', 'I'])

end Parse

end ExecImage.Mangled.Microsoft
