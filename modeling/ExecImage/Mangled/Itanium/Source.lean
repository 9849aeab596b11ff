import ExecImage.Mangled.Itanium.Part
import ExecImage.Mangled.Reader

/-!
# Reading names of the Itanium scheme: numbers, identifiers and references back

What is kept of a name is the list of its parts that later places may refer back to.
-/

namespace ExecImage.Mangled.Itanium

/-- What is kept of the characters of a name that have been read. -/
structure Memory where
  /-- The parts that may be referred back to, in order. -/
  parts : Array Part := #[]
  /-- The target of a conversion function is being read. Arguments after it belong to the function. -/
  inConversion : Bool := false

/-- A reader of some part of a mangled name. -/
abbrev Parse := Reader Memory

namespace Parse

open Reader

/-- What a reader reads up to the letter that ends a list. -/
def untilEnd {α : Type} (p : Parse α) : Parse (List α) := do
  let xs ← many p
  exactly "E"
  return xs

/-- Keeps a part, so that later places may refer back to it. -/
def remember (p : Part) : Parse Part := do
  keep fun m => { m with parts := m.parts.push p }
  return p

/-- The value of digits of a base, of which there is at least one and no zero in front of others. Numbers have 63 bits. -/
def numberOf (base : Nat) (digits : List Char) (value : Char → Nat) : Parse Nat :=
  match digits with
  | [] => failure
  | '0' :: _ :: _ => failure
  | digits =>
    let n := digits.foldl (fun n c => n * base + value c) 0
    if 2 * n < UInt64.size then pure n else failure

/-- A decimal number. -/
def decimal : Parse Nat := do
  numberOf 10 (← takeWhile Char.isDigit) fun c => c.toNat - '0'.toNat

/-- A decimal number after the letter for a sign, if it is negative. -/
def integer : Parse Int := do
  let isNegative ← accept "n"
  let n ← decimal
  return if isNegative then -n else n

/-- A number in base 36, with capitals for the digits after nine. -/
def base36 : Parse Nat := do
  let digits ← takeWhile fun c => c.isDigit || ('A' ≤ c && c ≤ 'Z')
  numberOf 36 digits fun c => if c.isDigit then c.toNat - '0'.toNat else c.toNat - 'A'.toNat + 10

/-- A number that ends with an underscore, counted from one: nothing stands for zero. -/
def ordinal (number : Parse Nat) : Parse Nat := do
  let n ← maybe number
  exactly "_"
  return match n with
    | some n => n + 1
    | none => 0

/-- The character may be in an identifier. -/
def isIdentifierChar (c : Char) : Bool :=
  c.isAlphanum || c = '$' || c = '_' || c = '.'

/-- An identifier after its length. -/
def identifier : Parse (List Char) := do
  let n ← decimal
  if n = 0 then failure
  let name ← take n
  if name.all isIdentifierChar then return name else failure

/-- A tag of a name. -/
def tag : Parse (List Char) := do
  exactly "B"
  identifier

/-- A name with the tags after it, if there are any. -/
def withTags (name : Part) : Parse Part := do
  let tags ← many tag
  return if tags.isEmpty then name else .tagged name tags

/-- The number that tells apart things of one name in one function: one digit, or ten and more between underscores. -/
def discriminator : Parse Nat := do
  exactly "_"
  if ← accept "_" then
    let n ← decimal
    if n < 10 then failure
    exactly "_"
    return n
  else
    let c ← next
    if c.isDigit then return c.toNat - '0'.toNat else failure

/-- Qualifiers of a type, or none. -/
def qualifiers : Parse Qualifiers := do
  let isRestrict ← accept "r"
  let isVolatile ← accept "V"
  let isConst ← accept "K"
  return { isConst, isVolatile, isRestrict }

/-- Qualifiers of a type, of which there is at least one. -/
def someQualifiers : Parse Qualifiers := do
  let q ← qualifiers
  if q = .none then failure else return q

/-- The kind of reference that a function is called on. -/
def referenceKind : Parse ReferenceKind :=
  (do exactly "R"; return .lvalue) <|> (do exactly "O"; return .rvalue)

/-- A basic type. -/
def basicType : Parse Part :=
  Part.basic <$> choose BasicType.code basicTypes

/-- An operator. -/
def operator : Parse Operator :=
  choose Operator.code operators

/-- A name of the standard library with a code of its own. -/
def abbreviation : Parse Part := do
  match Abbreviation.ofLetter? (← next) with
  | some a => return .abbreviation a
  | none => failure

/-- A part that has been read before, by its number. -/
def reference : Parse Part := do
  let i ← ordinal base36
  match (← kept).parts[i]? with
  | some p => return p
  | none => failure

/-- A name of the standard library with a code of its own, or a reference back to a part. -/
def substitution : Parse Part := do
  exactly "S"
  abbreviation <|> reference

/-- A parameter of a template. -/
def parameter : Parse Part := do
  exactly "T"
  return .parameter (← ordinal decimal)

/-- An adjustment by a constant, after its letter. -/
def offset : Parse Adjustment := do
  let n ← integer
  exactly "_"
  return .offset n

/-- An adjustment by a constant and by an entry of a virtual table, after its letter. -/
def virtualOffset : Parse Adjustment := do
  let n ← integer
  exactly "_"
  let entry ← integer
  exactly "_"
  return .virtualOffset n entry

/-- How a thunk adjusts an address. -/
def adjustment : Parse Adjustment := do
  if ← accept "h" then offset
  else
    exactly "v"
    virtualOffset

end Parse

end ExecImage.Mangled.Itanium
