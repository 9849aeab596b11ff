/-!
# Reading mangled paths

The newer scheme for mangled paths is a grammar whose symbols are single letters. A part that occurs twice is written once:
later places refer back to it by its position. Numbers are written in base 62 and end with an underscore.

A cursor is a position in the mangled name with the number of constructs that are open around it, of which there may be at
most five hundred.
-/

namespace ExecImage.Mangled.PathName

/-- Why a mangled path cannot be read on. -/
inductive ParseError where
  /-- What comes next is not in the grammar. -/
  | invalid
  /-- Too many constructs are open. -/
  | tooDeep
  deriving DecidableEq, Repr

namespace ParseError

/-- What is shown in place of the part that cannot be read. -/
def message : ParseError → String
  | invalid => "\x7binvalid syntax\x7d"
  | tooDeep => "\x7brecursion limit reached\x7d"

end ParseError

/-- A position in a mangled name. -/
structure Cursor where
  /-- The number of characters before the position. -/
  next : Nat
  /-- The number of constructs that are open. -/
  depth : Nat
  deriving DecidableEq, Repr

/-- A reader of some part of a mangled name. -/
abbrev Parse (α : Type) := Array Char → Cursor → Except ParseError (α × Cursor)

/-- The most constructs that may be open. -/
def maxDepth : Nat := 500

/-- Opens a construct. -/
def enter : Parse Unit := fun _ c =>
  if maxDepth ≤ c.depth then .error .tooDeep else .ok ((), { c with depth := c.depth + 1 })

/-- The next character. -/
def anyChar : Parse Char := fun name c =>
  match name[c.next]? with
  | some d => .ok (d, { c with next := c.next + 1 })
  | none => .error .invalid

/-- Reads a character if it comes next. -/
def accept (d : Char) : Parse Bool := fun name c =>
  if name[c.next]? = some d then .ok (true, { c with next := c.next + 1 }) else .ok (false, c)

/-- The value of a digit in base 62: decimal digits, small letters, capitals. -/
def digit62? (d : Char) : Option Nat :=
  if d.isDigit then some (d.toNat - '0'.toNat)
  else if 'a' ≤ d ∧ d ≤ 'z' then some (10 + (d.toNat - 'a'.toNat))
  else if 'A' ≤ d ∧ d ≤ 'Z' then some (36 + (d.toNat - 'A'.toNat))
  else none

/-- The value of base 62 digits up to an underscore, after those read. The fuel bounds the number of digits. -/
def digits62 : (fuel : Nat) → Nat → Parse Nat
  | 0, _ => fun _ _ => .error .invalid
  | fuel + 1, n => fun name c => do
    let (d, c) ← anyChar name c
    if d = '_' then return (n, c)
    else
      match digit62? d with
      | some v => if n * 62 + v < UInt64.size then digits62 fuel (n * 62 + v) name c else throw .invalid
      | none => throw .invalid

/-- A number: zero is an underscore alone, and `n + 1` is `n` in base 62 and an underscore. -/
def integer62 : Parse Nat := fun name c => do
  let (isZero, c) ← accept '_' name c
  if isZero then return (0, c)
  else
    let (n, c) ← digits62 (name.size + 1) 0 name c
    if n + 1 < UInt64.size then return (n + 1, c) else throw .invalid

/-- A number after a mark, counted from one; zero if the mark does not come next. -/
def optInteger62 (mark : Char) : Parse Nat := fun name c => do
  let (isMarked, c) ← accept mark name c
  if isMarked then
    let (n, c) ← integer62 name c
    if n + 1 < UInt64.size then return (n + 1, c) else throw .invalid
  else return (0, c)

/-- The number that tells apart items of one name. -/
def disambiguator : Parse Nat :=
  optInteger62 's'

/-- The kind of a nested item: a capital for a special kind, nothing for the plain kinds. -/
def nestedKind : Parse (Option Char) := fun name c => do
  let (d, c) ← anyChar name c
  if 'A' ≤ d ∧ d ≤ 'Z' then return (some d, c)
  else if 'a' ≤ d ∧ d ≤ 'z' then return (none, c)
  else throw .invalid

/-- The position that a reference back leads to, which must be before the reference. -/
def backref : Parse Cursor := fun name c => do
  let (i, after) ← integer62 name c
  if i < c.next - 1 then
    let ((), target) ← enter name { next := i, depth := after.depth }
    return (target, after)
  else throw .invalid

/-- Hexadecimal digits up to an underscore. The fuel bounds their number. -/
def nibblesFrom : (fuel : Nat) → List Char → Parse (List Char)
  | 0, _ => fun _ _ => .error .invalid
  | fuel + 1, read => fun name c => do
    let (d, c) ← anyChar name c
    if d = '_' then return (read.reverse, c)
    else if d.isDigit || ('a' ≤ d && d ≤ 'f') then nibblesFrom fuel (d :: read) name c
    else throw .invalid

/-- Hexadecimal digits, small ones, that end with an underscore. -/
def nibbles : Parse (List Char) := fun name c =>
  nibblesFrom (name.size + 1) [] name c

/-- An identifier: characters that stand for themselves, and insertions in punycode or none. -/
structure Ident where
  /-- The characters. -/
  ascii : List Char
  /-- The insertions. -/
  punycode : List Char
  deriving DecidableEq, Repr

/-- The identifier has no characters and no insertions. -/
def Ident.isEmpty (i : Ident) : Bool :=
  i.ascii.isEmpty && i.punycode.isEmpty

/-- The value of decimal digits, after those read. The fuel bounds their number. -/
def decimalFrom : (fuel : Nat) → Nat → Array Char → Cursor → Nat × Cursor
  | 0, n, _, c => (n, c)
  | fuel + 1, n, name, c =>
    match name[c.next]? with
    | some d =>
      if d.isDigit then decimalFrom fuel (n * 10 + (d.toNat - '0'.toNat)) name { c with next := c.next + 1 } else (n, c)
    | none => (n, c)

/-- A length in decimal digits; a zero is a length of its own. -/
def decimal : Parse Nat := fun name c => do
  let (d, c) ← anyChar name c
  if d = '0' then return (0, c)
  else if d.isDigit then return decimalFrom name.size (d.toNat - '0'.toNat) name c
  else throw .invalid

/-- Splits an identifier at its last underscore. -/
def splitPunycode (cs : List Char) : Ident :=
  let after := cs.reverse.takeWhile (· != '_')
  { ascii := (cs.reverse.drop (after.length + 1)).reverse, punycode := after.reverse }

/-- An identifier, with its length and an underscore or none before it. -/
def ident : Parse Ident := fun name c => do
  let (isPunycode, c) ← accept 'u' name c
  let (len, c) ← decimal name c
  let (_, c) ← accept '_' name c
  if c.next + len ≤ name.size then
    let cs := (name.extract c.next (c.next + len)).toList
    let c := { c with next := c.next + len }
    if isPunycode then
      let i := splitPunycode cs
      if i.punycode.isEmpty then throw .invalid else return (i, c)
    else return ({ ascii := cs, punycode := [] }, c)
  else throw .invalid

end ExecImage.Mangled.PathName
