/-!
# Paths with a hash

The older of two schemes for mangled paths: `_ZN`, the elements of the path, each after its length in decimal digits, and
`E`. The last element is usually a hash, `h` and hexadecimal digits, and is not shown. Characters that a linker's symbols
do not admit are written as escapes between dollar signs, and `::` inside an element as two dots.

An element is shown up to the first escape that is no escape, and as it is written from there on.
-/

namespace ExecImage.Mangled.HashedPath

/-- Where a reader stands among the elements of a path. -/
inductive Place where
  /-- Before an element or the end. -/
  | between
  /-- In the digits of a length, with their value so far. -/
  | length (n : Nat)
  /-- In an element of which some characters are owed, after those read, last first. -/
  | inside (owed : Nat) (read : List Char)

/-- The value of a decimal digit. -/
def digitValue (c : Char) : Nat :=
  c.toNat - '0'.toNat

/-- The elements from a place on and what follows the path. -/
def elementsFrom : Place → List Char → Option (List (List Char) × List Char)
  | _, [] => none
  | .between, c :: cs =>
    if c = 'E' then some ([], cs)
    else if c.isDigit then elementsFrom (.length (digitValue c)) cs
    else none
  | .length n, c :: cs =>
    if c.isDigit then elementsFrom (.length (n * 10 + digitValue c)) cs
    else
      match n with
      | 0 => if c = 'E' then some ([[]], cs) else none
      | 1 => (elementsFrom .between cs).map fun (es, rest) => ([c] :: es, rest)
      | n + 2 => elementsFrom (.inside n [c]) cs
  | .inside 0 read, c :: cs =>
    (elementsFrom .between cs).map fun (es, rest) => ((c :: read).reverse :: es, rest)
  | .inside (owed + 1) read, c :: cs => elementsFrom (.inside owed (c :: read)) cs

/-- The characters after one of several marks, the first that fits. -/
def afterMark? (marks : List String) (cs : List Char) : Option (List Char) :=
  (marks.find? fun m => m.toList.isPrefixOf cs).map fun m => cs.drop m.length

/-- The elements of a mangled path and what follows it. -/
def elements? (cs : List Char) : Option (List (List Char) × List Char) := do
  let inner ← afterMark? ["_ZN", "ZN", "__ZN"] cs
  if inner.all fun c => c.toNat < 0x80 then elementsFrom .between inner else none

/-- The character is a hexadecimal digit of either case. -/
def isHexDigit (c : Char) : Bool :=
  c.isDigit || ('a' ≤ c && c ≤ 'f') || ('A' ≤ c && c ≤ 'F')

/-- The element is a hash. -/
def isHash : List Char → Bool
  | 'h' :: cs => cs.all isHexDigit
  | _ => false

/-- The value of lower-case hexadecimal digits, of which there must be one. -/
def lowerHex? (cs : List Char) : Option Nat :=
  if cs.isEmpty || !cs.all (fun c => c.isDigit || ('a' ≤ c && c ≤ 'f')) then none
  else some (cs.foldl (fun n c => n * 16 + if c.isDigit then digitValue c else c.toNat - 'a'.toNat + 10) 0)

/-- The number is that of a character that is no control. -/
def isShown (n : Nat) : Bool :=
  n.isValidChar && !(n < 0x20 || (0x7F ≤ n && n < 0xA0))

/-- What an escape stands for. -/
def unescape? (cs : List Char) : Option Char :=
  match cs with
  | ['S', 'P'] => some '@'
  | ['B', 'P'] => some '*'
  | ['R', 'F'] => some '&'
  | ['L', 'T'] => some '<'
  | ['G', 'T'] => some '>'
  | ['L', 'P'] => some '('
  | ['R', 'P'] => some ')'
  | ['C'] => some ','
  | 'u' :: digits => (lowerHex? digits).bind fun n => if isShown n then some (Char.ofNat n) else none
  | _ => none

/-- An element as it is shown, after the characters of an escape that is open, last first, if one is. -/
def showFrom : Option (List Char) → List Char → List Char
  | none, [] => []
  | some read, [] => '$' :: read.reverse
  | none, '.' :: '.' :: cs => ':' :: ':' :: showFrom none cs
  | none, c :: cs => if c = '$' then showFrom (some []) cs else c :: showFrom none cs
  | some read, c :: cs =>
    if c = '$' then
      match unescape? read.reverse with
      | some d => d :: showFrom none cs
      | none => '$' :: (read.reverse ++ '$' :: cs)
    else showFrom (some (c :: read)) cs

/-- An element as it is shown. An underscore that keeps a dollar sign from being first is left out. -/
def showElement : List Char → List Char
  | '_' :: '$' :: cs => showFrom none ('$' :: cs)
  | cs => showFrom none cs

/-- The elements that are shown: all but a hash at the end. -/
def shown : List (List Char) → List (List Char)
  | [] => []
  | [e] => if isHash e then [] else [e]
  | e :: es => e :: shown es

/-- A path as it is shown. -/
def render (es : List (List Char)) : List Char :=
  List.intercalate [':', ':'] ((shown es).map showElement)

/-- The readable form of a mangled path and what follows it. -/
def read? (cs : List Char) : Option (List Char × List Char) :=
  (elements? cs).map fun (es, rest) => (render es, rest)

end ExecImage.Mangled.HashedPath
