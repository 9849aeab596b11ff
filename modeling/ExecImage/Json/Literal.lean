import ExecImage.Text

/-!
# String literals of JSON

Between its quotes a literal holds characters, short escapes and escapes of four hexadecimal digits. The last kind names
a UTF-16 unit, and two of them in a row may name one character. A literal whose units do not pair up is well formed as a
literal but holds no text.

Written literals escape the quote, the backslash and the control characters below U+0020, and nothing else.
-/

namespace ExecImage.Json

/-- A part of a string literal. -/
inductive Piece where
  /-- A character, written as itself or by a short escape. -/
  | char (c : Char)
  /-- A UTF-16 unit, written in hexadecimal digits. -/
  | unit (n : Nat)
  deriving DecidableEq, Repr

/-- A unit that starts a pair. -/
def isLeading (n : Nat) : Bool :=
  0xD800 ≤ n && n < 0xDC00

/-- A unit that ends a pair. -/
def isTrailing (n : Nat) : Bool :=
  0xDC00 ≤ n && n < 0xE000

/-- The character of a pair of units. -/
def pairChar (high low : Nat) : Char :=
  Char.ofNat (0x10000 + (high - 0xD800) * 0x400 + (low - 0xDC00))

/-- The text of the parts of a literal, or nothing if a unit stands without its partner. -/
def assemble : List Piece → Option (List Char)
  | [] => some []
  | .char c :: ps => (assemble ps).map (c :: ·)
  | .unit high :: .unit low :: ps =>
    if isLeading high then
      if isTrailing low then (assemble ps).map (pairChar high low :: ·) else none
    else if isTrailing high then none
    else (assemble (.unit low :: ps)).map (Char.ofNat high :: ·)
  | .unit n :: ps =>
    if isLeading n || isTrailing n then none else (assemble ps).map (Char.ofNat n :: ·)

/-- The character that a short escape stands for. -/
def shortEscape? : Char → Option Char
  | '"' => some '"'
  | '\\' => some '\\'
  | '/' => some '/'
  | 'b' => some '\x08'
  | 'f' => some '\x0C'
  | 'n' => some '\n'
  | 'r' => some '\r'
  | 't' => some '\t'
  | _ => none

/-- The value of a hexadecimal digit of either case. -/
def hexValue? (c : Char) : Option Nat :=
  if '0' ≤ c ∧ c ≤ '9' then some (c.toNat - '0'.toNat)
  else if 'a' ≤ c ∧ c ≤ 'f' then some (c.toNat - 'a'.toNat + 10)
  else if 'A' ≤ c ∧ c ≤ 'F' then some (c.toNat - 'A'.toNat + 10)
  else none

/-- A character as it is written in a literal. -/
def escape (c : Char) : List Char :=
  if c = '"' then ['\\', '"']
  else if c = '\\' then ['\\', '\\']
  else if c = '\x08' then ['\\', 'b']
  else if c = '\x0C' then ['\\', 'f']
  else if c = '\n' then ['\\', 'n']
  else if c = '\r' then ['\\', 'r']
  else if c = '\t' then ['\\', 't']
  else if c.toNat < 0x20 then ['\\', 'u', '0', '0'] ++ Text.hexByte (UInt8.ofNat c.toNat)
  else [c]

/-- A text as a literal. -/
def quote (s : String) : List Char :=
  '"' :: (s.toList.flatMap escape ++ ['"'])

end ExecImage.Json
