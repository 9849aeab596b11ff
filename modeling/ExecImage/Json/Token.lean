import ExecImage.Json.Literal

/-!
# Tokens of JSON

A document is read character by character by a machine whose state is the token that is open. A number has no end mark: it
ends at the first character that cannot continue it, which is then read afresh.

Of a number only this matters here: whether it is written in decimal digits alone, and then its value. Any other number
is kept as written.
-/

namespace ExecImage.Json

/-- A token of a document. -/
inductive Token where
  | null
  | bool (b : Bool)
  /-- A number written in decimal digits alone. -/
  | natural (n : Nat)
  /-- A number with a sign, a fraction or an exponent. -/
  | number (text : String)
  /-- A string literal with its text, if it holds one. -/
  | text (s : Option String)
  | comma
  | colon
  | openArray
  | closeArray
  | openObject
  | closeObject
  deriving DecidableEq, Repr

/-- How far a number has been read. -/
inductive NumberPart where
  /-- After the sign. -/
  | sign
  /-- After an integer part that is zero. -/
  | zero
  /-- In an integer part that is not zero. -/
  | integer
  /-- After the point. -/
  | point
  /-- In the digits after the point. -/
  | fraction
  /-- After the mark of the exponent. -/
  | mark
  /-- After the sign of the exponent. -/
  | markSign
  /-- In the digits of the exponent. -/
  | exponent
  deriving DecidableEq, Repr

namespace NumberPart

/-- The number may end here. -/
def isComplete : NumberPart → Bool
  | zero | integer | fraction | exponent => true
  | _ => false

/-- The part of a number after one more character, if the character continues it. -/
def next? (part : NumberPart) (c : Char) : Option NumberPart :=
  match part with
  | sign => if c = '0' then some zero else if c.isDigit then some integer else none
  | zero => if c = '.' then some point else if c = 'e' ∨ c = 'E' then some mark else none
  | integer =>
    if c.isDigit then some integer
    else if c = '.' then some point
    else if c = 'e' ∨ c = 'E' then some mark
    else none
  | point => if c.isDigit then some fraction else none
  | fraction => if c.isDigit then some fraction else if c = 'e' ∨ c = 'E' then some mark else none
  | mark => if c.isDigit then some exponent else if c = '+' ∨ c = '-' then some markSign else none
  | markSign => if c.isDigit then some exponent else none
  | exponent => if c.isDigit then some exponent else none

end NumberPart

/-- The value of decimal digits. -/
def decimalValue (digits : List Char) : Nat :=
  digits.foldl (fun n c => n * 10 + (c.toNat - '0'.toNat)) 0

/-- The token of a number as it is written. -/
def numberToken (written : List Char) : Token :=
  if written.all Char.isDigit then .natural (decimalValue written) else .number (String.ofList written)

/-- The token that is open while a document is read. What has been read of it is held last first. -/
inductive Scan where
  /-- No token is open. -/
  | between
  /-- A word of which some letters are owed. -/
  | word (owed : List Char) (token : Token)
  /-- A number. -/
  | number (part : NumberPart) (written : List Char)
  /-- A string literal. -/
  | literal (pieces : List Piece)
  /-- A string literal after a backslash. -/
  | escaped (pieces : List Piece)
  /-- A string literal in an escape of four digits, of which some are owed. -/
  | digits (owed : Nat) (value : Nat) (pieces : List Piece)
  deriving DecidableEq, Repr

namespace Scan

/-- The character separates tokens. -/
def isSpace (c : Char) : Bool :=
  c = ' ' || c = '\n' || c = '\t' || c = '\r'

/-- Reads a character between tokens. -/
def start (c : Char) : Option (List Token × Scan) :=
  if isSpace c then some ([], between)
  else if c.isDigit then some ([], number (if c = '0' then .zero else .integer) [c])
  else
    match c with
    | ',' => some ([.comma], between)
    | ':' => some ([.colon], between)
    | '[' => some ([.openArray], between)
    | ']' => some ([.closeArray], between)
    | '{' => some ([.openObject], between)
    | '}' => some ([.closeObject], between)
    | '"' => some ([], literal [])
    | '-' => some ([], number .sign [c])
    | 'n' => some ([], word ['u', 'l', 'l'] .null)
    | 't' => some ([], word ['r', 'u', 'e'] (.bool true))
    | 'f' => some ([], word ['a', 'l', 's', 'e'] (.bool false))
    | _ => none

/-- Reads a character inside a string literal. -/
def inLiteral (pieces : List Piece) (c : Char) : Option (List Token × Scan) :=
  if c = '"' then some ([.text ((assemble pieces.reverse).map String.ofList)], between)
  else if c = '\\' then some ([], escaped pieces)
  else if c.toNat < 0x20 then none
  else some ([], literal (.char c :: pieces))

/-- Reads a character: the tokens that it completes, and the token that is open after it. -/
def step : Scan → Char → Option (List Token × Scan)
  | between, c => start c
  | word [] token, c => (start c).map fun (out, next) => (token :: out, next)
  | word (d :: owed) token, c =>
    if c = d then
      match owed with
      | [] => some ([token], between)
      | _ => some ([], word owed token)
    else none
  | number part written, c =>
    match part.next? c with
    | some next => some ([], number next (c :: written))
    | none =>
      if part.isComplete then (start c).map fun (out, next) => (numberToken written.reverse :: out, next) else none
  | literal pieces, c => inLiteral pieces c
  | escaped pieces, c =>
    if c = 'u' then some ([], digits 4 0 pieces)
    else (shortEscape? c).map fun d => ([], literal (.char d :: pieces))
  | digits owed value pieces, c =>
    (hexValue? c).map fun d =>
      let value := value * 16 + d
      if owed ≤ 1 then ([], literal (.unit value :: pieces)) else ([], digits (owed - 1) value pieces)

/-- The tokens that the end of the document completes. -/
def finish : Scan → Option (List Token)
  | between => some []
  | number part written => if part.isComplete then some [numberToken written.reverse] else none
  | _ => none

end Scan

/-- The tokens of the rest of a document, if it is well formed. -/
def tokensFrom : Scan → List Char → Option (List Token)
  | s, [] => s.finish
  | s, c :: cs =>
    match s.step c with
    | none => none
    | some (out, next) => (tokensFrom next cs).map (out ++ ·)

/-- The tokens of a document. -/
def tokens? (cs : List Char) : Option (List Token) :=
  tokensFrom .between cs

namespace Token

/-- A token as it is written. A literal without text is written as a unit without its partner. -/
def write : Token → List Char
  | null => ['n', 'u', 'l', 'l']
  | bool true => ['t', 'r', 'u', 'e']
  | bool false => ['f', 'a', 'l', 's', 'e']
  | natural n => Nat.toDigits 10 n
  | number written => written.toList
  | text (some s) => quote s
  | text none => ['"', '\\', 'u', 'd', '8', '0', '0', '"']
  | comma => [',']
  | colon => [':']
  | openArray => ['[']
  | closeArray => [']']
  | openObject => ['{']
  | closeObject => ['}']

end Token

end ExecImage.Json
