/-!
# Punycode

An identifier with characters beyond ASCII is mangled as its ASCII characters and a list of insertions. Every insertion is
one number in a notation of 36 digits whose digit weights adapt to the numbers before it; it tells both the next
character, in the order of code points, and the place to insert it at.
-/

namespace ExecImage.Mangled.Punycode

/-- The value of a digit: letters are 0 to 25 and decimal digits 26 to 35. -/
def digit? (c : Char) : Option Nat :=
  if 'a' ≤ c ∧ c ≤ 'z' then some (c.toNat - 'a'.toNat)
  else if c.isDigit then some (26 + (c.toNat - '0'.toNat))
  else none

/-- The least value of a digit that is not the last of its number. -/
def threshold (k bias : Nat) : Nat :=
  min (max (k - bias) 1) 26

/-- The number that starts the digits, and the digits after it. -/
def number? (bias : Nat) : (k weight sum : Nat) → List Char → Option (Nat × List Char)
  | _, _, _, [] => none
  | k, weight, sum, c :: cs => do
    let d ← digit? c
    let t := threshold k bias
    let sum := sum + d * weight
    if d < t then some (sum, cs) else number? bias (k + 36) (weight * (36 - t)) sum cs

/-- Divides a number down to the range of the digits, counting the divisions in steps of 36. -/
def scale : (fuel delta k : Nat) → Nat × Nat
  | 0, delta, k => (delta, k)
  | fuel + 1, delta, k => if 455 < delta then scale fuel (delta / 35) (k + 36) else (delta, k)

/-- The bias for the number after `delta`, the first one or a later one, when there are `len` characters. -/
def adapt (delta len : Nat) (isFirst : Bool) : Nat :=
  let delta := if isFirst then delta / 700 else delta / 2
  let (delta, k) := scale 64 (delta + delta / len) 0
  k + 36 * delta / (delta + 38)

/-- The most characters that are decoded. -/
def maxLength : Nat := 128

/-- Makes the insertions of a list of digits. The fuel bounds their number, for which the number of digits is enough. -/
def insertFrom (fuel : Nat) (digits : List Char) (bias index code : Nat) (isFirst : Bool) (out : List Char) :
    Option (List Char) :=
  match fuel with
  | 0 => none
  | fuel + 1 => do
    let (delta, rest) ← number? bias 36 1 0 digits
    let len := out.length + 1
    let index := index + delta
    let code := code + index / len
    let index := index % len
    if code.isValidChar ∧ len ≤ maxLength then
      let out := out.insertIdx index (Char.ofNat code)
      if rest.isEmpty then some out
      else insertFrom fuel rest (adapt delta len isFirst) (index + 1) code false out
    else none

/-- The identifier that ASCII characters and insertions spell. -/
def decode? (ascii digits : List Char) : Option (List Char) :=
  if digits.isEmpty || maxLength < ascii.length then none
  else insertFrom digits.length digits 72 0 0x80 true ascii

end ExecImage.Mangled.Punycode
