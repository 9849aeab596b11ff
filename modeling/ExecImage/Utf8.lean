/-!
# Reading UTF-8 with replacement

Names in an image are bytes that need not be valid UTF-8. They are read by a machine that takes one byte at a time and
knows how many continuation bytes are owed and between which bounds the next one must lie; the bounds are narrower than
`80` to `BF` only after the lead bytes `E0`, `ED`, `F0` and `F4`, where the full range would admit overlong forms,
surrogates and numbers above `10FFFF`. Each maximal part that starts a character without completing it becomes one
replacement character, and so does every byte that can start none. The byte that breaks a character off is read afresh.
-/

namespace ExecImage.Utf8

/-- The character that stands for bytes that are no character. -/
def replacement : Char := '\uFFFD'

/-- A character of which some bytes have been read. -/
structure Pending where
  /-- How many continuation bytes are owed, after the next one. -/
  later : Nat
  /-- The least byte that may come next. -/
  low : UInt8
  /-- The greatest byte that may come next. -/
  high : UInt8
  /-- The number formed by the bits read so far. -/
  value : Nat
  deriving DecidableEq, Repr

/-- Reads a byte between characters: what it completes, and the character it starts. -/
def start (b : UInt8) : List Char × Option Pending :=
  let n := b.toNat
  if n < 0x80 then ([Char.ofNat n], none)
  else if n < 0xC2 then ([replacement], none)
  else if n < 0xE0 then ([], some ⟨0, 0x80, 0xBF, n % 32⟩)
  else if n = 0xE0 then ([], some ⟨1, 0xA0, 0xBF, 0⟩)
  else if n = 0xED then ([], some ⟨1, 0x80, 0x9F, 13⟩)
  else if n < 0xF0 then ([], some ⟨1, 0x80, 0xBF, n % 16⟩)
  else if n = 0xF0 then ([], some ⟨2, 0x90, 0xBF, 0⟩)
  else if n < 0xF4 then ([], some ⟨2, 0x80, 0xBF, n % 8⟩)
  else if n = 0xF4 then ([], some ⟨2, 0x80, 0x8F, 4⟩)
  else ([replacement], none)

/-- Reads a byte while a character is pending. A byte outside the bounds breaks the character off and is read afresh. -/
def extend (p : Pending) (b : UInt8) : List Char × Option Pending :=
  if p.low ≤ b ∧ b ≤ p.high then
    let value := p.value * 64 + b.toNat % 64
    match p.later with
    | 0 => ([Char.ofNat value], none)
    | later + 1 => ([], some ⟨later, 0x80, 0xBF, value⟩)
  else
    let (out, next) := start b
    (replacement :: out, next)

/-- Reads one byte. -/
def step : Option Pending → UInt8 → List Char × Option Pending
  | none, b => start b
  | some p, b => extend p b

/-- The characters of the bytes that follow a pending character, or none; one left pending at the end is replaced. -/
def decodeFrom : Option Pending → List UInt8 → List Char
  | none, [] => []
  | some _, [] => [replacement]
  | pending, b :: bs =>
    let (out, next) := step pending b
    out ++ decodeFrom next bs

/-- The text that bytes hold, with replacement characters where they are no UTF-8. -/
def decode (bs : List UInt8) : String :=
  String.ofList (decodeFrom none bs)

end ExecImage.Utf8
