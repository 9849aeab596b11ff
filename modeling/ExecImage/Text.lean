/-!
# Fixed text forms of numbers and columns

Offsets and addresses are shown in lower-case hexadecimal with the mark `0x`; addresses in a listing are padded to sixteen
digits. A column is padded on the right with spaces, and its width counts characters (Unicode scalar values).
-/

namespace ExecImage.Text

/-- The lower-case hexadecimal digits of a number, the most significant first; zero has one digit. -/
def hexDigits (n : Nat) : List Char :=
  Nat.toDigits 16 n

/-- A number as `0x` and its hexadecimal digits. -/
def hex (n : Nat) : String :=
  "0x" ++ String.ofList (hexDigits n)

/-- A number as `0x` and at least sixteen hexadecimal digits. -/
def hexAddress (n : Nat) : String :=
  let digits := hexDigits n
  "0x" ++ String.ofList (List.replicate (16 - digits.length) '0' ++ digits)

/-- A text in a column of at least `width` characters, padded on the right with spaces. -/
def column (width : Nat) (s : String) : String :=
  s ++ String.ofList (List.replicate (width - s.length) ' ')

/-- The two lower-case hexadecimal digits of a byte. -/
def hexByte (b : UInt8) : List Char :=
  [Nat.digitChar (b.toNat / 16), Nat.digitChar (b.toNat % 16)]

/-- Bytes as pairs of hexadecimal digits without separators. -/
def hexBytes (bs : List UInt8) : String :=
  String.ofList (bs.flatMap hexByte)

end ExecImage.Text
