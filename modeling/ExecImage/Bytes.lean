/-!
# Bytes and byte order

An image is a finite sequence of bytes. A field of several bytes is a number in base 256, and the byte order says which
end carries the least digit: a big-endian field is the little-endian field of the reversed bytes.
-/

namespace ExecImage

/-- A finite sequence of bytes. -/
abbrev Bytes := Array UInt8

/-- Which end of a field of several bytes is the least significant. -/
inductive Endianness where
  /-- The first byte is the least significant. -/
  | little
  /-- The last byte is the least significant. -/
  | big
  deriving DecidableEq, Repr, Inhabited

/-- The number whose base 256 digits are the bytes, the least significant first. -/
def littleValue : List UInt8 → Nat
  | [] => 0
  | b :: bs => b.toNat + 256 * littleValue bs

/-- The `width` least base 256 digits of a number, the least significant first. -/
def littleDigits : (width : Nat) → Nat → List UInt8
  | 0, _ => []
  | width + 1, n => UInt8.ofNat (n % 256) :: littleDigits width (n / 256)

namespace Endianness

/-- The number that a field holds. -/
def value : Endianness → List UInt8 → Nat
  | .little, bs => littleValue bs
  | .big, bs => littleValue bs.reverse

/-- The field of `width` bytes that holds a number. -/
def digits (e : Endianness) (width n : Nat) : List UInt8 :=
  match e with
  | .little => littleDigits width n
  | .big => (littleDigits width n).reverse

/-- The name of a byte order in reports. -/
def name : Endianness → String
  | .little => "Little"
  | .big => "Big"

end Endianness

end ExecImage
