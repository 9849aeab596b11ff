import ExecImage.Bytes
import ExecImage.Error
import ExecImage.Utf8
import ExecImage.Width

/-!
# Reading from bytes at offsets that may lie outside them

A `View` is the bytes at hand: a whole file or a range of one. Every read names an offset and a length, both of which may
come from the image itself. A read succeeds exactly when its range ends inside the view, and it reports the range and
the view's own size otherwise.
-/

namespace ExecImage

/-- The bytes that a reader may see. Offsets count from its first byte. -/
structure View where
  /-- The bytes. -/
  bytes : Bytes
  deriving DecidableEq, Inhabited

namespace View

/-- The number of bytes of a view. -/
def size (v : View) : Nat :=
  v.bytes.size

/-- The range of `len` bytes from `offset` lies inside the view. -/
def Covers (v : View) (offset len : Nat) : Prop :=
  offset + len ≤ v.size

instance (v : View) (offset len : Nat) : Decidable (v.Covers offset len) :=
  inferInstanceAs (Decidable (offset + len ≤ v.size))

/-- The bytes of a range. -/
def slice (v : View) (offset len : Nat) : Except LoadError Bytes :=
  if v.Covers offset len then .ok (v.bytes.extract offset (offset + len))
  else .error (.outOfBounds offset len v.size)

/-- A view of a range; offsets in it count from the start of the range. -/
def sub (v : View) (offset len : Nat) : Except LoadError View :=
  (v.slice offset len).map View.mk

/-- The unsigned field of `width` bytes at `offset`. -/
def field (v : View) (width offset : Nat) (order : Endianness) : Except LoadError Nat :=
  (v.slice offset width).map fun bs => order.value bs.toList

/-- The byte at `offset`. -/
def byte (v : View) (offset : Nat) : Except LoadError UInt8 :=
  (v.field 1 offset .little).map UInt8.ofNat

/-- The field of two bytes at `offset`. -/
def word16 (v : View) (offset : Nat) (order : Endianness) : Except LoadError UInt16 :=
  (v.field 2 offset order).map UInt16.ofNat

/-- The field of four bytes at `offset`. -/
def word32 (v : View) (offset : Nat) (order : Endianness) : Except LoadError UInt32 :=
  (v.field 4 offset order).map UInt32.ofNat

/-- The field of eight bytes at `offset`. -/
def word64 (v : View) (offset : Nat) (order : Endianness) : Except LoadError UInt64 :=
  (v.field 8 offset order).map UInt64.ofNat

/-- The address at `offset`, as wide as the image's addresses are. -/
def address (v : View) (offset : Nat) (width : Width) (order : Endianness) : Except LoadError UInt64 :=
  (v.field width.bytes offset order).map UInt64.ofNat

/-- The bytes from `offset` up to the first zero byte, at most `cap` of them and none beyond the view. -/
def cstringBytes (v : View) (offset cap : Nat) : List UInt8 :=
  (v.bytes.extract offset (min (offset + cap) v.size)).toList.takeWhile (· != 0)

/-- The zero-terminated text at `offset`. It ends early at the cap and at the end of the view; only an offset that is
not inside the view is an error. -/
def cstring (v : View) (offset cap : Nat) : Except LoadError String :=
  if offset < v.size then .ok (Utf8.decode (v.cstringBytes offset cap))
  else .error (.outOfBounds offset 1 v.size)

/-- The bytes at `offset` are `magic`; a range that is not inside the view is no match. -/
def startsWith (v : View) (offset : Nat) (magic : List UInt8) : Bool :=
  match v.slice offset magic.length with
  | .ok bs => bs.toList == magic
  | .error _ => false

end View

end ExecImage
