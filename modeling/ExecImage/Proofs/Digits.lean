import Mathlib.Algebra.Group.Nat.Defs
import ExecImage.Bytes

/-!
# Numbers and their digits

A field of bytes holds a number below a power of 256, and writing such a number in as many digits and reading it back gives
the same number, in either byte order.
-/

namespace ExecImage

/-- A field of bytes holds a number below a power of 256. -/
theorem littleValue_lt (bs : List UInt8) : littleValue bs < 256 ^ bs.length := by
  induction bs with
  | nil => simp [littleValue]
  | cons b bs ih =>
    have hb : b.toNat < 256 := b.toNat_lt
    simp only [littleValue, List.length_cons, Nat.pow_succ]
    omega

/-- The same holds in either byte order. -/
theorem Endianness.value_lt (e : Endianness) (bs : List UInt8) : e.value bs < 256 ^ bs.length := by
  cases e with
  | little => exact littleValue_lt bs
  | big => simpa [value] using littleValue_lt bs.reverse

/-- A number is written in as many digits as are asked for. -/
@[simp] theorem length_littleDigits (width n : Nat) : (littleDigits width n).length = width := by
  induction width generalizing n with
  | zero => rfl
  | succ width ih => simp [littleDigits, ih]

@[simp] theorem Endianness.length_digits (e : Endianness) (width n : Nat) : (e.digits width n).length = width := by
  cases e <;> simp [digits]

/-- Writing a number in enough digits and reading it gives the number back. -/
theorem littleValue_littleDigits (width n : Nat) (h : n < 256 ^ width) : littleValue (littleDigits width n) = n := by
  induction width generalizing n with
  | zero => simp only [Nat.pow_zero] at h; simp [littleDigits, littleValue]; omega
  | succ width ih =>
    have hlt : n / 256 < 256 ^ width := by
      rw [Nat.div_lt_iff_lt_mul (by decide)]
      simpa [Nat.pow_succ] using h
    have hmod : (UInt8.ofNat (n % 256)).toNat = n % 256 := by
      simp [Nat.mod_eq_of_lt (Nat.mod_lt n (by decide : 256 > 0))]
    simp only [littleDigits, littleValue, ih _ hlt, hmod]
    omega

/-- In either byte order, writing a number in enough digits and reading it gives the number back. -/
theorem Endianness.value_digits (e : Endianness) (width n : Nat) (h : n < 256 ^ width) :
    e.value (e.digits width n) = n := by
  cases e <;> simp [value, digits, littleValue_littleDigits width n h]

end ExecImage
