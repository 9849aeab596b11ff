/-!
# Address widths

An image's addresses are words of 32 or 64 bits. A range of a 32-bit image may end right after the last address; the end of a
range of a 64-bit image must itself be a 64-bit word.
-/

namespace ExecImage

/-- The width of an address. -/
inductive Width where
  | w32
  | w64
  deriving DecidableEq, Repr, Inhabited

namespace Width

/-- The number of bits of an address. -/
def bits : Width → UInt8
  | .w32 => 32
  | .w64 => 64

/-- The number of bytes of an address. -/
def bytes : Width → Nat
  | .w32 => 4
  | .w64 => 8

/-- The largest address. -/
def maxAddress : Width → UInt64
  | .w32 => 0xFFFFFFFF
  | .w64 => 0xFFFFFFFFFFFFFFFF

/-- The range of `len` addresses from `start` lies inside the address space. -/
def Fits : Width → (start len : Nat) → Prop
  | .w32, start, len => start + len ≤ UInt32.size
  | .w64, start, len => start + len < UInt64.size

instance : ∀ (w : Width) (start len : Nat), Decidable (w.Fits start len)
  | .w32, start, len => inferInstanceAs (Decidable (start + len ≤ UInt32.size))
  | .w64, start, len => inferInstanceAs (Decidable (start + len < UInt64.size))

end Width

end ExecImage
