import Mathlib.Data.Nat.Digits.Defs
import ExecImage.Proofs.Agreement
import ExecImage.Proofs.Digits
import ExecImage.Proofs.Words

/-!
# Reads are exact, and ranges of ranges are ranges

Every read of a view is of a range of bytes: its result is computed of these bytes, and it fails exactly if they are not all in the
view, with the range and the view's own size. A number is the value of its bytes in base 256, so a big-endian field is the
little-endian field at the mirrored place of the reversed bytes.

A chain of ranges, each taken of the view of the one before it, leads to a range of the first view (`sub_of_nested`). So a read at
the end of a chain is a read of the first view, within the last range and nothing else. `IsExact` states all this of one
read, and `reads_exact` says that it holds of every read there is. The end of a range is a sum that a machine checks: where the start
and the length are words, a sum that is none is refused as the end of a range outside the view (`sliceInWords_eq`).
-/

namespace ExecImage

/-- The number that bytes write in base 256, in a byte order. -/
def Endianness.number : Endianness → List UInt8 → Nat
  | .little, bs => Nat.ofDigits 256 (bs.map UInt8.toNat)
  | .big, bs => Nat.ofDigits 256 (bs.reverse.map UInt8.toNat)

theorem littleValue_eq_ofDigits (bs : List UInt8) : littleValue bs = Nat.ofDigits 256 (bs.map UInt8.toNat) := by
  induction bs with
  | nil => rfl
  | cons b bs ih => rw [littleValue, List.map_cons, Nat.ofDigits_cons, ih]

theorem Endianness.value_eq_number (order : Endianness) (bs : List UInt8) : order.value bs = order.number bs := by
  cases order with
  | little => exact littleValue_eq_ofDigits bs
  | big => exact littleValue_eq_ofDigits bs.reverse

namespace View

variable {v u : View} {α : Type} {n : Nat}

/-- The view that a chain of ranges leads to, each a range of the view before it. -/
def nested (v : View) (ranges : List Extent) : Except LoadError View :=
  ranges.foldlM (fun u r => u.sub r.offset r.len) v

/-- Where the last range of a chain starts in the first view. -/
def nestedOffset (ranges : List Extent) : Nat :=
  (ranges.map Extent.offset).sum

/-! ## Chains of ranges -/

/-- A range of a range is one range. -/
theorem sub_of_sub {offset len k : Nat} {w : View} (hw : v.sub offset len = .ok w) (hu : w.sub k n = .ok u) :
    v.sub (offset + k) n = .ok u := by
  have hk : k + n ≤ len := by
    rw [← size_of_sub hw]
    exact (sub_eq_ok_iff.1 hu).1
  unfold sub at hu ⊢
  rw [← slice_of_sub hw hk]
  exact hu

/-- A chain of ranges is one range. The induction takes the first range of the chain off: what the others lead to is a range of it. -/
theorem sub_of_nested {ranges : List Extent} (h : v.nested ranges = .ok u) :
    v.sub (nestedOffset ranges) u.size = .ok u := by
  induction ranges generalizing v with
  | nil =>
    cases h
    refine sub_eq_ok_iff.2 ⟨Nat.le_of_eq (Nat.zero_add _), ?_⟩
    rw [nestedOffset, List.map_nil, List.sum_nil, Nat.zero_add, size, Array.extract_size]
  | cons r ranges ih =>
    obtain ⟨w, hw, hu⟩ := Except.bind_eq_ok_iff.1 h
    exact sub_of_sub hw (ih hu)

/-- The view at the end of a chain is as long as the last range. -/
theorem size_of_nested {ranges : List Extent} {last : Extent} (h : v.nested (ranges ++ [last]) = .ok u) : u.size = last.len := by
  unfold nested at h
  rw [List.foldlM_append] at h
  obtain ⟨w, -, hw⟩ := Except.bind_eq_ok_iff.1 h
  obtain ⟨u', hu', hu⟩ := Except.bind_eq_ok_iff.1 hw
  cases hu
  exact size_of_sub hu'

/-! ## Ranges of words -/

/-- The bytes of a range of which the start and the length are words. The sum of them is checked, and then compared with the size. -/
def sliceInWords (v : View) (offset len : UInt64) : Except LoadError Bytes :=
  match Word.add offset.toNat len.toNat with
  | none => .error (.outOfBounds offset.toNat len.toNat v.size)
  | some stop =>
    if v.size < stop then .error (.outOfBounds offset.toNat len.toNat v.size)
    else .ok (v.bytes.extract offset.toNat stop)

/-- A sum that is no word lies behind every view that a machine can hold. -/
theorem sliceInWords_eq (hsize : v.size < 2 ^ 64) (offset len : UInt64) :
    v.sliceInWords offset len = v.slice offset.toNat len.toNat := by
  unfold sliceInWords
  by_cases hword : offset.toNat + len.toNat < 2 ^ 64
  · rw [Word.add_eq hword]
    by_cases hc : offset.toNat + len.toNat ≤ v.size
    · rw [slice_of_covers hc]
      exact if_neg (Nat.not_lt.2 hc)
    · exact (if_pos (Nat.lt_of_not_le hc)).trans (if_neg hc).symm
  · have hnone : Word.add offset.toNat len.toNat = none := if_neg hword
    have hc : ¬v.Covers offset.toNat len.toNat := fun hc => hword (Nat.lt_of_le_of_lt hc hsize)
    rw [hnone]
    exact (if_neg hc).symm

/-! ## Reads -/

/-- A read of `n` bytes is exact: it gives what is made of the bytes of its range if they are in the view, and fails with its range
and the size of the view if they are not. At the end of a chain of ranges it reads the first view, inside the last range. -/
structure IsExact (n : Nat) (read : View → Nat → Except LoadError α) (make : Bytes → α) : Prop where
  inside (v : View) (offset : Nat) : offset + n ≤ v.size → read v offset = .ok (make (v.bytes.extract offset (offset + n)))
  outside (v : View) (offset : Nat) : ¬offset + n ≤ v.size → read v offset = .error (.outOfBounds offset n v.size)
  nestedInside (v u : View) (ranges : List Extent) (last : Extent) (offset : Nat) : v.nested (ranges ++ [last]) = .ok u →
    offset + n ≤ last.len → ∃ a, read u offset = .ok a ∧ read v (nestedOffset (ranges ++ [last]) + offset) = .ok a
  nestedOutside (v u : View) (ranges : List Extent) (last : Extent) (offset : Nat) : v.nested (ranges ++ [last]) = .ok u →
    ¬offset + n ≤ last.len → read u offset = .error (.outOfBounds offset n last.len)

/-- A read that makes something of the bytes of a range is exact. -/
theorem isExact_of_slice {read : View → Nat → Except LoadError α} {make : Bytes → α}
    (h : ∀ v offset, read v offset = (v.slice offset n).map make) : IsExact n read make where
  inside v offset hc := by
    rw [h, slice_of_covers hc]
    rfl
  outside v offset hc := by
    have hslice : v.slice offset n = .error (.outOfBounds offset n v.size) := if_neg hc
    rw [h, hslice]
    rfl
  nestedInside v u ranges last offset hu hin := by
    have hsub := sub_of_nested hu
    rw [size_of_nested hu] at hsub
    have hcovers := covers_of_sub hsub hin
    rw [h, h, ← slice_of_sub hsub hin, slice_of_covers hcovers]
    exact ⟨_, rfl, rfl⟩
  nestedOutside v u ranges last offset hu hout := by
    rw [← size_of_nested hu] at hout ⊢
    have hslice : u.slice offset n = .error (.outOfBounds offset n u.size) := if_neg hout
    rw [h, hslice]
    rfl

/-- A read of a number is exact in both byte orders, and a big-endian number is the little-endian one of the reversed bytes. The read
gives the number itself, whatever word it is kept in. -/
structure IsExactNumber (n : Nat) (read : View → Nat → Endianness → Except LoadError Nat) : Prop where
  exact (order : Endianness) : IsExact n (fun v offset => read v offset order) fun bs => order.number bs.toList
  reversed (v : View) (offset : Nat) : offset + n ≤ v.size →
    read v offset .big = read ⟨v.bytes.reverse⟩ (v.size - offset - n) .little

/-- The mirrored range of the reversed bytes holds the bytes of a range in reverse. -/
theorem slice_reverse {offset : Nat} (h : v.Covers offset n) :
    View.slice ⟨v.bytes.reverse⟩ (v.size - offset - n) n = (v.slice offset n).map Array.reverse := by
  simp only [Covers, size] at h
  have hstart : v.bytes.size - (v.bytes.size - offset - n + n) = offset := by omega
  have hstop : v.bytes.size - (v.bytes.size - offset - n) = offset + n := by omega
  have hc : View.Covers ⟨v.bytes.reverse⟩ (v.bytes.size - offset - n) n := by
    simp only [Covers, size, Array.size_reverse]
    omega
  rw [slice_of_covers h, size, slice_of_covers hc, Array.extract_reverse, hstart, hstop]
  rfl

/-- A field is exact, as many bytes as it has. -/
theorem isExactNumber_field (n : Nat) : IsExactNumber n fun v offset order => v.field n offset order where
  exact order := isExact_of_slice fun v offset => by simp only [field, Endianness.value_eq_number]
  reversed v offset h := by
    unfold field
    rw [slice_reverse h, slice_of_covers h]
    simp only [Except.map, Endianness.value, Array.toList_reverse]

/-! ## Words -/

section

variable (v) (offset : Nat) (order : Endianness)

/-- A word that is wide enough for a field keeps its number. -/
theorem map_toNat_field {ofNat : Nat → α} {toNat : α → Nat} (h : ∀ k, k < 256 ^ n → toNat (ofNat k) = k) :
    ((v.field n offset order).map ofNat).map toNat = v.field n offset order := by
  cases hfield : v.field n offset order with
  | error e => rfl
  | ok k =>
    obtain ⟨-, rfl⟩ := field_eq_ok_iff.1 hfield
    exact congrArg Except.ok (h _ (numberAt_lt order v.bytes offset n))

/-- A byte is the same in both byte orders. -/
theorem field_one : v.field 1 offset order = v.field 1 offset .little := by
  cases order with
  | little => rfl
  | big =>
    unfold field
    cases hslice : v.slice offset 1 with
    | error e => rfl
    | ok bs =>
      obtain ⟨b, hb⟩ := List.length_eq_one_iff.1 (size_of_slice hslice)
      simp only [Except.map, Endianness.value, hb, List.reverse_singleton]

theorem toNat_byte : (v.byte offset).map UInt8.toNat = v.field 1 offset order := by
  rw [field_one]
  exact v.map_toNat_field offset .little fun _ h => UInt8.toNat_ofNat_of_lt' h

theorem toNat_word16 : (v.word16 offset order).map UInt16.toNat = v.field 2 offset order :=
  v.map_toNat_field offset order fun _ h => UInt16.toNat_ofNat_of_lt' h

theorem toNat_word32 : (v.word32 offset order).map UInt32.toNat = v.field 4 offset order :=
  v.map_toNat_field offset order fun _ h => UInt32.toNat_ofNat_of_lt' h

theorem toNat_word64 : (v.word64 offset order).map UInt64.toNat = v.field 8 offset order :=
  v.map_toNat_field offset order fun _ h => UInt64.toNat_ofNat_of_lt' h

theorem toNat_address (width : Width) : (v.address offset width order).map UInt64.toNat = v.field width.bytes offset order := by
  have hbytes : width.bytes ≤ 8 := by cases width <;> decide
  refine v.map_toNat_field offset order fun k h => UInt64.toNat_ofNat_of_lt' ?_
  exact Nat.lt_of_lt_of_le h (Nat.pow_le_pow_right (by decide) hbytes)

end

/-- Every read of a view is exact: of bytes, of the view of a range, and of a number. A range of words is read without a sum that
wraps around. -/
theorem reads_exact :
    (∀ (v : View) (offset len : UInt64), v.size < 2 ^ 64 → v.sliceInWords offset len = v.slice offset.toNat len.toNat) ∧
      (∀ len, IsExact len (fun v offset => v.slice offset len) id) ∧
      (∀ len, IsExact len (fun v offset => v.sub offset len) View.mk) ∧
      IsExactNumber 1 (fun v offset _ => (v.byte offset).map UInt8.toNat) ∧
      IsExactNumber 2 (fun v offset order => (v.word16 offset order).map UInt16.toNat) ∧
      IsExactNumber 4 (fun v offset order => (v.word32 offset order).map UInt32.toNat) ∧
      IsExactNumber 8 (fun v offset order => (v.word64 offset order).map UInt64.toNat) ∧
      ∀ width, IsExactNumber width.bytes (fun v offset order => (v.address offset width order).map UInt64.toNat) := by
  have hbyte : (fun (v : View) offset order => (v.byte offset).map UInt8.toNat) = fun v offset order => v.field 1 offset order := by
    funext v offset order
    exact v.toNat_byte offset order
  simp only [hbyte, toNat_word16, toNat_word32, toNat_word64, toNat_address]
  refine ⟨fun v offset len hsize => sliceInWords_eq hsize offset len, fun len => isExact_of_slice fun v offset => ?_, fun len => isExact_of_slice fun v offset => rfl,
    isExactNumber_field 1, isExactNumber_field 2, isExactNumber_field 4, isExactNumber_field 8,
    fun width => isExactNumber_field width.bytes⟩
  exact (congrFun Except.map_id (v.slice offset len)).symm

/-- The second range of a chain starts two bytes into the first, which starts four bytes into ten. A field of two bytes that starts
one byte into the second range is the field seven bytes into the ten; it is the last that is in the range. A length that is almost
the largest word is refused. -/
theorem reads_exact_nested :
    ∃ u, View.nested ⟨#[0, 1, 2, 3, 4, 5, 6, 7, 8, 9]⟩ ([⟨4, 6⟩] ++ [⟨2, 3⟩]) = .ok u ∧
      (∃ k, (u.word16 1 .big).map UInt16.toNat = .ok k ∧
        (View.word16 ⟨#[0, 1, 2, 3, 4, 5, 6, 7, 8, 9]⟩ 7 .big).map UInt16.toNat = .ok k) ∧
      (u.word16 2 .big).map UInt16.toNat = .error (.outOfBounds 2 2 3) ∧
      View.sliceInWords ⟨#[0, 1, 2, 3, 4, 5, 6, 7, 8, 9]⟩ 8 0xFFFFFFFFFFFFFFFB =
        .error (.outOfBounds 8 0xFFFFFFFFFFFFFFFB 10) := by
  have hu : View.nested ⟨#[0, 1, 2, 3, 4, 5, 6, 7, 8, 9]⟩ ([⟨4, 6⟩] ++ [⟨2, 3⟩]) = .ok ⟨#[6, 7, 8]⟩ := by decide
  obtain ⟨hwords, -, -, -, hword, -⟩ := reads_exact
  have hexact := hword.exact .big
  refine ⟨_, hu, hexact.nestedInside _ _ _ _ 1 hu (by decide), hexact.nestedOutside _ _ _ _ 2 hu (by decide), ?_⟩
  rw [hwords _ _ _ (by decide)]
  exact if_neg (by decide)

end View

end ExecImage
