import ExecImage.Proofs.Holds
import ExecImage.Proofs.Lossy

/-!
# Texts are read as they are stored

A text that ends at a zero byte is read from bytes that may hold anything, so what is read is said of all bytes: the text is what the
longest part without a zero byte is read as (`IsLongestText`, `Utf8.Reads`). That a stored text comes back follows, wherever it ends:
its bytes are that longest part, and they are read as its characters.
-/

namespace ExecImage

/-- The first bytes of some bytes, up to a zero byte or to their end. -/
structure IsLongestText (part whole : List UInt8) : Prop where
  begins : part <+: whole
  noZero : 0 ∉ part
  longest : ∀ other, other <+: whole → 0 ∉ other → other.length ≤ part.length

/-- There is one longest part. -/
theorem IsLongestText.eq {part part' whole : List UInt8} (h : IsLongestText part whole) (h' : IsLongestText part' whole) :
    part = part' := by
  have hlength := Nat.le_antisymm (h'.longest _ h.begins h.noZero) (h.longest _ h'.begins h'.noZero)
  exact (List.prefix_of_prefix_length_le h.begins h'.begins (Nat.le_of_eq hlength)).eq_of_length hlength

/-- Bytes that are followed by a zero byte, or by nothing, are the longest part if they hold none. -/
theorem isLongestText_append {part rest : List UInt8} (h0 : 0 ∉ part) (hrest : ∀ b, [b] <+: rest → b = 0) :
    IsLongestText part (part ++ rest) where
  begins := List.prefix_append _ _
  noZero := h0
  longest other hother hzero := by
    refine Nat.le_of_not_lt fun hlt => ?_
    obtain ⟨more, rfl⟩ := List.prefix_of_prefix_length_le (List.prefix_append _ _) hother (Nat.le_of_lt hlt)
    cases more with
    | nil =>
      rw [List.append_nil] at hlt
      exact Nat.lt_irrefl _ hlt
    | cons b more =>
      rw [List.prefix_append_right_inj] at hother
      obtain rfl := hrest b (List.IsPrefix.trans ⟨more, rfl⟩ hother)
      exact hzero (List.mem_append_right _ List.mem_cons_self)

/-- Taking bytes until the first zero byte takes the longest part. -/
theorem isLongestText_takeWhile (bs : List UInt8) : IsLongestText (bs.takeWhile (· != 0)) bs := by
  have h : IsLongestText (bs.takeWhile (· != 0)) (bs.takeWhile (· != 0) ++ bs.dropWhile (· != 0)) := by
    refine isLongestText_append (fun h0 => ?_) ?_
    · exact absurd (List.all_eq_true.1 List.all_takeWhile 0 h0) (by decide)
    · rintro b ⟨rest, hrest⟩
      have hhead := List.head?_dropWhile_not (· != (0 : UInt8)) bs
      rw [← hrest] at hhead
      simpa using hhead
  rw [List.takeWhile_append_dropWhile] at h
  exact h

namespace View

variable {v : View} {offset cap top : Nat}

/-- The bytes that a text at an offset can take: no more than the cap, and none beyond the view. The sum saturates at `top`. -/
def window (v : View) (offset cap top : Nat) : List UInt8 :=
  (v.bytes.extract offset (min (min (offset + cap) top) v.size)).toList

/-- Where the bytes of a stored text end. -/
inductive Ends (v : View) (offset len cap : Nat) : Prop where
  | zero : v.Holds (offset + len) [0] → Ends v offset len cap
  | view : offset + len = v.size → Ends v offset len cap
  | cap : len = cap → Ends v offset len cap

/-- A sum that saturates at or above the size of the view bounds the same bytes. -/
theorem cstringBytes_eq (h : v.size ≤ top) : v.cstringBytes offset cap = (v.window offset cap top).takeWhile (· != 0) := by
  have hmin : min (min (offset + cap) top) v.size = min (offset + cap) v.size := by omega
  unfold cstringBytes window
  rw [hmin]

theorem cstring_eq_ok_iff {s : String} :
    v.cstring offset cap = .ok s ↔ offset < v.size ∧ Utf8.Reads (v.cstringBytes offset cap) s.toList := by
  unfold cstring Utf8.decode
  rw [Utf8.reads_iff]
  split
  · rename_i hlt
    rw [Except.ok.injEq, and_iff_right hlt, ← String.toList_inj, String.toList_ofList]
  · rename_i hlt
    exact iff_of_false nofun fun h => hlt h.1

/-- The text at an offset is what the longest part without a zero byte is read as, of the bytes that it can take. -/
theorem cstring_eq_ok_iff_isLongestText {s : String} (htop : v.size ≤ top) :
    v.cstring offset cap = .ok s ↔
      offset < v.size ∧ ∃ part, IsLongestText part (v.window offset cap top) ∧ Utf8.Reads part s.toList := by
  have htext : IsLongestText (v.cstringBytes offset cap) (v.window offset cap top) := by
    rw [cstringBytes_eq htop]
    exact isLongestText_takeWhile _
  rw [cstring_eq_ok_iff]
  refine and_congr_right fun _ => ⟨fun h => ⟨_, htext, h⟩, ?_⟩
  rintro ⟨part, hpart, hreads⟩
  rw [htext.eq hpart]
  exact hreads

/-- The bytes of a stored text are the longest part of those that it can take, wherever they end. -/
theorem Holds.isLongestText {bs : List UInt8} (h : v.Holds offset bs) (h0 : 0 ∉ bs) (hcap : bs.length ≤ cap) (htop : v.size ≤ top)
    (hends : v.Ends offset bs.length cap) : IsLongestText bs (v.window offset cap top) := by
  have hle := h.length_le
  obtain ⟨before, after, hv, rfl⟩ := h
  have hsize : v.size = before.length + (bs.length + after.length) := by
    rw [← List.length_append, ← List.length_append, ← hv, Array.length_toList, size]
  obtain ⟨k, hk⟩ := Nat.exists_eq_add_of_le (show bs.length ≤ min (min (before.length + cap) top) v.size - before.length by omega)
  have hwindow : v.window before.length cap top = bs ++ after.take k := by
    unfold window
    rw [Array.toList_extract, hv, List.extract_eq_take_drop, List.drop_left, hk, List.take_length_add_append]
  rw [hwindow]
  refine isLongestText_append h0 fun b hb => ?_
  cases hends with
  | zero hzero =>
    have hafter := (holds_iff.1 hzero).2
    rw [hv, ← List.append_assoc, ← List.length_append, List.drop_left] at hafter
    have hb' := List.prefix_of_prefix_length_le (hb.trans (List.take_prefix k after)) hafter (Nat.le_refl 1)
    exact (List.cons_prefix_cons.1 hb').1
  | view hview =>
    obtain rfl := List.eq_nil_of_length_eq_zero (show after.length = 0 by omega)
    rw [List.take_nil] at hb
    exact absurd (List.prefix_nil.1 hb) (List.cons_ne_nil _ _)
  | cap hlength =>
    obtain rfl : k = 0 := by omega
    rw [List.take_zero] at hb
    exact absurd (List.prefix_nil.1 hb) (List.cons_ne_nil _ _)

/-! ## ASCII -/

/-- An ASCII character is one byte, its number. -/
theorem encodeChar_of_ascii {c : Char} (h : c.val.toNat < 0x80) : String.utf8EncodeChar c = [UInt8.ofNat c.val.toNat] := by
  have hc := Utf8.encodeChar_one h
  rw [show Char.ofNat c.val.toNat = c from Char.ofNat_toNat c] at hc
  exact hc

/-- ASCII characters are as many bytes. -/
theorem flatMap_encodeChar_of_ascii {cs : List Char} (h : ∀ c ∈ cs, c.val.toNat < 0x80) :
    cs.flatMap String.utf8EncodeChar = cs.map fun c => UInt8.ofNat c.val.toNat := by
  induction cs with
  | nil => rfl
  | cons c cs ih =>
    rw [List.flatMap_cons, encodeChar_of_ascii (h c List.mem_cons_self), List.map_cons, List.singleton_append,
      ih fun d hd => h d (List.mem_cons_of_mem c hd)]

/-- ASCII characters that are dropped from a text are dropped from its bytes. -/
theorem encode_drop_of_ascii {s : String} (h : ∀ c ∈ s.toList, c.val.toNat < 0x80) (j : Nat) :
    Utf8.encode (String.ofList (s.toList.drop j)) = (Utf8.encode s).drop j := by
  unfold Utf8.encode
  rw [String.toList_ofList, flatMap_encodeChar_of_ascii h, flatMap_encodeChar_of_ascii fun c hc => h c (List.mem_of_mem_drop hc),
    List.map_drop]

/-- The end of an ASCII text is read from as many bytes on as there are characters before it. -/
theorem Holds.cstring_drop {s : String} {j : Nat} (h : v.Holds offset (Utf8.encode s ++ [0])) (hname : IsName cap s)
    (hascii : ∀ c ∈ s.toList, c.val.toNat < 0x80) (hj : j ≤ s.length) :
    v.cstring (offset + j) cap = .ok (String.ofList (s.toList.drop j)) := by
  have hlength : (Utf8.encode s).length = s.length := by
    rw [Utf8.encode, flatMap_encodeChar_of_ascii hascii, List.length_map, String.length_toList]
  have htake : ((Utf8.encode s).take j).length = j := List.length_take_of_le (Nat.le_trans hj (Nat.le_of_eq hlength.symm))
  have hrest := encode_drop_of_ascii hascii j
  rw [← List.take_append_drop j (Utf8.encode s), List.append_assoc] at h
  have hheld := (View.Holds.append h).2
  rw [htake, ← hrest] at hheld
  refine hheld.cstring (fun hc => hname.noZero ?_) ?_
  · rw [String.toList_ofList] at hc
    exact List.mem_of_mem_drop hc
  · rw [hrest, List.length_drop]
    exact Nat.le_trans (Nat.sub_le _ _) hname.length_le

/-! ## Texts -/

/-- Only the empty text has no bytes. -/
theorem length_encode_pos {s : String} (h : s ≠ "") : 0 < (Utf8.encode s).length := by
  refine List.length_pos_of_ne_nil fun hnil => h ?_
  rw [← Utf8.decode_encode s, hnil]
  rfl

/-- The text at an offset: there is one exactly if the offset is inside the view, and it is what the longest part without a zero byte is
read as. A stored text comes back as it is, and of an ASCII text with a zero byte after it every end does. -/
theorem cstring_exact (v : View) (offset cap top : Nat) (htop : v.size ≤ top) :
    (∀ s, v.cstring offset cap = .ok s ↔
        offset < v.size ∧ ∃ part, IsLongestText part (v.window offset cap top) ∧ Utf8.Reads part s.toList) ∧
      ((∃ s, v.cstring offset cap = .ok s) ↔ offset < v.size) ∧
      (∀ s, IsName cap s → v.Holds offset (Utf8.encode s) → v.Ends offset (Utf8.encode s).length cap →
        s ≠ "" ∨ offset < v.size → v.cstring offset cap = .ok s) ∧
      ∀ s, IsName cap s → (∀ c ∈ s.toList, c.val.toNat < 0x80) → v.Holds offset (Utf8.encode s ++ [0]) →
        ∀ j ≤ s.length, v.cstring (offset + j) cap = .ok (String.ofList (s.toList.drop j)) := by
  refine ⟨fun s => cstring_eq_ok_iff_isLongestText htop, ?_, fun s hname hheld hends hinside => ?_,
    fun s hname hascii hheld j hj => hheld.cstring_drop hname hascii hj⟩
  · constructor
    · rintro ⟨s, hs⟩
      exact (cstring_eq_ok_iff.1 hs).1
    · exact fun hlt => ⟨_, if_pos hlt⟩
  · have hpart := hheld.isLongestText (Utf8.zero_notMem_encode hname.noZero) hname.length_le htop hends
    have hread : Utf8.decodeFrom none (Utf8.encode s) = s.toList := by
      rw [← String.toList_ofList (l := Utf8.decodeFrom none (Utf8.encode s))]
      exact congrArg String.toList (Utf8.decode_encode s)
    refine (cstring_eq_ok_iff_isLongestText htop).2 ⟨?_, _, hpart, Utf8.reads_iff.2 hread⟩
    rcases hinside with hne | hlt
    · exact Nat.lt_of_lt_of_le (Nat.lt_add_of_pos_right (length_encode_pos hne)) hheld.length_le
    · exact hlt

/-- The first text is stored up to the cap, which is before a byte that is no UTF-8; the second has a zero byte after it. -/
theorem cstring_exact_sample :
    View.cstring ⟨#[0, 0x68, 0xC3, 0xA9, 0xFF, 0, 0x61, 0x62, 0x63, 0]⟩ 1 3 = .ok "hé" ∧
      View.cstring ⟨#[0, 0x68, 0xC3, 0xA9, 0xFF, 0, 0x61, 0x62, 0x63, 0]⟩ (6 + 2) 3 = .ok "c" := by
  let v : View := ⟨#[0, 0x68, 0xC3, 0xA9, 0xFF, 0, 0x61, 0x62, 0x63, 0]⟩
  obtain ⟨-, -, hstored, -⟩ := cstring_exact v 1 3 10 (by decide)
  obtain ⟨-, -, -, hascii⟩ := cstring_exact v 6 3 10 (by decide)
  refine ⟨hstored "hé" (by decide) (by decide) (.cap (by decide)) (.inr (by decide)), ?_⟩
  exact hascii "abc" (by decide) (by simp) (by decide) 2 (by decide)

end View

end ExecImage
