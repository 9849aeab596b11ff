import ExecImage.Proofs.Elf.Written

/-!
# Where a written image holds what

A string table is read back string by string, at the offsets that its strings were given; the same induction over the
parts of an image says that each header tells where the part's name and contents are. `Part.Written` is what the
header of a part amounts to for a reader.
-/

namespace ExecImage.Elf

variable {v names : View} {offset next start : Nat} {cls : Class}

theorem toNat_ofNat32 {n : Nat} (h : n < 2 ^ 32) : (UInt32.ofNat n).toNat = n := by
  rw [UInt32.toNat_ofNat']
  omega

theorem toNat_ofNat64 {n : Nat} (h : n < 2 ^ 64) : (UInt64.ofNat n).toNat = n := by
  rw [UInt64.toNat_ofNat']
  omega

theorem Width.pow_le (w : Width) : 256 ^ w.bytes ≤ 2 ^ 64 := by
  cases w <;> decide

/-- A number below the bound of a class fits it as a word. -/
theorem Class.fits_ofNat {n : Nat} (h : n < 256 ^ cls.width.bytes) : cls.Fits (.ofNat n) := by
  unfold Fits
  rw [toNat_ofNat64 (Nat.lt_of_lt_of_le h (Width.pow_le _))]
  exact h

theorem Class.fits_zero : cls.Fits 0 := by
  unfold Fits
  exact Nat.pow_pos (by decide)

theorem Class.fits_two (cls : Class) : cls.Fits 2 := by
  cases cls <;> decide

theorem Class.symbolSize_lt (cls : Class) : cls.symbolSize < 256 ^ cls.width.bytes := by
  cases cls <;> decide

/-! ## Strings -/

/-- Strings that are added to a string table of `next` bytes get offsets that fit their field. -/
def OffsetsFit : (next : Nat) → List String → Prop
  | _, [] => True
  | next, s :: ss => (s ≠ "" → next < 2 ^ 32) ∧ OffsetsFit (next + (stored s).length) ss

instance decidableOffsetsFit : ∀ (next : Nat) (strings : List String), Decidable (OffsetsFit next strings)
  | _, [] => .isTrue trivial
  | next, s :: ss =>
    have := decidableOffsetsFit (next + (stored s).length) ss
    inferInstanceAs (Decidable (_ ∧ _))

/-- Strings of a table that is not too long get offsets that fit their field. -/
theorem offsetsFit_of_lt {strings : List String} (h : next + (strings.flatMap stored).length < 2 ^ 32) :
    OffsetsFit next strings := by
  induction strings generalizing next with
  | nil => trivial
  | cons s ss ih =>
    rw [List.flatMap_cons, List.length_append] at h
    exact ⟨fun _ => by omega, ih (by omega)⟩

/-- A string is read back at the offset that it was given. The empty string is found at the zero byte that starts the table. -/
theorem cstring_offsetOf {s : String} {cap : Nat} (hs : IsName cap s) (h0 : names.Holds 0 [0]) (h : names.Holds next (stored s))
    (hn : s ≠ "" → next < 2 ^ 32) : names.cstring (offsetOf next s).toNat cap = .ok s := by
  unfold offsetOf
  unfold stored at h
  by_cases he : s = ""
  · subst he
    exact View.Holds.cstring (s := "") h0 hs.noZero hs.length_le
  · rw [if_neg he] at h
    rw [if_neg he, toNat_ofNat32 (hn he)]
    exact h.cstring hs.noZero hs.length_le

/-- The view of a string table starts with a zero byte, and the strings follow it. -/
theorem holds_stringTable (strings : List String) :
    View.Holds ⟨(stringTable strings).toArray⟩ 0 [0] ∧
      View.Holds ⟨(stringTable strings).toArray⟩ 1 (strings.flatMap stored) :=
  View.Holds.cons (View.holds_self _)

/-! ## Symbols -/

namespace SymbolSpec

/-- A symbol can be written in an image of a class. -/
structure Fits (cls : Class) (s : SymbolSpec) : Prop where
  name : IsName 4096 s.name
  value : cls.Fits s.value

instance (cls : Class) (s : SymbolSpec) : Decidable (s.Fits cls) :=
  decidable_of_iff (IsName 4096 s.name ∧ cls.Fits s.value)
    ⟨fun ⟨h1, h2⟩ => ⟨h1, h2⟩, fun ⟨h1, h2⟩ => ⟨h1, h2⟩⟩

/-- The entry of a symbol tells its name and the other fields that were given. -/
theorem keep_entry {s : SymbolSpec} {source : SymbolSource} {index : Nat} (hs : IsName SymbolTable.maxNameLength s.name)
    (h0 : names.Holds 0 [0]) (h : names.Holds next (stored s.name)) (hpos : 0 < next) (hn : s.name ≠ "" → next < 2 ^ 32) :
    SymbolTable.keep names source index (s.entry (offsetOf next s.name)) =
      { symbol := some (.function s.name s.value source) } := by
  have hcstring : names.cstring (s.entry (offsetOf next s.name)).nameOffset.toNat SymbolTable.maxNameLength = .ok s.name :=
    cstring_offsetOf hs h0 h hn
  unfold SymbolTable.keep
  by_cases he : s.name = ""
  · have hzero : (s.entry (offsetOf next s.name)).nameOffset = 0 := by simp [entry, offsetOf, he]
    rw [if_pos hzero, he]
    rfl
  · have hne : (s.entry (offsetOf next s.name)).nameOffset ≠ 0 := by
      intro h0
      have := congrArg UInt32.toNat h0
      simp only [entry, offsetOf, if_neg he, toNat_ofNat32 (hn he), UInt32.toNat_zero] at this
      omega
    rw [if_neg hne, hcstring]
    rfl

/-- The entries of symbols, each with its symbol: their fields fit and they keep what was given. -/
theorem forall₂_entriesFrom (source : SymbolSource) {symbols : List SymbolSpec}
    (hs : ∀ s ∈ symbols, s.Fits cls) (h0 : names.Holds 0 [0])
    (h : names.Holds next ((symbols.map name).flatMap stored)) (hpos : 0 < next) (hn : OffsetsFit next (symbols.map name)) :
    List.Forall₂ (fun s e => e.Fits cls ∧ (∃ nameOffset, e = s.entry nameOffset) ∧ ∀ index,
      SymbolTable.keep names source index e = { symbol := some (.function s.name s.value source) })
      symbols (entriesFrom next symbols) := by
  induction symbols generalizing next with
  | nil => exact .nil
  | cons s ss ih =>
    rw [List.map_cons, List.flatMap_cons] at h
    have hfits := hs s (by simp)
    obtain ⟨hfirst, hrest⟩ := h.append
    refine .cons ⟨⟨hfits.value, Class.fits_zero⟩, ⟨_, rfl⟩, fun index => keep_entry hfits.name h0 hfirst hpos hn.1⟩ ?_
    exact ih (fun s' hs' => hs s' (by simp [hs'])) hrest (by omega) hn.2

end SymbolSpec

/-! ## Parts -/

namespace Part

theorem le_align (n : Nat) : n ≤ align n := by
  unfold align
  omega

/-- The name and the fields of a part are no wider than those of its header. -/
structure Fits (cls : Class) (p : Part) : Prop where
  name : IsName SectionTable.maxNameLength p.name
  flags : cls.Fits p.flags
  addr : cls.Fits p.addr
  size : p.size < 256 ^ cls.width.bytes
  link : p.link < 2 ^ 32
  entrySize : p.entrySize < 256 ^ cls.width.bytes

/-- What the header of a part tells a reader of an image, given the section of names. -/
structure Written (v names : View) (cls : Class) (p : Part) (h : SectionHeader) : Prop where
  fits : h.Fits cls
  name : SectionTable.nameAt (some names) h.nameOffset = p.name
  type : h.type = p.type
  flags : h.flags = p.flags
  addr : h.addr = p.addr
  size : h.size.toNat = p.size
  link : h.link.toNat = p.link
  entrySize : h.entrySize.toNat = p.entrySize
  contents : v.Holds h.offset.toNat p.fileBytes

/-- The contents of a part that is wholly in the file are read through its header. -/
theorem Written.slice {p : Part} {h : SectionHeader} (hw : Written v names cls p h) (htype : p.type ≠ SectionHeader.typeNobits)
    (hsize : p.size = p.data.length) : v.slice h.offset.toNat h.size.toNat = .ok p.data.toArray := by
  have := hw.contents.slice
  rw [SectionSpec.fileBytes, if_neg htype] at this
  rw [hw.size, hsize]
  exact this

/-- A part is written with a header that tells where its name and its contents are. -/
theorem written_header {p : Part} (hp : p.Fits cls) (h0 : names.Holds 0 [0]) (hname : names.Holds next (stored p.name))
    (hn : p.name ≠ "" → next < 2 ^ 32) (hcontents : v.Holds offset p.fileBytes) (ho : offset < 256 ^ cls.width.bytes) :
    Written v names cls p (p.header (offsetOf next p.name) offset) := by
  have lt64 {n : Nat} (h : n < 256 ^ cls.width.bytes) : n < 2 ^ 64 := Nat.lt_of_lt_of_le h (Width.pow_le _)
  refine {
    fits := ⟨hp.flags, hp.addr, Class.fits_ofNat ho, Class.fits_ofNat hp.size, Class.fits_ofNat hp.entrySize⟩
    name := ?_, type := rfl, flags := rfl, addr := rfl, size := toNat_ofNat64 (lt64 hp.size), link := toNat_ofNat32 hp.link
    entrySize := toNat_ofNat64 (lt64 hp.entrySize), contents := ?_ }
  · simp only [SectionTable.nameAt, header, cstring_offsetOf hp.name h0 hname hn]
  · simp only [header, toNat_ofNat64 (lt64 ho)]
    exact hcontents

/-- The headers of parts, each with its part. The induction follows the names and the contents at once. -/
theorem forall₂_headersFrom {parts : List Part} (hp : ∀ p ∈ parts, p.Fits cls) (h0 : names.Holds 0 [0])
    (hnames : names.Holds next ((parts.map (·.name)).flatMap stored)) (hn : OffsetsFit next (parts.map (·.name)))
    (hcontents : v.Holds start (contentsFrom start parts))
    (hstop : start + (contentsFrom start parts).length < 256 ^ cls.width.bytes) :
    List.Forall₂ (Written v names cls) parts (headersFrom next start parts) := by
  induction parts generalizing next start with
  | nil => exact .nil
  | cons p ps ih =>
    have halign := le_align start
    rw [List.map_cons, List.flatMap_cons] at hnames
    simp only [contentsFrom, List.length_append, List.length_replicate] at hcontents hstop
    obtain ⟨hname, hnames⟩ := hnames.append
    obtain ⟨-, hcontents⟩ := hcontents.append
    rw [List.length_replicate, Nat.add_sub_cancel' halign] at hcontents
    obtain ⟨hfirst, hrest⟩ := hcontents.append
    refine .cons (written_header (hp p (by simp)) h0 hname hn.1 hfirst (by omega)) ?_
    exact ih (fun p' hp' => hp p' (by simp [hp'])) hnames hn.2 hrest (by omega)

/-- The bytes of a part are among those of all parts. -/
theorem length_fileBytes_le {parts : List Part} {p : Part} (hp : p ∈ parts) (start : Nat) :
    p.fileBytes.length ≤ (contentsFrom start parts).length := by
  induction parts generalizing start with
  | nil => nomatch hp
  | cons q qs ih =>
    simp only [contentsFrom, List.length_append]
    rcases List.mem_cons.1 hp with rfl | hp
    · omega
    · have := ih hp (align start + q.fileBytes.length)
      omega

theorem length_headersFrom (parts : List Part) (next start : Nat) : (headersFrom next start parts).length = parts.length := by
  induction parts generalizing next start with
  | nil => rfl
  | cons p ps ih => simp only [headersFrom, List.length_cons, ih]

end Part

end ExecImage.Elf
