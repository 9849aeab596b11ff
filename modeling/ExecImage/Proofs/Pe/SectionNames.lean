import Mathlib.Data.Nat.Digits.Defs
import Mathlib.Tactic.Ring
import ExecImage.Proofs.Pe.Records
import ExecImage.Proofs.Pe.Writer
import ExecImage.Proofs.Stages

/-!
# The names of sections

A section header has eight bytes for a name. A longer name lies in the string table, and the header refers to it by a slash and its
offset in decimal digits. `Names` says which name a section has if certain names in headers are references, and every other name
stands for itself. What is read as a reference is a little more than a slash and digits: a plus sign may stand between
them (`longNameOffset?_eq_some_iff`), and this is the only difference (`names_of_sections`).
-/

namespace ExecImage.Pe

variable {v : View} {pointer count : UInt32}

/-! ## Numbers in names -/

/-- The bytes are one or more ASCII decimal digits, and they write the number. -/
structure IsNumeral (bs : List UInt8) (n : Nat) : Prop where
  ne_nil : bs ≠ []
  digits : ∀ b ∈ bs, 0x30 ≤ b ∧ b ≤ 0x39
  value : n = Nat.ofDigits 10 (bs.reverse.map fun b => b.toNat - 0x30)

/-- Bytes that follow a number are read exactly if all of them are digits, and they write its last digits. -/
theorem decimalFrom?_eq_some_iff {k n : Nat} {bs : List UInt8} :
    decimalFrom? k bs = some n ↔
      (∀ b ∈ bs, 0x30 ≤ b ∧ b ≤ 0x39) ∧
        n = k * 10 ^ bs.length + Nat.ofDigits 10 (bs.reverse.map fun b => b.toNat - 0x30) := by
  induction bs generalizing k with
  | nil => simp [decimalFrom?, eq_comm]
  | cons b bs ih =>
    have hvalue : (k * 10 + (b.toNat - 0x30)) * 10 ^ bs.length + Nat.ofDigits 10 (bs.reverse.map fun b => b.toNat - 0x30) =
        k * 10 ^ (b :: bs).length + Nat.ofDigits 10 ((b :: bs).reverse.map fun b => b.toNat - 0x30) := by
      rw [List.reverse_cons, List.map_append, Nat.ofDigits_append, List.length_map, List.length_reverse, List.length_cons,
        List.map_singleton, Nat.ofDigits_singleton]
      ring
    by_cases hb : 0x30 ≤ b ∧ b ≤ 0x39
    · rw [decimalFrom?, digitValue?, if_pos hb, Option.bind_some, ih, hvalue, List.forall_mem_cons, and_iff_right hb]
    · rw [decimalFrom?, digitValue?, if_neg hb, List.forall_mem_cons]
      simp [hb]

/-- A number is read of digits, and of digits after a plus sign. -/
theorem decimal?_eq_some_iff {bs : List UInt8} {n : Nat} :
    decimal? bs = some n ↔ IsNumeral bs n ∨ ∃ digits, bs = 0x2B :: digits ∧ IsNumeral digits n := by
  have hread (ds : List UInt8) : (if ds.isEmpty then none else decimalFrom? 0 ds) = some n ↔ IsNumeral ds n := by
    cases ds with
    | nil => exact ⟨nofun, fun h => absurd rfl h.ne_nil⟩
    | cons d ds =>
      simp only [List.isEmpty_cons, Bool.false_eq_true, if_false, decimalFrom?_eq_some_iff, Nat.zero_mul, Nat.zero_add]
      exact ⟨fun h => ⟨List.cons_ne_nil _ _, h.1, h.2⟩, fun h => ⟨h.digits, h.value⟩⟩
  unfold decimal?
  by_cases hsign : bs.head? = some 0x2B
  · obtain ⟨digits, rfl⟩ := List.head?_eq_some_iff.1 hsign
    have hnot : ¬IsNumeral (0x2B :: digits) n := fun h => absurd (h.digits 0x2B List.mem_cons_self) (by decide)
    rw [if_pos hsign, List.tail_cons, hread, or_iff_right hnot]
    exact ⟨fun h => ⟨digits, rfl, h⟩, fun ⟨_, heq, h⟩ => List.cons_eq_cons.1 heq |>.2 ▸ h⟩
  · have hnot : ¬∃ digits, bs = 0x2B :: digits ∧ IsNumeral digits n := by
      rintro ⟨digits, rfl, -⟩
      exact hsign rfl
    rw [if_neg hsign, hread, or_iff_left hnot]

/-! ## References -/

/-- The name in a header is a slash and a number in decimal digits. -/
def IsReference (rawName : List UInt8) (n : Nat) : Prop :=
  ∃ digits, rawName = 0x2F :: digits ∧ IsNumeral digits n

/-- The name in a header is a slash, a plus sign and a number in decimal digits. -/
def IsSignedReference (rawName : List UInt8) (n : Nat) : Prop :=
  ∃ digits, rawName = 0x2F :: 0x2B :: digits ∧ IsNumeral digits n

variable {rawName : List UInt8} {n : Nat}

/-- A name in a header is read as the offset of a string exactly if it is a reference, with a sign or without. -/
theorem longNameOffset?_eq_some_iff :
    longNameOffset? rawName = some n ↔ IsReference rawName n ∨ IsSignedReference rawName n := by
  unfold IsReference IsSignedReference
  cases rawName with
  | nil => exact ⟨nofun, by rintro (⟨_, h, -⟩ | ⟨_, h, -⟩) <;> nomatch h⟩
  | cons b bs =>
    by_cases hb : b = 0x2F
    · subst hb
      simp only [longNameOffset?, decimal?_eq_some_iff, List.cons.injEq, true_and, exists_eq_left']
    · have hnone : longNameOffset? (b :: bs) = none := by
        unfold longNameOffset?
        split
        · rename_i h
          exact absurd (List.cons.inj h).1 hb
        · rfl
      simp [hnone, hb]

/-- The name of a section whose header has a name that may refer to a string of the string table: the string, if the name refers to
one that starts in the table and after its size field, and else the name in the header. -/
inductive Names (refers : List UInt8 → Nat → Prop) (v : View) (pointer count : UInt32) (rawName : List UInt8) :
    String → Prop where
  | string {size : UInt32} {n : Nat} {name : String} (table : StringTable.LiesIn v pointer count size)
      (reference : refers rawName n) (sizeField_le : StringTable.sizeField ≤ n)
      (text : v.textIn? (StringTable.offset pointer count) size.toNat n StringTable.maxLength = some name) :
      Names refers v pointer count rawName name
  | itself
      (none : ∀ size n, StringTable.LiesIn v pointer count size → refers rawName n →
        ¬(StringTable.sizeField ≤ n ∧ n < size.toNat)) :
      Names refers v pointer count rawName (Utf8.decode rawName)

/-- A name in a header that refers to nothing is the name of the section. -/
theorem Names.eq_decode {refers : List UInt8 → Nat → Prop} {name : String} (h : Names refers v pointer count rawName name)
    (hnot : ∀ n, ¬refers rawName n) : name = Utf8.decode rawName := by
  cases h with
  | string _ hreference => exact absurd hreference (hnot _)
  | itself => rfl

/-- The string that a name in a header stands for lies in the string table of the file, where the name refers to. -/
theorem longName?_eq_some_iff {name : String} :
    longName? rawName (StringTable.locate? v pointer count) = some name ↔
      ∃ size n, StringTable.LiesIn v pointer count size ∧ longNameOffset? rawName = some n ∧ StringTable.sizeField ≤ n ∧
        v.textIn? (StringTable.offset pointer count) size.toNat n StringTable.maxLength = some name := by
  have hstrings : longName? rawName (StringTable.locate? v pointer count) = some name ↔
      ∃ n t, longNameOffset? rawName = some n ∧ StringTable.locate? v pointer count = some t ∧
        (t.get n).toOption = some name := by
    unfold longName?
    cases longNameOffset? rawName with
    | none => simp
    | some n =>
      cases StringTable.locate? v pointer count with
      | none => simp
      | some t => cases hget : t.get n <;> simp [hget, Except.toOption]
  rw [hstrings]
  constructor
  · rintro ⟨n, t, hn, ht, hname⟩
    obtain ⟨size, hlies, hview⟩ := StringTable.locate?_eq_some_iff.1 ht
    rw [StringTable.get_toOption hview, Option.ite_none_right_eq_some] at hname
    exact ⟨size, n, hlies, hn, hname.1, hname.2⟩
  · rintro ⟨size, n, hlies, hn, hle, hname⟩
    have hview := View.sub_eq_ok_iff.2 ⟨hlies.covers, rfl⟩
    refine ⟨n, ⟨_⟩, hn, StringTable.locate?_eq_some_iff.2 ⟨size, hlies, hview⟩, ?_⟩
    rw [StringTable.get_toOption hview, if_pos hle, hname]

/-- A section has the name that its header's name stands for, if the references are the names that are read as offsets. -/
theorem resolveName_eq_iff {refers : List UInt8 → Nat → Prop} {h : SectionHeader} {name : String}
    (hrefers : ∀ n, refers h.rawName n ↔ longNameOffset? h.rawName = some n) :
    resolveName h (StringTable.locate? v pointer count) = name ↔ Names refers v pointer count h.rawName name := by
  unfold resolveName
  constructor
  · rintro rfl
    cases hlong : longName? h.rawName (StringTable.locate? v pointer count) with
    | some name =>
      obtain ⟨size, n, hlies, hn, hle, htext⟩ := longName?_eq_some_iff.1 hlong
      exact .string hlies ((hrefers n).2 hn) hle htext
    | none =>
      refine .itself fun size n hlies hn hbounds => ?_
      have hsome := longName?_eq_some_iff.2 ⟨size, n, hlies, (hrefers n).1 hn, hbounds.1, if_pos hbounds.2⟩
      nomatch hlong.symm.trans hsome
  · rintro (⟨hlies, hn, hle, htext⟩ | hnone)
    · rw [longName?_eq_some_iff.2 ⟨_, _, hlies, (hrefers _).1 hn, hle, htext⟩]
      rfl
    · cases hlong : longName? h.rawName (StringTable.locate? v pointer count) with
      | none => rfl
      | some name =>
        obtain ⟨size, n, hlies, hn, hle, htext⟩ := longName?_eq_some_iff.1 hlong
        have hlt := (Option.ite_none_right_eq_some.1 htext).1
        exact absurd ⟨hle, hlt⟩ (hnone size n hlies ((hrefers n).2 hn))

/-- The entries of a section table have the names of its headers, with the string table of the file. -/
theorem Image.name_of_mem_entries {options : Options} {image : Image} (hread : Image.read v options = .ok image)
    {e : NamedHeader} (he : e ∈ image.sections.entries) :
    e.name = resolveName e.header (StringTable.locate? v image.headers.file.symbolPointer image.headers.file.symbolCount) := by
  obtain ⟨-, -, -, hstrings, htable⟩ := Image.read_eq_ok_iff.1 hread
  obtain ⟨-, table, headers, -, -, hentries⟩ := SectionTable.read_eq_ok_iff.1 htable
  rw [hentries] at he
  obtain ⟨h, -, rfl⟩ := List.mem_map.1 he
  rw [hstrings]

/-- The name of a section is the string of the string table that the name in its header refers to, or else the name in the header.
The references are a slash and a number, before which a plus sign may stand; for a name in a header that is none with a plus
sign, they are a slash and a number. -/
theorem names_of_sections (v : View) :
    (∀ pointer count h name,
        (resolveName h (StringTable.locate? v pointer count) = name ↔
          Names (fun rawName n => IsReference rawName n ∨ IsSignedReference rawName n) v pointer count h.rawName name) ∧
        ((∀ n, ¬IsSignedReference h.rawName n) →
          (resolveName h (StringTable.locate? v pointer count) = name ↔
            Names IsReference v pointer count h.rawName name))) ∧
      ∀ options image, Image.read v options = .ok image → ∀ e ∈ image.sections.entries,
        e.name =
          resolveName e.header (StringTable.locate? v image.headers.file.symbolPointer image.headers.file.symbolCount) := by
  refine ⟨fun pointer count h name => ⟨resolveName_eq_iff fun n => longNameOffset?_eq_some_iff.symm, fun hunsigned => ?_⟩,
    fun options image hread e he => Image.name_of_mem_entries hread he⟩
  refine resolveName_eq_iff fun n => ?_
  rw [longNameOffset?_eq_some_iff, or_iff_left (hunsigned n)]

/-- An image with a long name in its string table. The name in the header of the first section refers to it with leading zeros, that
in the header of the second has a plus sign before the number. -/
def ImageSpec.longNames : ImageSpec :=
  { imageBase := 0x400000
    sections := [
      { name := "/0000004", virtualSize := 2, virtualAddress := 0x1000, characteristics := 0x60000020, data := [0x55, 0xC3] },
      { name := "/+4", virtualSize := 4, virtualAddress := 0x2000, characteristics := 0x80000000, data := [] }]
    records := [{
      nameField := nameField "main", value := 0, sectionNumber := 1, type := 0x20, storageClass := 2, auxiliaries := 0 }]
    strings := text ".text.startup" }

/-- Both sections of the image are read with the long name. -/
theorem ImageSpec.read_longNames : ∃ image, Image.read ImageSpec.longNames.view {} = .ok image ∧
    image.sections.entries.map (fun e => (e.header.rawName, e.name)) =
      [([0x2F, 0x30, 0x30, 0x30, 0x30, 0x30, 0x30, 0x34], ".text.startup"), ([0x2F, 0x2B, 0x34], ".text.startup")] := by
  refine Except.exists_of_toOption_map ?_
  decide +kernel

/-- The first section of the image has the long name, by the rule for names without a plus sign. -/
theorem names_of_sections_zeros : ∃ image e, Image.read ImageSpec.longNames.view {} = .ok image ∧
    e ∈ image.sections.entries ∧ e.name = ".text.startup" ∧ (∀ n, ¬IsSignedReference e.header.rawName n) ∧
    Names IsReference ImageSpec.longNames.view image.headers.file.symbolPointer image.headers.file.symbolCount
      e.header.rawName ".text.startup" := by
  obtain ⟨image, hread, hentries⟩ := ImageSpec.read_longNames
  obtain ⟨e, hmem, hnames⟩ := List.exists_of_mem_map (hentries ▸ List.mem_cons_self)
  obtain ⟨hraw, hname⟩ := Prod.mk.inj hnames
  have hunsigned (n : Nat) : ¬IsSignedReference e.header.rawName n := by
    rw [hraw]
    rintro ⟨digits, heq, -⟩
    cases heq
  obtain ⟨hrule, hresolved⟩ := names_of_sections ImageSpec.longNames.view
  have hresolve := hresolved {} image hread e hmem
  rw [hname] at hresolve
  exact ⟨image, e, hread, hmem, hname, hunsigned, ((hrule _ _ _ _).2 hunsigned).1 hresolve.symm⟩

/-- The second section of the image has the long name too, though the name in its header is no slash and number. -/
theorem not_names_signed : ∃ image e, Image.read ImageSpec.longNames.view {} = .ok image ∧ e ∈ image.sections.entries ∧
    e.header.rawName = [0x2F, 0x2B, 0x34] ∧
    ¬Names IsReference ImageSpec.longNames.view image.headers.file.symbolPointer image.headers.file.symbolCount
      e.header.rawName e.name := by
  obtain ⟨image, hread, hentries⟩ := ImageSpec.read_longNames
  obtain ⟨e, hmem, hnames⟩ := List.exists_of_mem_map (hentries ▸ List.mem_cons_of_mem _ List.mem_cons_self)
  obtain ⟨hraw, hname⟩ := Prod.mk.inj hnames
  refine ⟨image, e, hread, hmem, hraw, fun hnames => ?_⟩
  have hnot (n : Nat) : ¬IsReference e.header.rawName n := by
    rw [hraw]
    rintro ⟨digits, heq, hnumeral⟩
    cases heq
    exact absurd (hnumeral.digits 0x2B List.mem_cons_self) (by decide)
  have hitself := hnames.eq_decode hnot
  rw [hname, hraw] at hitself
  exact absurd hitself (by decide)

end ExecImage.Pe
