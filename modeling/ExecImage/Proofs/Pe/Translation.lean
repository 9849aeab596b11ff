import ExecImage.Proofs.Pe.Loaded

/-!
# Relative addresses and the bytes of sections

A relative address is found in the file through the first section that holds it, and a section is loaded with the mapped
part of its raw data. The two go by different sizes: a section holds what either of its sizes reaches, is mapped as far as
the virtual size says if it is not zero, and has bytes as far as both the raw size and the mapped size reach. Where a
section is mapped and is the first to hold an address, they agree. In a table that holds no address twice the first section
is the only one: the order of the table does not matter, and an address is found exactly if the raw data of some section
reach it.
-/

namespace ExecImage.Pe

namespace SectionTable

variable {t : SectionTable} {v : View} {name : String} {options : Options} {h : SectionHeader} {bytes : Bytes}

/-- A section has as many bytes as both its raw size and its mapped size reach. -/
theorem size_of_copy (hb : copy v name h options = .ok bytes) : bytes.size = min h.rawSize.toNat h.mappedSize.toNat := by
  rcases copy_eq_ok_iff.1 hb with ⟨h0, rfl⟩ | ⟨-, -, -, hs⟩
  · rw [h0]
    exact (Nat.zero_min _).symm
  · exact View.size_of_slice hs

/-- A byte of a section is the byte of the file at the same distance from the start of the raw data. -/
theorem getElem?_of_copy (hb : copy v name h options = .ok bytes) {d : Nat} (hd : d < bytes.size) :
    h.rawPointer.toNat + d < v.size ∧ v.bytes[h.rawPointer.toNat + d]? = bytes[d]? := by
  rcases copy_eq_ok_iff.1 hb with ⟨-, rfl⟩ | ⟨-, -, -, hs⟩
  · nomatch hd
  · have hsize := View.size_of_slice hs
    obtain ⟨hc, rfl⟩ := View.slice_eq_ok_iff.1 hs
    unfold View.Covers View.size at *
    refine ⟨by omega, ?_⟩
    rw [Array.getElem?_extract, if_pos (by omega)]

/-- The section that holds a relative address is the first one that does. -/
theorem holder?_eq_some {i : Nat} {rva : UInt32} (hi : t.header? i = some h) (hholds : h.Holds rva)
    (hfirst : ∀ j < i, ∀ h', t.header? j = some h' → ¬h'.Holds rva) : t.holder? rva = some h := by
  unfold header? at hi hfirst
  simp only [← List.getElem?_map] at hi hfirst
  obtain ⟨hlt, hget⟩ := List.getElem?_eq_some_iff.1 hi
  refine List.find?_eq_some_iff_getElem.2 ⟨decide_eq_true hholds, i, hlt, hget, fun j hj => ?_⟩
  have hnot := hfirst j hj _ (List.getElem?_eq_getElem (Nat.lt_trans hj hlt))
  simpa using hnot

end SectionTable

/-- A section holds the relative addresses that it maps. -/
theorem SectionHeader.holds_of_lt {h : SectionHeader} {rva : UInt32} {d : Nat} (hd : d < h.mappedSize.toNat)
    (hrva : rva.toNat = h.virtualAddress.toNat + d) : h.Holds rva := by
  have hle : h.mappedSize.toNat ≤ max h.virtualSize.toNat h.rawSize.toNat := by
    unfold mappedSize
    split
    · exact Nat.le_max_right _ _
    · exact Nat.le_max_left _ _
  unfold Holds
  omega

/-- At the distance `d` from the start of a loaded section, where no section earlier in the table holds the relative address, the
address is found in the file exactly when the section has a byte there; and it is found where that byte lies. -/
theorem fileOffset?_of_loadedAs {v : View} {source : String} {options : Options} {image : Image} {r : Loaded} {i : Nat}
    {h : SectionHeader} {s : Section} (hread : Image.read v options = .ok image) (hload : image.load source options = .ok r)
    (hs : image.sections.LoadedAs r.binary.sections i h s) {rva : UInt32} {d : Nat} (hd : d < h.mappedSize.toNat)
    (hrva : rva.toNat = h.virtualAddress.toNat + d)
    (hfirst : ∀ j < i, ∀ h', image.sections.header? j = some h' → ¬h'.Holds rva) :
    ((∃ o, image.sections.fileOffset? rva = some o) ↔ d < s.bytes.size) ∧
      ∀ o, image.sections.fileOffset? rva = some o →
        o = s.fileOffset.toNat + d ∧ o < v.size ∧ v.bytes[o]? = s.bytes[d]? := by
  obtain ⟨hview, -⟩ := Image.read_eq_ok_iff.1 hread
  obtain ⟨sections, hsections, rfl⟩ := Image.load_eq_ok_iff.1 hload
  obtain ⟨e, rfl, he⟩ := hs.loadEntry hsections
  obtain ⟨kind, bytes, -, -, hcopy, rfl⟩ := SectionTable.loadEntry_eq_some_iff.1 he
  rw [hview] at hcopy
  have hsize := SectionTable.size_of_copy hcopy
  have hoffset : image.sections.fileOffset? rva =
      if d < e.header.rawSize.toNat then some (e.header.rawPointer.toNat + d) else none := by
    rw [SectionTable.fileOffset?, SectionTable.holder?_eq_some hs.header (SectionHeader.holds_of_lt hd hrva) hfirst,
      Option.bind_some, SectionHeader.fileOffset?, hrva, Nat.add_sub_cancel_left]
  rw [hoffset]
  dsimp only [SectionTable.sectionOf]
  by_cases hraw : d < e.header.rawSize.toNat
  · have hbyte : d < bytes.size := by omega
    obtain ⟨hlt, hget⟩ := SectionTable.getElem?_of_copy hcopy hbyte
    rw [if_pos hraw]
    refine ⟨⟨fun _ => hbyte, fun _ => ⟨_, rfl⟩⟩, fun o ho => ?_⟩
    cases ho
    exact ⟨by rw [UInt32.toNat_toUInt64], hlt, hget⟩
  · rw [if_neg hraw]
    refine ⟨⟨fun ⟨o, ho⟩ => (nomatch ho), fun hbyte => ?_⟩, fun o ho => (nomatch ho)⟩
    omega

/-- Of the four addresses of the section of the small image, the second has a byte in the file and the last has none. -/
theorem fileOffset?_of_loadedAs_sample : ∃ r, Image.read ImageSpec.sample.view {} = .ok ImageSpec.sampleImage ∧
    ImageSpec.sampleImage.load "sample" {} = .ok r ∧
    ImageSpec.sampleImage.sections.LoadedAs r.binary.sections 0 ImageSpec.sampleHeader ImageSpec.sampleSection ∧
    (∃ o, ImageSpec.sampleImage.sections.fileOffset? 0x1001 = some o ∧ ImageSpec.sample.view.bytes[o]? = some 0xC3) ∧
    ¬∃ o, ImageSpec.sampleImage.sections.fileOffset? 0x1003 = some o := by
  obtain ⟨r, hload, hs⟩ := ImageSpec.exists_loadedAs_sample
  have hfirst (rva : UInt32) : ∀ j < 0, ∀ h', ImageSpec.sampleImage.sections.header? j = some h' → ¬h'.Holds rva := by
    intro j hj
    nomatch hj
  obtain ⟨hfound, hbyte⟩ :=
    fileOffset?_of_loadedAs ImageSpec.read_sample hload hs (d := 1) (by decide) (by decide) (hfirst 0x1001)
  obtain ⟨hnone, -⟩ :=
    fileOffset?_of_loadedAs ImageSpec.read_sample hload hs (d := 3) (by decide) (by decide) (hfirst 0x1003)
  obtain ⟨o, ho⟩ := hfound.2 (by decide)
  obtain ⟨-, -, hget⟩ := hbyte o ho
  exact ⟨r, ImageSpec.read_sample, hload, hs, ⟨o, ho, hget⟩, fun h => absurd (hnone.1 h) (by decide)⟩

/-! ## Tables in which no relative address is held twice -/

namespace SectionHeader

variable {h : SectionHeader} {rva rva' : UInt32} {o : Nat}

/-- The raw data of a section reach a relative address. -/
def Reaches (h : SectionHeader) (rva : UInt32) : Prop :=
  h.virtualAddress.toNat ≤ rva.toNat ∧ rva.toNat < h.virtualAddress.toNat + h.rawSize.toNat

/-- An offset of the file lies in the raw data of a section. -/
def Occupies (h : SectionHeader) (offset : Nat) : Prop :=
  h.rawPointer.toNat ≤ offset ∧ offset < h.rawPointer.toNat + h.rawSize.toNat

/-- A section holds the relative addresses that its raw data reach. -/
theorem Reaches.holds (hr : h.Reaches rva) : h.Holds rva := by
  unfold Reaches at hr
  unfold Holds
  omega

/-- A relative address that a section holds is found in the file if the raw data reach it, as far from their start as it is from the
first address. -/
theorem fileOffset?_eq_some_iff (hh : h.Holds rva) :
    h.fileOffset? rva = some o ↔ h.Reaches rva ∧ o = h.rawPointer.toNat + (rva.toNat - h.virtualAddress.toNat) := by
  have hle := hh.1
  have hreach : rva.toNat - h.virtualAddress.toNat < h.rawSize.toNat ↔ h.Reaches rva := by
    unfold Reaches
    omega
  unfold fileOffset?
  simp only [hreach, Option.ite_none_right_eq_some, Option.some.injEq, eq_comm (b := o)]

end SectionHeader

namespace SectionTable

variable {t t' : SectionTable} {rva rva' : UInt32} {o : Nat}

/-- No relative address is held by two headers. -/
def HoldsOnce (t : SectionTable) : Prop :=
  Apart SectionHeader.Holds (t.entries.map NamedHeader.header)

/-- No offset of the file lies in the raw data of two sections. -/
def OccupiesOnce (t : SectionTable) : Prop :=
  Apart SectionHeader.Occupies (t.entries.map NamedHeader.header)

/-- The one header that holds a relative address is found wherever it stands. -/
theorem HoldsOnce.holder?_eq_some_iff (ht : t.HoldsOnce) {h : SectionHeader} :
    t.holder? rva = some h ↔ h ∈ t.entries.map NamedHeader.header ∧ h.Holds rva :=
  Apart.find?_eq_some_iff ht

theorem HoldsOnce.fileOffset?_perm (ht : t.HoldsOnce)
    (hp : (t'.entries.map NamedHeader.header).Perm (t.entries.map NamedHeader.header)) (rva : UInt32) :
    t'.fileOffset? rva = t.fileOffset? rva := by
  unfold fileOffset? holder?
  rw [Apart.find?_perm ht hp rva]

theorem HoldsOnce.fileOffset?_eq_some_iff (ht : t.HoldsOnce) :
    t.fileOffset? rva = some o ↔
      ∃ h ∈ t.entries.map NamedHeader.header, h.Reaches rva ∧
        o = h.rawPointer.toNat + (rva.toNat - h.virtualAddress.toNat) := by
  unfold fileOffset?
  simp only [Option.bind_eq_some_iff, ht.holder?_eq_some_iff]
  constructor
  · rintro ⟨h, ⟨hmem, hholds⟩, ho⟩
    exact ⟨h, hmem, (SectionHeader.fileOffset?_eq_some_iff hholds).1 ho⟩
  · rintro ⟨h, hmem, hreaches, ho⟩
    exact ⟨h, ⟨hmem, hreaches.holds⟩, (SectionHeader.fileOffset?_eq_some_iff hreaches.holds).2 ⟨hreaches, ho⟩⟩

/-- Relative addresses that are found at the same offset are the same, if no raw data overlap. -/
theorem HoldsOnce.eq_of_fileOffset? (ht : t.HoldsOnce) (hraw : t.OccupiesOnce) (ho : t.fileOffset? rva = some o)
    (ho' : t.fileOffset? rva' = some o) : rva = rva' := by
  obtain ⟨h, hmem, ⟨hle, hlt⟩, hoffset⟩ := ht.fileOffset?_eq_some_iff.1 ho
  obtain ⟨h', hmem', ⟨hle', hlt'⟩, hoffset'⟩ := ht.fileOffset?_eq_some_iff.1 ho'
  have hoccupies : h.Occupies o := ⟨by omega, by omega⟩
  have hoccupies' : h'.Occupies o := ⟨by omega, by omega⟩
  cases Apart.eq hraw hmem hmem' hoccupies hoccupies'
  exact UInt32.toNat_inj.1 (by omega)

end SectionTable

/-- If no relative address is held by two headers of a table, the table finds relative addresses at the same offsets in
whatever order its headers stand. It finds those, and only those, that the raw data of a header reach, as far from the start of the
raw data as from the first address of the header; and if the raw data of no two headers overlap, it finds no two of them at one
offset. -/
theorem fileOffset?_of_holdsOnce {t : SectionTable} (ht : t.HoldsOnce) :
    (∀ t' : SectionTable, (t'.entries.map NamedHeader.header).Perm (t.entries.map NamedHeader.header) →
        ∀ rva, t'.fileOffset? rva = t.fileOffset? rva) ∧
      (∀ rva o, t.fileOffset? rva = some o ↔
        ∃ h ∈ t.entries.map NamedHeader.header, h.virtualAddress.toNat ≤ rva.toNat ∧
          rva.toNat < h.virtualAddress.toNat + h.rawSize.toNat ∧
          o = h.rawPointer.toNat + (rva.toNat - h.virtualAddress.toNat)) ∧
      (t.OccupiesOnce → ∀ rva rva' o, t.fileOffset? rva = some o → t.fileOffset? rva' = some o → rva = rva') := by
  refine ⟨fun t' hp rva => ht.fileOffset?_perm hp rva, fun rva o => ?_, fun hraw rva rva' o => ht.eq_of_fileOffset? hraw⟩
  rw [ht.fileOffset?_eq_some_iff]
  simp only [SectionHeader.Reaches, and_assoc]

/-- Four headers: one without raw data, one with less raw data than addresses, one whose raw data go beyond the last relative
address, and one that holds nothing. -/
def SectionTable.scattered : SectionTable :=
  let header (virtualAddress virtualSize rawPointer rawSize : UInt32) : NamedHeader :=
    ⟨{ nameField := #[], virtualSize, virtualAddress, rawSize, rawPointer, characteristics := 0 }, ""⟩
  { entries := [header 0x2000 0x1000 0 0, header 0x1000 4 0x200 2, header 0xFFFFFFFE 0 0x202 0x10, header 0x1000 0 0x200 0] }

/-- The last relative address of all is found in the table, in the opposite order of the headers too, and no other is found where it
is; the third address of the second section is not found. -/
theorem fileOffset?_of_holdsOnce_scattered :
    SectionTable.fileOffset? ⟨SectionTable.scattered.entries.reverse⟩ 0xFFFFFFFF = some 0x203 ∧
      (∀ rva, SectionTable.scattered.fileOffset? rva = some 0x203 → rva = 0xFFFFFFFF) ∧
      ¬∃ o, SectionTable.scattered.fileOffset? 0x1002 = some o := by
  have haddresses : (SectionTable.scattered.entries.map NamedHeader.header).Pairwise fun h h' =>
      h.virtualAddress.toNat + max h.virtualSize.toNat h.rawSize.toNat ≤ h'.virtualAddress.toNat ∨
        h'.virtualAddress.toNat + max h'.virtualSize.toNat h'.rawSize.toNat ≤ h.virtualAddress.toNat := by
    decide
  have hdata : (SectionTable.scattered.entries.map NamedHeader.header).Pairwise fun h h' =>
      h.rawPointer.toNat + h.rawSize.toNat ≤ h'.rawPointer.toNat ∨
        h'.rawPointer.toNat + h'.rawSize.toNat ≤ h.rawPointer.toNat := by
    decide
  have ht : SectionTable.scattered.HoldsOnce := by
    refine haddresses.imp fun hapart rva hboth => ?_
    obtain ⟨hh, hh'⟩ := hboth
    unfold SectionHeader.Holds at hh hh'
    omega
  have hraw : SectionTable.scattered.OccupiesOnce := by
    refine hdata.imp fun hapart o hboth => ?_
    obtain ⟨hh, hh'⟩ := hboth
    unfold SectionHeader.Occupies at hh hh'
    omega
  obtain ⟨hperm, hfound, hinj⟩ := fileOffset?_of_holdsOnce ht
  have hlast : SectionTable.scattered.fileOffset? 0xFFFFFFFF = some 0x203 :=
    (hfound 0xFFFFFFFF 0x203).2 ⟨_, List.mem_of_getElem? (i := 2) rfl, by decide, by decide, by decide⟩
  refine ⟨?_, fun rva hrva => hinj hraw rva 0xFFFFFFFF 0x203 hrva hlast, ?_⟩
  · rw [hperm ⟨SectionTable.scattered.entries.reverse⟩ ((List.reverse_perm _).map _)]
    exact hlast
  · rintro ⟨o, ho⟩
    obtain ⟨h, hmem, hle, hlt, -⟩ := (hfound 0x1002 o).1 ho
    revert h
    decide

end ExecImage.Pe
