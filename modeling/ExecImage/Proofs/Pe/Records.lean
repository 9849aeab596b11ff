import ExecImage.Pe.CoffSymbols
import ExecImage.Pe.Exports
import ExecImage.Proofs.Record

/-!
# The records of a PE image

The headers, the section headers, the records of the COFF symbol table and its string table: where they can be read, how they
fail, and that a longer file has the same ones.
-/

namespace ExecImage.Pe

open Except (ErrorsIn Carries)

variable {v w : View}

/-! ## Headers -/

/-- An image is signed when its magic bytes lead to a signature. -/
theorem isSigned_iff :
    isSigned v = true ↔
      v.startsWith 0 dosMagic = true ∧
        ∃ offset, v.word32 signaturePointer .little = .ok offset ∧ v.startsWith offset.toNat signature = true := by
  unfold isSigned
  rw [Bool.and_eq_true]
  cases v.word32 signaturePointer .little <;> simp

/-- The file header that its bytes hold. -/
def FileHeader.ofBytes (bs : Bytes) : FileHeader :=
  let number := View.numberAt .little bs
  { machine := .ofNat (number 0 2)
    sectionCount := .ofNat (number 2 2)
    symbolPointer := .ofNat (number 8 4)
    symbolCount := .ofNat (number 12 4)
    optionalSize := .ofNat (number 16 2)
    characteristics := .ofNat (number 18 2) }

/-- A file header is read from its bytes, if they are in the file. -/
theorem FileHeader.read_eq (v : View) (offset : Nat) :
    FileHeader.read v offset = (v.slice offset size).map FileHeader.ofBytes := by
  by_cases hc : v.Covers offset size
  · have hu := View.sub_eq_ok_iff.2 ⟨hc, rfl⟩
    have half {k : Nat} (hk : k + 2 ≤ size) := View.word16_of_covers .little (View.covers_of_sub hu hk)
    have word {k : Nat} (hk : k + 4 ≤ size) := View.word32_of_covers .little (View.covers_of_sub hu hk)
    unfold FileHeader.read
    rw [hu, View.slice_of_covers hc]
    dsimp only [bind, Except.bind]
    rw [half (k := 0) (by decide), half (k := 2) (by decide), word (k := 8) (by decide), word (k := 12) (by decide),
      half (k := 16) (by decide), half (k := 18) (by decide)]
    rfl
  · have hslice : v.slice offset size = .error (.outOfBounds offset size v.size) := if_neg hc
    unfold FileHeader.read View.sub
    rw [hslice]
    rfl

/-- The file header is a record. -/
theorem FileHeader.isRecord_read : View.IsRecord size FileHeader.read :=
  ⟨FileHeader.ofBytes, FileHeader.read_eq⟩

theorem FileHeader.errors_read (v : View) (offset : Nat) : ErrorsIn LoadError.IsOutOfBounds (FileHeader.read v offset) :=
  FileHeader.isRecord_read.errors v offset

/-- The file header is read exactly when it is in the file, and then it is what its bytes hold. -/
theorem FileHeader.read_eq_ok_iff {offset : Nat} {file : FileHeader} :
    FileHeader.read v offset = .ok file ↔
      v.Covers offset size ∧ file = .ofBytes (v.bytes.extract offset (offset + size)) := by
  simp only [FileHeader.read_eq, Except.map_eq_ok_iff, View.slice_eq_ok_iff, and_assoc, exists_and_left, exists_eq_left',
    eq_comm (b := file)]

/-- A file header that is read is in the file, and states the size of the optional header. -/
theorem FileHeader.optionalSize_of_read {offset : Nat} {file : FileHeader} (h : read v offset = .ok file) :
    v.Covers offset size ∧ v.word16 (offset + 16) .little = .ok file.optionalSize := by
  obtain ⟨hc, rfl⟩ := FileHeader.read_eq_ok_iff.1 h
  exact ⟨hc, View.word16_of_record .little hc (by decide)⟩

theorem FileHeader.read_carries (h : v.Begins w) (offset : Nat) :
    Carries Eq (FileHeader.read v offset) (FileHeader.read w offset) :=
  FileHeader.isRecord_read.carries h

theorem DataDirectory.errors_read (v : View) (offset : Nat) :
    ErrorsIn LoadError.IsOutOfBounds (DataDirectory.read v offset) := by
  unfold DataDirectory.read
  refine .bind (v.errors_word32 _ _) fun rva _ => ?_
  exact .bind (v.errors_word32 _ _) fun size _ => .ok _

/-- The headers are missing, are none that are supported, or are too short to be read. -/
def IsForeign (e : LoadError) : Prop :=
  e.IsOutOfBounds ∨ e = .unsupportedFormat ∨ ∃ fault, e = .corruptSection Headers.optionalName fault

/-- An optional header whose magic number is known is read, or it is too short. -/
theorem Headers.errors_readOptional_of_magic {magic : UInt16} {start : Nat} (hmagic : v.word16 0 .little = .ok magic)
    (hstart : OptionalHeader.directoriesOffset? magic = some start) :
    ErrorsIn (fun e => e.IsOutOfBounds ∨ ∃ fault, e = .corruptSection Headers.optionalName fault) (Headers.readOptional v) := by
  unfold Headers.readOptional
  rw [hmagic]
  refine .bind (.ok magic) fun _ hm => ?_
  cases hm
  dsimp only
  rw [hstart]
  dsimp only
  split
  · exact .error (.inr ⟨_, rfl⟩)
  refine .bind ((v.errors_word32 _ _).imp fun _ => .inl) fun entryRva _ => ?_
  split
  case' isTrue => refine .bind ((v.errors_word64 _ _).imp fun _ => .inl) fun imageBase _ => ?_
  case' isFalse => refine .bind ((v.errors_address _ _ _).imp fun _ => .inl) fun imageBase _ => ?_
  all_goals
    refine .bind ((v.errors_word32 _ _).imp fun _ => .inl) fun directoryCount _ => ?_
    refine .bind (.mapM fun i _ => (DataDirectory.errors_read v _).imp fun _ => .inl) fun directories _ => ?_
    exact .ok _

/-- The format of an optional header is unsupported exactly when its magic number can be read and is none that is known. -/
theorem Headers.readOptional_eq_unsupportedFormat_iff :
    Headers.readOptional v = .error .unsupportedFormat ↔
      ∃ magic, v.word16 0 .little = .ok magic ∧ OptionalHeader.directoriesOffset? magic = none := by
  cases hmagic : v.word16 0 .little with
  | error e =>
    unfold Headers.readOptional
    rw [hmagic]
    constructor
    · intro h
      nomatch h
    · rintro ⟨magic, h, -⟩
      nomatch h
  | ok magic =>
    cases hstart : OptionalHeader.directoriesOffset? magic with
    | none =>
      unfold Headers.readOptional
      rw [hmagic]
      refine ⟨fun _ => ⟨magic, rfl, hstart⟩, fun _ => ?_⟩
      dsimp only [Except.pure_eq_ok, bind, Except.bind]
      rw [hstart]
      rfl
    | some start =>
      constructor
      · intro h
        rcases Headers.errors_readOptional_of_magic hmagic hstart _ h with ⟨offset, len, size, h⟩ | ⟨fault, h⟩
        · nomatch h
        · nomatch h
      · rintro ⟨_, h, hnone⟩
        cases h
        rw [hstart] at hnone
        nomatch hnone

theorem Headers.errors_readOptional (v : View) : ErrorsIn IsForeign (Headers.readOptional v) := by
  cases hmagic : v.word16 0 .little with
  | error e =>
    unfold Headers.readOptional
    rw [hmagic]
    exact .error (.inr (.inr ⟨_, rfl⟩))
  | ok magic =>
    cases hstart : OptionalHeader.directoriesOffset? magic with
    | none =>
      rw [Headers.readOptional_eq_unsupportedFormat_iff.2 ⟨magic, hmagic, hstart⟩]
      exact .error (.inr (.inl rfl))
    | some start =>
      refine (Headers.errors_readOptional_of_magic hmagic hstart).imp fun e he => ?_
      rcases he with he | he
      · exact .inl he
      · exact .inr (.inr he)

theorem Headers.errors_read (v : View) : ErrorsIn IsForeign (Headers.read v) := by
  have outside : ∀ e : LoadError, e.IsOutOfBounds → IsForeign e := fun _ => .inl
  unfold Headers.read
  split
  · refine .bind ((v.errors_word32 _ _).imp outside) fun signatureOffset _ => ?_
    refine .bind ((v.errors_slice _ _).discard.imp outside) fun _ _ => ?_
    split
    · refine .bind ((FileHeader.errors_read v _).imp outside) fun file _ => ?_
      refine .bind ((v.errors_sub _ _).imp outside) fun header _ => ?_
      exact .bind (Headers.errors_readOptional header) fun _ _ => .ok _
    · exact .error (.inr (.inl rfl))
  · exact .error (.inr (.inl rfl))

/-- A longer file has the same headers. -/
theorem Headers.read_carries (h : v.Begins w) : Carries Eq (Headers.read v) (Headers.read w) := by
  unfold Headers.read
  by_cases hm : v.startsWith 0 dosMagic = true
  · rw [if_pos hm, if_pos (h.startsWith hm)]
    refine (h.word32 _ _).bind ?_
    rintro pointer _ rfl
    refine (h.slice _ _).discard.bind fun _ _ _ => ?_
    by_cases hs : v.startsWith pointer.toNat signature = true
    · rw [if_pos hs, if_pos (h.startsWith hs)]
      refine (FileHeader.read_carries h _).bind ?_
      rintro file _ rfl
      refine (h.sub _ _).bind ?_
      rintro header _ rfl
      exact .refl _
    · rw [if_neg hs]
      exact .error _ _
  · rw [if_neg hm]
    exact .error _ _

/-! ## Section headers -/

/-- A section header is determined by its bytes. -/
theorem SectionHeader.read_within : View.Within SectionHeader.size SectionHeader.read := by
  unfold SectionHeader.read
  refine (View.slice_within (k := 0) (by decide)).bind fun nameField => ?_
  refine (View.word32_within .little (by decide)).bind fun virtualSize => ?_
  refine (View.word32_within .little (by decide)).bind fun virtualAddress => ?_
  refine (View.word32_within .little (by decide)).bind fun rawSize => ?_
  refine (View.word32_within .little (by decide)).bind fun rawPointer => ?_
  exact (View.word32_within .little (by decide)).bind fun characteristics => View.pure_within _

/-! ## Records of the COFF symbol table -/

/-- The record of the COFF symbol table that its bytes hold. -/
def CoffRecord.ofBytes (bs : Bytes) : CoffRecord :=
  let number := View.numberAt .little bs
  { nameField := bs.extract 0 8
    value := .ofNat (number 8 4)
    sectionNumber := .ofNat (number 12 2)
    type := .ofNat (number 14 2)
    storageClass := .ofNat (number 16 1)
    auxiliaries := .ofNat (number 17 1) }

/-- A record of the COFF symbol table is read from its bytes, if they are in the file. -/
theorem CoffRecord.read_eq (v : View) (offset : Nat) :
    CoffRecord.read v offset = (v.slice offset symbolRecordSize).map CoffRecord.ofBytes := by
  by_cases hc : v.Covers offset symbolRecordSize
  · have hname := View.slice_of_record hc (show 0 + 8 ≤ symbolRecordSize by decide)
    have half {k : Nat} (hk : k + 2 ≤ symbolRecordSize) := View.word16_of_record .little hc hk
    have byte {k : Nat} (hk : k + 1 ≤ symbolRecordSize) := View.byte_of_record hc hk
    rw [Nat.add_zero] at hname
    unfold CoffRecord.read
    rw [View.slice_of_covers hc, hname, View.word32_of_record (k := 8) .little hc (by decide), half (k := 12) (by decide),
      half (k := 14) (by decide), byte (k := 16) (by decide), byte (k := 17) (by decide)]
    rfl
  · have hslice : v.slice offset symbolRecordSize = .error (.outOfBounds offset symbolRecordSize v.size) := if_neg hc
    unfold CoffRecord.read
    rw [hslice]
    rfl

/-- A record of the COFF symbol table is a record. -/
theorem CoffRecord.isRecord_read : View.IsRecord symbolRecordSize CoffRecord.read :=
  ⟨CoffRecord.ofBytes, CoffRecord.read_eq⟩

/-! ## The string table -/

namespace StringTable

variable {pointer count : UInt32}

/-- A string table lies in the file: it follows the records of a symbol table, its first four bytes say its size, which counts
them too, and it ends in the file. -/
structure LiesIn (v : View) (pointer count size : UInt32) : Prop where
  present : pointer ≠ 0
  declared : v.word32 (offset pointer count) .little = .ok size
  sizeField_le : sizeField ≤ size.toNat
  covers : v.Covers (offset pointer count) size.toNat

/-- A string table is found exactly if it lies in the file, and then where it does. -/
theorem locate?_eq_some_iff {t : StringTable} :
    locate? v pointer count = some t ↔
      ∃ size, LiesIn v pointer count size ∧ v.sub (offset pointer count) size.toNat = .ok t.view := by
  unfold locate?
  constructor
  · intro ht
    split at ht
    · nomatch ht
    · rename_i h0
      dsimp only at ht
      split at ht
      · nomatch ht
      · rename_i size hsize
        split at ht
        · nomatch ht
        · rename_i hle
          split at ht
          · rename_i view hview
            cases ht
            exact ⟨size, ⟨h0, hsize, Nat.not_lt.1 hle, (View.sub_eq_ok_iff.1 hview).1⟩, hview⟩
          · nomatch ht
  · rintro ⟨size, hlies, hview⟩
    simp only [if_neg hlies.present, hlies.declared, if_neg (Nat.not_lt.2 hlies.sizeField_le), hview]

/-- A string of the table is a text of the file that starts after the size field and ends with the table at the latest. -/
theorem get_toOption {t : StringTable} {start len n : Nat} (h : v.sub start len = .ok t.view) :
    (t.get n).toOption = if sizeField ≤ n then v.textIn? start len n maxLength else none := by
  unfold get
  by_cases hn : n < sizeField
  · rw [if_pos hn, if_neg (Nat.not_le.2 hn)]
    rfl
  · rw [if_neg hn, if_pos (Nat.not_lt.1 hn), View.cstring_of_sub h]

end StringTable

/-! ## The export directory -/

/-- The export directory that its bytes hold. -/
def ExportDirectory.ofBytes (bs : Bytes) : ExportDirectory :=
  let number := View.numberAt .little bs
  { nameRva := .ofNat (number 12 4)
    ordinalBase := .ofNat (number 16 4)
    functionCount := .ofNat (number 20 4)
    nameCount := .ofNat (number 24 4)
    addressTableRva := .ofNat (number 28 4)
    nameTableRva := .ofNat (number 32 4)
    ordinalTableRva := .ofNat (number 36 4) }

/-- The export directory is read where its bytes are. -/
theorem ExportDirectory.read_eq_ok {offset : Nat} (hc : v.Covers offset size) :
    ExportDirectory.read v offset = .ok (.ofBytes (v.bytes.extract offset (offset + size))) := by
  have hu := View.sub_eq_ok_iff.2 ⟨hc, rfl⟩
  have word {k : Nat} (hk : k + 4 ≤ size) := View.word32_of_covers .little (View.covers_of_sub hu hk)
  unfold ExportDirectory.read
  rw [hu]
  dsimp only [bind, Except.bind]
  rw [word (k := 12) (by decide), word (k := 16) (by decide), word (k := 20) (by decide), word (k := 24) (by decide),
    word (k := 28) (by decide), word (k := 32) (by decide), word (k := 36) (by decide)]
  rfl

/-- The export directory is read exactly when it is in the file, and then it is what its bytes hold. -/
theorem ExportDirectory.read_eq_ok_iff {offset : Nat} {d : ExportDirectory} :
    ExportDirectory.read v offset = .ok d ↔ v.Covers offset size ∧ d = .ofBytes (v.bytes.extract offset (offset + size)) := by
  constructor
  · intro h
    cases hu : v.sub offset size with
    | error e =>
      unfold ExportDirectory.read at h
      rw [hu] at h
      nomatch h
    | ok u =>
      obtain ⟨hc, -⟩ := View.sub_eq_ok_iff.1 hu
      rw [ExportDirectory.read_eq_ok hc] at h
      cases h
      exact ⟨hc, rfl⟩
  · rintro ⟨hc, rfl⟩
    exact ExportDirectory.read_eq_ok hc

end ExecImage.Pe
