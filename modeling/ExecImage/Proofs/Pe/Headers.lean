import ExecImage.Proofs.Pe.Records
import ExecImage.Proofs.Pe.Writer

/-!
# The headers that a PE file holds

The headers of an image are said here of the bytes of the file (`Headers.decoded`). Three numbers that do not depend on one
another lead to them: where the signature is, how long the optional header is, and how many directories it declares. The headers
are read exactly when what the first two lead to is in the file, the magic numbers are known and the optional header is as long as
the part before its directories (`Headers.Readable`). No field is looked for outside the part that it belongs to, so nothing
else can fail (`Headers.read_eq_ok_iff`).
-/

namespace ExecImage.Pe

open Except (bind_eq_ok_iff)
open View (numberAt)

/-! ## The optional header -/

/-- The magic number of the bytes of an optional header. -/
def OptionalHeader.magicOf (bs : Bytes) : UInt16 :=
  .ofNat (numberAt .little bs 0 2)

/-- The optional header that its bytes hold, up to the directories that start at an offset. -/
def OptionalHeader.ofBytes (bs : Bytes) (start : Nat) : OptionalHeader :=
  { magic := magicOf bs
    entryRva := .ofNat (numberAt .little bs 16 4)
    imageBase := if magicOf bs = magic64 then .ofNat (numberAt .little bs 24 8) else .ofNat (numberAt .little bs 28 4)
    directoryCount := .ofNat (numberAt .little bs (start - 4) 4) }

/-- The directory that the bytes of an optional header hold at an offset. -/
def DataDirectory.ofBytes (bs : Bytes) (offset : Nat) : DataDirectory :=
  { rva := .ofNat (numberAt .little bs offset 4), size := .ofNat (numberAt .little bs (offset + 4) 4) }

/-- The directories that the bytes of an optional header hold from an offset on: as many as are declared and there, and at most
sixteen. -/
def DataDirectory.allOf (bs : Bytes) (start : Nat) : List DataDirectory :=
  (List.range (Headers.directoryCount (OptionalHeader.ofBytes bs start).directoryCount.toNat bs.size start)).map fun i =>
    .ofBytes bs (start + i * entrySize)

variable {v : View}

/-- A directory is read where its bytes are. -/
theorem DataDirectory.read_eq_ok {offset : Nat} (h : v.Covers offset entrySize) :
    DataDirectory.read v offset = .ok (.ofBytes v.bytes offset) := by
  have hrva : v.Covers offset 4 := h.mono (by unfold entrySize; omega)
  have hsize : v.Covers (offset + 4) 4 := h.mono (by unfold entrySize; omega)
  exact bind_eq_ok_iff.2 ⟨_, View.word32_of_covers .little hrva,
    bind_eq_ok_iff.2 ⟨_, View.word32_of_covers .little hsize, rfl⟩⟩

/-- The directories that are counted all end inside the optional header. -/
theorem Headers.directory_le_of_lt {declared size start i : Nat} (h : i < directoryCount declared size start) :
    start + i * DataDirectory.entrySize + DataDirectory.entrySize ≤ size := by
  unfold directoryCount DataDirectory.entrySize at *
  omega

/-- The magic number says where the directories of an optional header start, if it is known. -/
theorem OptionalHeader.directoriesOffset?_eq_some_iff {magic : UInt16} {start : Nat} :
    directoriesOffset? magic = some start ↔ magic = magic32 ∧ start = 96 ∨ magic = magic64 ∧ start = 112 := by
  have hne : magic32 ≠ magic64 := by decide
  unfold directoriesOffset?
  by_cases h32 : magic = magic32
  · simp [h32, hne, eq_comm]
  · by_cases h64 : magic = magic64
    · simp [h64, hne.symm, eq_comm]
    · simp [h32, h64]

/-- An optional header is read if its magic number is known and its directories do not start after its end. -/
theorem Headers.readOptional_eq_ok {start : Nat}
    (hmagic : OptionalHeader.directoriesOffset? (OptionalHeader.magicOf v.bytes) = some start) (hsize : start ≤ v.size) :
    readOptional v = .ok (.ofBytes v.bytes start, DataDirectory.allOf v.bytes start) := by
  have hstart : 96 ≤ start := by
    rcases OptionalHeader.directoriesOffset?_eq_some_iff.1 hmagic with ⟨-, rfl⟩ | ⟨-, rfl⟩ <;> decide
  have hcovers {k len : Nat} (h : k + len ≤ start) : v.Covers k len := Nat.le_trans h hsize
  have word {k : Nat} (h : k + 4 ≤ start) := View.word32_of_covers .little (hcovers h)
  have hfirst : v.word16 0 .little = .ok (OptionalHeader.magicOf v.bytes) := View.word16_of_covers .little (hcovers (by omega))
  have hcount := word (k := start - 4) (by omega)
  have hdirectories : (List.range (directoryCount (OptionalHeader.ofBytes v.bytes start).directoryCount.toNat v.size start)).mapM
      (fun i => DataDirectory.read v (start + i * DataDirectory.entrySize)) = .ok (DataDirectory.allOf v.bytes start) :=
    Except.mapM_eq_ok_map fun i hi => DataDirectory.read_eq_ok (Headers.directory_le_of_lt (List.mem_range.1 hi))
  unfold readOptional
  rw [hfirst]
  refine bind_eq_ok_iff.2 ⟨_, rfl, ?_⟩
  dsimp only
  rw [hmagic]
  dsimp only
  rw [if_neg (Nat.not_lt.2 hsize)]
  refine bind_eq_ok_iff.2 ⟨_, word (k := 16) (by omega), ?_⟩
  -- The image base is as wide as the magic number says, and the fields after it are the same.
  by_cases h64 : OptionalHeader.magicOf v.bytes = OptionalHeader.magic64
  · have hbase : v.word64 24 .little = .ok (.ofNat (numberAt .little v.bytes 24 8)) :=
      View.word64_eq_ok_iff.2 ⟨hcovers (by omega), rfl⟩
    rw [if_pos h64]
    refine bind_eq_ok_iff.2 ⟨_, hbase, bind_eq_ok_iff.2 ⟨_, hcount, bind_eq_ok_iff.2 ⟨_, hdirectories, ?_⟩⟩⟩
    rw [OptionalHeader.ofBytes, if_pos h64]
    rfl
  · have hbase : v.address 28 .w32 .little = .ok (.ofNat (numberAt .little v.bytes 28 4)) :=
      Except.map_eq_ok_iff.2 ⟨_, View.field_eq_ok_iff.2 ⟨hcovers (show 28 + 4 ≤ start by omega), rfl⟩, rfl⟩
    rw [if_neg h64]
    refine bind_eq_ok_iff.2 ⟨_, hbase, bind_eq_ok_iff.2 ⟨_, hcount, bind_eq_ok_iff.2 ⟨_, hdirectories, ?_⟩⟩⟩
    rw [OptionalHeader.ofBytes, if_neg h64]
    rfl

/-- An optional header that ends before its directories is at fault. -/
theorem Headers.readOptional_eq_error {magic : UInt16} {start : Nat} (hfirst : v.word16 0 .little = .ok magic)
    (hmagic : OptionalHeader.directoriesOffset? magic = some start) (hsize : v.size < start) :
    readOptional v = .error (.corruptSection optionalName (.optionalHeaderShort v.size start)) := by
  unfold readOptional
  rw [hfirst]
  dsimp only [Except.pure_eq_ok, bind, Except.bind]
  rw [hmagic]
  dsimp only
  rw [if_pos hsize]
  rfl

/-- The optional header is read exactly when its magic number is known and it is as long as the part before its directories. -/
theorem Headers.readOptional_eq_ok_iff {r : OptionalHeader × List DataDirectory} :
    readOptional v = .ok r ↔ ∃ start, OptionalHeader.directoriesOffset? (OptionalHeader.magicOf v.bytes) = some start ∧
      start ≤ v.size ∧ r = (.ofBytes v.bytes start, DataDirectory.allOf v.bytes start) := by
  constructor
  · intro h
    cases hfirst : v.word16 0 .little with
    | error e =>
      unfold readOptional at h
      rw [hfirst] at h
      nomatch h
    | ok magic =>
      obtain ⟨-, rfl⟩ := View.word16_eq_ok_iff.1 hfirst
      cases hstart : OptionalHeader.directoriesOffset? (OptionalHeader.magicOf v.bytes) with
      | none =>
        rw [Headers.readOptional_eq_unsupportedFormat_iff.2 ⟨_, hfirst, hstart⟩] at h
        nomatch h
      | some start =>
        by_cases hsize : start ≤ v.size
        · rw [Headers.readOptional_eq_ok hstart hsize] at h
          cases h
          exact ⟨start, rfl, hsize, rfl⟩
        · rw [Headers.readOptional_eq_error hfirst hstart (Nat.not_le.1 hsize)] at h
          nomatch h
  · rintro ⟨start, hmagic, hsize, rfl⟩
    exact Headers.readOptional_eq_ok hmagic hsize

/-! ## The headers -/

namespace Headers

/-- Where the file says that the signature is. -/
def signatureIn (v : View) : Nat :=
  numberAt .little v.bytes signaturePointer 4

/-- The bytes of the file header, which follows the signature. -/
def fileBytes (v : View) : Bytes :=
  v.bytes.extract (fileOffset (signatureIn v)) (fileOffset (signatureIn v) + FileHeader.size)

/-- The size of the optional header that the file header states. -/
def optionalSizeIn (v : View) : Nat :=
  numberAt .little (fileBytes v) 16 2

/-- The bytes of the optional header, which follows the file header. -/
def optionalBytes (v : View) : Bytes :=
  v.bytes.extract (optionalOffset (signatureIn v)) (optionalOffset (signatureIn v) + optionalSizeIn v)

/-- The magic number of the optional header. -/
def magicIn (v : View) : UInt16 :=
  OptionalHeader.magicOf (optionalBytes v)

/-- Where the directories start in the optional header. -/
def directoriesStart (v : View) : Nat :=
  if magicIn v = OptionalHeader.magic64 then 112 else 96

/-- The headers that a file holds. -/
def decoded (v : View) : Headers :=
  { signatureOffset := signatureIn v
    file := .ofBytes (fileBytes v)
    optional := .ofBytes (optionalBytes v) (directoriesStart v)
    directories := DataDirectory.allOf (optionalBytes v) (directoriesStart v) }

/-- The headers of a file can be read. -/
structure Readable (v : View) : Prop where
  /-- The file starts as a PE image does. -/
  dos : v.startsWith 0 dosMagic = true
  /-- The offset of the signature is in the file. -/
  pointer : v.Covers signaturePointer 4
  /-- The signature is where the offset says. -/
  signature : v.startsWith (signatureIn v) signature = true
  /-- The file header is in the file. -/
  file : v.Covers (fileOffset (signatureIn v)) FileHeader.size
  /-- The optional header is in the file, as long as it is stated to be. -/
  optional : v.Covers (optionalOffset (signatureIn v)) (optionalSizeIn v)
  /-- The magic number is known, and the part before the directories is in the optional header. -/
  magic : magicIn v = OptionalHeader.magic32 ∧ 96 ≤ optionalSizeIn v ∨
    magicIn v = OptionalHeader.magic64 ∧ 112 ≤ optionalSizeIn v

theorem eq_directoriesStart {start : Nat} (h : OptionalHeader.directoriesOffset? (magicIn v) = some start) :
    start = directoriesStart v := by
  have hne : OptionalHeader.magic32 ≠ OptionalHeader.magic64 := by decide
  unfold directoriesStart
  rcases OptionalHeader.directoriesOffset?_eq_some_iff.1 h with ⟨hmagic, rfl⟩ | ⟨hmagic, rfl⟩
  · rw [hmagic, if_neg hne]
  · rw [if_pos hmagic]

/-- The optional header has as many bytes as the file header states. -/
theorem size_optionalBytes (h : v.Covers (optionalOffset (signatureIn v)) (optionalSizeIn v)) :
    (optionalBytes v).size = optionalSizeIn v :=
  View.size_of_slice (View.slice_of_covers h)

/-- The file header that is read states the size of the optional header. -/
theorem toNat_optionalSize (v : View) : (FileHeader.ofBytes (fileBytes v)).optionalSize.toNat = optionalSizeIn v :=
  View.toNat_numberAt_two _ _ _

/-- The optional header of a file is read exactly when it is long enough for a magic number that is known. -/
theorem readOptional_optionalBytes {r : OptionalHeader × List DataDirectory}
    (h : v.Covers (optionalOffset (signatureIn v)) (optionalSizeIn v)) :
    readOptional ⟨optionalBytes v⟩ = .ok r ↔
      (magicIn v = OptionalHeader.magic32 ∧ 96 ≤ optionalSizeIn v ∨
        magicIn v = OptionalHeader.magic64 ∧ 112 ≤ optionalSizeIn v) ∧
      r = (.ofBytes (optionalBytes v) (directoriesStart v), DataDirectory.allOf (optionalBytes v) (directoriesStart v)) := by
  have hsize : View.size ⟨optionalBytes v⟩ = optionalSizeIn v := size_optionalBytes h
  rw [readOptional_eq_ok_iff]
  constructor
  · rintro ⟨start, hstart, hle, rfl⟩
    rw [hsize] at hle
    have hdirectories : start = directoriesStart v := eq_directoriesStart hstart
    refine ⟨?_, by rw [hdirectories]⟩
    rcases OptionalHeader.directoriesOffset?_eq_some_iff.1 hstart with ⟨hmagic, h96⟩ | ⟨hmagic, h112⟩
    · exact .inl ⟨hmagic, Nat.le_trans (Nat.le_of_eq h96.symm) hle⟩
    · exact .inr ⟨hmagic, Nat.le_trans (Nat.le_of_eq h112.symm) hle⟩
  · rintro ⟨hmagic, rfl⟩
    obtain ⟨start, hstart, hle⟩ : ∃ start, OptionalHeader.directoriesOffset? (magicIn v) = some start ∧
        start ≤ optionalSizeIn v := by
      rcases hmagic with ⟨hmagic, hle⟩ | ⟨hmagic, hle⟩
      · exact ⟨96, OptionalHeader.directoriesOffset?_eq_some_iff.2 (.inl ⟨hmagic, rfl⟩), hle⟩
      · exact ⟨112, OptionalHeader.directoriesOffset?_eq_some_iff.2 (.inr ⟨hmagic, rfl⟩), hle⟩
    refine ⟨start, hstart, Nat.le_trans hle (Nat.le_of_eq hsize.symm), ?_⟩
    have hdirectories : start = directoriesStart v := eq_directoriesStart hstart
    rw [hdirectories]

/-- The offset of the signature is read where it is in the file. -/
theorem word32_signaturePointer {offset : UInt32} (h : v.word32 signaturePointer .little = .ok offset) :
    v.Covers signaturePointer 4 ∧ offset.toNat = signatureIn v := by
  obtain ⟨hcovers, rfl⟩ := View.word32_eq_ok_iff.1 h
  exact ⟨hcovers, View.toNat_numberAt_four _ _ _⟩

/-- The headers are read exactly when they can be, and then they are what the file holds. -/
theorem read_eq_ok_iff {h : Headers} : Headers.read v = .ok h ↔ Readable v ∧ h = decoded v := by
  unfold Headers.read
  constructor
  · intro hread
    split at hread
    · rename_i hdos
      obtain ⟨offset, hoffset, hread⟩ := bind_eq_ok_iff.1 hread
      obtain ⟨_, -, hread⟩ := bind_eq_ok_iff.1 hread
      obtain ⟨hpointer, hvalue⟩ := word32_signaturePointer hoffset
      rw [hvalue] at hread
      split at hread
      · rename_i hsignature
        obtain ⟨file, hfile, hread⟩ := bind_eq_ok_iff.1 hread
        obtain ⟨u, hu, hread⟩ := bind_eq_ok_iff.1 hread
        obtain ⟨r, hoptional, hread⟩ := bind_eq_ok_iff.1 hread
        obtain ⟨hcovered, rfl⟩ := FileHeader.read_eq_ok_iff.1 hfile
        have hu : v.sub (optionalOffset (signatureIn v)) (FileHeader.ofBytes (fileBytes v)).optionalSize.toNat = .ok u := hu
        rw [toNat_optionalSize] at hu
        obtain ⟨hcovers, rfl⟩ := View.sub_eq_ok_iff.1 hu
        obtain ⟨hmagic, rfl⟩ := (readOptional_optionalBytes hcovers).1 hoptional
        refine ⟨⟨hdos, hpointer, hsignature, hcovered, hcovers, hmagic⟩, ?_⟩
        cases hread
        unfold decoded fileBytes
        rfl
      · nomatch hread
    · nomatch hread
  · rintro ⟨hr, rfl⟩
    obtain ⟨offset, hoffset⟩ := View.isOk_word32 .little hr.pointer
    have hslice := View.slice_of_covers (View.getElem?_of_startsWith hr.signature).1
    have hu : v.sub (optionalOffset (signatureIn v)) (FileHeader.ofBytes (fileBytes v)).optionalSize.toNat =
        .ok ⟨optionalBytes v⟩ := by
      rw [toNat_optionalSize]
      exact View.sub_eq_ok_iff.2 ⟨hr.optional, rfl⟩
    have hoptional := (readOptional_optionalBytes hr.optional).2 ⟨hr.magic, rfl⟩
    rw [if_pos hr.dos]
    refine bind_eq_ok_iff.2 ⟨_, hoffset, ?_⟩
    rw [(word32_signaturePointer hoffset).2]
    refine bind_eq_ok_iff.2 ⟨⟨⟩, Except.discard_eq_ok_iff.2 ⟨_, hslice⟩, ?_⟩
    rw [if_pos hr.signature]
    refine bind_eq_ok_iff.2 ⟨_, FileHeader.read_eq_ok_iff.2 ⟨hr.file, rfl⟩, ?_⟩
    refine bind_eq_ok_iff.2 ⟨_, hu, bind_eq_ok_iff.2 ⟨_, hoptional, ?_⟩⟩
    unfold decoded fileBytes
    rfl

/-! ## What the headers say of the file -/

/-- The section table follows the optional header. -/
theorem sectionTableOffset_decoded (v : View) : (decoded v).sectionTableOffset = signatureIn v + 24 + optionalSizeIn v := by
  unfold sectionTableOffset
  dsimp only [decoded]
  rw [toNat_optionalSize]
  rfl

/-- As many directories are read as are declared and fit in the optional header, and at most sixteen. -/
theorem length_directories (h : v.Covers (optionalOffset (signatureIn v)) (optionalSizeIn v)) :
    (decoded v).directories.length =
      directoryCount (numberAt .little (optionalBytes v) (directoriesStart v - 4) 4) (optionalSizeIn v) (directoriesStart v) := by
  dsimp only [decoded, DataDirectory.allOf, OptionalHeader.ofBytes]
  rw [List.length_map, List.length_range, View.toNat_numberAt_four, size_optionalBytes h]

/-- A directory is in the bytes of the optional header at its place. -/
theorem getElem?_directories {i : Nat} (h : i < (decoded v).directories.length) :
    (decoded v).directories[i]? =
      some (.ofBytes (optionalBytes v) (directoriesStart v + i * DataDirectory.entrySize)) := by
  dsimp only [decoded, DataDirectory.allOf] at h ⊢
  rw [List.length_map, List.length_range] at h
  rw [List.getElem?_map, List.getElem?_range h]
  rfl

/-- The image base of an image with 32-bit addresses is a number of four bytes. -/
theorem imageBase_lt (h : (decoded v).optional.magic = OptionalHeader.magic32) :
    (decoded v).optional.imageBase.toNat < 2 ^ 32 := by
  have hne : OptionalHeader.magic32 ≠ OptionalHeader.magic64 := by decide
  have hlt := View.numberAt_lt .little (optionalBytes v) 28 4
  dsimp only [decoded, OptionalHeader.ofBytes] at h ⊢
  rw [h, if_neg hne, UInt64.toNat_ofNat_of_lt' (Nat.lt_trans hlt (by decide))]
  exact hlt

/-- The headers of an image are read exactly when the parts that they are in lie in the file, with magic numbers that are known
and an optional header that reaches its directories. The section table then follows the optional header; there are as many
directories as are declared, as fit in the optional header and at most sixteen, each of them is in the bytes at its place,
which lie before the section table; and the image base of an image with 32-bit addresses is a 32-bit number. -/
theorem read_iff_readable (v : View) :
    ((∃ h, Headers.read v = .ok h) ↔ Readable v) ∧
      ∀ h, Headers.read v = .ok h → h = decoded v ∧ ∃ start,
        (magicIn v = OptionalHeader.magic32 ∧ start = 96 ∨ magicIn v = OptionalHeader.magic64 ∧ start = 112) ∧
        h.sectionTableOffset = signatureIn v + 24 + optionalSizeIn v ∧
        h.directories.length =
          min (min (numberAt .little (optionalBytes v) (start - 4) 4) 16) ((optionalSizeIn v - start) / 8) ∧
        (∀ i < h.directories.length,
          h.directories[i]? = some
            { rva := .ofNat (numberAt .little (optionalBytes v) (start + 8 * i) 4)
              size := .ofNat (numberAt .little (optionalBytes v) (start + 8 * i + 4) 4) } ∧
          optionalOffset (signatureIn v) + (start + 8 * i) + 8 ≤ h.sectionTableOffset) ∧
        (h.optional.magic = OptionalHeader.magic32 → h.optional.imageBase.toNat < 2 ^ 32) := by
  refine ⟨by simp only [read_eq_ok_iff, exists_and_left, exists_eq, and_true], fun h hread => ?_⟩
  obtain ⟨hr, rfl⟩ := read_eq_ok_iff.1 hread
  refine ⟨rfl, directoriesStart v, ?_, sectionTableOffset_decoded v, length_directories hr.optional, fun i hi => ⟨?_, ?_⟩,
    imageBase_lt⟩
  · have hne : OptionalHeader.magic32 ≠ OptionalHeader.magic64 := by decide
    unfold directoriesStart
    rcases hr.magic with ⟨hmagic, -⟩ | ⟨hmagic, -⟩
    · exact .inl ⟨hmagic, by rw [hmagic, if_neg hne]⟩
    · exact .inr ⟨hmagic, if_pos hmagic⟩
  · rw [getElem?_directories hi, Nat.mul_comm 8 i]
    rfl
  · rw [length_directories hr.optional] at hi
    have hend := directory_le_of_lt hi
    rw [sectionTableOffset_decoded]
    unfold optionalOffset fileOffset DataDirectory.entrySize FileHeader.size at *
    have hlength : signature.length = 4 := rfl
    omega

/-- A file that ends with an optional header that declares a hundred directories and has room for two of them. -/
def clamped : View :=
  let file : FileHeader := { (default : FileHeader) with optionalSize := 117 }
  let optional : OptionalHeader :=
    { magic := OptionalHeader.magic32, entryRva := 0, imageBase := 0x400000, directoryCount := 100 }
  let directories : List DataDirectory := [⟨0x2000, 52⟩, ⟨0x3000, 8⟩]
  ⟨(ImageSpec.stub ++ (file.write ++ (optional.write ++ (directories.flatMap DataDirectory.write ++ unread 5)))).toArray⟩

/-- The two directories are read, and the section table would follow the file. -/
theorem read_iff_readable_clamped :
    ∃ h, Headers.read clamped = .ok h ∧ h.directories = [⟨0x2000, 52⟩, ⟨0x3000, 8⟩] ∧
      h.sectionTableOffset = clamped.size ∧ h.optional.imageBase.toNat < 2 ^ 32 := by
  have hreadable : Readable clamped :=
    { dos := by decide +kernel
      pointer := by decide +kernel
      signature := by decide +kernel
      file := by decide +kernel
      optional := by decide +kernel
      magic := by decide +kernel }
  obtain ⟨hiff, hall⟩ := read_iff_readable clamped
  obtain ⟨h, hread⟩ := hiff.2 hreadable
  obtain ⟨hdecoded, start, -, htable, -, -, hbase⟩ := hall h hread
  have hmagic : (decoded clamped).optional.magic = OptionalHeader.magic32 := by decide +kernel
  have hdirectories : (decoded clamped).directories = [⟨0x2000, 52⟩, ⟨0x3000, 8⟩] := by decide +kernel
  rw [← hdecoded] at hmagic hdirectories
  refine ⟨h, hread, hdirectories, ?_, hbase hmagic⟩
  rw [htable]
  decide +kernel

end Headers

end ExecImage.Pe
