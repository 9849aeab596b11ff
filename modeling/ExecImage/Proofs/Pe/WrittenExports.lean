import ExecImage.Proofs.Pe.NamedExports
import ExecImage.Proofs.Pe.Written

/-!
# Exports that were written are read back

A linker puts the export directory, the three tables and the texts into one section, one after the other. Everything in it
is found through relative addresses, so what is needed of the image is that these lead to the bytes of the section
(`Backs`). Then each name is read at the end of the same way that it was laid out (`ExportSpec.Laid`).
-/

namespace ExecImage.Pe

open Except (bind_eq_ok_iff)

variable {v : View} {sections : SectionTable} {directory : DataDirectory} {optional : OptionalHeader} {options : Options}

/-! ## Relative addresses of bytes -/

/-- Bytes are raw data of a section header from its first address on, and no other header holds their addresses. -/
structure Backs (v : View) (sections : SectionTable) (base : UInt32) (bs : List UInt8) (h : SectionHeader) : Prop where
  mem : h ∈ sections.entries.map NamedHeader.header
  address : h.virtualAddress = base
  holds : v.Holds h.rawPointer.toNat bs
  length_le : bs.length ≤ h.rawSize.toNat
  fits : base.toNat + bs.length ≤ 2 ^ 32
  only : ∀ h' ∈ sections.entries.map NamedHeader.header, ∀ rva : UInt32,
    base.toNat ≤ rva.toNat → rva.toNat < base.toNat + bs.length → h'.Holds rva → h' = h

/-- The relative address of a byte leads to its place in the file. -/
theorem Backs.fileOffset? {base : UInt32} {bs : List UInt8} {h : SectionHeader} (hb : Backs v sections base bs h) {k : Nat}
    (hk : k < bs.length) : sections.fileOffset? (base + .ofNat k) = some (h.rawPointer.toNat + k) := by
  have hfits := hb.fits
  have hlength := hb.length_le
  have hbase : h.virtualAddress.toNat = base.toNat := by rw [hb.address]
  have hrva : (base + UInt32.ofNat k).toNat = base.toNat + k := by
    rw [UInt32.toNat_add, UInt32.toNat_ofNat_of_lt' (show k < 2 ^ 32 by omega)]
    exact Nat.mod_eq_of_lt (by omega)
  have hholds : h.Holds (base + .ofNat k) := by
    unfold SectionHeader.Holds
    omega
  have hholder : sections.holder? (base + .ofNat k) = some h := by
    cases hfind : sections.holder? (base + .ofNat k) with
    | none => exact absurd hholds (by simpa using List.find?_eq_none.1 hfind h hb.mem)
    | some h' =>
      have hmem := List.mem_of_find?_eq_some hfind
      have hh' : h'.Holds (base + .ofNat k) := by simpa using List.find?_some hfind
      rw [hb.only h' hmem _ (by omega) (by omega) hh']
  unfold SectionTable.fileOffset? SectionHeader.fileOffset?
  rw [hholder, Option.bind_some, hrva, hbase, Nat.add_sub_cancel_left]
  exact if_pos (by omega)

/-! ## Writing exports -/

/-- An export to be written. -/
structure ExportSpec where
  /-- The name. -/
  name : String
  /-- The relative address. -/
  rva : UInt32
  deriving DecidableEq, Repr

namespace ExportSpec

/-- Where the addresses lie in a section of exports: after the directory. -/
def addressesAt : Nat :=
  ExportDirectory.size

/-- Where the relative addresses of names lie, after the addresses. -/
def namesAt (count : Nat) : Nat :=
  addressesAt + count * 4

/-- Where the ordinals lie, after the relative addresses of names. -/
def ordinalsAt (count : Nat) : Nat :=
  namesAt count + count * 4

/-- Where the texts lie, after the ordinals. -/
def textsAt (count : Nat) : Nat :=
  ordinalsAt count + count * 2

/-- Where the name of the export at an index lies: after the name of the image and the names before it. -/
def nameOffset (image : String) (exports : List ExportSpec) (i : Nat) : Nat :=
  textsAt exports.length + (text image).length + ((exports.take i).flatMap fun e => text e.name).length

/-- The directory of some exports in a section at a relative address. -/
def exportDirectory (base : UInt32) (count : Nat) : ExportDirectory :=
  { nameRva := base + .ofNat (textsAt count)
    ordinalBase := 1
    functionCount := .ofNat count
    nameCount := .ofNat count
    addressTableRva := base + .ofNat addressesAt
    nameTableRva := base + .ofNat (namesAt count)
    ordinalTableRva := base + .ofNat (ordinalsAt count) }

/-- The tables of a section of exports that lies at an offset of the file. -/
def tables (offset count : Nat) : Exports.Tables :=
  { addresses := offset + addressesAt, names := offset + namesAt count, ordinals := offset + ordinalsAt count }

/-- The table of addresses. -/
def addressTable (exports : List ExportSpec) : List UInt8 :=
  exports.flatMap fun e => word e.rva

/-- The table of the relative addresses of names. -/
def nameTable (base : UInt32) (image : String) (exports : List ExportSpec) : List UInt8 :=
  (List.range exports.length).flatMap fun i => word (base + .ofNat (nameOffset image exports i))

/-- The table of ordinals: each name selects the address at its own index. -/
def ordinalTable (count : Nat) : List UInt8 :=
  (List.range count).flatMap fun i => half (.ofNat i)

/-- The names, one after the other. -/
def texts (exports : List ExportSpec) : List UInt8 :=
  exports.flatMap fun e => text e.name

/-- The bytes of a section of exports at a relative address. The name of the image lies between the tables and the names. -/
def write (base : UInt32) (image : String) (exports : List ExportSpec) : List UInt8 :=
  (exportDirectory base exports.length).write ++ (addressTable exports ++ (nameTable base image exports ++
    (ordinalTable exports.length ++ (text image ++ texts exports))))

variable {base : UInt32} {image : String} {exports : List ExportSpec} {offset i : Nat} {e : ExportSpec}

@[simp] theorem length_addressTable (exports : List ExportSpec) : (addressTable exports).length = exports.length * 4 :=
  length_flatMap_of_length fun e _ => length_word e.rva

@[simp] theorem length_nameTable (base : UInt32) (image : String) (exports : List ExportSpec) :
    (nameTable base image exports).length = exports.length * 4 := by
  rw [nameTable, length_flatMap_of_length fun i _ => length_word _, List.length_range]

@[simp] theorem length_ordinalTable (count : Nat) : (ordinalTable count).length = count * 2 := by
  rw [ordinalTable, length_flatMap_of_length fun i _ => length_half _, List.length_range]

theorem length_write (base : UInt32) (image : String) (exports : List ExportSpec) :
    (write base image exports).length = textsAt exports.length + (text image).length + (texts exports).length := by
  simp only [write, textsAt, ordinalsAt, namesAt, addressesAt, List.length_append, ExportDirectory.length_write,
    length_addressTable, length_nameTable, length_ordinalTable]
  omega

/-- A name lies inside the section. -/
theorem nameOffset_lt (base : UInt32) (hi : i < exports.length) :
    nameOffset image exports i < (write base image exports).length := by
  have htexts : (texts exports).length = ((exports.take i).flatMap fun e => text e.name).length + (text exports[i].name).length +
      (texts (exports.drop (i + 1))).length := by
    unfold texts
    conv_lhs => rw [← List.take_append_drop i exports, List.drop_eq_getElem_cons hi]
    rw [List.flatMap_append, List.flatMap_cons, List.length_append, List.length_append, Nat.add_assoc]
  have htext : (text exports[i].name).length = (Utf8.encode exports[i].name).length + 1 := by
    rw [text, List.length_append, List.length_singleton]
  rw [length_write, nameOffset]
  omega

/-- The parts of a section of exports are where the readers look for them. -/
structure Laid (v : View) (offset : Nat) (base : UInt32) (image : String) (exports : List ExportSpec) : Prop where
  directory : v.Holds offset (exportDirectory base exports.length).write
  address : ∀ (i : Nat) (e : ExportSpec), exports[i]? = some e →
    v.Holds ((tables offset exports.length).addresses + i * 4) (word e.rva)
  nameRva : ∀ i < exports.length,
    v.Holds ((tables offset exports.length).names + i * 4) (word (base + .ofNat (nameOffset image exports i)))
  ordinal : ∀ i < exports.length, v.Holds ((tables offset exports.length).ordinals + i * 2) (half (.ofNat i))
  name : ∀ (i : Nat) (e : ExportSpec), exports[i]? = some e → v.Holds (offset + nameOffset image exports i) (text e.name)

/-- A section of exports that was written is laid out as it is read. -/
theorem laid_of_holds (h : v.Holds offset (write base image exports)) : Laid v offset base image exports := by
  obtain ⟨hdirectory, h⟩ := View.Holds.append h
  obtain ⟨haddresses, h⟩ := h.append
  obtain ⟨hnames, h⟩ := h.append
  obtain ⟨hordinals, h⟩ := h.append
  obtain ⟨-, htexts⟩ := h.append
  simp only [ExportDirectory.length_write, length_addressTable, length_nameTable, length_ordinalTable] at *
  refine ⟨hdirectory, fun i e he => ?_, fun i hi => ?_, fun i hi => ?_, fun i e he => ?_⟩
  all_goals simp only [nameOffset, tables, textsAt, ordinalsAt, namesAt, addressesAt, ← Nat.add_assoc]
  · exact haddresses.getElem_of_length (fun e _ => length_word e.rva) he
  · exact hnames.getElem_of_length (fun i _ => length_word _) (List.getElem?_range hi)
  · exact hordinals.getElem_of_length (fun i _ => length_half _) (List.getElem?_range hi)
  · exact htexts.getElem_of_flatMap he

/-! ## Reading exports -/

/-- Exports can be written: as many as ordinals can count, with names that can be read back, and none of them in the directory. -/
structure Fits (directory : DataDirectory) (options : Options) (exports : List ExportSpec) : Prop where
  length_le : exports.length ≤ min 65535 options.maxExports.toNat
  name : ∀ e ∈ exports, IsName Exports.maxNameLength e.name
  own : ∀ e ∈ exports, ¬directory.Contains e.rva

section

variable {h : SectionHeader} (hb : Backs v sections base (write base image exports) h)

include hb

/-- The directory is found at the start of the section. -/
theorem isDirectory_of_backs (hdirectory : directory.rva = base) :
    Exports.IsDirectory v sections directory (exportDirectory base exports.length) := by
  have hpos : 0 < (write base image exports).length := by
    rw [length_write, textsAt, ordinalsAt, namesAt, addressesAt, ExportDirectory.size]
    omega
  have hresolve : Exports.resolve sections .directory directory.rva = .ok h.rawPointer.toNat := by
    have hfound := hb.fileOffset? hpos
    rw [Exports.resolve_eq_ok_iff, hdirectory]
    simpa using hfound
  have hread := ExportDirectory.read_of_holds (laid_of_holds hb.holds).directory
  exact Exports.findDirectory_eq_ok_iff.1 (bind_eq_ok_iff.2 ⟨_, hresolve, hread⟩)

/-- The tables are found where they were laid. -/
theorem backed_of_backs :
    Exports.Backed sections (exportDirectory base exports.length) (tables h.rawPointer.toNat exports.length) := by
  have hlength : textsAt exports.length < (write base image exports).length := by
    rw [length_write, text, List.length_append, List.length_singleton]
    omega
  have hfound {k : Nat} (hk : k ≤ textsAt exports.length) := hb.fileOffset? (k := k) (by omega)
  refine ⟨hfound ?_, hfound ?_, hfound ?_⟩
  all_goals
    unfold textsAt ordinalsAt namesAt
    omega

/-- An export is read as it was written. -/
theorem contributionAt_of_laid (optional : OptionalHeader) (hf : Fits directory options exports) (hi : exports[i]? = some e) :
    let d := exportDirectory base exports.length
    let t := tables h.rawPointer.toNat exports.length
    Exports.Present v d t i ∧
      Exports.contributionAt v sections directory optional d t i =
        { symbol := some (.function e.name (optional.va e.rva.toUInt64) .exported) } := by
  intro d t
  obtain ⟨hlt, -⟩ := List.getElem?_eq_some_iff.1 hi
  have hcount := hf.length_le
  have hmem := List.mem_of_getElem? hi
  have hl := laid_of_holds hb.holds
  obtain ⟨hname, hnameRva⟩ := Exports.nameRva_eq_ok_iff.1 (hl.nameRva i hlt).word32
  obtain ⟨hordinal, hordinalAt⟩ := Exports.ordinal_eq_ok_iff.1 (hl.ordinal i hlt).word16
  have hindex : (Exports.ordinalAt v t i).toNat = i := by
    rw [← hordinalAt]
    exact UInt16.toNat_ofNat_of_lt' (show i < 2 ^ 16 by omega)
  have haddress := hl.address i e hi
  rw [← hindex] at haddress
  obtain ⟨hfunction, hfunctionRva⟩ := Exports.functionRva_eq_ok_iff.1 haddress.word32
  have hrange : ¬Exports.OutOfRange v d t i := by
    unfold Exports.OutOfRange
    rw [hindex]
    have : d.functionCount.toNat = exports.length := UInt32.toNat_ofNat_of_lt' (show exports.length < 2 ^ 32 by omega)
    omega
  have hcstring : Exports.name? v sections (Exports.nameRvaAt v t i) = some e.name := by
    unfold Exports.name?
    rw [← hnameRva, hb.fileOffset? (nameOffset_lt base hlt)]
    have hn := hf.name e hmem
    simp only [(hl.name i e hi).cstring hn.noZero hn.length_le]
  refine ⟨⟨hname, hordinal, fun _ => hfunction⟩, ?_⟩
  unfold Exports.contributionAt Exports.keep
  rw [if_neg hrange, ← hfunctionRva, if_neg (hf.own e hmem)]
  simp only [hcstring]

/-- Exports that were written are read back. -/
theorem result_of_backs (hf : Fits directory options exports) (hdirectory : directory.rva = base) :
    (Exports.read v sections directory optional options).result = .ok
      { table := Exports.tableName
        symbols := exports.map fun e => .function e.name (optional.va e.rva.toUInt64) .exported
        warnings := [] } := by
  have hcount := hf.length_le
  have htoNat : (UInt32.ofNat exports.length).toNat = exports.length :=
    UInt32.toNat_ofNat_of_lt' (show exports.length < 2 ^ 32 by omega)
  have hread : Exports.count (exportDirectory base exports.length) options = exports.length := by
    unfold Exports.count
    dsimp only [exportDirectory]
    omega
  have hcontribution {i : Nat} {e : ExportSpec} (hi : exports[i]? = some e) := contributionAt_of_laid hb optional hf hi
  have hs : Exports.Sound v sections directory options (exportDirectory base exports.length)
      (tables h.rawPointer.toNat exports.length) := by
    refine ⟨isDirectory_of_backs hb hdirectory, fun _ => backed_of_backs hb, fun i hi => ?_⟩
    rw [hread] at hi
    exact (hcontribution (List.getElem?_eq_getElem hi)).1
  have hentries : (List.range exports.length).map (Exports.contributionAt v sections directory optional
      (exportDirectory base exports.length) (tables h.rawPointer.toNat exports.length)) =
        exports.map fun e => { symbol := some (.function e.name (optional.va e.rva.toUInt64) .exported) } := by
    refine List.ext_getElem (by simp) fun i hi hi' => ?_
    rw [List.length_map, List.length_range] at hi
    rw [List.getElem_map, List.getElem_map, List.getElem_range]
    exact (hcontribution (List.getElem?_eq_getElem hi)).2
  refine Exports.result_eq_ok_iff.2 ⟨_, _, hs, ?_⟩
  unfold Exports.decoded LoadedTable.ofEntries truncationWarnings
  rw [hread, hentries, if_neg (by dsimp only [exportDirectory]; omega)]
  simp [List.filterMap_map]

end

end ExportSpec

end ExecImage.Pe
