import ExecImage.Proofs.Pe.Functions
import ExecImage.Proofs.Pe.Records
import ExecImage.Proofs.TableLimits
import ExecImage.Proofs.Texts

/-!
# Every named export is accounted for

The names of an export directory are joined to addresses through their ordinals, and all three tables may be anywhere in the file
or outside it. Of each name that is read one of three things holds (`Accounted`): its ordinal selects no address, or the address
lies in the directory and leads to another image, or there is a symbol, whose name is the text in the file (`IsNameAt`). Nothing is
read if one part of what is needed is not in the file (`Faulty`). The tables have a total decoding (`contributionAt`), so that both
are said without the reader.
-/

namespace ExecImage.Pe.Exports

open Except (bind_eq_ok_iff)
open View (numberAt)

variable {v : View} {sections : SectionTable} {directory : DataDirectory} {optional : OptionalHeader} {options : Options}
  {d : ExportDirectory} {t : Tables} {n i : Nat}

/-! ## What the file holds -/

/-- The directory is in the file, and is what its bytes hold. -/
def IsDirectory (v : View) (sections : SectionTable) (directory : DataDirectory) (d : ExportDirectory) : Prop :=
  ∃ offset, sections.fileOffset? directory.rva = some offset ∧ v.Covers offset ExportDirectory.size ∧
    d = .ofBytes (v.bytes.extract offset (offset + ExportDirectory.size))

/-- The three tables start at places in the file. -/
structure Backed (sections : SectionTable) (d : ExportDirectory) (t : Tables) : Prop where
  addresses : sections.fileOffset? d.addressTableRva = some t.addresses
  names : sections.fileOffset? d.nameTableRva = some t.names
  ordinals : sections.fileOffset? d.ordinalTableRva = some t.ordinals

/-- The number of exports that are read by name. -/
def count (d : ExportDirectory) (options : Options) : Nat :=
  min d.nameCount.toNat options.maxExports.toNat

/-- Where the name of the export at an index is. -/
def nameRvaAt (v : View) (t : Tables) (i : Nat) : UInt32 :=
  .ofNat (numberAt .little v.bytes (t.names + i * 4) 4)

/-- The ordinal of the export at an index. -/
def ordinalAt (v : View) (t : Tables) (i : Nat) : UInt16 :=
  .ofNat (numberAt .little v.bytes (t.ordinals + i * 2) 2)

/-- The address that an ordinal selects. -/
def functionRvaAt (v : View) (t : Tables) (ordinal : UInt16) : UInt32 :=
  .ofNat (numberAt .little v.bytes (t.addresses + ordinal.toNat * 4) 4)

/-- The entries that the export at an index needs are in the file: its name, its ordinal, and the address if there is one. -/
structure Present (v : View) (d : ExportDirectory) (t : Tables) (i : Nat) : Prop where
  name : v.Covers (t.names + i * 4) 4
  ordinal : v.Covers (t.ordinals + i * 2) 2
  address : (ordinalAt v t i).toNat < d.functionCount.toNat → v.Covers (t.addresses + (ordinalAt v t i).toNat * 4) 4

/-- The ordinal of the export selects no address. -/
def OutOfRange (v : View) (d : ExportDirectory) (t : Tables) (i : Nat) : Prop :=
  d.functionCount.toNat ≤ (ordinalAt v t i).toNat

instance : DecidablePred (OutOfRange v d t) :=
  fun _ => inferInstanceAs (Decidable (_ ≤ _))

/-- The address of the export lies in the directory. -/
def Forwarded (v : View) (directory : DataDirectory) (d : ExportDirectory) (t : Tables) (i : Nat) : Prop :=
  ¬OutOfRange v d t i ∧ directory.Contains (functionRvaAt v t (ordinalAt v t i))

instance : DecidablePred (Forwarded v directory d t) :=
  fun _ => inferInstanceAs (Decidable (¬_ ∧ _))

/-- The text that starts at an offset of the file: what the bytes before the first zero byte are read as. There are at most 512 of
them, and none beyond the file. -/
def IsNameAt (v : View) (offset : Nat) (name : String) : Prop :=
  offset < v.size ∧ ∃ part, IsLongestText part (v.window offset 512 v.size) ∧ Utf8.Reads part name.toList

/-- What a table entry adds for the export at an index: one of three things. -/
inductive Accounted (v : View) (sections : SectionTable) (directory : DataDirectory) (optional : OptionalHeader)
    (d : ExportDirectory) (t : Tables) (i : Nat) : TableEntry → Prop where
  /-- The ordinal selects no address, and there is a notice of it. -/
  | outOfRange (h : OutOfRange v d t i) :
      Accounted v sections directory optional d t i { notice := some (.exportOrdinal i (ordinalAt v t i).toNat) }
  /-- The address lies in the directory. -/
  | forwarded (h : Forwarded v directory d t i) : Accounted v sections directory optional d t i {}
  /-- There is a symbol with the name that is in the file. -/
  | named {offset : Nat} {name : String} (inRange : ¬OutOfRange v d t i) (own : ¬Forwarded v directory d t i)
      (backed : sections.fileOffset? (nameRvaAt v t i) = some offset) (text : IsNameAt v offset name) :
      Accounted v sections directory optional d t i
        { symbol := some
            { kind := .function, name, addr := optional.va (functionRvaAt v t (ordinalAt v t i)).toUInt64, source := .exported } }
  /-- There is a symbol without a name, since the name is not in the file, and a notice of it. -/
  | unnamed (inRange : ¬OutOfRange v d t i) (own : ¬Forwarded v directory d t i)
      (outside : ∀ offset, sections.fileOffset? (nameRvaAt v t i) = some offset → v.size ≤ offset) :
      Accounted v sections directory optional d t i
        { symbol := some
            { kind := .function, name := "", addr := optional.va (functionRvaAt v t (ordinalAt v t i)).toUInt64, source := .exported }
          notice := some (.exportName i (nameRvaAt v t i).toNat) }

/-- All that the named exports need is in the file. -/
structure Sound (v : View) (sections : SectionTable) (directory : DataDirectory) (options : Options) (d : ExportDirectory)
    (t : Tables) : Prop where
  directory : IsDirectory v sections directory d
  backed : 0 < count d options → Backed sections d t
  present : ∀ i < count d options, Present v d t i

/-- Something that the named exports need is not in the file. -/
inductive Faulty (v : View) (sections : SectionTable) (directory : DataDirectory) (options : Options) : Prop where
  /-- The directory is nowhere in the file. -/
  | unbacked (h : sections.fileOffset? directory.rva = none)
  /-- The directory does not lie in the file. -/
  | outside (offset : Nat) (backed : sections.fileOffset? directory.rva = some offset)
      (outside : ¬v.Covers offset ExportDirectory.size)
  /-- There are names, and one of the tables is nowhere in the file. -/
  | table (d : ExportDirectory) (directory : IsDirectory v sections directory d) (named : 0 < count d options)
      (unbacked : sections.fileOffset? d.addressTableRva = none ∨ sections.fileOffset? d.nameTableRva = none ∨
        sections.fileOffset? d.ordinalTableRva = none)
  /-- An entry that is needed does not lie in the file. -/
  | entry (d : ExportDirectory) (t : Tables) (i : Nat) (directory : IsDirectory v sections directory d)
      (backed : Backed sections d t) (lt : i < count d options) (absent : ¬Present v d t i)

/-! ## Finding the tables -/

theorem resolve_eq_ok_iff {part : ExportPart} {rva : UInt32} {offset : Nat} :
    resolve sections part rva = .ok offset ↔ sections.fileOffset? rva = some offset := by
  unfold resolve
  cases sections.fileOffset? rva with
  | none => exact ⟨nofun, nofun⟩
  | some k => simp

/-- The directory is found exactly when it is in the file. -/
theorem findDirectory_eq_ok_iff : findDirectory v sections directory = .ok d ↔ IsDirectory v sections directory d := by
  unfold findDirectory IsDirectory
  simp only [bind_eq_ok_iff, resolve_eq_ok_iff, ExportDirectory.read_eq_ok_iff]

/-- The tables are found exactly when each of them starts at a place in the file. -/
theorem locate_eq_ok_iff : locate sections d = .ok t ↔ Backed sections d t := by
  unfold locate
  simp only [bind_eq_ok_iff, resolve_eq_ok_iff]
  constructor
  · rintro ⟨addresses, haddresses, names, hnames, ordinals, hordinals, h⟩
    cases h
    exact ⟨haddresses, hnames, hordinals⟩
  · rintro ⟨haddresses, hnames, hordinals⟩
    exact ⟨_, haddresses, _, hnames, _, hordinals, rfl⟩

/-! ## One export -/

theorem field_eq_ok_iff {α : Type} {part : ExportPart} {index : Nat} {r : Except LoadError α} {x : α} :
    field part index r = .ok x ↔ r = .ok x := by
  unfold field
  cases r with
  | error e => exact ⟨nofun, nofun⟩
  | ok y => rfl

/-- What the export at an index adds, if its entries are in the file. -/
def contributionAt (v : View) (sections : SectionTable) (directory : DataDirectory) (optional : OptionalHeader)
    (d : ExportDirectory) (t : Tables) (i : Nat) : TableEntry :=
  if OutOfRange v d t i then { notice := some (.exportOrdinal i (ordinalAt v t i).toNat) }
  else keep v sections directory optional i (nameRvaAt v t i) (functionRvaAt v t (ordinalAt v t i))

/-- The fields of the three tables, where they are in the file. -/
theorem nameRva_eq_ok_iff {rva : UInt32} :
    v.word32 (t.names + i * 4) .little = .ok rva ↔ v.Covers (t.names + i * 4) 4 ∧ rva = nameRvaAt v t i :=
  View.word32_eq_ok_iff

theorem ordinal_eq_ok_iff {ordinal : UInt16} :
    v.word16 (t.ordinals + i * 2) .little = .ok ordinal ↔ v.Covers (t.ordinals + i * 2) 2 ∧ ordinal = ordinalAt v t i :=
  View.word16_eq_ok_iff

theorem functionRva_eq_ok_iff {ordinal : UInt16} {rva : UInt32} :
    v.word32 (t.addresses + ordinal.toNat * 4) .little = .ok rva ↔
      v.Covers (t.addresses + ordinal.toNat * 4) 4 ∧ rva = functionRvaAt v t ordinal :=
  View.word32_eq_ok_iff

/-- An export is read exactly when its entries are in the file. -/
theorem entryAt_eq_ok_iff {e : TableEntry} :
    entryAt v sections directory optional d.functionCount t i = .ok e ↔
      Present v d t i ∧ e = contributionAt v sections directory optional d t i := by
  unfold entryAt contributionAt
  simp only [bind_eq_ok_iff, field_eq_ok_iff, nameRva_eq_ok_iff, ordinal_eq_ok_iff, and_assoc, exists_and_left, exists_eq_left]
  by_cases hrange : OutOfRange v d t i
  · have hle : d.functionCount.toNat ≤ (ordinalAt v t i).toNat := hrange
    rw [if_pos hle, if_pos hrange]
    constructor
    · rintro ⟨hname, hordinal, h⟩
      cases h
      exact ⟨⟨hname, hordinal, fun hlt => absurd hle (Nat.not_le.2 hlt)⟩, rfl⟩
    · rintro ⟨hp, rfl⟩
      exact ⟨hp.name, hp.ordinal, rfl⟩
  · have hlt : ¬d.functionCount.toNat ≤ (ordinalAt v t i).toNat := hrange
    rw [if_neg hlt, if_neg hrange]
    simp only [bind_eq_ok_iff, field_eq_ok_iff, functionRva_eq_ok_iff, and_assoc, exists_and_left, exists_eq_left]
    constructor
    · rintro ⟨hname, hordinal, haddress, h⟩
      cases h
      exact ⟨⟨hname, hordinal, fun _ => haddress⟩, rfl⟩
    · rintro ⟨hp, rfl⟩
      exact ⟨hp.name, hp.ordinal, hp.address (Nat.not_le.1 hlt), rfl⟩

/-- A name is read exactly if it starts in the file, as the text that is there. -/
theorem name?_eq_some_iff {rva : UInt32} {name : String} :
    name? v sections rva = some name ↔ ∃ offset, sections.fileOffset? rva = some offset ∧ IsNameAt v offset name := by
  unfold name?
  cases sections.fileOffset? rva with
  | none => exact ⟨nofun, nofun⟩
  | some offset =>
    have htext : v.cstring offset maxNameLength = .ok name ↔ IsNameAt v offset name :=
      View.cstring_eq_ok_iff_isLongestText (Nat.le_refl v.size)
    simp only [Option.some.injEq, exists_eq_left', ← htext]
    cases v.cstring offset maxNameLength with
    | error error => exact ⟨nofun, nofun⟩
    | ok read => simp

/-- A name is not read exactly if it starts nowhere in the file. -/
theorem name?_eq_none_iff {rva : UInt32} :
    name? v sections rva = none ↔ ∀ offset, sections.fileOffset? rva = some offset → v.size ≤ offset := by
  unfold name? View.cstring
  cases sections.fileOffset? rva with
  | none => exact ⟨fun _ => nofun, fun _ => rfl⟩
  | some offset =>
    simp only [Option.some.injEq, forall_eq']
    by_cases hinside : offset < v.size
    · simp [hinside]
    · simp [hinside, Nat.not_lt.1 hinside]

/-- What is decoded of an export is one of the three things. -/
theorem accounted_contributionAt (v : View) (sections : SectionTable) (directory : DataDirectory) (optional : OptionalHeader)
    (d : ExportDirectory) (t : Tables) (i : Nat) :
    Accounted v sections directory optional d t i (contributionAt v sections directory optional d t i) := by
  unfold contributionAt keep
  split
  · rename_i hrange
    exact .outOfRange hrange
  · rename_i hrange
    split
    · rename_i hcontains
      exact .forwarded ⟨hrange, hcontains⟩
    · rename_i hout
      have hown : ¬Forwarded v directory d t i := fun h => hout h.2
      cases hname : name? v sections (nameRvaAt v t i) with
      | none => exact .unnamed hrange hown (name?_eq_none_iff.1 hname)
      | some name =>
        obtain ⟨offset, hbacked, htext⟩ := name?_eq_some_iff.1 hname
        exact .named hrange hown hbacked htext

/-! ## All exports -/

/-- The exports are read if what they need is in the file. -/
theorem readNames_eq (ht : 0 < n → Backed sections d t) (hp : ∀ i < n, Present v d t i) :
    readNames v sections directory optional d n =
      .ofEntries ((List.range n).map (contributionAt v sections directory optional d t)) := by
  unfold readNames
  by_cases hn : n = 0
  · rw [if_pos hn, hn]
    rfl
  · rw [if_neg hn]
    simp only [locate_eq_ok_iff.2 (ht (Nat.pos_of_ne_zero hn))]
    have hlength : ((List.range n).map (contributionAt v sections directory optional d t)).length = n := by simp
    conv_lhs => rw [← hlength]
    refine readEntries_eq_ofEntries (fun i e hi => ?_) fun e he => ?_
    · obtain ⟨j, hj, rfl⟩ := Option.map_eq_some_iff.1 (List.getElem?_map .. ▸ hi)
      obtain ⟨hlt, rfl⟩ := List.getElem?_eq_some_iff.1 hj
      rw [List.length_range] at hlt
      rw [List.getElem_range]
      exact entryAt_eq_ok_iff.2 ⟨hp i hlt, rfl⟩
    · obtain ⟨i, hi, rfl⟩ := List.mem_map.1 he
      exact trailing_entryAt (entryAt_eq_ok_iff.2 ⟨hp i (List.mem_range.1 hi), rfl⟩)

/-- The reading of the exports comes to its end exactly when what they need is in the file. -/
theorem failure_readNames_eq_none_iff :
    (readNames v sections directory optional d n).failure = none ↔
      ∃ t, (0 < n → Backed sections d t) ∧ ∀ i < n, Present v d t i := by
  constructor
  · intro h
    by_cases hn : n = 0
    · subst hn
      exact ⟨default, fun h => absurd h (Nat.lt_irrefl 0), fun i hi => absurd hi (Nat.not_lt_zero i)⟩
    · unfold readNames at h
      rw [if_neg hn] at h
      cases ht : locate sections d with
      | error e =>
        simp only [ht] at h
        nomatch h
      | ok t =>
        simp only [ht] at h
        refine ⟨t, fun _ => locate_eq_ok_iff.1 ht, fun i hi => ?_⟩
        have hreached := reached_of_trailing (fun _ _ => trailing_entryAt) h (Nat.le_of_lt hi)
        obtain ⟨e, he, -⟩ := hreached.exists_entry hi h
        exact (entryAt_eq_ok_iff.1 he).1
  · rintro ⟨t, ht, hp⟩
    rw [readNames_eq ht hp]
    rfl

/-! ## The table of exports -/

theorem IsDirectory.unique {d' : ExportDirectory} (h : IsDirectory v sections directory d)
    (h' : IsDirectory v sections directory d') : d' = d := by
  obtain ⟨offset, hoffset, -, rfl⟩ := h
  obtain ⟨offset', hoffset', -, rfl⟩ := h'
  rw [hoffset] at hoffset'
  cases hoffset'
  rfl

theorem Backed.unique {t' : Tables} (h : Backed sections d t) (h' : Backed sections d t') : t' = t := by
  have haddresses := h.addresses.symm.trans h'.addresses
  have hnames := h.names.symm.trans h'.names
  have hordinals := h.ordinals.symm.trans h'.ordinals
  cases t
  cases t'
  simp_all

/-- The tables are in the file unless one of them is not. -/
theorem exists_backed (h : ¬(sections.fileOffset? d.addressTableRva = none ∨ sections.fileOffset? d.nameTableRva = none ∨
    sections.fileOffset? d.ordinalTableRva = none)) : ∃ t, Backed sections d t := by
  simp only [not_or, ← ne_eq, Option.ne_none_iff_exists'] at h
  obtain ⟨⟨addresses, haddresses⟩, ⟨names, hnames⟩, ordinals, hordinals⟩ := h
  exact ⟨⟨addresses, names, ordinals⟩, haddresses, hnames, hordinals⟩

/-- Either all that is needed is in the file, or something is not. -/
theorem faulty_iff : Faulty v sections directory options ↔ ¬∃ d t, Sound v sections directory options d t := by
  constructor
  · rintro hfaulty ⟨d, t, hs⟩
    obtain ⟨offset, hoffset, hcovers, -⟩ := id hs.directory
    cases hfaulty with
    | unbacked h =>
      rw [h] at hoffset
      nomatch hoffset
    | outside offset' h hout =>
      rw [h] at hoffset
      cases hoffset
      exact hout hcovers
    | table d' hd' hpos hnone =>
      cases hs.directory.unique hd'
      have hb := hs.backed hpos
      rw [hb.addresses, hb.names, hb.ordinals] at hnone
      rcases hnone with h | h | h <;> nomatch h
    | entry d' t' i hd' hb' hi habsent =>
      cases hs.directory.unique hd'
      cases (hs.backed (Nat.zero_lt_of_lt hi)).unique hb'
      exact habsent (hs.present i hi)
  · intro hnone
    by_contra hsound
    obtain ⟨offset, hoffset⟩ := Option.ne_none_iff_exists'.1 fun h => hsound (.unbacked h)
    have hcovers : v.Covers offset ExportDirectory.size := by_contra fun h => hsound (.outside offset hoffset h)
    have hd : IsDirectory v sections directory _ := ⟨offset, hoffset, hcovers, rfl⟩
    generalize ExportDirectory.ofBytes (v.bytes.extract offset (offset + ExportDirectory.size)) = d at hd
    by_cases hpos : 0 < count d options
    · obtain ⟨t, hb⟩ := exists_backed fun h => hsound (.table d hd hpos h)
      exact hnone ⟨d, _, hd, fun _ => hb, fun i hi => by_contra fun h => hsound (.entry d _ i hd hb hi h)⟩
    · exact hnone ⟨d, default, hd, fun h => absurd h hpos, fun i hi => absurd (Nat.zero_lt_of_lt hi) hpos⟩

/-- The table of exports that the file holds. -/
def decoded (v : View) (sections : SectionTable) (directory : DataDirectory) (optional : OptionalHeader) (options : Options)
    (d : ExportDirectory) (t : Tables) : LoadedTable :=
  .ofEntries tableName .exportsTruncated d.nameCount.toNat options.maxExports.toNat
    ((List.range (count d options)).map (contributionAt v sections directory optional d t))

/-- The exports are read if all that is needed is in the file. -/
theorem Sound.result (h : Sound v sections directory options d t) :
    (read v sections directory optional options).result = .ok (decoded v sections directory optional options d t) := by
  unfold read
  rw [findDirectory_eq_ok_iff.2 h.directory]
  exact TableReading.result_under_of_entries (readNames_eq h.backed h.present)

/-- The exports are read exactly when all that is needed is in the file, and then they are what the file holds. -/
theorem result_eq_ok_iff {table : LoadedTable} :
    (read v sections directory optional options).result = .ok table ↔
      ∃ d t, Sound v sections directory options d t ∧ table = decoded v sections directory optional options d t := by
  constructor
  · intro h
    obtain ⟨d, t, hs⟩ : ∃ d t, Sound v sections directory options d t := by
      unfold read at h
      cases hd : findDirectory v sections directory with
      | error e =>
        rw [hd] at h
        nomatch h
      | ok d =>
        rw [hd] at h
        obtain ⟨hf, -⟩ := TableReading.result_under_eq_ok_iff.1 h
        obtain ⟨t, ht, hp⟩ := failure_readNames_eq_none_iff.1 hf
        exact ⟨d, t, findDirectory_eq_ok_iff.1 hd, ht, hp⟩
    rw [hs.result] at h
    cases h
    exact ⟨d, t, hs, rfl⟩
  · rintro ⟨d, t, hs, rfl⟩
    exact hs.result

/-- Of exports that are accounted for, those without a symbol are forwarded or have an ordinal out of range. -/
theorem length_symbols_add {indexes : List Nat} {entries : List TableEntry}
    (h : List.Forall₂ (Accounted v sections directory optional d t) indexes entries) :
    (entries.filterMap TableEntry.symbol).length + indexes.countP (fun i => Forwarded v directory d t i) +
      indexes.countP (fun i => OutOfRange v d t i) = indexes.length := by
  induction h with
  | nil => rfl
  | @cons i e indexes entries hi _ ih =>
    rw [List.countP_cons, List.countP_cons, List.length_cons]
    cases hi with
    | outOfRange h =>
      have hown : ¬Forwarded v directory d t i := fun hf => hf.1 h
      simp only [List.filterMap_cons_none, h, hown, decide_true, decide_false, if_true, Bool.false_eq_true, if_false]
      omega
    | forwarded h =>
      simp only [List.filterMap_cons_none, h, h.1, decide_true, decide_false, if_true, Bool.false_eq_true, if_false]
      omega
    | named hrange hown | unnamed hrange hown =>
      rw [List.filterMap_cons, List.length_cons]
      simp only [hrange, hown, decide_false, Bool.false_eq_true, if_false]
      omega

/-- If the exports are read, every name below the limit is accounted for, in order: of each there is a symbol, or its address is
in the directory, or its ordinal is out of range, and these add up to the names that are read. Reading the exports gives
an error exactly when the directory, a table that is needed or an entry that is needed is not in the file, and then there
is no symbol of any export. -/
theorem read_accounted (v : View) (sections : SectionTable) (directory : DataDirectory) (optional : OptionalHeader)
    (options : Options) :
    (∀ table, (read v sections directory optional options).result = .ok table →
      ∃ d t entries, Sound v sections directory options d t ∧
        List.Forall₂ (Accounted v sections directory optional d t) (List.range (count d options)) entries ∧
        table =
          { table := tableName
            symbols := entries.filterMap TableEntry.symbol
            warnings := truncationWarnings tableName .exportsTruncated d.nameCount.toNat options.maxExports.toNat ++
              (entries.filterMap TableEntry.notice).map fun n => ⟨tableName, n.message⟩ } ∧
        table.symbols.length + (List.range (count d options)).countP (fun i => Forwarded v directory d t i) +
          (List.range (count d options)).countP (fun i => OutOfRange v d t i) = count d options) ∧
    ((∃ error, (read v sections directory optional options).result = .error error) ↔
      Faulty v sections directory options) ∧
    ∀ error, (read v sections directory optional options).result = .error error →
      (LabelledTable.outcome ⟨tableName, read v sections directory optional options⟩).symbols = [] := by
  refine ⟨fun table h => ?_, ?_, fun error h => ?_⟩
  · obtain ⟨d, t, hs, rfl⟩ := result_eq_ok_iff.1 h
    have haccounted : List.Forall₂ (Accounted v sections directory optional d t) (List.range (count d options))
        ((List.range (count d options)).map (contributionAt v sections directory optional d t)) :=
      List.forall₂_map_right_iff.2 (List.forall₂_same.2 fun i _ => accounted_contributionAt v sections directory optional d t i)
    have hlength := length_symbols_add haccounted
    rw [List.length_range] at hlength
    exact ⟨d, t, _, hs, haccounted, rfl, hlength⟩
  · rw [faulty_iff]
    constructor
    · rintro ⟨error, h⟩ ⟨d, t, hs⟩
      rw [result_eq_ok_iff.2 ⟨d, t, hs, rfl⟩] at h
      nomatch h
    · intro hnone
      cases h : (read v sections directory optional options).result with
      | error error => exact ⟨error, rfl⟩
      | ok table =>
        obtain ⟨d, t, hs, -⟩ := result_eq_ok_iff.1 h
        exact absurd ⟨d, t, hs⟩ hnone
  · unfold LabelledTable.outcome
    dsimp only
    rw [h]
    rfl

/-- A section of exports with four names: the first cannot be read, the second is of an address in the directory, the third has an
ordinal that selects no address, and the fourth is in the file. -/
def fourNames : List UInt8 :=
  let d : ExportDirectory :=
    { nameRva := 0, ordinalBase := 1, functionCount := 2, nameCount := 4
      addressTableRva := 0x2028, nameTableRva := 0x2030, ordinalTableRva := 0x2040 }
  let addresses := word 0x1000 ++ word 0x2004
  let names := word 0x9999 ++ (word 0x2000 ++ (word 0x2000 ++ word 0x2048))
  let ordinals := half 0 ++ (half 1 ++ (half 7 ++ half 0))
  d.write ++ (addresses ++ (names ++ (ordinals ++ text "run")))

/-- Each of the four names is accounted for in its own way. -/
theorem read_accounted_fourNames :
    let v : View := ⟨fourNames.toArray⟩
    let sections : SectionTable :=
      { entries := [⟨{ (default : SectionHeader) with virtualAddress := 0x2000, rawSize := 76 }, ".edata"⟩] }
    let directory : DataDirectory := ⟨0x2000, 76⟩
    let optional : OptionalHeader := { (default : OptionalHeader) with magic := OptionalHeader.magic32, imageBase := 0x400000 }
    ∃ table d t, (read v sections directory optional {}).result = .ok table ∧ Sound v sections directory {} d t ∧
      table.symbols = [⟨.function, "", 0x401000, .exported⟩, ⟨.function, "run", 0x401000, .exported⟩] ∧
      table.warnings =
        [⟨"exports", "export 0: name RVA 0x9999 not readable"⟩, ⟨"exports", "export 2: ordinal index 7 out of range"⟩] ∧
      2 + (List.range (count d {})).countP (fun i => Forwarded v directory d t i) +
        (List.range (count d {})).countP (fun i => OutOfRange v d t i) = count d {} := by
  intro v sections directory optional
  obtain ⟨hok, -, -⟩ := read_accounted v sections directory optional {}
  have hread : (read v sections directory optional {}).result.toOption.map (fun t => (t.symbols, t.warnings)) =
      some ([⟨.function, "", 0x401000, .exported⟩, ⟨.function, "run", 0x401000, .exported⟩],
        [⟨"exports", "export 0: name RVA 0x9999 not readable"⟩, ⟨"exports", "export 2: ordinal index 7 out of range"⟩]) := by
    decide +kernel
  obtain ⟨table, htable, hparts⟩ := Except.exists_of_toOption_map hread
  obtain ⟨hsymbols, hwarnings⟩ := Prod.mk.inj hparts
  obtain ⟨d, t, entries, hs, -, -, hlength⟩ := hok table htable
  rw [hsymbols] at hlength
  exact ⟨table, d, t, htable, hs, hsymbols, hwarnings, hlength⟩

end ExecImage.Pe.Exports
