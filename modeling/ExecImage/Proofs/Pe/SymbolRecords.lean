import ExecImage.Proofs.Agreement
import ExecImage.Proofs.Pe.Functions
import ExecImage.Proofs.Pe.Records
import ExecImage.Proofs.TableLimits

/-!
# Auxiliary records are never read as symbols

How far the walk over the records of the COFF symbol table goes with each step is said by the records themselves, so a count of
auxiliary records may lead over records that look like functions, past the limit or out of the file. The records that are
read are those of the walk (`IsWalk`), and of each of them the table gets what it contributes (`Contributes`). The bytes of
the records between them have no part in the result.
-/

namespace ExecImage.Pe.CoffSymbols

variable {v w : View} {file : FileHeader} {strings : Option StringTable} {sections : SectionTable} {optional : OptionalHeader}
  {options : Options} {i j : Nat}

/-! ## The walk -/

/-- The record at an index is in the file. -/
def InFile (v : View) (file : FileHeader) (i : Nat) : Prop :=
  v.Covers (recordOffset file i) symbolRecordSize

instance : DecidablePred (InFile v file) :=
  fun _ => inferInstanceAs (Decidable (v.Covers _ _))

/-- The record that the bytes at an index hold. -/
def recordIn (v : View) (file : FileHeader) (i : Nat) : CoffRecord :=
  .ofBytes (v.bytes.extract (recordOffset file i) (recordOffset file i + symbolRecordSize))

/-- The index after a record and its auxiliary records. -/
def nextIndex (v : View) (file : FileHeader) (i : Nat) : Nat :=
  i + 1 + (recordIn v file i).auxiliaries.toNat

/-- The indexes of a walk over the records below a limit: 0 and, after each record that is in the file, the index after its
auxiliary records, as long as they are below the limit. -/
structure IsWalk (v : View) (file : FileHeader) (limit : Nat) (indexes : List Nat) : Prop where
  first : indexes[0]? = if 0 < limit then some 0 else none
  next : ∀ (k i : Nat), indexes[k]? = some i →
    indexes[k + 1]? = if InFile v file i ∧ nextIndex v file i < limit then some (nextIndex v file i) else none

/-- A record belongs to one of the walk, as an auxiliary record. -/
def IsAuxiliary (v : View) (file : FileHeader) (indexes : List Nat) (j : Nat) : Prop :=
  ∃ i ∈ indexes, InFile v file i ∧ i < j ∧ j < nextIndex v file i

/-! ## What a record contributes -/

/-- The record is of a function, external or static, in a section with a positive number. -/
structure DefinesFunction (r : CoffRecord) : Prop where
  type : r.type &&& 0x30 = 0x20
  storage : r.storageClass = 2 ∨ r.storageClass = 3
  number : 0 < r.sectionNumber.toBitVec.toInt

/-- What a record at an index contributes to the table. -/
inductive Contributes (strings : Option StringTable) (sections : SectionTable) (optional : OptionalHeader) (i : Nat)
    (r : CoffRecord) : TableEntry → Prop where
  /-- Of anything but a function there is nothing. -/
  | other (h : ¬DefinesFunction r) : Contributes strings sections optional i r { trailing := r.auxiliaries.toNat }
  /-- Of a function in a section that does not exist there is a notice. -/
  | outside (h : DefinesFunction r) (number : sections.count < r.sectionNumber.toNat) :
      Contributes strings sections optional i r
        { notice := some (.symbolSection i r.sectionNumber.toNat), trailing := r.auxiliaries.toNat }
  /-- Of any other function there is a symbol. -/
  | named {s : SectionHeader} {name : String} (h : DefinesFunction r)
      (number : sections.header? (r.sectionNumber.toNat - 1) = some s) (found : nameOf r strings = .ok name) :
      Contributes strings sections optional i r
        { symbol := some (.function name (optional.va (s.virtualAddress.toUInt64 + r.value.toUInt64)) .static)
          trailing := r.auxiliaries.toNat }
  /-- If its name cannot be read, there is a symbol without a name and a notice. -/
  | unnamed {s : SectionHeader} {offset : Nat} (h : DefinesFunction r)
      (number : sections.header? (r.sectionNumber.toNat - 1) = some s) (absent : nameOf r strings = .error offset) :
      Contributes strings sections optional i r
        { symbol := some (.function "" (optional.va (s.virtualAddress.toUInt64 + r.value.toUInt64)) .static)
          notice := some (.symbolName i offset), trailing := r.auxiliaries.toNat }

/-- A number of two bytes is positive as a signed number if its sign bit is not set. -/
theorem toInt_pos_iff {n : UInt16} : 0 < n.toBitVec.toInt ↔ 0 < n.toNat ∧ n.toNat < 0x8000 := by
  have hlt : n.toBitVec.toNat < 2 ^ 16 := n.toBitVec.isLt
  change _ ↔ 0 < n.toBitVec.toNat ∧ n.toBitVec.toNat < 0x8000
  rw [BitVec.toInt_eq_toNat_cond]
  split <;> omega

/-- A section number is read as a signed number, and the positive ones are those of sections. -/
theorem isDefined_iff {r : CoffRecord} : r.isDefined = true ↔ 0 < r.sectionNumber.toBitVec.toInt := by
  unfold CoffRecord.isDefined
  rw [toInt_pos_iff, Bool.and_eq_true, decide_eq_true_eq, decide_eq_true_eq, UInt16.lt_iff_toNat_lt, UInt16.lt_iff_toNat_lt]
  rfl

theorem definesFunction_iff {r : CoffRecord} : DefinesFunction r ↔ (r.isFunction && r.isDefined) = true := by
  rw [Bool.and_eq_true, isDefined_iff]
  unfold CoffRecord.isFunction
  simp only [Bool.and_eq_true, Bool.or_eq_true, beq_iff_eq]
  exact ⟨fun h => ⟨⟨h.type, h.storage⟩, h.number⟩, fun ⟨⟨htype, hstorage⟩, hnumber⟩ => ⟨htype, hstorage, hnumber⟩⟩

/-- What is kept of a record is what it contributes. -/
theorem contributes_keep (strings : Option StringTable) (sections : SectionTable) (optional : OptionalHeader) (i : Nat)
    (r : CoffRecord) :
    Contributes strings sections optional i r
      { keep r strings sections optional i with trailing := r.auxiliaries.toNat } := by
  unfold keep
  by_cases hdefines : DefinesFunction r
  · rw [if_pos (definesFunction_iff.1 hdefines)]
    cases hsection : sections.header? (r.sectionNumber.toNat - 1) with
    | none =>
      refine .outside hdefines ?_
      have hpos := toInt_pos_iff.1 hdefines.number
      have hnone := List.getElem?_eq_none_iff.1 (Option.map_eq_none_iff.1 hsection)
      unfold SectionTable.count
      omega
    | some s =>
      cases hname : nameOf r strings with
      | ok name => exact .named hdefines hsection hname
      | error offset => exact .unnamed hdefines hsection hname
  · rw [if_neg fun h => hdefines (definesFunction_iff.2 h)]
    exact .other hdefines

/-! ## The records that are read -/

/-- What the record at an index contributes, if it is in the file. -/
def contributionAt (v : View) (file : FileHeader) (strings : Option StringTable) (sections : SectionTable)
    (optional : OptionalHeader) (i : Nat) : TableEntry :=
  { keep (recordIn v file i) strings sections optional i with trailing := (recordIn v file i).auxiliaries.toNat }

/-- A record is read if it is in the file. -/
theorem entryAt_of_inFile (h : InFile v file i) :
    entryAt v file strings sections optional i = .ok (contributionAt v file strings sections optional i) :=
  entryAt_eq_ok (CoffRecord.read_eq v _ ▸ View.slice_of_covers h ▸ rfl)

/-- A record that is not in the file cannot be read. -/
theorem exists_entryAt_eq_error (strings : Option StringTable) (sections : SectionTable) (optional : OptionalHeader)
    (h : ¬InFile v file i) : ∃ error, entryAt v file strings sections optional i = .error error := by
  have hslice : v.slice (recordOffset file i) symbolRecordSize =
      .error (.outOfBounds (recordOffset file i) symbolRecordSize v.size) := if_neg h
  unfold entryAt
  rw [CoffRecord.read_eq, hslice]
  exact ⟨_, rfl⟩

/-- Files that agree on a record give the same contribution of it. -/
theorem entryAt_congr (hsize : w.size = v.size) (h : w.AgreeOn v ⟨recordOffset file i, symbolRecordSize⟩) :
    entryAt w file strings sections optional i = entryAt v file strings sections optional i := by
  unfold entryAt
  rw [h.record_eq hsize CoffRecord.isRecord_read]

/-- The indexes of the records that are read. -/
def primaries (v : View) (file : FileHeader) (strings : Option StringTable) (sections : SectionTable) (optional : OptionalHeader)
    (options : Options) : List Nat :=
  visits (entryAt v file strings sections optional) (limit file options)

/-- The records that are read are those of the walk. -/
theorem isWalk_primaries : IsWalk v file (limit file options) (primaries v file strings sections optional options) := by
  refine ⟨?_, fun k i hk => ?_⟩
  · unfold primaries visits
    cases limit file options with
    | zero => rfl
    | succ n =>
      rw [if_pos n.succ_pos, visitsFrom, if_pos n.succ_pos]
      cases entryAt v file strings sections optional 0 <;> rfl
  · unfold primaries visits at hk ⊢
    rw [getElem?_visitsFrom_succ (by omega) hk]
    by_cases h : InFile v file i
    · rw [entryAt_of_inFile h]
      simp only [h, true_and]
      rfl
    · obtain ⟨error, herror⟩ := exists_entryAt_eq_error strings sections optional h
      rw [herror]
      simp only [h, false_and, if_false]

/-- No record that is read belongs to another one as an auxiliary record. -/
theorem not_isAuxiliary (hi : i ∈ primaries v file strings sections optional options) :
    ¬IsAuxiliary v file (primaries v file strings sections optional options) i := by
  rintro ⟨k, hk, hfile, hlt, hnext⟩
  rcases separated_of_mem_visitsFrom hk hi (entryAt_of_inFile hfile) with h | h
  · omega
  · have : nextIndex v file k ≤ i := h
    omega

/-- The reading of the records depends on the bytes of those that are read alone. -/
theorem read_congr (hsize : w.size = v.size)
    (h : ∀ i ∈ primaries v file strings sections optional options, w.AgreeOn v ⟨recordOffset file i, symbolRecordSize⟩) :
    read w file strings sections optional options = read v file strings sections optional options := by
  have hentries : readEntries (entryAt w file strings sections optional) (limit file options) =
      readEntries (entryAt v file strings sections optional) (limit file options) :=
    readEntriesFrom_congr fun i hi => entryAt_congr hsize (h i hi)
  unfold limit at hentries
  unfold read
  dsimp only
  rw [hentries]

/-- Files that differ in auxiliary records only agree on the records that are read. -/
theorem agreeOn_of_isAuxiliary (hsize : w.size = v.size)
    (h : ∀ p, w.bytes[p]? ≠ v.bytes[p]? → ∃ j,
      IsAuxiliary v file (primaries v file strings sections optional options) j ∧
        recordOffset file j ≤ p ∧ p < recordOffset file j + symbolRecordSize)
    (hi : i ∈ primaries v file strings sections optional options) :
    w.AgreeOn v ⟨recordOffset file i, symbolRecordSize⟩ := by
  refine View.AgreeOn.of_getElem? hsize fun p hstart hend => ?_
  by_contra hne
  obtain ⟨j, hj, hstart', hend'⟩ := h p hne
  -- The byte lies in one record only.
  have hij : j = i := by
    unfold recordOffset symbolRecordSize at hstart hend hstart' hend'
    dsimp only at hstart hend
    omega
  exact not_isAuxiliary hi (hij ▸ hj)

/-- A record can be read exactly when it is in the file. -/
theorem exists_entryAt_iff (strings : Option StringTable) (sections : SectionTable) (optional : OptionalHeader) :
    (∃ e, entryAt v file strings sections optional i = .ok e) ↔ InFile v file i := by
  refine ⟨fun ⟨e, he⟩ => ?_, fun h => ⟨_, entryAt_of_inFile h⟩⟩
  by_contra h
  obtain ⟨error, herror⟩ := exists_entryAt_eq_error strings sections optional h
  rw [he] at herror
  nomatch herror

/-! ## The symbol table -/

/-- The symbol table that the file holds. -/
def decoded (v : View) (file : FileHeader) (strings : Option StringTable) (sections : SectionTable) (optional : OptionalHeader)
    (options : Options) : LoadedTable :=
  .ofEntries coffName .recordsTruncated file.symbolCount.toNat options.maxSymbolsPerTable.toNat
    ((primaries v file strings sections optional options).map (contributionAt v file strings sections optional))

/-- The symbol table is read exactly when the records of the walk are in the file, and then it is what the file holds. -/
theorem result_eq_ok_iff {table : LoadedTable} :
    (read v file strings sections optional options).result = .ok table ↔
      (∀ i ∈ primaries v file strings sections optional options, InFile v file i) ∧
        table = decoded v file strings sections optional options := by
  have hfailure : (readEntries (entryAt v file strings sections optional) (limit file options)).failure = none ↔
      ∀ i ∈ primaries v file strings sections optional options, InFile v file i := by
    simp only [← exists_entryAt_iff strings sections optional]
    exact failure_readEntriesFrom_eq_none_iff
  have hresult (hall : ∀ i ∈ primaries v file strings sections optional options, InFile v file i) :
      (read v file strings sections optional options).result = .ok (decoded v file strings sections optional options) :=
    TableReading.result_under_of_entries (readEntriesFrom_eq_of_visits fun i hi => entryAt_of_inFile (hall i hi))
  constructor
  · intro h
    have hall := hfailure.1 (TableReading.result_under_eq_ok_iff.1 h).1
    rw [hresult hall] at h
    cases h
    exact ⟨hall, rfl⟩
  · rintro ⟨hall, rfl⟩
    exact hresult hall

/-- A record of the table is read as a symbol only if the walk over the table comes to it. There are no more such records than the
limit; the reading ends early exactly when one of them is not in the file; otherwise the table has what each of them contributes,
in order. The result stays the same whatever the bytes of the auxiliary records are. -/
theorem read_walk (v : View) (file : FileHeader) (strings : Option StringTable) (sections : SectionTable)
    (optional : OptionalHeader) (options : Options) :
    ∃ indexes, IsWalk v file (limit file options) indexes ∧ indexes.length ≤ limit file options ∧
      ((∃ error, (read v file strings sections optional options).result = .error error) ↔ ∃ i ∈ indexes, ¬InFile v file i) ∧
      (∀ table, (read v file strings sections optional options).result = .ok table →
        ∃ entries, List.Forall₂ (fun i e => Contributes strings sections optional i (recordIn v file i) e) indexes entries ∧
          table =
            { table := coffName
              symbols := entries.filterMap TableEntry.symbol
              warnings := truncationWarnings coffName .recordsTruncated file.symbolCount.toNat options.maxSymbolsPerTable.toNat ++
                (entries.filterMap TableEntry.notice).map fun n => ⟨coffName, n.message⟩ }) ∧
      ∀ w : View, w.size = v.size →
        (∀ p, w.bytes[p]? ≠ v.bytes[p]? → ∃ j, IsAuxiliary v file indexes j ∧
          recordOffset file j ≤ p ∧ p < recordOffset file j + symbolRecordSize) →
        read w file strings sections optional options = read v file strings sections optional options := by
  refine ⟨primaries v file strings sections optional options, isWalk_primaries, length_visitsFrom_le _ _ _ _, ?_,
    fun table h => ?_, fun w hsize h => ?_⟩
  · constructor
    · rintro ⟨error, herror⟩
      by_contra hall
      have hok := result_eq_ok_iff.2 ⟨fun i hi => by_contra fun h => hall ⟨i, hi, h⟩, rfl⟩
      rw [hok] at herror
      nomatch herror
    · rintro ⟨i, hi, hout⟩
      cases h : (read v file strings sections optional options).result with
      | error error => exact ⟨error, rfl⟩
      | ok table => exact absurd ((result_eq_ok_iff.1 h).1 i hi) hout
  · obtain ⟨-, rfl⟩ := result_eq_ok_iff.1 h
    have hentries : List.Forall₂ (fun i e => Contributes strings sections optional i (recordIn v file i) e)
        (primaries v file strings sections optional options)
        ((primaries v file strings sections optional options).map (contributionAt v file strings sections optional)) :=
      List.forall₂_map_right_iff.2 (List.forall₂_same.2 fun i _ => contributes_keep strings sections optional i _)
    exact ⟨_, hentries, rfl⟩
  · exact read_congr hsize fun i hi => agreeOn_of_isAuxiliary hsize h hi

/-- A function with one auxiliary record, given as it looks, and a function in a section that does not exist. -/
def shadowed (auxiliary : CoffRecord) : View :=
  let record (name : String) (sectionNumber : UInt16) (auxiliaries : UInt8) : CoffRecord :=
    { nameField := nameField name, value := 0, sectionNumber, type := 0x20, storageClass := 2, auxiliaries }
  ⟨([record "f" 1 1, auxiliary, record "h" 9 0].flatMap CoffRecord.write).toArray⟩

/-- The auxiliary record may look like a function, and may as well be all zeros. -/
theorem read_walk_shadowed :
    let file : FileHeader := { (default : FileHeader) with symbolCount := 3 }
    let sections : SectionTable := { entries := [⟨{ (default : SectionHeader) with virtualAddress := 0x1000 }, ".text"⟩] }
    let optional : OptionalHeader := { (default : OptionalHeader) with magic := OptionalHeader.magic32, imageBase := 0x400000 }
    let function : CoffRecord :=
      { nameField := nameField "g", value := 0, sectionNumber := 1, type := 0x20, storageClass := 2, auxiliaries := 0 }
    let zeros : CoffRecord := { (default : CoffRecord) with nameField := nameField "" }
    (∃ table, (read (shadowed function) file none sections optional {}).result = .ok table ∧
      table.symbols = [.function "f" 0x401000 .static] ∧
      table.warnings = [⟨"coff", "symbol 2: section number 9 out of range"⟩]) ∧
    read (shadowed zeros) file none sections optional {} = read (shadowed function) file none sections optional {} := by
  intro file sections optional function zeros
  obtain ⟨indexes, hwalk, -, -, -, hsame⟩ := read_walk (shadowed function) file none sections optional {}
  have hread : (read (shadowed function) file none sections optional {}).result.toOption.map (fun t => (t.symbols, t.warnings)) =
      some ([.function "f" 0x401000 .static], [⟨"coff", "symbol 2: section number 9 out of range"⟩]) := by
    decide +kernel
  obtain ⟨table, htable, hparts⟩ := Except.exists_of_toOption_map hread
  obtain ⟨hsymbols, hwarnings⟩ := Prod.mk.inj hparts
  refine ⟨⟨table, htable, hsymbols, hwarnings⟩, hsame (shadowed zeros) (by decide +kernel) fun p hp => ?_⟩
  have hfirst : 0 ∈ indexes := List.mem_of_getElem? (hwalk.first.trans (if_pos (by decide)))
  refine ⟨1, ⟨0, hfirst, by decide +kernel, by decide, by decide +kernel⟩, ?_⟩
  -- The files have 54 bytes each, and differ in the second record only.
  have hdiffer : ∀ p < 54, (shadowed zeros).bytes[p]? ≠ (shadowed function).bytes[p]? →
      recordOffset file 1 ≤ p ∧ p < recordOffset file 1 + symbolRecordSize := by
    decide +kernel
  refine hdiffer p (Nat.lt_of_not_le fun hle => hp ?_) hp
  rw [Array.getElem?_eq_none, Array.getElem?_eq_none]
  · exact Nat.le_trans (by decide +kernel) hle
  · exact Nat.le_trans (by decide +kernel) hle

end ExecImage.Pe.CoffSymbols
