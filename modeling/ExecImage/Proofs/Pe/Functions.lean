import ExecImage.Pe.Image
import ExecImage.Proofs.Reached

/-!
# The functions that the tables of a PE image name

Which records of the COFF symbol table and which exports become symbols, said in terms of the file: a record that is no
auxiliary one, of a function with the number of a section; an export below the limit whose ordinal selects an
address that is not in the export directory itself. If the table is read to its end, the symbol of each of them is there.
-/

namespace ExecImage.Pe

variable {options : Options}

/-! ## Functions of the COFF symbol table -/

namespace CoffSymbols

/-- The records of a symbol table that are no auxiliary ones: the first, and after each of them the one that follows those that
belong to it. -/
inductive Primary (v : View) (file : FileHeader) (limit : Nat) : Nat → CoffRecord → Prop where
  | first {r : CoffRecord} (lt : 0 < limit) (read : CoffRecord.read v (recordOffset file 0) = .ok r) :
      Primary v file limit 0 r
  | next {i : Nat} {r r' : CoffRecord} (primary : Primary v file limit i r) (lt : i + 1 + r.auxiliaries.toNat < limit)
      (read : CoffRecord.read v (recordOffset file (i + 1 + r.auxiliaries.toNat)) = .ok r') :
      Primary v file limit (i + 1 + r.auxiliaries.toNat) r'

/-- The number of records that are read of a symbol table. -/
def limit (file : FileHeader) (options : Options) : Nat :=
  min file.symbolCount.toNat options.maxSymbolsPerTable.toNat

/-- The name of a symbol: the name of its record, empty if the record has none that can be read. -/
def displayName (r : CoffRecord) (strings : Option StringTable) : String :=
  (nameOf r strings).toOption.getD ""

variable {v : View} {file : FileHeader} {strings : Option StringTable} {sections : SectionTable} {optional : OptionalHeader}

theorem entryAt_eq_ok {i : Nat} {r : CoffRecord} (h : CoffRecord.read v (recordOffset file i) = .ok r) :
    entryAt v file strings sections optional i =
      .ok { keep r strings sections optional i with trailing := r.auxiliaries.toNat } := by
  unfold entryAt
  rw [h]

/-- The reading of a symbol table comes to every record that is no auxiliary one. -/
theorem Primary.reached (strings : Option StringTable) (sections : SectionTable) (optional : OptionalHeader) {n i : Nat}
    {r : CoffRecord} (h : Primary v file n i r) :
    Reached (entryAt v file strings sections optional) n i ∧ i < n ∧ CoffRecord.read v (recordOffset file i) = .ok r := by
  induction h with
  | first hlt hread => exact ⟨.first, hlt, hread⟩
  | next _ hlt hread ih =>
    obtain ⟨hreached, hi, hr⟩ := ih
    exact ⟨hreached.next hi (entryAt_eq_ok hr), hlt, hread⟩

/-- A function that a record defines in a section is kept as a symbol. -/
theorem symbol_keep {r : CoffRecord} {h : SectionHeader} (hfun : r.isFunction = true) (hdef : r.isDefined = true)
    (hs : sections.header? (r.sectionNumber.toNat - 1) = some h) (i : Nat) :
    (keep r strings sections optional i).symbol = some (symbol r h (displayName r strings) optional) := by
  unfold keep displayName
  simp only [hfun, hdef, Bool.and_self, if_true, hs]
  cases nameOf r strings <;> rfl

/-- The functions that the records of a loaded symbol table define are among its symbols. -/
theorem mem_symbols_read {i : Nat} {r : CoffRecord} {h : SectionHeader}
    (hf : (read v file strings sections optional options).reading.failure = none) (hr : Primary v file (limit file options) i r)
    (hfun : r.isFunction = true) (hdef : r.isDefined = true)
    (hs : sections.header? (r.sectionNumber.toNat - 1) = some h) :
    symbol r h (displayName r strings) optional ∈ (read v file strings sections optional options).reading.symbols := by
  obtain ⟨hreached, hi, hread⟩ := hr.reached strings sections optional
  obtain ⟨e, he, hsymbol⟩ := hreached.exists_entry hi hf
  rw [entryAt_eq_ok hread] at he
  cases he
  exact hsymbol _ (symbol_keep hfun hdef hs i)

end CoffSymbols

/-! ## Exports -/

namespace Exports

/-- The export at an index of the names is kept: it is below the limit, its ordinal selects an address, and the address does not
lie in the directory, where it would lead to a function of another image. -/
def Kept (v : View) (sections : SectionTable) (directory : DataDirectory) (options : Options) (index : Nat)
    (nameRva functionRva : UInt32) : Prop :=
  ∃ d t ordinal, findDirectory v sections directory = .ok d ∧ locate sections d = .ok t ∧
    index < min d.nameCount.toNat options.maxExports.toNat ∧
    v.word32 (t.names + index * 4) .little = .ok nameRva ∧ v.word16 (t.ordinals + index * 2) .little = .ok ordinal ∧
    ordinal.toNat < d.functionCount.toNat ∧
    v.word32 (t.addresses + ordinal.toNat * 4) .little = .ok functionRva ∧ ¬directory.Contains functionRva

/-- The name of a symbol: the name of its export, empty if it cannot be read. -/
def displayName (v : View) (sections : SectionTable) (nameRva : UInt32) : String :=
  (name? v sections nameRva).getD ""

variable {v : View} {sections : SectionTable} {directory : DataDirectory} {optional : OptionalHeader} {nameRva functionRva : UInt32}

theorem trailing_keep (i : Nat) : (keep v sections directory optional i nameRva functionRva).trailing = 0 := by
  unfold keep
  split
  · rfl
  · dsimp only
    split <;> rfl

/-- No export has others belonging to it. -/
theorem trailing_entryAt {functionCount : UInt32} {t : Tables} {i : Nat} {e : TableEntry}
    (h : entryAt v sections directory optional functionCount t i = .ok e) : e.trailing = 0 := by
  obtain ⟨nameRva, -, h⟩ := Except.bind_eq_ok_iff.1 h
  obtain ⟨ordinal, -, h⟩ := Except.bind_eq_ok_iff.1 h
  split at h
  · cases h
    rfl
  · obtain ⟨functionRva, -, h⟩ := Except.bind_eq_ok_iff.1 h
    cases h
    exact trailing_keep i

/-- An address outside the directory is kept as a symbol. -/
theorem symbol_keep (h : ¬directory.Contains functionRva) (i : Nat) :
    (keep v sections directory optional i nameRva functionRva).symbol =
      some (.function (displayName v sections nameRva) (optional.va functionRva.toUInt64) .exported) := by
  unfold keep displayName
  rw [if_neg h]
  dsimp only
  cases name? v sections nameRva <;> rfl

/-- The exports that are kept are among the symbols of exports that are loaded. -/
theorem mem_symbols_read {i : Nat} (hf : (read v sections directory optional options).reading.failure = none)
    (hk : Kept v sections directory options i nameRva functionRva) :
    .function (displayName v sections nameRva) (optional.va functionRva.toUInt64) .exported ∈
      (read v sections directory optional options).reading.symbols := by
  obtain ⟨d, t, ordinal, hd, ht, hi, hname, hordinal, hlt, hfunction, hout⟩ := hk
  have hread : (readNames v sections directory optional d (min d.nameCount.toNat options.maxExports.toNat)) =
      readEntries (entryAt v sections directory optional d.functionCount t) (min d.nameCount.toNat options.maxExports.toNat) := by
    unfold readNames
    rw [if_neg (Nat.ne_of_gt (Nat.zero_lt_of_lt hi))]
    simp only [ht]
  unfold read at hf ⊢
  simp only [hd, Reading.failure_noting, hread] at hf ⊢
  have hreached := reached_of_trailing (fun i e => trailing_entryAt) hf (Nat.le_of_lt hi)
  obtain ⟨e, he, hsymbol⟩ := hreached.exists_entry hi hf
  have hentry : entryAt v sections directory optional d.functionCount t i =
      .ok (keep v sections directory optional i nameRva functionRva) := by
    unfold entryAt
    rw [hname, hordinal]
    refine Except.bind_eq_ok_iff.2 ⟨nameRva, rfl, Except.bind_eq_ok_iff.2 ⟨ordinal, rfl, ?_⟩⟩
    rw [if_neg (Nat.not_le.2 hlt), hfunction]
    rfl
  rw [hentry] at he
  cases he
  exact hsymbol _ (symbol_keep hout i)

end Exports

end ExecImage.Pe
