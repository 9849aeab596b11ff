import ExecImage.Elf.SymbolTable
import ExecImage.Pe.Exports
import ExecImage.Pe.CoffSymbols
import ExecImage.Proofs.Steps
import ExecImage.SymbolTable

/-!
# What the entries of a symbol table contribute

An entry of each of the three kinds of table contributes functions of one source only, and its notice is of what the entry
lacks, not of entries that were left out (`TableEntry.IsOf`). So the same holds of all that is read of the table.
-/

namespace ExecImage

open Except (bind_eq_ok_iff)

/-! ## Entries and readings -/

/-- The notice says that a table has more entries than are read. -/
def Notice.isTruncation : Notice → Bool
  | .entriesTruncated _ _ | .recordsTruncated _ _ | .exportsTruncated _ _ => true
  | _ => false

/-- Every symbol names a function and comes from tables of one kind. -/
def FunctionsOf (source : SymbolSource) (symbols : List Symbol) : Prop :=
  ∀ s ∈ symbols, s.kind = .function ∧ s.source = source

theorem functionsOf_nil (source : SymbolSource) : FunctionsOf source [] :=
  fun _ hs => nomatch hs

/-- An entry of a table of a source: its symbol is a function of the source, and its notice is of the entry. -/
structure TableEntry.IsOf (source : SymbolSource) (e : TableEntry) : Prop where
  /-- What the entry defines. -/
  symbol : FunctionsOf source e.symbol.toList
  /-- What the entry lacks. -/
  notice : ∀ n ∈ e.notice.toList, n.isTruncation = false

/-- What is read of a table of a source: functions of the source, and notices of entries. -/
structure Reading.IsOf (source : SymbolSource) (r : Reading) : Prop where
  /-- What the entries define. -/
  symbols : FunctionsOf source r.symbols
  /-- What the entries lack. -/
  notices : ∀ n ∈ r.notices, n.isTruncation = false

variable {source : SymbolSource}

/-- The entry defines nothing. -/
theorem TableEntry.isOf_none {notice : Option Notice} (h : ∀ n ∈ notice.toList, n.isTruncation = false) (trailing : Nat) :
    TableEntry.IsOf source ⟨none, notice, trailing⟩ :=
  ⟨functionsOf_nil source, h⟩

/-- The entry defines a function. -/
theorem TableEntry.isOf_function (name : String) (addr : UInt64) {notice : Option Notice}
    (h : ∀ n ∈ notice.toList, n.isTruncation = false) (trailing : Nat) :
    TableEntry.IsOf source ⟨some (.function name addr source), notice, trailing⟩ := by
  refine ⟨?_, h⟩
  intro s hs
  rw [List.mem_singleton.1 hs]
  exact ⟨rfl, rfl⟩

theorem Reading.isOf_empty (source : SymbolSource) (failure : Option LoadError) :
    Reading.IsOf source { failure } :=
  ⟨functionsOf_nil source, nofun⟩

/-- The contribution of an entry before a reading. -/
theorem Reading.IsOf.after {e : TableEntry} {r : Reading} (hr : r.IsOf source) (he : e.IsOf source) :
    (r.after e).IsOf source := by
  constructor
  · intro s hs
    rcases List.mem_append.1 hs with hs | hs
    · exact he.symbol s hs
    · exact hr.symbols s hs
  · intro n hn
    rcases List.mem_append.1 hn with hn | hn
    · exact he.notice n hn
    · exact hr.notices n hn

section

variable {entry : Nat → Except LoadError TableEntry}

/-- The induction is on the fuel: each step adds the contribution of an entry. -/
theorem isOf_readEntriesFrom (h : ∀ i e, entry i = .ok e → e.IsOf source) (limit fuel index : Nat) :
    (readEntriesFrom entry limit fuel index).IsOf source := by
  induction fuel generalizing index with
  | zero => exact Reading.isOf_empty source none
  | succ fuel ih =>
    unfold readEntriesFrom
    split
    · split
      · exact Reading.isOf_empty source _
      · rename_i e he
        exact (ih _).after (h index e he)
    · exact Reading.isOf_empty source none

/-- What is read of entries of a source is of the source. -/
theorem isOf_readEntries (h : ∀ i e, entry i = .ok e → e.IsOf source) (limit : Nat) : (readEntries entry limit).IsOf source :=
  isOf_readEntriesFrom h limit limit 0

end

/-! ## The three kinds of table -/

namespace Elf.SymbolTable

theorem isOf_keep (strings : View) (index : Nat) (e : SymbolEntry) : (keep strings source index e).IsOf source := by
  unfold keep
  split
  · exact TableEntry.isOf_function _ _ (by simp) _
  split
  · exact TableEntry.isOf_function _ _ (by simp) _
  · exact TableEntry.isOf_function _ _ (by simp [Notice.isTruncation]) _

/-- An entry of an ELF table contributes a function of the source that is asked for. -/
theorem isOf_entryAt {entries strings : View} {ident : Ident} {size : Nat} {options : Options} (i : Nat) (e : TableEntry)
    (h : entryAt entries strings ident size source options i = .ok e) : e.IsOf source := by
  obtain ⟨entry, -, h⟩ := bind_eq_ok_iff.1 h
  cases h
  split
  · exact isOf_keep strings i entry
  · exact TableEntry.isOf_none (by simp) _

end Elf.SymbolTable

namespace Pe

variable {v : View} {sections : SectionTable} {optional : OptionalHeader}

theorem CoffSymbols.isOf_keep (r : CoffRecord) (strings : Option StringTable) (index : Nat) :
    (keep r strings sections optional index).IsOf .static := by
  unfold keep
  split
  · split
    · exact TableEntry.isOf_none (by simp [Notice.isTruncation]) _
    split
    · exact TableEntry.isOf_function _ _ (by simp) _
    · exact TableEntry.isOf_function _ _ (by simp [Notice.isTruncation]) _
  · exact TableEntry.isOf_none (by simp) _

/-- A record of the COFF symbol table contributes a static function. -/
theorem CoffSymbols.isOf_entryAt {file : FileHeader} {strings : Option StringTable} (i : Nat) (e : TableEntry)
    (h : entryAt v file strings sections optional i = .ok e) : e.IsOf .static := by
  unfold entryAt at h
  split at h
  · rename_i r _
    cases h
    have hkeep : (keep r strings sections optional i).IsOf .static := isOf_keep r strings i
    exact ⟨hkeep.symbol, hkeep.notice⟩
  · nomatch h
  · nomatch h

namespace Exports

variable {directory : DataDirectory}

theorem isOf_keep (index : Nat) (nameRva functionRva : UInt32) :
    (keep v sections directory optional index nameRva functionRva).IsOf .exported := by
  unfold keep
  split
  · exact TableEntry.isOf_none (by simp) _
  dsimp only
  split
  · exact TableEntry.isOf_function _ _ (by simp) _
  · exact TableEntry.isOf_function _ _ (by simp [Notice.isTruncation]) _

/-- A named export contributes an exported function. -/
theorem isOf_entryAt {functionCount : UInt32} {t : Tables} (i : Nat) (e : TableEntry)
    (h : entryAt v sections directory optional functionCount t i = .ok e) : e.IsOf .exported := by
  obtain ⟨nameRva, -, h⟩ := bind_eq_ok_iff.1 h
  obtain ⟨ordinal, -, h⟩ := bind_eq_ok_iff.1 h
  split at h
  · cases h
    exact TableEntry.isOf_none (by simp [Notice.isTruncation]) _
  · obtain ⟨functionRva, -, h⟩ := bind_eq_ok_iff.1 h
    cases h
    exact isOf_keep i nameRva functionRva

/-- What is read of a directory of exports is exported. -/
theorem isOf_readNames (d : ExportDirectory) (count : Nat) :
    (readNames v sections directory optional d count).IsOf .exported := by
  unfold readNames
  split
  · exact Reading.isOf_empty _ none
  split
  · exact Reading.isOf_empty _ _
  · exact isOf_readEntries isOf_entryAt count

end Exports

end Pe

end ExecImage
