import ExecImage.Binary
import ExecImage.Proofs.Steps
import ExecImage.SymbolTable

/-!
# What becomes of a symbol table

A reading ends early only at an entry below the limit that cannot be read (`exists_of_failure`), and is what its entries
contribute if they can all be read (`readEntries_eq_ofEntries`). A table is contained if it goes by its label and ends early only
with a fault of that label.
-/

namespace ExecImage

/-! ## Readings -/

namespace Reading

/-- A contribution before a reading does not change how it ends. -/
@[simp] theorem failure_after (e : TableEntry) (r : Reading) : (r.after e).failure = r.failure := rfl

@[simp] theorem failure_noting (notice : Option Notice) (r : Reading) : (r.noting notice).failure = r.failure := rfl

@[simp] theorem failure_failed (e : LoadError) : (failed e).failure = some e := rfl

end Reading

section

variable {entry : Nat → Except LoadError TableEntry} {limit : Nat} {error : LoadError}

/-- The induction is on the fuel: what ends the rest of a reading is an entry of the whole. -/
theorem exists_of_failureFrom {fuel index : Nat} (h : (readEntriesFrom entry limit fuel index).failure = some error) :
    ∃ i < limit, entry i = .error error := by
  induction fuel generalizing index with
  | zero => nomatch h
  | succ fuel ih =>
    unfold readEntriesFrom at h
    split at h
    · rename_i hlt
      split at h
      · rename_i e he
        rw [Reading.failure_failed, Option.some.injEq] at h
        exact ⟨index, hlt, h ▸ he⟩
      · rw [Reading.failure_after] at h
        exact ih h
    · nomatch h

/-- A reading ends early only with the error of an entry below the limit. -/
theorem exists_of_failure (h : (readEntries entry limit).failure = some error) : ∃ i < limit, entry i = .error error :=
  exists_of_failureFrom h

/-- The induction is on the fuel: a symbol is that of the first entry, or it is read after it. -/
theorem exists_entry_of_mem_symbolsFrom {s : Symbol} {fuel index : Nat}
    (h : s ∈ (readEntriesFrom entry limit fuel index).symbols) : ∃ i e, entry i = .ok e ∧ e.symbol = some s := by
  induction fuel generalizing index with
  | zero => nomatch h
  | succ fuel ih =>
    unfold readEntriesFrom at h
    split at h
    · split at h
      · nomatch h
      · rename_i e he
        rcases List.mem_append.1 h with hs | hs
        · exact ⟨index, e, he, Option.mem_toList.1 hs⟩
        · exact ih hs
    · nomatch h

/-- Every symbol that is read is the symbol of an entry. -/
theorem exists_entry_of_mem_symbols {s : Symbol} (h : s ∈ (readEntries entry limit).symbols) :
    ∃ i e, entry i = .ok e ∧ e.symbol = some s :=
  exists_entry_of_mem_symbolsFrom h

/-- A reading of entries that can all be read comes to its end. -/
theorem failure_eq_none (h : ∀ i < limit, ∃ e, entry i = .ok e) : (readEntries entry limit).failure = none := by
  rw [Option.eq_none_iff_forall_ne_some]
  intro error he
  obtain ⟨i, hi, hei⟩ := exists_of_failure he
  obtain ⟨e, hok⟩ := h i hi
  rw [hok] at hei
  nomatch hei

end

/-- What a reading has given when entries were all it met. -/
def Reading.ofEntries (entries : List TableEntry) : Reading :=
  { symbols := entries.flatMap fun e => e.symbol.toList, notices := entries.flatMap fun e => e.notice.toList }

/-- Entries that contribute something only if they are kept, each then a symbol, give what those that are kept contribute. -/
theorem Reading.ofEntries_kept {α : Type} (xs : List α) (kept : α → Bool) (symbol : α → Symbol) (notice : α → Option Notice) :
    Reading.ofEntries (xs.map fun x => if kept x then { symbol := some (symbol x), notice := notice x } else {}) =
      { symbols := (xs.filter kept).map symbol, notices := (xs.filter kept).filterMap notice } := by
  induction xs with
  | nil => rfl
  | cons x xs ih =>
    simp only [ofEntries, Reading.mk.injEq, and_true] at ih ⊢
    simp only [List.map_cons, List.flatMap_cons, ih]
    cases hk : kept x with
    | false =>
      rw [List.filter_cons_of_neg (by simp [hk])]
      exact ⟨rfl, rfl⟩
    | true =>
      rw [List.filter_cons_of_pos hk, List.map_cons, List.filterMap_cons]
      refine ⟨rfl, ?_⟩
      cases notice x <;> rfl

/-- The induction is on the fuel, which covers the entries that are left. -/
theorem readEntriesFrom_eq_ofEntries {entry : Nat → Except LoadError TableEntry} {entries : List TableEntry}
    (h : ∀ i e, entries[i]? = some e → entry i = .ok e) (ht : ∀ e ∈ entries, e.trailing = 0) {fuel index : Nat}
    (hf : entries.length ≤ index + fuel) :
    readEntriesFrom entry entries.length fuel index = .ofEntries (entries.drop index) := by
  induction fuel generalizing index with
  | zero =>
    rw [List.drop_eq_nil_of_le (by omega)]
    rfl
  | succ fuel ih =>
    unfold readEntriesFrom
    split
    · rename_i hi
      have hget := List.getElem?_eq_getElem hi
      have htrailing := ht entries[index] (List.getElem_mem hi)
      simp only [h index _ hget, htrailing, Nat.add_zero]
      rw [ih (by omega), List.drop_eq_getElem_cons hi]
      rfl
    · rw [List.drop_eq_nil_of_le (by omega)]
      rfl

/-- A reading of entries that can all be read, none of which has others belonging to it, gives what they contribute. -/
theorem readEntries_eq_ofEntries {entry : Nat → Except LoadError TableEntry} {entries : List TableEntry}
    (h : ∀ i e, entries[i]? = some e → entry i = .ok e) (ht : ∀ e ∈ entries, e.trailing = 0) :
    readEntries entry entries.length = .ofEntries entries :=
  readEntriesFrom_eq_ofEntries h ht (by omega)

/-! ## Outcomes -/

/-- The error is a fault of the symbol table of a name. -/
def LoadError.IsFaultOf (table : String) (e : LoadError) : Prop :=
  ∃ fault, e = .symbolTable table fault

/-- The table goes by its label, and only a fault of that label ends its reading early. -/
structure LabelledTable.Contained (t : LabelledTable) : Prop where
  table : t.read.table = t.label
  failure : ∀ e, t.read.reading.failure = some e → e.IsFaultOf t.label

/-- A table is loaded exactly when its reading comes to its end. -/
theorem LabelledTable.outcome_eq_loaded_iff {t : LabelledTable} {table : LoadedTable} :
    t.outcome = .loaded table ↔ t.read.result = .ok table := by
  unfold LabelledTable.outcome TableOutcome.ofResult
  cases t.read.result <;> simp

/-- A reading that comes to its end gives a table with all that was read. -/
theorem LabelledTable.outcome_of_failure_eq_none {t : LabelledTable} (h : t.read.reading.failure = none) :
    t.outcome = .loaded { table := t.read.table, symbols := t.read.reading.symbols, warnings := t.read.warnings } := by
  simp only [outcome, TableReading.result, h, TableOutcome.ofResult]

/-- A reading that ends early leaves its error under the label. -/
theorem LabelledTable.outcome_of_failure_eq_some {t : LabelledTable} {e : LoadError} (h : t.read.reading.failure = some e) :
    t.outcome = .failed t.label e := by
  simp only [outcome, TableReading.result, h, TableOutcome.ofResult]

/-- The notices of a reading are warnings under the name of the table. -/
theorem TableReading.table_of_mem_warnings {t : TableReading} {w : Warning} (h : w ∈ t.warnings) : w.table = t.table := by
  obtain ⟨n, -, rfl⟩ := List.mem_map.1 h
  rfl

/-! ## Indexes -/

/-- The indexes of the elements that satisfy a test are those at which such an element stands. -/
theorem Binary.mem_indexesWhere {α : Type} {p : α → Bool} {xs : List α} {i : Nat} :
    i ∈ Binary.indexesWhere p xs ↔ ∃ x, xs[i]? = some x ∧ p x = true := by
  simp only [indexesWhere, List.mem_map, List.mem_filter, Prod.exists, List.mem_zipIdx_iff_getElem?]
  constructor
  · rintro ⟨x, _, ⟨hx, hp⟩, rfl⟩
    exact ⟨x, hx, hp⟩
  · rintro ⟨x, hx, hp⟩
    exact ⟨x, i, ⟨hx, hp⟩, rfl⟩

/-- What is made of the indexes of the elements that satisfy a test, if it is made of the elements. The induction moves the first
index. -/
theorem Binary.map_indexesWhere {α β : Type} {p : α → Bool} {xs : List α} {f : Nat → β} {g : α → β}
    (h : ∀ i x, xs[i]? = some x → p x = true → f i = g x) : (Binary.indexesWhere p xs).map f = (xs.filter p).map g := by
  have main (k : Nat) (hk : ∀ i x, xs[i]? = some x → p x = true → f (k + i) = g x) :
      ((xs.zipIdx k).filter fun xi => p xi.1).map (f ∘ Prod.snd) = (xs.filter p).map g := by
    clear h
    induction xs generalizing k with
    | nil => rfl
    | cons x xs ih =>
      have hxs := ih (k + 1) fun i y hy hp => by
        rw [Nat.add_assoc, Nat.add_comm 1]
        exact hk (i + 1) y hy hp
      rw [List.zipIdx_cons]
      cases hp : p x with
      | true =>
        rw [List.filter_cons_of_pos hp, List.filter_cons_of_pos (by exact hp), List.map_cons, List.map_cons, hxs]
        exact congrArg (· :: _) (hk 0 x rfl hp)
      | false =>
        rw [List.filter_cons_of_neg (by simp [hp]), List.filter_cons_of_neg (by simp [hp]), hxs]
  rw [Binary.indexesWhere, List.map_map]
  refine main 0 fun i x hx hp => ?_
  rw [Nat.zero_add]
  exact h i x hx hp

end ExecImage
