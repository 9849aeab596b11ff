import ExecImage.Proofs.SymbolTable

/-!
# The entries that a reading comes to

A reading starts at the first entry and goes from each entry to the next one that does not belong to it. What is still
to be read at an entry that it comes to is the end of the whole reading (`Reached.endsIn`). So if the reading comes to the end of
the table, each such entry could be read, and its symbol is among those of the table (`Reached.exists_entry`).

The entries that a reading comes to can be listed (`visits`), the one that ends it early last. No other entry has a part in
it: if all of them can be read, the reading gives what they contribute (`readEntriesFrom_eq_of_visits`), and it is the same for
entries that are the same there (`readEntriesFrom_congr`).
-/

namespace ExecImage

namespace Reading

/-- The second reading is the end of the first: before it there were symbols and notices only. -/
structure EndsIn (r r' : Reading) : Prop where
  symbols : r'.symbols <:+ r.symbols
  notices : r'.notices <:+ r.notices
  failure : r.failure = r'.failure

variable {r r' r'' : Reading}

theorem EndsIn.refl (r : Reading) : r.EndsIn r :=
  ⟨List.suffix_rfl, List.suffix_rfl, rfl⟩

theorem EndsIn.trans (h : r.EndsIn r') (h' : r'.EndsIn r'') : r.EndsIn r'' :=
  ⟨h'.symbols.trans h.symbols, h'.notices.trans h.notices, h.failure.trans h'.failure⟩

theorem endsIn_after (e : TableEntry) (r : Reading) : (r.after e).EndsIn r :=
  ⟨List.suffix_append _ _, List.suffix_append _ _, rfl⟩

/-- The symbol of an entry is among those of the reading from the entry on. -/
theorem mem_symbols_after {e : TableEntry} {s : Symbol} (hs : e.symbol = some s) (r : Reading) : s ∈ (r.after e).symbols := by
  refine List.mem_append_left _ ?_
  rw [hs]
  exact List.mem_singleton_self s

end Reading

variable {entry : Nat → Except LoadError TableEntry} {limit i : Nat}

/-- A reading comes to an entry: it is the first, or it follows an entry that was read and those that belong to it. -/
inductive Reached (entry : Nat → Except LoadError TableEntry) (limit : Nat) : Nat → Prop where
  | first : Reached entry limit 0
  | next {i : Nat} {e : TableEntry} (reached : Reached entry limit i) (lt : i < limit) (read : entry i = .ok e) :
      Reached entry limit (i + 1 + e.trailing)

/-- Below the limit a reading takes the contribution of the entry and goes on after those that belong to it. -/
theorem readEntriesFrom_succ {e : TableEntry} (hi : i < limit) (he : entry i = .ok e) (fuel : Nat) :
    readEntriesFrom entry limit (fuel + 1) i = .after e (readEntriesFrom entry limit fuel (i + 1 + e.trailing)) := by
  rw [readEntriesFrom, if_pos hi]
  simp only [he]

/-- At the limit a reading has come to its end. -/
theorem readEntriesFrom_of_le (h : limit ≤ i) (fuel : Nat) : readEntriesFrom entry limit fuel i = {} := by
  cases fuel with
  | zero => rfl
  | succ fuel => rw [readEntriesFrom, if_neg (Nat.not_lt.2 h)]

/-- What is to be read at an entry that a reading comes to is the end of the reading, and the fuel that is left covers it. -/
theorem Reached.endsIn (h : Reached entry limit i) :
    ∃ fuel, limit ≤ i + fuel ∧ (readEntries entry limit).EndsIn (readEntriesFrom entry limit fuel i) := by
  induction h with
  | first => exact ⟨limit, by omega, .refl _⟩
  | @next i e _ hlt hread ih =>
    obtain ⟨fuel, hfuel, hends⟩ := ih
    cases fuel with
    | zero => omega
    | succ fuel =>
      rw [readEntriesFrom_succ hlt hread] at hends
      exact ⟨fuel, by omega, hends.trans (Reading.endsIn_after _ _)⟩

/-- If a reading comes to its end, every entry below the limit that it comes to can be read, and gives its symbol. -/
theorem Reached.exists_entry (h : Reached entry limit i) (hi : i < limit) (hf : (readEntries entry limit).failure = none) :
    ∃ e, entry i = .ok e ∧ ∀ s, e.symbol = some s → s ∈ (readEntries entry limit).symbols := by
  obtain ⟨fuel, hfuel, hends⟩ := h.endsIn
  cases fuel with
  | zero => omega
  | succ fuel =>
    cases he : entry i with
    | error error =>
      rw [readEntriesFrom, if_pos hi] at hends
      simp only [he] at hends
      rw [hends.failure] at hf
      nomatch hf
    | ok e =>
      rw [readEntriesFrom_succ hi he] at hends
      exact ⟨e, rfl, fun s hs => hends.symbols.subset (Reading.mem_symbols_after hs _)⟩

/-- A reading that comes to its end comes to every entry, if no entry has others belonging to it. -/
theorem reached_of_trailing (ht : ∀ i e, entry i = .ok e → e.trailing = 0) (hf : (readEntries entry limit).failure = none)
    (hi : i ≤ limit) : Reached entry limit i := by
  induction i with
  | zero => exact .first
  | succ i ih =>
    have hreached := ih (by omega)
    obtain ⟨e, he, -⟩ := hreached.exists_entry (by omega) hf
    have hnext := hreached.next (by omega) he
    rwa [ht i e he] at hnext

/-! ## The list of the entries -/

/-- The indexes of the entries that a reading comes to, from one of them on. -/
def visitsFrom (entry : Nat → Except LoadError TableEntry) (limit : Nat) : (fuel index : Nat) → List Nat
  | 0, _ => []
  | fuel + 1, index =>
    if index < limit then
      match entry index with
      | .error _ => [index]
      | .ok e => index :: visitsFrom entry limit fuel (index + 1 + e.trailing)
    else []

/-- The indexes of the entries that a reading comes to. -/
def visits (entry : Nat → Except LoadError TableEntry) (limit : Nat) : List Nat :=
  visitsFrom entry limit limit 0

variable {entry' : Nat → Except LoadError TableEntry} {fuel j k : Nat} {e : TableEntry}

/-- What is left of a list of entries that a reading comes to, by cases: there is none below the limit, it ends with one that
cannot be read, or it goes on. -/
theorem visitsFrom_of_le (h : limit ≤ i) (fuel : Nat) : visitsFrom entry limit fuel i = [] := by
  cases fuel with
  | zero => rfl
  | succ fuel => rw [visitsFrom, if_neg (Nat.not_lt.2 h)]

theorem visitsFrom_of_error {error : LoadError} (hi : i < limit) (he : entry i = .error error) (fuel : Nat) :
    visitsFrom entry limit (fuel + 1) i = [i] := by
  rw [visitsFrom, if_pos hi]
  simp only [he]

theorem visitsFrom_of_ok (hi : i < limit) (he : entry i = .ok e) (fuel : Nat) :
    visitsFrom entry limit (fuel + 1) i = i :: visitsFrom entry limit fuel (i + 1 + e.trailing) := by
  rw [visitsFrom, if_pos hi]
  simp only [he]

/-- A step of the list and of the reading, by the three cases. The proofs about both go by induction on the fuel with it. -/
theorem visitsFrom_cases (entry : Nat → Except LoadError TableEntry) (limit i fuel : Nat) :
    (limit ≤ i ∧ visitsFrom entry limit (fuel + 1) i = [] ∧ readEntriesFrom entry limit (fuel + 1) i = {}) ∨
    (i < limit ∧ ∃ error, entry i = .error error ∧ visitsFrom entry limit (fuel + 1) i = [i] ∧
      readEntriesFrom entry limit (fuel + 1) i = .failed error) ∨
    (i < limit ∧ ∃ e, entry i = .ok e ∧
      visitsFrom entry limit (fuel + 1) i = i :: visitsFrom entry limit fuel (i + 1 + e.trailing) ∧
      readEntriesFrom entry limit (fuel + 1) i = .after e (readEntriesFrom entry limit fuel (i + 1 + e.trailing))) := by
  by_cases hi : i < limit
  · cases he : entry i with
    | error error =>
      refine .inr (.inl ⟨hi, error, rfl, visitsFrom_of_error hi he fuel, ?_⟩)
      rw [readEntriesFrom, if_pos hi]
      simp only [he]
    | ok e => exact .inr (.inr ⟨hi, e, rfl, visitsFrom_of_ok hi he fuel, readEntriesFrom_succ hi he fuel⟩)
  · exact .inl ⟨Nat.not_lt.1 hi, visitsFrom_of_le (Nat.not_lt.1 hi) _, readEntriesFrom_of_le (Nat.not_lt.1 hi) _⟩

/-- A reading comes to entries from its index on and below the limit. -/
theorem bounds_of_mem_visitsFrom (h : j ∈ visitsFrom entry limit fuel i) : i ≤ j ∧ j < limit := by
  induction fuel generalizing i with
  | zero => nomatch h
  | succ fuel ih =>
    rcases visitsFrom_cases entry limit i fuel with ⟨-, hv, -⟩ | ⟨hi, _, -, hv, -⟩ | ⟨hi, e, -, hv, -⟩
    · rw [hv] at h
      nomatch h
    · rw [hv] at h
      cases List.mem_singleton.1 h
      exact ⟨Nat.le_refl _, hi⟩
    · rw [hv] at h
      rcases List.mem_cons.1 h with rfl | h
      · exact ⟨Nat.le_refl j, hi⟩
      · have := ih h
        omega

/-- A reading takes a step for each entry that it comes to. -/
theorem length_visitsFrom_le (entry : Nat → Except LoadError TableEntry) (limit fuel i : Nat) :
    (visitsFrom entry limit fuel i).length ≤ fuel := by
  induction fuel generalizing i with
  | zero => exact Nat.le_refl 0
  | succ fuel ih =>
    rcases visitsFrom_cases entry limit i fuel with ⟨-, hv, -⟩ | ⟨-, _, -, hv, -⟩ | ⟨-, e, -, hv, -⟩
    · simp [hv]
    · simp [hv]
    · rw [hv, List.length_cons]
      exact Nat.succ_le_succ (ih _)

/-- A reading comes to no entry that belongs to another one that it comes to. -/
theorem separated_of_mem_visitsFrom (hj : j ∈ visitsFrom entry limit fuel i) (hk : k ∈ visitsFrom entry limit fuel i)
    (he : entry j = .ok e) : k ≤ j ∨ j + 1 + e.trailing ≤ k := by
  induction fuel generalizing i with
  | zero => nomatch hj
  | succ fuel ih =>
    rcases visitsFrom_cases entry limit i fuel with ⟨-, hv, -⟩ | ⟨-, _, -, hv, -⟩ | ⟨-, e', he', hv, -⟩
    · rw [hv] at hj
      nomatch hj
    · rw [hv] at hj hk
      cases List.mem_singleton.1 hj
      cases List.mem_singleton.1 hk
      exact .inl (Nat.le_refl _)
    · rw [hv] at hj hk
      rcases List.mem_cons.1 hk with rfl | hk
      · rcases List.mem_cons.1 hj with rfl | hj
        · exact .inl (Nat.le_refl _)
        · have := bounds_of_mem_visitsFrom hj
          exact .inl (by omega)
      · rcases List.mem_cons.1 hj with rfl | hj
        · rw [he] at he'
          cases he'
          exact .inr (bounds_of_mem_visitsFrom hk).1
        · exact ih hj hk

/-- After an entry that can be read comes the first one that does not belong to it, if it is below the limit. The fuel covers the
entries that are left. -/
theorem getElem?_visitsFrom_succ (hf : limit ≤ i + fuel) (h : (visitsFrom entry limit fuel i)[k]? = some j) :
    (visitsFrom entry limit fuel i)[k + 1]? =
      match entry j with
      | .error _ => none
      | .ok e => if j + 1 + e.trailing < limit then some (j + 1 + e.trailing) else none := by
  induction fuel generalizing i k with
  | zero => nomatch h
  | succ fuel ih =>
    rcases visitsFrom_cases entry limit i fuel with ⟨-, hv, -⟩ | ⟨-, error, he, hv, -⟩ | ⟨hi, e, he, hv, -⟩
    · rw [hv] at h
      nomatch h
    · rw [hv] at h ⊢
      cases k with
      | zero =>
        cases h
        simp [he]
      | succ k => nomatch h
    · rw [hv] at h ⊢
      rw [List.getElem?_cons_succ]
      cases k with
      | zero =>
        cases h
        simp only [he]
        -- The next entry is the first of what is left.
        by_cases hnext : j + 1 + e.trailing < limit
        · obtain ⟨fuel, rfl⟩ : ∃ m, fuel = m + 1 := ⟨fuel - 1, by omega⟩
          rw [if_pos hnext, visitsFrom, if_pos hnext]
          cases entry (j + 1 + e.trailing) <;> rfl
        · rw [if_neg hnext, visitsFrom_of_le (Nat.not_lt.1 hnext)]
          rfl
      | succ k => exact ih (by omega) h

/-- A reading comes to its end exactly when every entry that it comes to can be read. -/
theorem failure_readEntriesFrom_eq_none_iff :
    (readEntriesFrom entry limit fuel i).failure = none ↔ ∀ j ∈ visitsFrom entry limit fuel i, ∃ e, entry j = .ok e := by
  induction fuel generalizing i with
  | zero => simp [readEntriesFrom, visitsFrom]
  | succ fuel ih =>
    rcases visitsFrom_cases entry limit i fuel with ⟨-, hv, hr⟩ | ⟨-, error, he, hv, hr⟩ | ⟨-, e, he, hv, hr⟩
    · simp [hv, hr]
    · simp [hv, hr, he]
    · simp [hv, hr, he, ih]

/-- A reading that comes only to entries that can be read gives what they contribute. -/
theorem readEntriesFrom_eq_of_visits {f : Nat → TableEntry} (h : ∀ j ∈ visitsFrom entry limit fuel i, entry j = .ok (f j)) :
    readEntriesFrom entry limit fuel i = .ofEntries ((visitsFrom entry limit fuel i).map f) := by
  induction fuel generalizing i with
  | zero => rfl
  | succ fuel ih =>
    rcases visitsFrom_cases entry limit i fuel with ⟨-, hv, hr⟩ | ⟨-, error, he, hv, -⟩ | ⟨-, e, he, hv, hr⟩
    · rw [hv, hr]
      rfl
    · have hfirst := h i (by rw [hv]; exact List.mem_singleton_self i)
      rw [he] at hfirst
      nomatch hfirst
    · rw [hv] at h
      have hfirst := h i List.mem_cons_self
      rw [he] at hfirst
      cases hfirst
      rw [hv, hr, ih fun j hj => h j (List.mem_cons_of_mem i hj)]
      rfl

/-- A reading is the same for entries that are the same where it comes to. -/
theorem readEntriesFrom_congr (h : ∀ j ∈ visitsFrom entry limit fuel i, entry' j = entry j) :
    readEntriesFrom entry' limit fuel i = readEntriesFrom entry limit fuel i := by
  induction fuel generalizing i with
  | zero => rfl
  | succ fuel ih =>
    rcases visitsFrom_cases entry limit i fuel with ⟨hi, -, hr⟩ | ⟨hi, error, he, hv, hr⟩ | ⟨hi, e, he, hv, hr⟩
    · rw [hr, readEntriesFrom_of_le hi]
    · have hfirst := h i (by rw [hv]; exact List.mem_singleton_self i)
      rw [hr, readEntriesFrom, if_pos hi]
      simp only [hfirst, he]
    · rw [hv] at h
      have hfirst := h i List.mem_cons_self
      rw [hr, readEntriesFrom_succ hi (hfirst.trans he), ih fun j hj => h j (List.mem_cons_of_mem i hj)]

end ExecImage
