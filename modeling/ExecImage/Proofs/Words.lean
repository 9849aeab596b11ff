import Mathlib.Algebra.Group.Nat.Defs
import ExecImage.SymbolTable

/-!
# Readers that compute in words

The readers compute offsets as natural numbers, and a machine has words of 64 bits for them. A reader in words takes the same steps, but each
sum, product, difference and quotient of offsets that nothing checks is an operation, which has no result where the machine's result is not the
number: where a sum or a product is no word, a difference is negative, or a divisor is zero. A reader in words whose operations all have results
gives what the reader gives.

`Words` is where such readers run. A step that computes no offset is lifted into it. So the statement about each reader in words is that it is
the lift of the reader; `readEntriesInWords_eq` says it of the loop over the entries of a table.
-/

namespace ExecImage

/-! ## Operations -/

namespace Word

/-- A number, if it is a word. -/
def ofNat? (n : Nat) : Option Nat :=
  if n < 2 ^ 64 then some n else none

/-- The sum of two offsets. -/
def add (m n : Nat) : Option Nat :=
  ofNat? (m + n)

/-- The product of two offsets. -/
def mul (m n : Nat) : Option Nat :=
  ofNat? (m * n)

/-- The difference of two offsets or two relative addresses. -/
def sub (m n : Nat) : Option Nat :=
  if n ≤ m then some (m - n) else none

/-- The quotient of two offsets. -/
def div (m n : Nat) : Option Nat :=
  if n = 0 then none else some (m / n)

/-- A number is in a range of a start and a size. The difference is taken only where the number is not before the range. -/
def within (n start size : Nat) : Option Bool :=
  if start ≤ n then do return decide ((← sub n start) < size) else return false

variable {m n : Nat}

theorem add_eq (h : m + n < 2 ^ 64) : add m n = some (m + n) := if_pos h

theorem mul_eq (h : m * n < 2 ^ 64) : mul m n = some (m * n) := if_pos h

theorem sub_eq (h : n ≤ m) : sub m n = some (m - n) := if_pos h

theorem div_eq (h : n ≠ 0) : div m n = some (m / n) := if_neg h

/-- There is no result where a machine would wrap around or stop. -/
example : add (2 ^ 64 - 1) 1 = none ∧ mul (2 ^ 32) (2 ^ 32) = none ∧ sub 0 1 = none ∧ div 1 0 = none := by decide

/-- The guard makes the difference one that can be taken. -/
theorem within_eq (n start size : Nat) : within n start size = some (decide (start ≤ n ∧ n - start < size)) := by
  unfold within
  by_cases h : start ≤ n
  · rw [if_pos h, sub_eq h]
    simp only [h, true_and]
    rfl
  · rw [if_neg h]
    simp only [h, false_and, decide_false]
    rfl

end Word

/-! ## Readers -/

/-- A reader in words gives a result, or an error of the load, or nothing if an operation has no result. -/
abbrev Words (α : Type) :=
  ExceptT LoadError Option α

namespace Words

variable {α β : Type}

/-- An operation that has a result gives it. -/
theorem lift_some (a : α) : (liftM (some a) : Words α) = pure a := rfl

theorem add_bind {m n : Nat} (h : m + n < 2 ^ 64) (f : Nat → Words β) : (liftM (Word.add m n) : Words Nat) >>= f = f (m + n) := by
  rw [Word.add_eq h, lift_some, pure_bind]

theorem mul_bind {m n : Nat} (h : m * n < 2 ^ 64) (f : Nat → Words β) : (liftM (Word.mul m n) : Words Nat) >>= f = f (m * n) := by
  rw [Word.mul_eq h, lift_some, pure_bind]

theorem sub_bind {m n : Nat} (h : n ≤ m) (f : Nat → Words β) : (liftM (Word.sub m n) : Words Nat) >>= f = f (m - n) := by
  rw [Word.sub_eq h, lift_some, pure_bind]

theorem div_bind {m n : Nat} (h : n ≠ 0) (f : Nat → Words β) : (liftM (Word.div m n) : Words Nat) >>= f = f (m / n) := by
  rw [Word.div_eq h, lift_some, pure_bind]

theorem discard_lift (x : Except LoadError α) : discard (liftM x : Words α) = liftM (discard x) := by
  cases x <;> rfl

/-- A step that computes no offset gives its result, or its error. -/
theorem run_lift (x : Except LoadError α) : ExceptT.run (liftM x : Words α) = some x := rfl

/-- Steps that agree on the results of the step before them agree after it. -/
theorem bind_congr {x : Except LoadError α} {f g : α → Words β} (h : ∀ a, x = .ok a → f a = g a) :
    (liftM x : Words α) >>= f = liftM x >>= g := by
  cases x with
  | error e => rfl
  | ok a => exact h a rfl

/-- A step for every element of a list that is a lift for each of them is a lift. -/
theorem mapM_lift {f : α → Words β} {g : α → Except LoadError β} {xs : List α} (h : ∀ x ∈ xs, f x = liftM (g x)) :
    xs.mapM f = liftM (xs.mapM g) := by
  induction xs with
  | nil => rfl
  | cons x xs ih =>
    rw [List.mapM_cons, List.mapM_cons, h x List.mem_cons_self, ih fun y hy => h y (List.mem_cons_of_mem x hy)]
    simp only [liftM_bind, liftM_pure]

/-- An operation for every element of a list that has a result for each of them has the list of them. -/
theorem mapM_some {f : α → Option β} {g : α → β} {xs : List α} (h : ∀ x ∈ xs, f x = some (g x)) :
    xs.mapM f = some (xs.map g) := by
  induction xs with
  | nil => rfl
  | cons x xs ih =>
    rw [List.mapM_cons, h x List.mem_cons_self, ih fun y hy => h y (List.mem_cons_of_mem x hy)]
    rfl

/-- The first element of a list that a test holds of is found if the test has a result for each of them. -/
theorem findM?_some {p : α → Option Bool} {q : α → Bool} {xs : List α} (h : ∀ x, p x = some (q x)) :
    xs.findM? p = some (xs.find? q) := by
  induction xs with
  | nil => rfl
  | cons x xs ih =>
    rw [List.findM?, h x, List.find?_cons, ih]
    cases q x <;> rfl

end Words

/-! ## The entries of a table -/

/-- Reads the entries from `index` up to `limit` in words; the index of the next entry is a sum. -/
def readEntriesFromInWords (entry : Nat → Words TableEntry) (limit : Nat) : (fuel index : Nat) → Option Reading
  | 0, _ => some {}
  | fuel + 1, index =>
    if index < limit then do
      match ← (entry index).run with
      | .error error => return .failed error
      | .ok e =>
        let next ← Word.add index (← Word.add 1 e.trailing)
        return .after e (← readEntriesFromInWords entry limit fuel next)
    else some {}

/-- Reads the entries of a table below `limit` in words. -/
def readEntriesInWords (entry : Nat → Words TableEntry) (limit : Nat) : Option Reading :=
  readEntriesFromInWords entry limit limit 0

section

variable {entry : Nat → Except LoadError TableEntry} {entryInWords : Nat → Words TableEntry} {limit : Nat}
  (hentry : ∀ i < limit, entryInWords i = liftM (entry i))
  (hnext : ∀ i < limit, ∀ e, entry i = .ok e → i + (1 + e.trailing) < 2 ^ 64)

include hentry hnext

/-- The induction is on the fuel. -/
theorem readEntriesFromInWords_eq (fuel index : Nat) :
    readEntriesFromInWords entryInWords limit fuel index = some (readEntriesFrom entry limit fuel index) := by
  induction fuel generalizing index with
  | zero => rfl
  | succ fuel ih =>
    unfold readEntriesFromInWords readEntriesFrom
    by_cases hi : index < limit
    · rw [if_pos hi, if_pos hi, hentry index hi, Words.run_lift]
      cases he : entry index with
      | error error => rfl
      | ok e =>
        have hsum := hnext index hi e he
        have hone : Word.add 1 e.trailing = some (1 + e.trailing) := Word.add_eq (by omega)
        have hadd : Word.add index (1 + e.trailing) = some (index + 1 + e.trailing) := by
          rw [Word.add_eq hsum, Nat.add_assoc]
        simp only [Option.bind_eq_bind, Option.bind_some, hone, hadd, ih]
        rfl
    · rw [if_neg hi, if_neg hi]

/-- The entries of a table are read in words as they are in numbers if each of them is, and no index of a next entry is too large. -/
theorem readEntriesInWords_eq : readEntriesInWords entryInWords limit = some (readEntries entry limit) :=
  readEntriesFromInWords_eq hentry hnext limit 0

end

end ExecImage
