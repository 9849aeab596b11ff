import Mathlib.Data.List.Forall2

/-!
# Lists that are related element by element, and lists whose elements share nothing
-/

namespace List.Forall₂

variable {α β : Type} {R : α → β → Prop} {xs : List α} {ys : List β} {i : Nat}

/-- An element of the first list is related to the element of the second at its index. -/
theorem getElem?_left (h : Forall₂ R xs ys) {x : α} (hx : xs[i]? = some x) : ∃ y, ys[i]? = some y ∧ R x y := by
  induction h generalizing i with
  | nil => nomatch hx
  | @cons x' y' _ _ hxy _ ih =>
    cases i with
    | zero =>
      cases hx
      exact ⟨y', rfl, hxy⟩
    | succ i => exact ih hx

/-- An element of the second list is related to the element of the first at its index. -/
theorem getElem?_right (h : Forall₂ R xs ys) {y : β} (hy : ys[i]? = some y) : ∃ x, xs[i]? = some x ∧ R x y :=
  getElem?_left h.flip hy

/-- A list has a related one if each of its elements has a related element. -/
theorem exists_iff : (∃ ys, Forall₂ R xs ys) ↔ ∀ x ∈ xs, ∃ y, R x y := by
  induction xs with
  | nil => simp
  | cons x xs ih =>
    simp only [forall₂_cons_left_iff, mem_cons, forall_eq_or_imp, ← ih]
    constructor
    · rintro ⟨_, y, ys, hy, hys, rfl⟩
      exact ⟨⟨y, hy⟩, ys, hys⟩
    · rintro ⟨⟨y, hy⟩, ys, hys⟩
      exact ⟨_, y, ys, hy, hys, rfl⟩

/-- Related elements are elements of the lists. -/
theorem and_mem (h : Forall₂ R xs ys) : Forall₂ (fun x y => x ∈ xs ∧ y ∈ ys ∧ R x y) xs ys := by
  rw [forall₂_iff_zip] at h ⊢
  refine ⟨h.1, fun {x y} hxy => ?_⟩
  obtain ⟨hx, hy⟩ := List.of_mem_zip hxy
  exact ⟨hx, hy, h.2 hxy⟩

/-- What is kept of an element stands after what is kept of the elements before it. -/
theorem getElem?_filterMap {R : α → Option β → Prop} {os : List (Option β)} {p : α → Bool} (h : Forall₂ R xs os)
    (hp : ∀ x o, R x o → o.isSome = p x) {x : α} (hx : xs[i]? = some x) (hpx : p x = true) :
    ∃ y, R x (some y) ∧ (os.filterMap id)[(xs.take i).countP p]? = some y := by
  induction h generalizing i with
  | nil => nomatch hx
  | @cons x' o' xs' os' hxo _ ih =>
    have hkept := hp x' o' hxo
    cases i with
    | zero =>
      cases hx
      obtain ⟨y, rfl⟩ := Option.isSome_iff_exists.1 (hkept.trans hpx)
      exact ⟨y, hxo, rfl⟩
    | succ i =>
      obtain ⟨y, hy, hget⟩ := ih hx
      refine ⟨y, hy, ?_⟩
      rw [List.take_succ_cons]
      cases o' with
      | none =>
        have hdropped : ¬p x' = true := by simp [← hkept]
        rw [List.countP_cons_of_neg hdropped]
        exact hget
      | some y' =>
        rw [List.countP_cons_of_pos hkept.symm]
        exact hget

end List.Forall₂

namespace ExecImage

variable {α β : Type} {P : α → β → Prop} {xs ys : List α} {x y : α} {b : β} {i j : Nat}

/-- Nothing belongs to two elements of a list. -/
def Apart (P : α → β → Prop) (xs : List α) : Prop :=
  xs.Pairwise fun x y => ∀ b, ¬(P x b ∧ P y b)

namespace Apart

/-- The places of elements to which the same belongs are one. -/
theorem index_eq (h : Apart P xs) (hx : xs[i]? = some x) (hy : xs[j]? = some y) (hxb : P x b) (hyb : P y b) : i = j := by
  obtain ⟨hi, rfl⟩ := List.getElem?_eq_some_iff.1 hx
  obtain ⟨hj, rfl⟩ := List.getElem?_eq_some_iff.1 hy
  have hapart := List.pairwise_iff_getElem.1 h
  rcases Nat.lt_trichotomy i j with hij | hij | hij
  · exact absurd ⟨hxb, hyb⟩ (hapart i j hi hj hij b)
  · exact hij
  · exact absurd ⟨hyb, hxb⟩ (hapart j i hj hi hij b)

/-- Elements to which the same belongs are one. -/
theorem eq (h : Apart P xs) (hx : x ∈ xs) (hy : y ∈ xs) (hxb : P x b) (hyb : P y b) : x = y := by
  obtain ⟨i, hi⟩ := List.getElem?_of_mem hx
  obtain ⟨j, hj⟩ := List.getElem?_of_mem hy
  cases h.index_eq hi hj hxb hyb
  exact Option.some.inj (hi.symm.trans hj)

/-- The order of the list does not matter. -/
theorem perm (h : Apart P xs) (hp : ys.Perm xs) : Apart P ys :=
  (hp.pairwise_iff fun hnot b hboth => hnot b hboth.symm).2 h

variable [∀ b, DecidablePred fun x => P x b]

/-- The first element to which something belongs is the only one. -/
theorem find?_eq_some_iff (h : Apart P xs) : xs.find? (fun x => P x b) = some x ↔ x ∈ xs ∧ P x b := by
  constructor
  · intro hfind
    exact ⟨List.mem_of_find?_eq_some hfind, by simpa using List.find?_some hfind⟩
  · rintro ⟨hx, hxb⟩
    cases hfind : xs.find? fun x => P x b with
    | none =>
      have hnone := List.find?_eq_none.1 hfind x hx
      exact absurd (decide_eq_true hxb) hnone
    | some y =>
      have hyb : P y b := by simpa using List.find?_some hfind
      rw [h.eq hx (List.mem_of_find?_eq_some hfind) hxb hyb]

/-- The element is found in every order of the list. -/
theorem find?_perm (h : Apart P xs) (hp : ys.Perm xs) (b : β) : ys.find? (fun x => P x b) = xs.find? fun x => P x b := by
  ext x
  rw [(h.perm hp).find?_eq_some_iff, h.find?_eq_some_iff, hp.mem_iff]

end Apart

end ExecImage
