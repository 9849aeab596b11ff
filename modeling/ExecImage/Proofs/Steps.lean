import Mathlib.Data.List.Forall2

/-!
# Steps that may fail

A reader is a sequence of steps, each of which gives a result or an error, and the first error ends it. Three kinds of
statement about such a sequence follow from the same statement about its steps: which results it gives
(`bind_eq_ok_iff` and the like), which errors it can end with (`ErrorsIn`), and what a second sequence gives where the
first gives something (`Carries`).
-/

namespace Except

variable {ε α β γ δ : Type}

theorem pure_eq_ok (a : α) : (pure a : Except ε α) = .ok a := rfl

theorem throw_eq_error (e : ε) : (throw e : Except ε α) = .error e := rfl

/-! ## Results -/

/-- A sequence of two steps gives a result exactly when both do. -/
theorem bind_eq_ok_iff {x : Except ε α} {f : α → Except ε β} {b : β} :
    (x >>= f) = .ok b ↔ ∃ a, x = .ok a ∧ f a = .ok b := by
  cases x <;> simp [bind, Except.bind]

/-- A sequence of two steps ends with an error exactly when the first does, or the first gives a result and the second does. -/
theorem bind_eq_error_iff {x : Except ε α} {f : α → Except ε β} {e : ε} :
    (x >>= f) = .error e ↔ x = .error e ∨ ∃ a, x = .ok a ∧ f a = .error e := by
  cases x <;> simp [bind, Except.bind]

theorem map_eq_ok_iff {x : Except ε α} {f : α → β} {b : β} : x.map f = .ok b ↔ ∃ a, x = .ok a ∧ f a = b := by
  cases x <;> simp [Except.map]

theorem map_eq_error_iff {x : Except ε α} {f : α → β} {e : ε} : x.map f = .error e ↔ x = .error e := by
  cases x <;> simp [Except.map]

/-- A step whose result is not used succeeds when it has a result. -/
theorem discard_eq_ok_iff {x : Except ε α} {u : PUnit} : discard x = .ok u ↔ ∃ a, x = .ok a := by
  cases x <;> simp [discard, Functor.mapConst, Except.map]

/-- What is computed of a result shows that there is one. -/
theorem exists_of_toOption_map {x : Except ε α} {f : α → β} {b : β} (h : x.toOption.map f = some b) :
    ∃ a, x = .ok a ∧ f a = b := by
  cases x with
  | error e => nomatch h
  | ok a => exact ⟨a, rfl, Option.some.inj h⟩

/-- A step that gives a result for every element of a list gives all of them. -/
theorem mapM_eq_ok_map {f : α → Except ε β} {g : α → β} {xs : List α} (h : ∀ x ∈ xs, f x = .ok (g x)) :
    xs.mapM f = .ok (xs.map g) := by
  induction xs with
  | nil => rfl
  | cons x xs ih =>
    rw [List.mapM_cons, h x (by simp), ih fun y hy => h y (by simp [hy])]
    rfl

/-- A step for every element of a list gives the results in the order of the elements. -/
theorem mapM_eq_ok_iff {f : α → Except ε β} {xs : List α} {ys : List β} :
    xs.mapM f = .ok ys ↔ List.Forall₂ (fun x y => f x = .ok y) xs ys := by
  induction xs generalizing ys with
  | nil => simp [pure_eq_ok, eq_comm]
  | cons x xs ih =>
    simp only [List.mapM_cons, bind_eq_ok_iff, pure_eq_ok, Except.ok.injEq, List.forall₂_cons_left_iff, ih]
    constructor
    · rintro ⟨y, hy, zs, hzs, rfl⟩
      exact ⟨y, zs, hy, hzs, rfl⟩
    · rintro ⟨y, zs, hy, hzs, rfl⟩
      exact ⟨y, hy, zs, hzs, rfl⟩

/-- A step that keeps some of the elements of a list gives what it keeps, in the order of the elements. -/
theorem mapM_filterMap_eq_ok_iff {f : α → Except ε (Option β)} {xs : List α} {ys : List β} :
    (xs.mapM f).map (fun os => os.filterMap id) = .ok ys ↔
      ∃ os, List.Forall₂ (fun x o => f x = .ok o) xs os ∧ ys = os.filterMap id := by
  simp only [map_eq_ok_iff, mapM_eq_ok_iff, eq_comm (b := ys)]

/-- What is kept of the first element stands before what is kept of the others. -/
theorem mapM_filterMap_cons (f : α → Except ε (Option β)) (x : α) (xs : List α) :
    ((x :: xs).mapM f).map (fun os => os.filterMap id) =
      f x >>= fun o => ((xs.mapM f).map fun os => os.filterMap id).map (o.toList ++ ·) := by
  rw [List.mapM_cons]
  cases f x with
  | error e => rfl
  | ok o =>
    cases xs.mapM f with
    | error e => rfl
    | ok os => cases o <;> rfl

/-- Elements of which nothing is kept can be left out. -/
theorem mapM_filterMap_filter {f : α → Except ε (Option β)} {p : α → Bool} (h : ∀ x, f x = .ok none ↔ p x = false)
    (xs : List α) :
    (xs.mapM f).map (fun os => os.filterMap id) = ((xs.filter p).mapM f).map fun os => os.filterMap id := by
  induction xs with
  | nil => rfl
  | cons x xs ih =>
    rw [mapM_filterMap_cons, ih]
    cases hp : p x with
    | false =>
      rw [List.filter_cons_of_neg (by simp [hp]), (h x).2 hp]
      cases ((xs.filter p).mapM f).map fun os => os.filterMap id <;> rfl
    | true => rw [List.filter_cons_of_pos hp, mapM_filterMap_cons]

/-- If something is kept of some elements only, each of these gives what is kept of it. -/
theorem mapM_filterMap_eq_ok_iff_filter {f : α → Except ε (Option β)} {p : α → Bool}
    (h : ∀ x, f x = .ok none ↔ p x = false) {xs : List α} {ys : List β} :
    (xs.mapM f).map (fun os => os.filterMap id) = .ok ys ↔
      List.Forall₂ (fun x y => f x = .ok (some y)) (xs.filter p) ys := by
  have hkept : ∀ x ∈ xs.filter p, p x = true := fun x hx => (List.mem_filter.1 hx).2
  rw [mapM_filterMap_filter h]
  generalize xs.filter p = zs at hkept
  induction zs generalizing ys with
  | nil => simp [pure_eq_ok, Except.map, eq_comm]
  | cons z zs ih =>
    have hz : f z ≠ .ok none := by
      rw [Ne, h, hkept z List.mem_cons_self]
      nofun
    have hzs (ys : List β) := @ih ys fun x hx => hkept x (List.mem_cons_of_mem _ hx)
    simp only [mapM_filterMap_cons, bind_eq_ok_iff, map_eq_ok_iff (f := (_ ++ ·)), hzs, List.forall₂_cons_left_iff]
    constructor
    · rintro ⟨o, ho, ys', hys', rfl⟩
      cases o with
      | none => exact absurd ho hz
      | some y => exact ⟨y, ys', ho, hys', rfl⟩
    · rintro ⟨y, ys', hy, hys', rfl⟩
      exact ⟨some y, hy, ys', hys', rfl⟩

/-- Every result that is kept comes from an element. -/
theorem exists_of_mem_mapM_filterMap {f : α → Except ε (Option β)} {xs : List α} {ys : List β}
    (h : (xs.mapM f).map (fun os => os.filterMap id) = .ok ys) {y : β} (hy : y ∈ ys) : ∃ x ∈ xs, f x = .ok (some y) := by
  obtain ⟨os, hos, rfl⟩ := mapM_filterMap_eq_ok_iff.1 h
  obtain ⟨o, ho, rfl⟩ := List.mem_filterMap.1 hy
  clear h hy
  induction hos with
  | nil => nomatch ho
  | @cons x o' _ _ hx _ ih =>
    rcases List.mem_cons.1 ho with rfl | ho
    · exact ⟨x, by simp, hx⟩
    · obtain ⟨x', hx', hf⟩ := ih ho
      exact ⟨x', by simp [hx'], hf⟩

/-- A step for every element of a list ends with the error of the first element whose step fails. -/
theorem mapM_eq_error_iff {f : α → Except ε β} {fails : α → Bool} (h : ∀ x, fails x = true ↔ ∃ e, f x = .error e)
    {xs : List α} {e : ε} : xs.mapM f = .error e ↔ ∃ x, xs.find? fails = some x ∧ f x = .error e := by
  induction xs with
  | nil => simp [pure_eq_ok]
  | cons x xs ih =>
    rw [List.mapM_cons, bind_eq_error_iff]
    cases hx : f x with
    | error e' =>
      rw [List.find?_cons_of_pos ((h x).2 ⟨e', hx⟩)]
      simp [hx]
    | ok y =>
      have hpasses : ¬fails x = true := by simp [h x, hx]
      rw [List.find?_cons_of_neg hpasses, ← ih]
      simp [bind_eq_error_iff, pure_eq_ok]

/-- Sequences are the same if their second steps agree on the result of the first. -/
theorem bind_congr_ok {x : Except ε α} {f g : α → Except ε β} (h : ∀ a, x = .ok a → f a = g a) : (x >>= f) = (x >>= g) := by
  cases x with
  | error e => rfl
  | ok a => exact h a rfl

theorem map_bind {x : Except ε α} {f : α → Except ε β} {g : β → γ} : (x >>= f).map g = x >>= fun a => (f a).map g := by
  cases x <;> rfl

/-- Steps that agree on the elements of a list give the same results or the same error. -/
theorem mapM_congr {f g : α → Except ε β} {xs : List α} (h : ∀ x ∈ xs, f x = g x) : xs.mapM f = xs.mapM g := by
  induction xs with
  | nil => rfl
  | cons x xs ih =>
    rw [List.mapM_cons, List.mapM_cons, h x (by simp), ih fun y hy => h y (by simp [hy])]

/-- A step that follows a check fails if the check or the step does. -/
theorem exists_error_iff {x : Except ε α} {p : Prop} {e₀ : ε} :
    (∃ e, ¬p ∧ e = e₀ ∨ p ∧ x = .error e) ↔ ¬(p ∧ ∃ a, x = .ok a) := by
  by_cases hp : p
  · cases x <;> simp [hp]
  · simp [hp]

/-! ## Errors -/

/-- Every error of a step satisfies `P`. -/
def ErrorsIn (P : ε → Prop) (x : Except ε α) : Prop :=
  ∀ e, x = .error e → P e

namespace ErrorsIn

variable {P : ε → Prop}

theorem ok (a : α) : ErrorsIn P (.ok a : Except ε α) := by
  intro e h
  nomatch h

theorem error {e : ε} (h : P e) : ErrorsIn P (.error e : Except ε α) := by
  intro e' he
  cases he
  exact h

theorem imp {Q : ε → Prop} {x : Except ε α} (hx : ErrorsIn P x) (h : ∀ e, P e → Q e) : ErrorsIn Q x :=
  fun e he => h e (hx e he)

theorem bind {x : Except ε α} {f : α → Except ε β} (hx : ErrorsIn P x) (hf : ∀ a, x = .ok a → ErrorsIn P (f a)) :
    ErrorsIn P (x >>= f) := by
  cases x with
  | error e => exact error (hx e rfl)
  | ok a => exact hf a rfl

theorem map {x : Except ε α} {f : α → β} (hx : ErrorsIn P x) : ErrorsIn P (x.map f) := by
  cases x with
  | error e => exact error (hx e rfl)
  | ok a => exact ok (f a)

theorem discard {x : Except ε α} (hx : ErrorsIn P x) : ErrorsIn P (discard x) := by
  cases x with
  | error e => exact error (hx e rfl)
  | ok a => exact ok PUnit.unit

theorem mapM {f : α → Except ε β} {xs : List α} (hf : ∀ x ∈ xs, ErrorsIn P (f x)) : ErrorsIn P (xs.mapM f) := by
  induction xs with
  | nil => exact ok []
  | cons x xs ih =>
    rw [List.mapM_cons]
    refine (hf x (by simp)).bind fun y _ => ?_
    exact (ih fun z hz => hf z (by simp [hz])).bind fun ys _ => ok (y :: ys)

/-- Steps for the elements of a list end with errors of a kind if each of them does where a step for the related element of a
second list gives a result. -/
theorem mapM_of_ok {R : α → β → Prop} {f : α → Except ε γ} {g : β → Except ε δ} {xs : List α} {ys : List β} {zs : List δ}
    (h : List.Forall₂ R xs ys) (hys : ys.mapM g = .ok zs) (hf : ∀ x y z, R x y → g y = .ok z → ErrorsIn P (f x)) :
    ErrorsIn P (xs.mapM f) := by
  induction h generalizing zs with
  | nil => exact ok []
  | @cons x y xs ys hxy _ ih =>
    rw [List.mapM_cons] at hys ⊢
    obtain ⟨z, hz, hys⟩ := bind_eq_ok_iff.1 hys
    obtain ⟨zs, hzs, -⟩ := bind_eq_ok_iff.1 hys
    refine (hf x y z hxy hz).bind fun c _ => ?_
    exact (ih hzs).bind fun cs _ => ok (c :: cs)

end ErrorsIn

/-- A sequence of two steps ends with an error that the second cannot end with exactly when the first does. -/
theorem bind_eq_error_iff_of_errorsIn {P : ε → Prop} {x : Except ε α} {f : α → Except ε β} {e : ε} (he : ¬P e)
    (hf : ∀ a, x = .ok a → ErrorsIn P (f a)) : (x >>= f) = .error e ↔ x = .error e := by
  rw [bind_eq_error_iff]
  constructor
  · rintro (h | ⟨a, ha, h⟩)
    · exact h
    · exact absurd (hf a ha e h) he
  · exact .inl

/-! ## Two runs -/

/-- Where `x` gives a result, `y` gives one that `R` relates to it. -/
def Carries (R : α → β → Prop) (x : Except ε α) (y : Except ε β) : Prop :=
  ∀ a, x = .ok a → ∃ b, y = .ok b ∧ R a b

namespace Carries

variable {R : α → β → Prop} {S : γ → δ → Prop}

theorem ok {a : α} {b : β} (h : R a b) : Carries R (.ok a : Except ε α) (.ok b) := by
  rintro a' ⟨⟩
  exact ⟨b, rfl, h⟩

theorem error (e : ε) (y : Except ε β) : Carries R (.error e) y := by
  intro a h
  nomatch h

theorem refl (x : Except ε α) : Carries Eq x x := by
  intro a ha
  exact ⟨a, ha, rfl⟩

theorem imp {R' : α → β → Prop} {x : Except ε α} {y : Except ε β} (h : Carries R x y) (hR : ∀ a b, R a b → R' a b) :
    Carries R' x y := by
  intro a ha
  obtain ⟨b, hb, hab⟩ := h a ha
  exact ⟨b, hb, hR a b hab⟩

theorem bind {x : Except ε α} {y : Except ε β} {f : α → Except ε γ} {g : β → Except ε δ} (h : Carries R x y)
    (hf : ∀ a b, R a b → Carries S (f a) (g b)) : Carries S (x >>= f) (y >>= g) := by
  intro c hc
  obtain ⟨a, ha, hc⟩ := bind_eq_ok_iff.1 hc
  obtain ⟨b, hb, hab⟩ := h a ha
  obtain ⟨d, hd, hcd⟩ := hf a b hab c hc
  exact ⟨d, bind_eq_ok_iff.2 ⟨b, hb, hd⟩, hcd⟩

theorem map {x : Except ε α} {y : Except ε β} {f : α → γ} {g : β → δ} (h : Carries R x y)
    (hf : ∀ a b, R a b → S (f a) (g b)) : Carries S (x.map f) (y.map g) := by
  intro c hc
  obtain ⟨a, ha, rfl⟩ := map_eq_ok_iff.1 hc
  obtain ⟨b, hb, hab⟩ := h a ha
  exact ⟨g b, map_eq_ok_iff.2 ⟨b, hb, rfl⟩, hf a b hab⟩

theorem discard {x : Except ε α} {y : Except ε β} (h : Carries R x y) :
    Carries Eq (discard x) (discard y) := by
  intro u hu
  obtain ⟨a, ha⟩ := discard_eq_ok_iff.1 hu
  obtain ⟨b, hb, -⟩ := h a ha
  exact ⟨u, discard_eq_ok_iff.2 ⟨b, hb⟩, rfl⟩

theorem mapM {f : α → Except ε γ} {g : β → Except ε δ} {xs : List α} {ys : List β} (h : List.Forall₂ R xs ys)
    (hf : ∀ a b, R a b → Carries S (f a) (g b)) : Carries (List.Forall₂ S) (xs.mapM f) (ys.mapM g) := by
  induction h with
  | nil => exact ok .nil
  | cons hab _ ih =>
    rw [List.mapM_cons, List.mapM_cons]
    refine (hf _ _ hab).bind fun c d hcd => ?_
    exact ih.bind fun cs ds hcds => ok (.cons hcd hcds)

end Carries

/-- A second run that carries every result over unchanged gives the same result. -/
theorem carries_eq_iff {x y : Except ε α} : Carries Eq x y ↔ ∀ a, x = .ok a → y = .ok a := by
  simp [Carries]

theorem Carries.mapM_eq {f g : α → Except ε β} (h : ∀ x, Carries Eq (f x) (g x)) (xs : List α) :
    Carries Eq (xs.mapM f) (xs.mapM g) := by
  rw [carries_eq_iff]
  intro ys hys
  exact mapM_eq_ok_iff.2 ((mapM_eq_ok_iff.1 hys).imp fun x y hxy => carries_eq_iff.1 (h x) y hxy)

end Except
