import ExecImage.Proofs.Json.Tokens

/-!
# The texts that spell tokens

A text spells tokens if it writes them one after the other with white space before, between and after them. There are many
texts for the same tokens: they differ in the white space, and a literal may escape more characters than it must and in
more than one way. Each of them is read as the tokens, as long as no two of these are adjacent numbers
(`tokens?_of_spells`).
-/

namespace ExecImage.Json

open Scan (Reads)

namespace Token

/-- The token is a number, which has no end of its own. -/
def isNumber : Token → Bool
  | natural _ | number _ => true
  | _ => false

/-- A number that is kept as written is written as one, and not in digits alone. -/
def IsWellFormed : Token → Prop
  | number s => (∃ part, numberPart? s.toList = some part ∧ part.isComplete = true) ∧ s.toList.all Char.isDigit = false
  | _ => True

/-- The characters write a token. -/
inductive IsWritten : Token → List Char → Prop where
  /-- A literal is written part by part, each in any of its ways. -/
  | literal {pieces : List Piece} {css : List (List Char)} (h : List.Forall₂ Piece.IsWritten pieces css) :
      IsWritten (.text ((assemble pieces).map String.ofList)) ('"' :: (css.flatten ++ ['"']))
  /-- There is one way to write any other token. -/
  | other {t : Token} (htext : ∀ s, t ≠ .text s) (hw : t.IsWellFormed) : IsWritten t t.write

/-- What is written for a token is one of the ways to write it. -/
theorem isWritten_write {t : Token} (hw : t.IsWellFormed) : t.IsWritten t.write := by
  cases t with
  | text s =>
    cases s with
    | none =>
      have hdigits : List.Forall₂ (fun d value => hexValue? d = some value) ['d', '8', '0', '0'] [13, 8, 0, 0] :=
        .cons rfl (.cons rfl (.cons rfl (.cons rfl .nil)))
      exact .literal (.cons (.unit hdigits rfl) .nil)
    | some s =>
      have hpieces : ∃ pieces, List.Forall₂ Piece.IsOf pieces s.toList ∧
          List.Forall₂ Piece.IsWritten pieces (s.toList.map escape) := by
        induction s.toList with
        | nil => exact ⟨[], .nil, .nil⟩
        | cons c cs ih =>
          obtain ⟨p, hof, hwritten⟩ := exists_isWritten_escape c
          obtain ⟨ps, hofs, hwrittens⟩ := ih
          exact ⟨p :: ps, .cons hof hofs, .cons hwritten hwrittens⟩
      obtain ⟨pieces, hof, hwritten⟩ := hpieces
      have hliteral := IsWritten.literal hwritten
      rw [assemble_eq_some hof, Option.map_some, String.ofList_toList, ← List.flatMap_def] at hliteral
      exact hliteral
  | _ => exact .other nofun hw

/-- A token with an end of its own is read from what is written for it. -/
theorem IsWritten.reads {t : Token} {cs : List Char} (h : t.IsWritten cs) (hn : t.isNumber = false) :
    Reads .between cs [t] .between := by
  cases h with
  | literal h => exact reads_literal h
  | other htext _ =>
    cases t with
    | null => exact .quiet rfl (reads_word (by simp) _)
    | bool b => cases b <;> exact .quiet rfl (reads_word (by simp) _)
    | natural n => nomatch hn
    | number s => nomatch hn
    | text s => exact absurd rfl (htext s)
    | _ => exact .single rfl

/-- A number is read up to its last character. -/
theorem IsWritten.reads_number {t : Token} {cs : List Char} (h : t.IsWritten cs) (hn : t.isNumber = true) :
    ∃ part, part.isComplete = true ∧ numberToken cs = t ∧ Reads .between cs [] (.number part cs.reverse) := by
  cases h with
  | literal h => nomatch hn
  | other _ hw =>
    cases t with
    | natural n =>
      refine ⟨_, ?_, numberToken_toDigits n, Json.reads_number (numberPart?_toDigits n)⟩
      split <;> rfl
    | number s =>
      obtain ⟨⟨part, hpart, hcomplete⟩, hdigits⟩ := hw
      refine ⟨part, hcomplete, ?_, Json.reads_number hpart⟩
      simp [numberToken, write, hdigits]
    | _ => nomatch hn

/-- A token that is no number ends the number before it. -/
theorem IsWritten.endsNumber {t : Token} {cs : List Char} (h : t.IsWritten cs) (hn : t.isNumber = false) (rest : List Char) :
    EndsNumber (cs ++ rest) := by
  cases h with
  | literal h => exact endsNumber_cons (by decide) (by decide) _
  | other htext _ =>
    cases t with
    | natural n => nomatch hn
    | number s => nomatch hn
    | text s => exact absurd rfl (htext s)
    | bool b => cases b <;> exact endsNumber_cons (by decide) (by decide) _
    | _ => exact endsNumber_cons (by decide) (by decide) _

/-- A token is read, and what follows it is read as it would be alone. -/
theorem IsWritten.tokensFrom_eq {t : Token} {cs rest : List Char} (h : t.IsWritten cs)
    (hrest : t.isNumber = true → EndsNumber rest) :
    tokensFrom .between (cs ++ rest) = (tokensFrom .between rest).map (t :: ·) := by
  cases hnumber : t.isNumber with
  | false => exact (h.reads hnumber).tokensFrom_eq rest
  | true =>
    obtain ⟨part, hcomplete, htoken, hreads⟩ := h.reads_number hnumber
    rw [hreads.tokensFrom_eq, tokensFrom_number hcomplete (hrest hnumber), List.reverse_reverse, htoken, Option.map_map]
    rfl

/-- At most one of two tokens is a number, so they can be told apart when they are written next to each other. -/
def Apart (t u : Token) : Prop :=
  ¬(t.isNumber = true ∧ u.isNumber = true)

theorem isChain_cons {t : Token} {ts : List Token} (ht : t.isNumber = false) (hts : ts.IsChain Apart) :
    (t :: ts).IsChain Apart := by
  refine List.isChain_cons.2 ⟨fun u _ hnumbers => ?_, hts⟩
  rw [ht] at hnumbers
  nomatch hnumbers.1

/-- A token that is no number keeps two lists of tokens apart. -/
theorem isChain_append {ts us : List Token} {t : Token} (hts : ts.IsChain Apart) (ht : t.isNumber = false)
    (hus : us.IsChain Apart) : (ts ++ t :: us).IsChain Apart := by
  refine List.isChain_append.2 ⟨hts, isChain_cons ht hus, fun u _ t' ht' hnumbers => ?_⟩
  cases ht'
  rw [ht] at hnumbers
  nomatch hnumbers.2

end Token

/-! ## White space -/

/-- The characters separate tokens. -/
def IsBlank (cs : List Char) : Prop :=
  ∀ c ∈ cs, Scan.isSpace c = true

theorem isBlank_nil : IsBlank [] :=
  nofun

theorem isBlank_cons {c : Char} {cs : List Char} (hc : Scan.isSpace c = true) (hcs : IsBlank cs) : IsBlank (c :: cs) :=
  List.forall_mem_cons.2 ⟨hc, hcs⟩

theorem IsBlank.append {cs ds : List Char} (hcs : IsBlank cs) (hds : IsBlank ds) : IsBlank (cs ++ ds) := by
  intro c hc
  rcases List.mem_append.1 hc with hc | hc
  · exact hcs c hc
  · exact hds c hc

/-- White space completes no token. -/
theorem IsBlank.reads {cs : List Char} (h : IsBlank cs) : Reads .between cs [] .between := by
  induction cs with
  | nil => exact .refl _
  | cons c cs ih =>
    have hspace : Scan.between.step c = some ([], .between) := by
      simp only [Scan.step, Scan.start, h c List.mem_cons_self, if_true]
    exact .quiet hspace (ih fun d hd => h d (List.mem_cons_of_mem _ hd))

/-- White space ends a number. -/
theorem endsNumber_of_isSpace {c : Char} (h : Scan.isSpace c = true) (cs : List Char) : EndsNumber (c :: cs) := by
  simp only [Scan.isSpace, Bool.or_eq_true, decide_eq_true_eq] at h
  rcases h with ((rfl | rfl) | rfl) | rfl
  · exact endsNumber_cons (by decide) (by decide) _
  · exact endsNumber_cons (by decide) (by decide) _
  · exact endsNumber_cons (by decide) (by decide) _
  · exact endsNumber_cons (by decide) (by decide) _

/-! ## Texts -/

/-- The characters write tokens in order, with white space before, between and after them. -/
inductive Spells : List Char → List Token → Prop where
  | nil {blank : List Char} (hblank : IsBlank blank) : Spells blank []
  | cons {blank cs rest : List Char} {t : Token} {ts : List Token} (hblank : IsBlank blank) (ht : t.IsWritten cs)
      (hrest : Spells rest ts) : Spells (blank ++ (cs ++ rest)) (t :: ts)

namespace Spells

variable {cs ds blank : List Char} {ts us : List Token} {t : Token}

theorem blank_append (hblank : IsBlank blank) (h : Spells cs ts) : Spells (blank ++ cs) ts := by
  cases h with
  | nil h => exact .nil (hblank.append h)
  | cons h ht hrest =>
    rw [← List.append_assoc]
    exact .cons (hblank.append h) ht hrest

/-- Texts written one after the other spell the tokens of both. -/
theorem append (h : Spells cs ts) (h' : Spells ds us) : Spells (cs ++ ds) (ts ++ us) := by
  induction h with
  | nil hblank => exact h'.blank_append hblank
  | cons hblank ht _ ih =>
    rw [List.append_assoc, List.append_assoc]
    exact .cons hblank ht ih

theorem single (ht : t.IsWritten cs) : Spells cs [t] := by
  have h := Spells.cons isBlank_nil ht (.nil isBlank_nil)
  rwa [List.append_nil] at h

/-- What is written for tokens without white space spells them. -/
theorem write (hw : ∀ t ∈ ts, t.IsWellFormed) : Spells (ts.flatMap Token.write) ts := by
  induction ts with
  | nil => exact .nil isBlank_nil
  | cons t ts ih =>
    exact (single (Token.isWritten_write (hw t List.mem_cons_self))).append
      (ih fun u hu => hw u (List.mem_cons_of_mem _ hu))

/-- A text that does not start with a number ends the number before it. -/
theorem endsNumber (h : Spells cs ts) (hfirst : ∀ t, ts.head? = some t → t.isNumber = false) : EndsNumber cs := by
  cases h with
  | nil hblank =>
    cases cs with
    | nil =>
      intro c hc
      nomatch hc
    | cons c cs => exact endsNumber_of_isSpace (hblank c List.mem_cons_self) cs
  | @cons blank _ _ _ _ hblank ht _ =>
    cases blank with
    | nil => exact ht.endsNumber (hfirst _ rfl) _
    | cons c cs => exact endsNumber_of_isSpace (hblank c List.mem_cons_self) _

end Spells

/-- A text is read as the tokens that it spells, if no two of them are adjacent numbers. -/
theorem tokens?_of_spells {cs : List Char} {ts : List Token} (h : Spells cs ts) (hapart : ts.IsChain Token.Apart) :
    tokens? cs = some ts := by
  unfold tokens?
  induction h with
  | nil hblank => simpa [tokensFrom, Scan.finish] using hblank.reads.tokensFrom_eq []
  | @cons blank cs rest t ts hblank ht hrest ih =>
    have hends : t.isNumber = true → EndsNumber rest := by
      intro hnumber
      refine hrest.endsNumber fun u hu => ?_
      by_contra hother
      exact (List.isChain_cons.1 hapart).1 u hu ⟨hnumber, Bool.not_eq_false _ ▸ hother⟩
    rw [hblank.reads.tokensFrom_eq, ht.tokensFrom_eq hends, ih hapart.of_cons]
    rfl

end ExecImage.Json
