import ExecImage.Json.Token
import Mathlib.Data.List.Chain
import Mathlib.Data.List.Forall2

/-!
# Runs of the reader of tokens

`Scan.Reads` states what a run of the reader of tokens over some characters does: the tokens that it completes and the state
that it ends in. The letters of a word and the parts of a literal complete their token (`reads_word`, `reads_literal`),
whichever way the parts are written (`Piece.IsWritten`). A number has no end mark: its run ends inside the number
(`reads_number`), which the next character must not continue (`tokensFrom_number`).
-/

namespace ExecImage.Json

/-! ## Runs of the reader -/

/-- Reading characters takes the reader from one state to another and completes tokens. -/
inductive Scan.Reads : Scan → List Char → List Token → Scan → Prop where
  | refl (s : Scan) : Reads s [] [] s
  | step {s s' s'' : Scan} {c : Char} {cs : List Char} {out outs : List Token} (h : s.step c = some (out, s'))
      (rest : Reads s' cs outs s'') : Reads s (c :: cs) (out ++ outs) s''

namespace Scan.Reads

variable {s s' s'' : Scan} {c : Char} {cs cs' : List Char} {out outs outs' : List Token}

/-- A character that completes no token. -/
theorem quiet (h : s.step c = some ([], s')) (rest : Reads s' cs outs s'') : Reads s (c :: cs) outs s'' :=
  .step h rest

theorem single (h : s.step c = some (out, s')) : Reads s [c] out s' := by
  have hread := Reads.step h (.refl s')
  rwa [List.append_nil] at hread

theorem trans (h : Reads s cs outs s') (h' : Reads s' cs' outs' s'') : Reads s (cs ++ cs') (outs ++ outs') s'' := by
  induction h with
  | refl _ => exact h'
  | step hc _ ih =>
    rw [List.append_assoc]
    exact .step hc (ih h')

/-- What is read of a document stands before what is read of the rest of it. -/
theorem tokensFrom_eq (h : Reads s cs outs s') (rest : List Char) :
    tokensFrom s (cs ++ rest) = (tokensFrom s' rest).map (outs ++ ·) := by
  induction h with
  | refl s => simp
  | step hc _ ih =>
    rw [List.cons_append, tokensFrom, hc]
    dsimp only
    rw [ih, Option.map_map]
    congr 1
    funext ts
    exact (List.append_assoc _ _ _).symm

end Scan.Reads

open Scan (Reads)

/-! ## Words -/

/-- The letters that a word owes complete it. -/
theorem reads_word {owed : List Char} (h : owed ≠ []) (token : Token) : Reads (.word owed token) owed [token] .between := by
  induction owed with
  | nil => exact absurd rfl h
  | cons c cs ih =>
    cases cs with
    | nil => exact .single (if_pos rfl)
    | cons d ds => exact .quiet (if_pos rfl) (ih (by simp))

/-! ## String literals -/

/-- The part of a literal stands for the character: it is the character, or the unit of a control character. -/
def Piece.IsOf (p : Piece) (c : Char) : Prop :=
  p = .char c ∨ p = .unit c.toNat ∧ c.toNat < 0x20

/-- A unit of no pair is a character. -/
theorem assemble_unit {n : Nat} (hl : isLeading n = false) (ht : isTrailing n = false) (ps : List Piece) :
    assemble (.unit n :: ps) = (assemble ps).map (Char.ofNat n :: ·) := by
  cases ps with
  | nil => simp [assemble, hl, ht]
  | cons p ps => cases p <;> simp [assemble, hl, ht]

/-- Parts that stand for characters hold the text of these. -/
theorem assemble_eq_some {ps : List Piece} {cs : List Char} (h : List.Forall₂ Piece.IsOf ps cs) : assemble ps = some cs := by
  induction h with
  | nil => rfl
  | @cons p c ps cs hp _ ih =>
    rcases hp with rfl | ⟨rfl, hc⟩
    · rw [assemble, ih]
      rfl
    · have hl : isLeading c.toNat = false := by
        unfold isLeading
        simp only [Bool.and_eq_false_iff, decide_eq_false_iff_not]
        omega
      have ht : isTrailing c.toNat = false := by
        unfold isTrailing
        simp only [Bool.and_eq_false_iff, decide_eq_false_iff_not]
        omega
      rw [assemble_unit hl ht, ih, Char.ofNat_toNat]
      rfl

theorem hexValue?_digitChar : ∀ d < 16, hexValue? (Nat.digitChar d) = some d := by
  decide

/-- The characters write a part of a literal. -/
inductive Piece.IsWritten : Piece → List Char → Prop where
  /-- A character is written as itself, if it is no quote, no backslash and no control character. -/
  | plain {c : Char} (hquote : c ≠ '"') (hbackslash : c ≠ '\\') (hcontrol : 0x20 ≤ c.toNat) : IsWritten (.char c) [c]
  /-- A character is written by a short escape. -/
  | short {c d : Char} (h : shortEscape? d = some c) : IsWritten (.char c) ['\\', d]
  /-- A unit is written in four hexadecimal digits. -/
  | unit {ds : List Char} {values : List Nat} (h : List.Forall₂ (fun d value => hexValue? d = some value) ds values)
      (hlength : ds.length = 4) : IsWritten (.unit (values.foldl (fun n value => n * 16 + value) 0)) ('\\' :: 'u' :: ds)

/-- The digits that an escape owes complete its unit. -/
theorem reads_digits {ds : List Char} {values : List Nat}
    (h : List.Forall₂ (fun d value => hexValue? d = some value) ds values) (hne : ds ≠ []) (value : Nat) (ps : List Piece) :
    Reads (.digits ds.length value ps) ds [] (.literal (.unit (values.foldl (fun n value => n * 16 + value) value) :: ps)) := by
  induction h generalizing value with
  | nil => exact absurd rfl hne
  | @cons d n ds values hd hds ih =>
    cases hds with
    | nil =>
      have hlast : (Scan.digits 1 value ps).step d = some ([], .literal (.unit (value * 16 + n) :: ps)) := by
        simp [Scan.step, hd]
      exact .single hlast
    | @cons d' n' ds values hd' hds =>
      have hmore : (Scan.digits (d :: d' :: ds).length value ps).step d =
          some ([], .digits (d' :: ds).length (value * 16 + n) ps) := by
        simp [Scan.step, hd]
      exact .quiet hmore (ih (by simp) _)

/-- A part of a literal is read from what is written for it. -/
theorem Piece.IsWritten.reads {p : Piece} {cs : List Char} (h : p.IsWritten cs) (ps : List Piece) :
    Reads (.literal ps) cs [] (.literal (p :: ps)) := by
  have hopen : (Scan.literal ps).step '\\' = some ([], .escaped ps) := rfl
  cases h with
  | @plain c hquote hbackslash hcontrol =>
    have hplain : (Scan.literal ps).step c = some ([], .literal (.char c :: ps)) := by
      simp [Scan.step, Scan.inLiteral, hquote, hbackslash, Nat.not_lt.2 hcontrol]
    exact .single hplain
  | @short c d hd =>
    have hu : d ≠ 'u' := by
      rintro rfl
      nomatch hd
    have hescape : (Scan.escaped ps).step d = some ([], .literal (.char c :: ps)) := by
      simp [Scan.step, hu, hd]
    exact .quiet hopen (.single hescape)
  | @unit ds values hdigits hlength =>
    have hescape : (Scan.escaped ps).step 'u' = some ([], .digits ds.length 0 ps) := by
      rw [hlength]
      rfl
    exact .quiet hopen (.quiet hescape (reads_digits hdigits (by rintro rfl; nomatch hlength) 0 ps))

/-- The parts of a literal are read from what is written for them. -/
theorem reads_pieces {pieces : List Piece} {css : List (List Char)} (h : List.Forall₂ Piece.IsWritten pieces css)
    (ps : List Piece) : Reads (.literal ps) css.flatten [] (.literal (pieces.reverse ++ ps)) := by
  induction h generalizing ps with
  | nil => exact .refl _
  | @cons p cs pieces css hp _ ih =>
    rw [List.flatten_cons, List.reverse_cons, List.append_assoc]
    exact (hp.reads ps).trans (ih (p :: ps))

/-- A literal is read as the text that its parts hold. -/
theorem reads_literal {pieces : List Piece} {css : List (List Char)} (h : List.Forall₂ Piece.IsWritten pieces css) :
    Reads .between ('"' :: (css.flatten ++ ['"'])) [.text ((assemble pieces).map String.ofList)] .between := by
  have hopen : Scan.between.step '"' = some ([], .literal []) := rfl
  have hclose : (Scan.literal (pieces.reverse ++ [])).step '"' =
      some ([.text ((assemble pieces).map String.ofList)], .between) := by
    simp [Scan.step, Scan.inLiteral]
  exact .quiet hopen ((reads_pieces h []).trans (.single hclose))

/-- What is written for a character is a way to write a part that stands for it. -/
theorem exists_isWritten_escape (c : Char) : ∃ p : Piece, p.IsOf c ∧ p.IsWritten (escape c) := by
  have short {d : Char} (hd : shortEscape? d = some c) : ∃ p : Piece, p.IsOf c ∧ p.IsWritten ['\\', d] :=
    ⟨.char c, .inl rfl, .short hd⟩
  unfold escape
  split_ifs with hquote hbackslash hb hf hn hr ht hcontrol
  · exact short (by rw [hquote]; rfl)
  · exact short (by rw [hbackslash]; rfl)
  · exact short (by rw [hb]; rfl)
  · exact short (by rw [hf]; rfl)
  · exact short (by rw [hn]; rfl)
  · exact short (by rw [hr]; rfl)
  · exact short (by rw [ht]; rfl)
  · have hbyte : (UInt8.ofNat c.toNat).toNat = c.toNat := UInt8.toNat_ofNat_of_lt' (Nat.lt_trans hcontrol (by decide))
    have hhigh : hexValue? (Nat.digitChar (c.toNat / 16)) = some (c.toNat / 16) := hexValue?_digitChar _ (by omega)
    have hlow : hexValue? (Nat.digitChar (c.toNat % 16)) = some (c.toNat % 16) := hexValue?_digitChar _ (by omega)
    have hdigits : List.Forall₂ (fun d value => hexValue? d = some value) (['0', '0'] ++ Text.hexByte (UInt8.ofNat c.toNat))
        [0, 0, c.toNat / 16, c.toNat % 16] := by
      unfold Text.hexByte
      rw [hbyte]
      exact .cons rfl (.cons rfl (.cons hhigh (.cons hlow .nil)))
    have hvalue : [0, 0, c.toNat / 16, c.toNat % 16].foldl (fun n value => n * 16 + value) 0 = c.toNat := by
      simp only [List.foldl_cons, List.foldl_nil]
      omega
    have hwritten := Piece.IsWritten.unit hdigits rfl
    rw [hvalue] at hwritten
    exact ⟨.unit c.toNat, .inr ⟨rfl, hcontrol⟩, hwritten⟩
  · exact ⟨.char c, .inl rfl, .plain hquote hbackslash (Nat.not_lt.1 hcontrol)⟩

/-! ## Numbers -/

/-- How far a number has been read after more characters, if they continue it. -/
def NumberPart.run? (part : NumberPart) : List Char → Option NumberPart
  | [] => some part
  | c :: cs => (part.next? c).bind fun next => next.run? cs

theorem NumberPart.run?_append (part : NumberPart) (cs ds : List Char) :
    part.run? (cs ++ ds) = (part.run? cs).bind fun next => next.run? ds := by
  induction cs generalizing part with
  | nil => rfl
  | cons c cs ih =>
    rw [List.cons_append, NumberPart.run?, NumberPart.run?, Option.bind_assoc]
    congr 1
    funext next
    exact ih next

/-- How far a number has been read after its first characters, if they start one. -/
def numberPart? : List Char → Option NumberPart
  | [] => none
  | c :: cs =>
    if c.isDigit then (if c = '0' then NumberPart.zero else .integer).run? cs
    else if c = '-' then NumberPart.sign.run? cs
    else none

theorem numberPart?_append {cs : List Char} (h : cs ≠ []) (ds : List Char) :
    numberPart? (cs ++ ds) = (numberPart? cs).bind fun next => next.run? ds := by
  cases cs with
  | nil => exact absurd rfl h
  | cons c cs =>
    rw [List.cons_append, numberPart?, numberPart?]
    split
    · exact NumberPart.run?_append _ _ _
    split
    · exact NumberPart.run?_append _ _ _
    · rfl

/-- Characters that continue a number are read as part of it. -/
theorem reads_run {part part' : NumberPart} {cs : List Char} (h : part.run? cs = some part') (written : List Char) :
    Reads (.number part written) cs [] (.number part' (cs.reverse ++ written)) := by
  induction cs generalizing part written with
  | nil =>
    cases h
    exact .refl _
  | cons c cs ih =>
    obtain ⟨next, hnext, h⟩ := Option.bind_eq_some_iff.1 h
    have hstep : (Scan.number part written).step c = some ([], .number next (c :: written)) := by
      simp only [Scan.step, hnext]
    rw [List.reverse_cons, List.append_assoc]
    exact .quiet hstep (ih h (c :: written))

theorem isSpace_eq_false_of_isDigit {c : Char} (h : c.isDigit = true) : Scan.isSpace c = false := by
  by_contra hspace
  rw [Bool.not_eq_false] at hspace
  simp only [Scan.isSpace, Bool.or_eq_true, decide_eq_true_eq] at hspace
  rcases hspace with ((rfl | rfl) | rfl) | rfl
  · nomatch h
  · nomatch h
  · nomatch h
  · nomatch h

/-- Characters that start a number are read as one. -/
theorem reads_number {part : NumberPart} {cs : List Char} (h : numberPart? cs = some part) :
    Reads .between cs [] (.number part cs.reverse) := by
  cases cs with
  | nil => nomatch h
  | cons c cs =>
    rw [numberPart?] at h
    rw [List.reverse_cons]
    split at h
    · rename_i hdigit
      have hstart : Scan.between.step c = some ([], .number (if c = '0' then .zero else .integer) [c]) := by
        simp only [Scan.step, Scan.start, isSpace_eq_false_of_isDigit hdigit, hdigit, Bool.false_eq_true, if_false, if_true]
      exact .quiet hstart (reads_run h [c])
    split at h
    · rename_i hsign
      subst hsign
      have hstart : Scan.between.step '-' = some ([], .number .sign ['-']) := rfl
      exact .quiet hstart (reads_run h ['-'])
    · nomatch h

/-- The text does not start with a character that could continue a number. -/
def EndsNumber (rest : List Char) : Prop :=
  ∀ c, rest.head? = some c → ∀ part : NumberPart, part.next? c = none

/-- Only digits, the point and the marks and signs of an exponent continue a number. -/
theorem NumberPart.next?_eq_none {c : Char} (hdigit : c.isDigit = false) (hmark : c ∉ ['.', 'e', 'E', '+', '-'])
    (part : NumberPart) : part.next? c = none := by
  have hzero : c ≠ '0' := by
    rintro rfl
    nomatch hdigit
  simp only [List.mem_cons, List.not_mem_nil, or_false, not_or] at hmark
  cases part <;> simp [NumberPart.next?, hdigit, hzero, hmark]

theorem endsNumber_cons {c : Char} (hdigit : c.isDigit = false) (hmark : c ∉ ['.', 'e', 'E', '+', '-']) (cs : List Char) :
    EndsNumber (c :: cs) := by
  intro c' hc part
  cases hc
  exact NumberPart.next?_eq_none hdigit hmark part

/-- A number ends where the text cannot continue it, and the rest is read as after any token. -/
theorem tokensFrom_number {part : NumberPart} {written rest : List Char} (hpart : part.isComplete = true)
    (hrest : EndsNumber rest) :
    tokensFrom (.number part written) rest = (tokensFrom .between rest).map (numberToken written.reverse :: ·) := by
  cases rest with
  | nil => simp [tokensFrom, Scan.finish, hpart]
  | cons c cs =>
    have hnext := hrest c rfl part
    -- The character that ends the number is read afresh, as it would be between tokens.
    rw [tokensFrom, tokensFrom]
    simp only [Scan.step, hnext, hpart, if_true]
    cases Scan.start c with
    | none => rfl
    | some r =>
      obtain ⟨out, next⟩ := r
      simp only [Option.map_some, Option.map_map]
      rfl

/-! ## Decimal digits -/

/-- The decimal digits of a number write an integer part without a sign. -/
theorem numberPart?_toDigits (n : Nat) : numberPart? (Nat.toDigits 10 n) = some (if n = 0 then .zero else .integer) := by
  induction n using Nat.strongRecOn with
  | ind n ih =>
    by_cases hn : n < 10
    · have hone : ∀ d < 10, numberPart? [Nat.digitChar d] = some (if d = 0 then .zero else .integer) := by decide
      rw [Nat.toDigits_of_lt_base hn]
      exact hone n hn
    · have hdigits : ∀ d < 10, (Nat.digitChar d).isDigit = true := by decide
      have hdigit := hdigits (n % 10) (Nat.mod_lt _ (by decide))
      have hne : n ≠ 0 := by omega
      have hdiv : n / 10 ≠ 0 := by omega
      rw [Nat.toDigits_of_base_le (by decide) (Nat.not_lt.1 hn), numberPart?_append Nat.toDigits_ne_nil, ih _ (by omega),
        if_neg hdiv, if_neg hne]
      simp [NumberPart.run?, NumberPart.next?, hdigit]

/-- The decimal digits of a number are its token. -/
theorem numberToken_toDigits (n : Nat) : numberToken (Nat.toDigits 10 n) = .natural n := by
  have hdigits : (Nat.toDigits 10 n).all Char.isDigit = true :=
    List.all_eq_true.2 fun c hc => Nat.isDigit_of_mem_toDigits (by decide) (by decide) hc
  have hvalue : decimalValue (Nat.toDigits 10 n) = Nat.ofDigitChars 10 (Nat.toDigits 10 n) 0 := by
    simp only [decimalValue, Nat.ofDigitChars, Nat.mul_comm]
  unfold numberToken
  rw [if_pos hdigits, hvalue, Nat.ofDigitChars_toDigits (by decide) (by decide)]

end ExecImage.Json
