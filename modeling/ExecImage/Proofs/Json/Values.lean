import ExecImage.Json.Value
import ExecImage.Proofs.Json.Spelling

/-!
# Values that are written are read back

The tokens of a value take the reader of values from the place before the value to the place after it, whatever is open
around it (`Place.steps_tokens`). The statement is proved together with those for the items of an array and the members of
an object, as the tokens are defined. No two numbers are adjacent among the tokens of a value, so every document that spells them is
read as the value (`IsDocumentOf.parse?_eq`), among them the ones that are written without white space (`parse?_compact`) and with
a line for every member (`isDocumentOf_indented`).
-/

namespace ExecImage.Json

/-! ## The tokens of lists -/

theorem itemTokens_cons_cons (j j' : Json) (js : List Json) :
    itemTokens (j :: j' :: js) = j.tokens ++ .comma :: itemTokens (j' :: js) :=
  rfl

theorem memberTokens_cons_cons (key : Option String) (j : Json) (m : Option String × Json)
    (ms : List (Option String × Json)) :
    memberTokens ((key, j) :: m :: ms) = .text key :: .colon :: (j.tokens ++ .comma :: memberTokens (m :: ms)) :=
  rfl

/-- The tokens of items start with those of the first. -/
theorem exists_itemTokens_cons (j : Json) (js : List Json) : ∃ ts, itemTokens (j :: js) = j.tokens ++ ts := by
  cases js with
  | nil => exact ⟨[], (List.append_nil _).symm⟩
  | cons j' js => exact ⟨_, itemTokens_cons_cons j j' js⟩

/-- The tokens of members start with the key of the first. -/
theorem exists_memberTokens_cons (key : Option String) (j : Json) (ms : List (Option String × Json)) :
    ∃ ts, memberTokens ((key, j) :: ms) = .text key :: ts := by
  cases ms with
  | nil => exact ⟨_, rfl⟩
  | cons m ms => exact ⟨_, memberTokens_cons_cons key j m ms⟩

/-! ## Places -/

namespace Place

theorem steps_append (p : Place) (ts us : List Token) : p.steps (ts ++ us) = (p.steps ts).bind fun q => q.steps us := by
  induction ts generalizing p with
  | nil => rfl
  | cons t ts ih =>
    rw [List.cons_append, steps, steps, Option.bind_assoc]
    congr 1
    funext q
    exact ih q

/-- An array that is not empty starts with its first item. -/
theorem steps_arrayStart (around : List Frame) (j : Json) (ts : List Token) :
    (arrayStart around).steps (j.tokens ++ ts) = (value (.array [] :: around)).steps (j.tokens ++ ts) := by
  cases j <;> rfl

mutual

/-- The tokens of a value lead from the place before it to the place after it. -/
theorem steps_tokens (j : Json) (around : List Frame) : (value around).steps j.tokens = some (after j around) := by
  cases j with
  | null => rfl
  | bool b => rfl
  | natural n => rfl
  | number s => rfl
  | text s => rfl
  | array items =>
    cases items with
    | nil => rfl
    | cons j js =>
      have hopen : (value around).steps (tokens (.array (j :: js))) =
          (arrayStart around).steps (itemTokens (j :: js) ++ [.closeArray]) := rfl
      obtain ⟨ts, hts⟩ := exists_itemTokens_cons j js
      rw [hopen, hts, List.append_assoc, steps_arrayStart, ← List.append_assoc, ← hts, steps_append,
        steps_itemTokens (j :: js) (by simp) [] around, List.append_nil]
      -- The items are held last first until the array is closed.
      change some (after (.array (j :: js).reverse.reverse) around) = _
      rw [List.reverse_reverse]
  | object members =>
    cases members with
    | nil => rfl
    | cons m ms =>
      obtain ⟨name, j⟩ := m
      have hopen : (value around).steps (tokens (.object ((name, j) :: ms))) =
          (key [] around).steps (memberTokens ((name, j) :: ms) ++ [.closeObject]) := by
        obtain ⟨ts, hts⟩ := exists_memberTokens_cons name j ms
        rw [tokens, hts]
        rfl
      rw [hopen, steps_append, steps_memberTokens ((name, j) :: ms) (by simp) [] around, List.append_nil]
      change some (after (.object ((name, j) :: ms).reverse.reverse) around) = _
      rw [List.reverse_reverse]

/-- The tokens of the items of an array lead from the place before the first to the place after the last. -/
theorem steps_itemTokens (js : List Json) (h : js ≠ []) (items : List Json) (around : List Frame) :
    (value (.array items :: around)).steps (itemTokens js) = some (item (js.reverse ++ items) around) := by
  match js, h with
  | [j], _ => exact steps_tokens j (.array items :: around)
  | j :: j' :: js, _ =>
    have hcomma : (after j (.array items :: around)).steps (.comma :: itemTokens (j' :: js)) =
        (value (.array (j :: items) :: around)).steps (itemTokens (j' :: js)) := rfl
    have hread : (j' :: js).reverse ++ j :: items = (j :: j' :: js).reverse ++ items := by simp
    rw [itemTokens_cons_cons, steps_append, steps_tokens j, Option.bind_some, hcomma,
      steps_itemTokens (j' :: js) (by simp) (j :: items) around, hread]

/-- The tokens of the members of an object lead from the place before the first key to the place after the last value. -/
theorem steps_memberTokens (ms : List (Option String × Json)) (h : ms ≠ []) (members : List (Option String × Json))
    (around : List Frame) :
    (key members around).steps (memberTokens ms) = some (member (ms.reverse ++ members) around) := by
  match ms, h with
  | [(name, j)], _ => exact steps_tokens j (.object members name :: around)
  | (name, j) :: m :: ms, _ =>
    have hkey : (key members around).steps (memberTokens ((name, j) :: m :: ms)) =
        (value (.object members name :: around)).steps (j.tokens ++ .comma :: memberTokens (m :: ms)) := rfl
    have hcomma : (after j (.object members name :: around)).steps (.comma :: memberTokens (m :: ms)) =
        (key ((name, j) :: members) around).steps (memberTokens (m :: ms)) := rfl
    have hread : (m :: ms).reverse ++ (name, j) :: members = ((name, j) :: m :: ms).reverse ++ members := by simp
    rw [hkey, steps_append, steps_tokens j, Option.bind_some, hcomma,
      steps_memberTokens (m :: ms) (by simp) ((name, j) :: members) around, hread]

end

end Place

/-! ## Values -/

/-- The tokens of a value spell it. -/
theorem ofTokens?_tokens (j : Json) : ofTokens? j.tokens = some j := by
  unfold ofTokens?
  rw [Place.steps_tokens]
  rfl

mutual

/-- No two numbers are adjacent among the tokens of a value. -/
theorem isChain_tokens (j : Json) : j.tokens.IsChain Token.Apart := by
  cases j with
  | null => exact .singleton _
  | bool b => exact .singleton _
  | natural n => exact .singleton _
  | number s => exact .singleton _
  | text s => exact .singleton _
  | array items => exact Token.isChain_cons rfl (Token.isChain_append (isChain_itemTokens items) rfl .nil)
  | object members => exact Token.isChain_cons rfl (Token.isChain_append (isChain_memberTokens members) rfl .nil)

theorem isChain_itemTokens (js : List Json) : (itemTokens js).IsChain Token.Apart := by
  match js with
  | [] => exact .nil
  | [j] => exact isChain_tokens j
  | j :: j' :: js => exact Token.isChain_append (isChain_tokens j) rfl (isChain_itemTokens (j' :: js))

theorem isChain_memberTokens (ms : List (Option String × Json)) : (memberTokens ms).IsChain Token.Apart := by
  match ms with
  | [] => exact .nil
  | [(key, j)] => exact Token.isChain_cons rfl (Token.isChain_cons rfl (isChain_tokens j))
  | (key, j) :: m :: ms =>
    have hrest := Token.isChain_append (isChain_tokens j) (t := .comma) rfl (isChain_memberTokens (m :: ms))
    exact Token.isChain_cons rfl (Token.isChain_cons rfl hrest)

end

/-- Every number in the value that is kept as written is written as one. -/
def IsWellFormed (j : Json) : Prop :=
  ∀ t ∈ j.tokens, t.IsWellFormed

theorem mem_itemTokens {t : Token} {js : List Json} (h : t ∈ itemTokens js) : t = .comma ∨ ∃ j ∈ js, t ∈ j.tokens := by
  induction js with
  | nil => nomatch h
  | cons j js ih =>
    cases js with
    | nil => exact .inr ⟨j, List.mem_cons_self, h⟩
    | cons j' js =>
      rcases List.mem_append.1 h with h | h
      · exact .inr ⟨j, List.mem_cons_self, h⟩
      rcases List.mem_cons.1 h with rfl | h
      · exact .inl rfl
      rcases ih h with rfl | ⟨i, hi, h⟩
      · exact .inl rfl
      · exact .inr ⟨i, List.mem_cons_of_mem _ hi, h⟩

theorem mem_memberTokens {t : Token} {ms : List (Option String × Json)} (h : t ∈ memberTokens ms) :
    t.IsWellFormed ∨ ∃ m ∈ ms, t ∈ m.2.tokens := by
  induction ms with
  | nil => nomatch h
  | cons m ms ih =>
    obtain ⟨key, j⟩ := m
    cases ms with
    | nil =>
      rcases List.mem_cons.1 h with rfl | h
      · exact .inl trivial
      rcases List.mem_cons.1 h with rfl | h
      · exact .inl trivial
      · exact .inr ⟨(key, j), List.mem_cons_self, h⟩
    | cons m' ms =>
      rcases List.mem_cons.1 h with rfl | h
      · exact .inl trivial
      rcases List.mem_cons.1 h with rfl | h
      · exact .inl trivial
      rcases List.mem_append.1 h with h | h
      · exact .inr ⟨(key, j), List.mem_cons_self, h⟩
      rcases List.mem_cons.1 h with rfl | h
      · exact .inl trivial
      rcases ih h with h | ⟨m, hm, h⟩
      · exact .inl h
      · exact .inr ⟨m, List.mem_cons_of_mem _ hm, h⟩

/-- An array of well-formed items is well formed. -/
theorem isWellFormed_array {items : List Json} (h : ∀ j ∈ items, j.IsWellFormed) : (Json.array items).IsWellFormed := by
  intro t ht
  rcases List.mem_cons.1 ht with rfl | ht
  · trivial
  rcases List.mem_append.1 ht with ht | ht
  · rcases mem_itemTokens ht with rfl | ⟨j, hj, ht⟩
    · trivial
    · exact h j hj t ht
  · rw [List.mem_singleton.1 ht]
    trivial

/-- An object of well-formed members is well formed, whatever its keys. -/
theorem isWellFormed_object {members : List (Option String × Json)} (h : ∀ m ∈ members, m.2.IsWellFormed) :
    (Json.object members).IsWellFormed := by
  intro t ht
  rcases List.mem_cons.1 ht with rfl | ht
  · trivial
  rcases List.mem_append.1 ht with ht | ht
  · rcases mem_memberTokens ht with ht | ⟨m, hm, ht⟩
    · exact ht
    · exact h m hm t ht
  · rw [List.mem_singleton.1 ht]
    trivial

/-! ## Documents -/

/-- The text is a document of a value: it spells the tokens of the value. -/
def IsDocumentOf (s : String) (j : Json) : Prop :=
  Spells s.toList j.tokens

/-- A document is read as its value. -/
theorem IsDocumentOf.parse?_eq {s : String} {j : Json} (h : IsDocumentOf s j) : parse? s = some j := by
  unfold parse?
  rw [tokens?_of_spells h (isChain_tokens j), Option.bind_some, ofTokens?_tokens]

/-- What is written for a value without spaces is a document of it. -/
theorem isDocumentOf_compact {j : Json} (h : j.IsWellFormed) : IsDocumentOf j.compact j := by
  unfold IsDocumentOf compact
  rw [String.toList_ofList]
  exact .write h

/-- A document without spaces is read back as the value that it was written from. -/
theorem parse?_compact {j : Json} (h : j.IsWellFormed) : parse? j.compact = some j :=
  (isDocumentOf_compact h).parse?_eq

/-- The line of a member of an object. -/
def memberLine (m : String × Json) : String :=
  s!"  {String.ofList (quote m.1)}: {m.2.compact}"

/-- The line of a member spells its key and its value. -/
theorem spells_memberLine {m : String × Json} (h : m.2.IsWellFormed) :
    Spells (memberLine m).toList (.text (some m.1) :: .colon :: m.2.tokens) := by
  have hline : (memberLine m).toList = [' ', ' '] ++ (quote m.1 ++ ([':'] ++ ([' '] ++ m.2.compact.toList))) := by
    simp [memberLine, toString]
  have hspace : IsBlank [' '] := isBlank_cons (by decide) isBlank_nil
  have hindent : IsBlank [' ', ' '] := isBlank_cons (by decide) hspace
  have hkey : Spells (quote m.1) [.text (some m.1)] := .single (Token.isWritten_write trivial)
  have hcolon : Spells [':'] [.colon] := .single (Token.isWritten_write trivial)
  rw [hline]
  exact (hkey.append (hcolon.append ((isDocumentOf_compact h).blank_append hspace))).blank_append hindent

/-- The lines of members, with a comma after every line but the last, spell the members. -/
theorem spells_memberLines {members : List (String × Json)} (hne : members ≠ []) (h : ∀ m ∈ members, m.2.IsWellFormed) :
    Spells (String.intercalate ",\n" (members.map memberLine)).toList
      (memberTokens (members.map fun (key, j) => (some key, j))) := by
  induction members with
  | nil => exact absurd rfl hne
  | cons m ms ih =>
    have hm := spells_memberLine (h m List.mem_cons_self)
    cases ms with
    | nil =>
      rw [List.map_singleton, String.intercalate_singleton]
      exact hm
    | cons m' ms =>
      have hcomma : Spells [','] [.comma] := .single (Token.isWritten_write trivial)
      have hbreak : IsBlank ['\n'] := isBlank_cons (by decide) isBlank_nil
      have hms := ih (List.cons_ne_nil _ _) fun m hm => h m (List.mem_cons_of_mem _ hm)
      have hlines := hm.append (hcomma.append (hms.blank_append hbreak))
      rw [List.map_cons, List.map_cons, String.intercalate_cons_cons, String.toList_append, String.toList_append,
        List.append_assoc]
      exact hlines

/-- What is written for an object with a line for every member is a document of it. -/
theorem isDocumentOf_indented {members : List (String × Json)} (h : ∀ m ∈ members, m.2.IsWellFormed) :
    IsDocumentOf (indented members) (ofMembers members) := by
  have hopen : Spells ['{'] [.openObject] := .single (Token.isWritten_write trivial)
  have hclose : Spells ['}'] [.closeObject] := .single (Token.isWritten_write trivial)
  have hbreak : IsBlank ['\n'] := isBlank_cons (by decide) isBlank_nil
  cases members with
  | nil => exact hopen.append hclose
  | cons m ms =>
    have hlines := spells_memberLines (List.cons_ne_nil m ms) h
    have hobject := hopen.append ((hlines.append (hclose.blank_append hbreak)).blank_append hbreak)
    have htext : indented (m :: ms) = "\x7b\n" ++ String.intercalate ",\n" ((m :: ms).map memberLine) ++ "\n\x7d" := rfl
    have hbraces : ("\x7b\n" : String).toList = ['{'] ++ ['\n'] ∧ ("\n\x7d" : String).toList = ['\n'] ++ ['}'] := by decide
    unfold IsDocumentOf
    rw [htext, String.toList_append, String.toList_append, hbraces.1, hbraces.2, List.append_assoc, List.append_assoc]
    exact hobject

end ExecImage.Json
