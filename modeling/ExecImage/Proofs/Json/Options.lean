import ExecImage.Json.Options
import ExecImage.Proofs.Json.Stored

/-!
# Documents of load options

A document of options may give some of the fields and leave the others at their usual values. `Given` is what it gives:
values for some of the fields. A document can give it as an object, with the members in any order and among members of other
names, or as an array, if the fields that are given come first. Both are read as the options with the values given
(`ofJson?_of_isGivenBy`, `ofJson?_array`), and an object that names a field twice is read as none
(`ofJson?_of_named_twice`). Options are written with all fields given, so they are read back.
-/

namespace ExecImage.Options

/-- Values for some of the fields. -/
structure Given where
  /-- The most section headers. -/
  maxSections : Option UInt64 := none
  /-- The most entries of one symbol table. -/
  maxSymbolsPerTable : Option UInt64 := none
  /-- The most named exports. -/
  maxExports : Option UInt64 := none
  /-- The most bytes of one section. -/
  maxSectionBytes : Option UInt64 := none
  /-- Keep undefined symbols. -/
  includeUndefinedSymbols : Option Bool := none
  /-- Read the COFF symbol table. -/
  coffSymbols : Option Bool := none
  deriving DecidableEq, Repr

namespace Given

/-- The options with the values given, and the usual values for the other fields. -/
def options (g : Given) : Options :=
  let usual : Options := {}
  { maxSections := g.maxSections.getD usual.maxSections
    maxSymbolsPerTable := g.maxSymbolsPerTable.getD usual.maxSymbolsPerTable
    maxExports := g.maxExports.getD usual.maxExports
    maxSectionBytes := g.maxSectionBytes.getD usual.maxSectionBytes
    includeUndefinedSymbols := g.includeUndefinedSymbols.getD usual.includeUndefinedSymbols
    coffSymbols := g.coffSymbols.getD usual.coffSymbols }

/-- The values in the order of the fields. -/
def values (g : Given) : List (Option Json) :=
  [g.maxSections.map .ofUInt64, g.maxSymbolsPerTable.map .ofUInt64, g.maxExports.map .ofUInt64,
    g.maxSectionBytes.map .ofUInt64, g.includeUndefinedSymbols.map .bool, g.coffSymbols.map .bool]

/-- The fields with their values. -/
def fields (g : Given) : List (String × Option Json) :=
  fieldNames.zip g.values

/-- The values of the first `k` fields of options. -/
def first (k : Nat) (o : Options) : Given :=
  { maxSections := if 0 < k then some o.maxSections else none
    maxSymbolsPerTable := if 1 < k then some o.maxSymbolsPerTable else none
    maxExports := if 2 < k then some o.maxExports else none
    maxSectionBytes := if 3 < k then some o.maxSectionBytes else none
    includeUndefinedSymbols := if 4 < k then some o.includeUndefinedSymbols else none
    coffSymbols := if 5 < k then some o.coffSymbols else none }

/-- The members of an object give the values: those with names of fields are, in some order, the ones of the fields that are
given. -/
def IsGivenBy (g : Given) (members : List (String × Json)) : Prop :=
  (members.filter fun m => decide (m.1 ∈ fieldNames)).Perm (Json.givenMembers g.fields)

theorem map_fst_fields (g : Given) : g.fields.map Prod.fst = fieldNames :=
  rfl

/-- The first six fields are all. -/
theorem options_first_all (o : Options) : (first 6 o).options = o :=
  rfl

end Given

open Given

variable {g : Given} {j : Json}

/-! ## Values -/

theorem fieldOr_uint64? (usual : UInt64) (n : Option UInt64) :
    fieldOr usual Json.uint64? (n.map .ofUInt64) = some (n.getD usual) := by
  cases n with
  | none => rfl
  | some n => exact Json.uint64?_ofUInt64 n

theorem fieldOr_bool? (usual : Bool) (b : Option Bool) : fieldOr usual Json.bool? (b.map .bool) = some (b.getD usual) := by
  cases b <;> rfl

/-- A value whose fields are those given is read as the options with them. -/
theorem ofJson?_of_fields (h : j.fields? fieldNames = some g.values) : ofJson? j = some g.options := by
  unfold ofJson?
  rw [h]
  simp only [values, Option.bind_eq_bind, Option.bind_some, fieldOr_uint64?, fieldOr_bool?]
  rfl

/-- An object is read as the options that its members give. -/
theorem ofJson?_of_isGivenBy {members : List (String × Json)} (h : g.IsGivenBy members) :
    ofJson? (.ofMembers members) = some g.options := by
  have hnames : (g.fields.map Prod.fst).Nodup := by
    rw [map_fst_fields]
    decide
  exact ofJson?_of_fields (Json.fields?_of_perm hnames h)

/-- An array is read as the options whose first fields it gives. -/
theorem ofJson?_array (o : Options) (k : Nat) : ofJson? (.array (o.fieldValues.take k)) = some (first k o).options := by
  refine ofJson?_of_fields ?_
  match k with
  | 0 | 1 | 2 | 3 | 4 | 5 => rfl
  | k + 6 =>
    have hall : o.fieldValues.take (k + 6) = o.fieldValues := List.take_of_length_le (Nat.le_add_left 6 k)
    have hfirst : first (k + 6) o = first 6 o := by simp [first]
    rw [hall, hfirst]
    rfl

/-- An object that names a field twice is no options. -/
theorem ofJson?_of_named_twice {members : List (Option String × Json)} {name : String} (hname : name ∈ fieldNames)
    (htwice : 2 ≤ (members.map Prod.fst).count (some name)) : ofJson? (.object members) = none := by
  unfold ofJson?
  rw [Json.fields?_of_named_twice hname htwice]
  rfl

/-! ## Documents -/

/-- A document is read as options if its value is. -/
theorem deserialize?_eq {s : String} (h : Json.IsDocumentOf s j) : deserialize? s = ofJson? j := by
  unfold deserialize?
  rw [h.parse?_eq, Option.bind_some]

/-- What options are written as is a document of an object that gives all fields. -/
theorem isDocumentOf_serialize (o : Options) :
    Json.IsDocumentOf o.serialize (.ofMembers (fieldNames.zip o.fieldValues)) := by
  have hvalues : ∀ j ∈ o.fieldValues, j.IsWellFormed := by simp [fieldValues]
  exact Json.isDocumentOf_indented fun m hm => hvalues m.2 (List.of_mem_zip hm).2

/-- Options are read back from what they are written as. A document that gives some of the fields is read as the options with the
values given and the usual values for the others: an object with its members in any order and among members of any other names,
or an array of the first fields, which is read as every object that gives these. A document of an object that names a field
twice is not read. -/
theorem deserialize?_document :
    (∀ o : Options, deserialize? o.serialize = some o) ∧
      (∀ (g : Given) (members : List (String × Json)) (s : String), g.IsGivenBy members →
        Json.IsDocumentOf s (.ofMembers members) → deserialize? s = some g.options) ∧
      (∀ (o : Options) (k : Nat) (s : String), Json.IsDocumentOf s (.array (o.fieldValues.take k)) →
        deserialize? s = some (first k o).options ∧
          ∀ (members : List (String × Json)) (s' : String), (first k o).IsGivenBy members →
            Json.IsDocumentOf s' (.ofMembers members) → deserialize? s' = deserialize? s) ∧
      ∀ (members : List (Option String × Json)) (name : String) (s : String), name ∈ fieldNames →
        2 ≤ (members.map Prod.fst).count (some name) → Json.IsDocumentOf s (.object members) → deserialize? s = none := by
  have object (g : Given) (members : List (String × Json)) (s : String) (hgiven : g.IsGivenBy members)
      (hs : Json.IsDocumentOf s (.ofMembers members)) : deserialize? s = some g.options := by
    rw [deserialize?_eq hs, ofJson?_of_isGivenBy hgiven]
  refine ⟨fun o => ?_, object, fun o k s hs => ?_, fun members name s hname htwice hs => ?_⟩
  · have hgiven : (first 6 o).IsGivenBy (fieldNames.zip o.fieldValues) := .refl _
    rw [object _ _ _ hgiven (isDocumentOf_serialize o), options_first_all]
  · have harray : deserialize? s = some (first k o).options := by
      rw [deserialize?_eq hs, ofJson?_array]
    refine ⟨harray, fun members s' hgiven hs' => ?_⟩
    rw [harray, object _ _ _ hgiven hs']
  · rw [deserialize?_eq hs, ofJson?_of_named_twice hname htwice]

/-- An object that gives two fields in another order and after a member of another name, an array of two fields and an object with
the same two, and an object that names a field twice. -/
theorem deserialize?_document_sample :
    deserialize? (Json.indented [("note", .array [.number "-1.5e3", .text none]), ("coff_symbols", .bool false),
        ("max_exports", .natural 18446744073709551615)]) =
        some { maxExports := 18446744073709551615, coffSymbols := false } ∧
      deserialize? (Json.compact (.array [.natural 7, .natural 8])) = some { maxSections := 7, maxSymbolsPerTable := 8 } ∧
      deserialize? (Json.indented [("max_symbols_per_table", .natural 8), ("max_sections", .natural 7)]) =
        deserialize? (Json.compact (.array [.natural 7, .natural 8])) ∧
      deserialize? (Json.indented [("coff_symbols", .bool true), ("coff_symbols", .bool true)]) = none := by
  obtain ⟨-, hobject, harray, htwice⟩ := deserialize?_document
  have hnumber : (Json.number "-1.5e3").IsWellFormed := by
    intro t ht
    rw [List.mem_singleton.1 ht]
    exact ⟨⟨.exponent, by decide, rfl⟩, by decide⟩
  have htext : (Json.text none).IsWellFormed := by
    intro t ht
    rw [List.mem_singleton.1 ht]
    trivial
  have hnote : (Json.array [.number "-1.5e3", .text none]).IsWellFormed :=
    Json.isWellFormed_array (by simp [hnumber, htext])
  have hgiven : Given.IsGivenBy { maxExports := some 18446744073709551615, coffSymbols := some false }
      [("note", .array [.number "-1.5e3", .text none]), ("coff_symbols", .bool false),
        ("max_exports", .natural 18446744073709551615)] := .swap _ _ _
  have hgiven' : (first 2 { maxSections := 7, maxSymbolsPerTable := 8 }).IsGivenBy
      [("max_symbols_per_table", .natural 8), ("max_sections", .natural 7)] := .swap _ _ _
  have hnaturals : (Json.array [.natural 7, .natural 8]).IsWellFormed := Json.isWellFormed_array (by simp)
  obtain ⟨hfirst, hsame⟩ := harray { maxSections := 7, maxSymbolsPerTable := 8 } 2 _ (Json.isDocumentOf_compact hnaturals)
  refine ⟨?_, hfirst, ?_, ?_⟩
  · exact hobject _ _ _ hgiven (Json.isDocumentOf_indented (by simp [hnote]))
  · exact hsame _ _ hgiven' (Json.isDocumentOf_indented (by simp))
  · exact htwice _ "coff_symbols" _ (by decide) (by decide) (Json.isDocumentOf_indented (by simp))

end ExecImage.Options
