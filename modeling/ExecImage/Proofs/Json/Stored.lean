import ExecImage.Json.Binary
import ExecImage.Proofs.Json.Values
import Mathlib.Data.List.Nodup

/-!
# Stored images are read back

A record is stored as an object with one member for every field, so each field is found under its name (`fields?_ofMembers`),
and the value that is stored for a field is read back as the field. Every value of every type of field is: texts of any
characters, numbers of all 64 bits, and the choices by their names. So an image is read back from what it is stored as, except
for the bytes of sections, which are not stored (`Binary.ofJson?_toJson`).
-/

namespace ExecImage

namespace Json

/-! ## Fields -/

/-- A step that gives a result for every element of a list gives all of them. -/
theorem mapM_eq_some {α β : Type} {f : α → Option β} {g : α → β} {xs : List α} (h : ∀ x ∈ xs, f x = some (g x)) :
    xs.mapM f = some (xs.map g) := by
  induction xs with
  | nil => rfl
  | cons x xs ih =>
    rw [List.mapM_cons, h x List.mem_cons_self, ih fun y hy => h y (List.mem_cons_of_mem _ hy)]
    rfl

/-- A step that gives nothing for an element of a list gives nothing for the list. -/
theorem mapM_eq_none {α β : Type} {f : α → Option β} {xs : List α} {x : α} (hx : x ∈ xs) (h : f x = none) :
    xs.mapM f = none := by
  induction xs with
  | nil => nomatch hx
  | cons y xs ih =>
    rw [List.mapM_cons]
    rcases List.mem_cons.1 hx with rfl | hx
    · rw [h]
      rfl
    · rw [ih hx]
      cases f y <;> rfl

/-- A record in which a field is named twice has no fields. -/
theorem fields?_of_named_twice {names : List String} {members : List (Option String × Json)} {name : String}
    (hname : name ∈ names) (htwice : 2 ≤ (members.map Prod.fst).count (some name)) :
    (object members).fields? names = none := by
  have hfilter : 2 ≤ (members.filter fun m => m.1 == some name).length := by
    rwa [List.count_eq_countP, List.countP_map, List.countP_eq_length_filter] at htwice
  have hmember : member? name members = none := by
    unfold member?
    split
    · rename_i hnone
      rw [hnone] at hfilter
      nomatch hfilter
    · rename_i hone
      rw [hone] at hfilter
      simp at hfilter
    · rfl
  unfold fields?
  dsimp only
  split
  · exact mapM_eq_none hname hmember
  · rfl

/-- The members of an object that give the fields that have a value. -/
def givenMembers (fields : List (String × Option Json)) : List (String × Json) :=
  fields.filterMap fun (name, value) => value.map fun j => (name, j)

theorem givenMembers_cons (name : String) (value : Option Json) (fields : List (String × Option Json)) :
    givenMembers ((name, value) :: fields) = (value.map fun j => (name, j)).toList ++ givenMembers fields := by
  cases value <;> rfl

/-- If no name occurs twice, the members under the name of a field are the one that gives the field, if it has a value. -/
theorem filter_givenMembers {fields : List (String × Option Json)} (hnames : (fields.map Prod.fst).Nodup) {name : String}
    {value : Option Json} (hfield : (name, value) ∈ fields) :
    ((givenMembers fields).filter fun m => m.1 == name) = (value.map fun j => (name, j)).toList := by
  induction fields with
  | nil => nomatch hfield
  | cons field fields ih =>
    obtain ⟨name', value'⟩ := field
    rw [List.map_cons, List.nodup_cons] at hnames
    rw [givenMembers_cons, List.filter_append]
    rcases List.mem_cons.1 hfield with hfield | hfield
    · cases hfield
      have hfirst : ((value.map fun j => (name, j)).toList.filter fun m => m.1 == name) =
          (value.map fun j => (name, j)).toList := by
        cases value <;> simp
      have hrest : ((givenMembers fields).filter fun m => m.1 == name) = [] := by
        refine List.filter_eq_nil_iff.2 fun m hm hkey => hnames.1 ?_
        obtain ⟨⟨name', value'⟩, hfield, hm⟩ := List.mem_filterMap.1 hm
        obtain ⟨j, -, rfl⟩ := Option.map_eq_some_iff.1 hm
        rw [← beq_iff_eq.1 hkey]
        exact List.mem_map.2 ⟨_, hfield, rfl⟩
      rw [hfirst, hrest, List.append_nil]
    · have hother : name' ≠ name := by
        rintro rfl
        exact hnames.1 (List.mem_map.2 ⟨_, hfield, rfl⟩)
      have hfirst : ((value'.map fun j => (name', j)).toList.filter fun m => m.1 == name) = [] := by
        cases value' <;> simp [hother]
      rw [hfirst, List.nil_append, ih hnames.2 hfield]

/-- A field is found if the members under its name are the one that gives it. -/
theorem member?_of_filter {members : List (String × Json)} {name : String} {value : Option Json}
    (h : (members.filter fun m => m.1 == name) = (value.map fun j => (name, j)).toList) :
    member? name (members.map fun (key, j) => (some key, j)) = some value := by
  have hkeys : ((members.map fun (key, j) => (some key, j)).filter fun m => m.1 == some name) =
      (members.filter fun m => m.1 == name).map fun (key, j) => (some key, j) := by
    rw [List.filter_map]
    rfl
  unfold member?
  rw [hkeys, h]
  cases value <;> rfl

/-- The fields of an object are found under their names, whatever the order of its members and whatever other members it has, if
the members with names of fields are those that give the fields. -/
theorem fields?_of_perm {fields : List (String × Option Json)} (hnames : (fields.map Prod.fst).Nodup)
    {members : List (String × Json)}
    (hmembers : (members.filter fun m => decide (m.1 ∈ fields.map Prod.fst)).Perm (givenMembers fields)) :
    (ofMembers members).fields? (fields.map Prod.fst) = some (fields.map Prod.snd) := by
  have hall : (members.map fun (key, j) => (some key, j)).all (fun m => m.1.isSome) = true := by
    rw [List.all_map]
    exact List.all_eq_true.2 fun _ _ => rfl
  unfold ofMembers fields?
  dsimp only
  rw [if_pos hall, List.mapM_map]
  refine mapM_eq_some fun field hfield => member?_of_filter ?_
  obtain ⟨name, value⟩ := field
  have hname : name ∈ fields.map Prod.fst := List.mem_map_of_mem hfield
  -- Members of the name are among those with names of fields, and a list that permutes one element at most is that list.
  have hfilter : (members.filter fun m => m.1 == name) =
      (members.filter fun m => decide (m.1 ∈ fields.map Prod.fst)).filter fun m => m.1 == name := by
    rw [List.filter_filter]
    refine List.filter_congr fun m _ => ?_
    cases hkey : m.1 == name with
    | false => rfl
    | true =>
      rw [beq_iff_eq.1 hkey, decide_eq_true hname]
      rfl
  have hperm := hmembers.filter fun m => m.1 == name
  rw [← hfilter, filter_givenMembers hnames hfield] at hperm
  cases value with
  | none => exact List.perm_nil.1 hperm
  | some j => exact List.perm_singleton.1 hperm

/-- The fields of an object are the values of its members, if no name occurs twice. -/
theorem fields?_ofMembers {members : List (String × Json)} (hnames : (members.map Prod.fst).Nodup) :
    (ofMembers members).fields? (members.map Prod.fst) = some (members.map fun m => some m.2) := by
  have hfst : (members.map fun m => (m.1, some m.2)).map Prod.fst = members.map Prod.fst := by
    rw [List.map_map]
    rfl
  have hgiven : givenMembers (members.map fun m => (m.1, some m.2)) = members := by
    unfold givenMembers
    rw [List.filterMap_map]
    exact List.filterMap_some
  have hfilter : (members.filter fun m => decide (m.1 ∈ members.map Prod.fst)) = members :=
    List.filter_eq_self.2 fun m hm => decide_eq_true (List.mem_map_of_mem hm)
  have hperm : (members.filter fun m => decide (m.1 ∈ (members.map fun m => (m.1, some m.2)).map Prod.fst)).Perm
      (givenMembers (members.map fun m => (m.1, some m.2))) := by
    rw [hfst, hfilter, hgiven]
  rw [← hfst] at hnames
  have h := fields?_of_perm hnames hperm
  rw [hfst, List.map_map] at h
  exact h

/-! ## Values -/

@[simp] theorem string?_ofString (s : String) : (ofString s).string? = some s :=
  rfl

@[simp] theorem uint64?_ofUInt64 (n : UInt64) : (ofUInt64 n).uint64? = some n := by
  have hn : n.toNat < UInt64.size := n.toNat_lt
  unfold ofUInt64 uint64?
  dsimp only
  rw [if_pos hn, UInt64.ofNat_toNat]

@[simp] theorem uint8?_natural (n : UInt8) : (natural n.toNat).uint8? = some n := by
  have hn : n.toNat < UInt8.size := n.toNat_lt
  unfold uint8?
  dsimp only
  rw [if_pos hn, UInt8.ofNat_toNat]

theorem list?_map {α : Type} {item? : Json → Option α} {toJson : α → Json} {f : α → α}
    (h : ∀ a, item? (toJson a) = some (f a)) (as : List α) : (array (as.map toJson)).list? item? = some (as.map f) := by
  unfold list?
  dsimp only
  rw [List.mapM_map]
  exact mapM_eq_some fun a _ => h a

@[simp] theorem isWellFormed_ofString (s : String) : (ofString s).IsWellFormed := by
  intro t ht
  rw [List.mem_singleton.1 ht]
  trivial

@[simp] theorem isWellFormed_natural (n : Nat) : (natural n).IsWellFormed := by
  intro t ht
  rw [List.mem_singleton.1 ht]
  trivial

@[simp] theorem isWellFormed_bool (b : Bool) : (bool b).IsWellFormed := by
  intro t ht
  rw [List.mem_singleton.1 ht]
  trivial

theorem isWellFormed_map {α : Type} {toJson : α → Json} (h : ∀ a, (toJson a).IsWellFormed) (as : List α) :
    (array (as.map toJson)).IsWellFormed := by
  refine isWellFormed_array fun j hj => ?_
  obtain ⟨a, -, rfl⟩ := List.mem_map.1 hj
  exact h a

/-- A record of well-formed values is well formed. -/
theorem isWellFormed_zip {values : List Json} (h : ∀ j ∈ values, j.IsWellFormed) (names : List String) :
    (ofMembers (names.zip values)).IsWellFormed := by
  refine isWellFormed_object fun m hm => ?_
  obtain ⟨m', hm', rfl⟩ := List.mem_map.1 hm
  exact h _ (List.of_mem_zip hm').2

end Json

/-! ## Choices -/

@[simp] theorem Format.ofJson?_key (f : Format) : Format.ofJson? (.ofString f.key) = some f := by
  cases f <;> decide

@[simp] theorem Arch.ofJson?_key (a : Arch) : Arch.ofJson? (.ofString a.key) = some a := by
  cases a
  decide

@[simp] theorem Endianness.ofJson?_name (e : Endianness) : Endianness.ofJson? (.ofString e.name) = some e := by
  cases e <;> decide

@[simp] theorem SectionKind.ofJson?_key (k : SectionKind) : SectionKind.ofJson? (.ofString k.key) = some k := by
  cases k <;> decide

@[simp] theorem SymbolKind.ofJson?_key (k : SymbolKind) : SymbolKind.ofJson? (.ofString k.key) = some k := by
  cases k <;> decide

@[simp] theorem SymbolSource.ofJson?_key (s : SymbolSource) : SymbolSource.ofJson? (.ofString s.key) = some s := by
  cases s <;> decide

/-! ## Records -/

/-- A section without its bytes. -/
def Section.withoutBytes (s : Section) : Section :=
  { s with bytes := #[] }

/-- An image without the bytes of its sections. -/
def Binary.withoutBytes (b : Binary) : Binary :=
  { b with sections := b.sections.map Section.withoutBytes }

theorem Section.ofJson?_toJson (s : Section) : Section.ofJson? s.toJson = some s.withoutBytes := by
  have hnames : fieldNames.Nodup := by decide
  have hfields : s.toJson.fields? fieldNames = _ := Json.fields?_ofMembers hnames
  unfold ofJson?
  rw [hfields]
  simp [fieldNames, withoutBytes]

theorem Symbol.ofJson?_toJson (s : Symbol) : Symbol.ofJson? s.toJson = some s := by
  have hnames : fieldNames.Nodup := by decide
  have hfields : s.toJson.fields? fieldNames = _ := Json.fields?_ofMembers hnames
  unfold ofJson?
  rw [hfields]
  simp [fieldNames]

theorem Warning.ofJson?_toJson (w : Warning) : Warning.ofJson? w.toJson = some w := by
  have hnames : fieldNames.Nodup := by decide
  have hfields : w.toJson.fields? fieldNames = _ := Json.fields?_ofMembers hnames
  unfold ofJson?
  rw [hfields]
  simp [fieldNames]

theorem Section.isWellFormed_toJson (s : Section) : s.toJson.IsWellFormed :=
  Json.isWellFormed_zip (by simp [Json.ofUInt64]) fieldNames

theorem Symbol.isWellFormed_toJson (s : Symbol) : s.toJson.IsWellFormed :=
  Json.isWellFormed_zip (by simp [Json.ofUInt64]) fieldNames

theorem Warning.isWellFormed_toJson (w : Warning) : w.toJson.IsWellFormed :=
  Json.isWellFormed_zip (by simp) fieldNames

/-- What is stored of a section does not depend on its bytes. -/
theorem Section.toJson_withoutBytes (s : Section) : s.withoutBytes.toJson = s.toJson :=
  rfl

namespace Binary

/-- An image is read back from the value that it is stored as. -/
theorem ofJson?_toJson (b : Binary) : ofJson? b.toJson = some b.withoutBytes := by
  have hnames : fieldNames.Nodup := by decide
  have hfields : b.toJson.fields? fieldNames = _ := Json.fields?_ofMembers hnames
  have hsymbols := Json.list?_map (f := id) Symbol.ofJson?_toJson b.symbols
  have hwarnings := Json.list?_map (f := id) Warning.ofJson?_toJson b.warnings
  unfold ofJson?
  rw [hfields]
  simp [fieldNames, withoutBytes, Json.list?_map Section.ofJson?_toJson, hsymbols, hwarnings]

theorem isWellFormed_toJson (b : Binary) : b.toJson.IsWellFormed := by
  have hsections := Json.isWellFormed_map Section.isWellFormed_toJson b.sections
  have hsymbols := Json.isWellFormed_map Symbol.isWellFormed_toJson b.symbols
  have hwarnings := Json.isWellFormed_map Warning.isWellFormed_toJson b.warnings
  exact Json.isWellFormed_zip (by simp [Json.ofUInt64, hsections, hsymbols, hwarnings]) fieldNames

/-- What is stored of an image does not depend on the bytes of its sections. -/
theorem toJson_withoutBytes (b : Binary) : b.withoutBytes.toJson = b.toJson := by
  have hsections : (b.sections.map Section.withoutBytes).map Section.toJson = b.sections.map Section.toJson := by
    rw [List.map_map]
    exact List.map_congr_left fun s _ => Section.toJson_withoutBytes s
  unfold toJson
  rw [show b.withoutBytes.sections.map Section.toJson = b.sections.map Section.toJson from hsections]
  rfl

/-- An image that is written and read back is the image without the bytes of its sections, and is written as the same document:
whatever its texts, its numbers and its lists are, and whether or not a load can give it. -/
theorem deserialize?_serialize (b : Binary) :
    deserialize? b.serialize = some b.withoutBytes ∧ b.withoutBytes.serialize = b.serialize := by
  constructor
  · unfold deserialize? serialize
    rw [Json.parse?_compact b.isWellFormed_toJson, Option.bind_some, ofJson?_toJson]
  · unfold serialize
    rw [toJson_withoutBytes]

end Binary

end ExecImage
