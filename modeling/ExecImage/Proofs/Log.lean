import Mathlib.Data.List.Perm.Basic
import ExecImage.Proofs.Elf.Symbols
import ExecImage.Proofs.Pe.Writer
import ExecImage.Proofs.Stages

/-!
# The log of a load

Every warning of a loaded image has an event in the log, and one only. The log may hold more: a notice is logged when it
is met, and becomes a warning only if its table is read to its end. The notices of a table that fails afterwards stay in
the log and are warnings of nothing. No table of an ELF image fails after a notice; a table of a PE image can.
-/

namespace ExecImage

namespace LabelledTable

/-- The events of a table that the binary has warnings for: the notices of a table that was read to its end, or else
that the table was skipped. -/
def keptEvents (t : LabelledTable) : List Event :=
  match t.read.reading.failure with
  | none => t.read.events
  | some error => [.skipped t.label error]

/-- The events of a table that the binary has no warning for: the notices met before the table failed. -/
def lostEvents (t : LabelledTable) : List Event :=
  match t.read.reading.failure with
  | none => []
  | some _ => t.read.events

variable (t : LabelledTable)

/-- The events of reading a table and of merging it are those that are kept and those that are lost. -/
theorem perm_events : (t.read.events ++ t.outcome.events).Perm (t.keptEvents ++ t.lostEvents) := by
  unfold keptEvents lostEvents outcome TableReading.result
  cases t.read.reading.failure with
  | none => exact .refl _
  | some error => exact List.perm_append_comm

/-- The warnings of a table are those of the events that are kept, in their order. -/
theorem warnings_outcome : t.outcome.warnings = t.keptEvents.map Event.warning := by
  unfold keptEvents outcome TableReading.result TableReading.events
  cases t.read.reading.failure with
  | none =>
    dsimp only [TableOutcome.ofResult, TableOutcome.warnings]
    rw [List.map_map]
    exact (List.map_id _).symm
  | some error => rfl

end LabelledTable

/-- The log of some tables holds their events that are kept and those that are lost, and no other. -/
theorem perm_tableEvents (tables : List LabelledTable) :
    (tableEvents tables).Perm (tables.flatMap LabelledTable.keptEvents ++ tables.flatMap LabelledTable.lostEvents) := by
  have hread := List.flatMap_append_perm tables (fun t => t.read.events) fun t => t.outcome.events
  have hkept := List.flatMap_append_perm tables LabelledTable.keptEvents LabelledTable.lostEvents
  exact hread.trans ((List.Perm.flatMap_left tables fun t _ => t.perm_events).trans hkept.symm)

/-- The warnings of some tables are those of their events that are kept. -/
theorem warnings_merge (tables : List LabelledTable) :
    (merge (tables.map LabelledTable.outcome)).warnings = (tables.flatMap LabelledTable.keptEvents).map Event.warning := by
  simp only [merge, List.flatMap_map, List.map_flatMap, LabelledTable.warnings_outcome]

/-- The log and the warnings correspond one to one: a notice to the warning of its table and text, and a skipped table to the
warning made of its error. -/
def Loaded.IsLoggedOnce (r : Loaded) : Prop :=
  (r.events.map Event.warning).Perm r.binary.warnings

instance (r : Loaded) : Decidable r.IsLoggedOnce :=
  inferInstanceAs (Decidable (List.Perm _ _))

/-- A table of an ELF image that fails has met no notice: what can fail is found before the first entry is read. -/
theorem Elf.Image.lostEvents_eq_nil {image : Elf.Image} {options : Options} {t : LabelledTable}
    (ht : t ∈ image.symbolTables options) : t.lostEvents = [] := by
  have main (e : Elf.NamedHeader) (order : Endianness) (source : SymbolSource) :
      LabelledTable.lostEvents
        ⟨Elf.SymbolTable.nameOf e, Elf.SymbolTable.readEntry image.sections e order source options⟩ = [] := by
    unfold Elf.SymbolTable.readEntry
    cases hp : Elf.SymbolTable.parts image.sections e.header with
    | error fault => rfl
    | ok p =>
      obtain ⟨entries, strings, size⟩ := p
      obtain ⟨-, -, -, hsize⟩ := Elf.SymbolTable.parts_eq_ok_iff.1 hp
      have hfailure (limit : Nat) :
          (readEntries (Elf.SymbolTable.entryAt entries strings ⟨image.sections.cls, order⟩ size source options)
            (min (entries.size / size) limit)).failure = none :=
        Elf.SymbolTable.failure_entries_eq_none _ (Elf.SymbolTable.symbolSize_le_of_entrySize hsize) limit
      simp only [LabelledTable.lostEvents, Reading.failure_noting, hfailure]
  rw [symbolTables, tablesOfType_eq (by decide), tablesOfType_eq (by decide)] at ht
  rcases List.mem_append.1 ht with ht | ht
  · obtain ⟨e, -, rfl⟩ := List.mem_map.1 ht
    exact main e _ _
  · obtain ⟨e, -, rfl⟩ := List.mem_map.1 ht
    exact main e _ _

/-- The log of a load holds one event for every warning and, besides these, the notices of the tables that failed after
them. So the log and the warnings correspond one to one exactly if no table failed after a notice, as in every ELF image. -/
theorem events_of_load {v : View} {source : String} {hint : FormatHint} {options : Options} {r : Loaded}
    (h : loadLogged v source hint options = .ok r) :
    ∃ withSymbols tables, Staged v source hint options withSymbols tables ∧
      r.events.Perm (tables.flatMap LabelledTable.keptEvents ++ tables.flatMap LabelledTable.lostEvents) ∧
      r.binary.warnings = (tables.flatMap LabelledTable.keptEvents).map Event.warning ∧
      (r.IsLoggedOnce ↔ ∀ t ∈ tables, t.lostEvents = []) ∧
      (r.binary.format = .elf → r.IsLoggedOnce) := by
  obtain ⟨withSymbols, tables, hstaged, rfl⟩ := loadLogged_eq_ok_iff.1 h
  have hevents := perm_tableEvents tables
  have hwarnings : (withSymbols (merge (tables.map LabelledTable.outcome))).warnings =
      (tables.flatMap LabelledTable.keptEvents).map Event.warning := by
    rw [← warnings_merge]
    cases hstaged <;> rfl
  have honce : Loaded.IsLoggedOnce ⟨withSymbols (merge (tables.map LabelledTable.outcome)), tableEvents tables⟩ ↔
      ∀ t ∈ tables, t.lostEvents = [] := by
    rw [← List.flatMap_eq_nil_iff]
    unfold Loaded.IsLoggedOnce
    dsimp only
    rw [hwarnings]
    constructor
    · intro hperm
      -- The kept events alone are as many as the warnings, so nothing is left to be lost.
      have hlength := hevents.length_eq
      rw [← List.length_map, hperm.length_eq, List.length_map, List.length_append] at hlength
      exact List.eq_nil_of_length_eq_zero (by omega)
    · intro hlost
      rw [hlost, List.append_nil] at hevents
      exact hevents.map _
  refine ⟨withSymbols, tables, hstaged, hevents, hwarnings, honce, fun helf => honce.2 fun t ht => ?_⟩
  cases hstaged with
  | elf => exact Elf.Image.lostEvents_eq_nil ht
  | pe => nomatch helf

/-- A small image whose symbol table is cut off after its first record, which names a section that does not exist. -/
def Pe.ImageSpec.cut : View :=
  let spec : ImageSpec :=
    { imageBase := 0x400000
      sections := [
        { name := ".text", virtualSize := 2, virtualAddress := 0x1000, characteristics := 0x20000020, data := [0x55, 0xC3] }]
      records := List.replicate 2 {
        nameField := nameField "f", value := 0, sectionNumber := 9, type := 0x20, storageClass := 2, auxiliaries := 0 } }
  ⟨(spec.write.take (spec.dataStart + 20)).toArray⟩

/-- The notice of the first record is logged though the table fails at the second; the table that is skipped is the one
warning. -/
theorem events_of_load_cut : ∃ r, loadLogged Pe.ImageSpec.cut "<memory>" .auto {} = .ok r ∧
    r.events.length = 2 ∧ r.binary.warnings.length = 1 ∧
    ∃ withSymbols tables, Staged Pe.ImageSpec.cut "<memory>" .auto {} withSymbols tables ∧
      r.events.Perm (tables.flatMap LabelledTable.keptEvents ++ tables.flatMap LabelledTable.lostEvents) := by
  have h : (loadLogged Pe.ImageSpec.cut "<memory>" .auto {}).toOption.map
      (fun r => (r.events.length, r.binary.warnings.length)) = some (2, 1) := by
    decide +kernel
  obtain ⟨r, hr, hlengths⟩ := Except.exists_of_toOption_map h
  obtain ⟨hevents, hwarnings⟩ := Prod.mk.inj hlengths
  obtain ⟨withSymbols, tables, hstaged, hperm, -⟩ := events_of_load hr
  exact ⟨r, hr, hevents, hwarnings, withSymbols, tables, hstaged, hperm⟩

/-- The log of a loaded image need not correspond one to one to its warnings. -/
theorem not_isLoggedOnce_cut : ∃ r, loadLogged Pe.ImageSpec.cut "<memory>" .auto {} = .ok r ∧ ¬r.IsLoggedOnce := by
  have h : (loadLogged Pe.ImageSpec.cut "<memory>" .auto {}).toOption.map (fun r => decide r.IsLoggedOnce) = some false := by
    decide +kernel
  obtain ⟨r, hr, honce⟩ := Except.exists_of_toOption_map h
  exact ⟨r, hr, of_decide_eq_false honce⟩

end ExecImage
