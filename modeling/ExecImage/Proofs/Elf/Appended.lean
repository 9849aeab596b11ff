import ExecImage.Proofs.Elf.Symbols
import ExecImage.Proofs.Stages

/-!
# Bytes after the end of an ELF image

A longer file has the same file header, the same section table but for the file itself, and the same sections. A
symbol table that is read to its end is the same table in the longer file; one that fails may be found there.
-/

namespace ExecImage.Elf

open Except (Carries carries_eq_iff)

variable {v w : View} {options : Options} {source : String}

namespace SectionTable

/-- The table with another file to read contents from. -/
def within (t : SectionTable) (w : View) : SectionTable :=
  { t with view := w }

theorem namesView_carries (h : v.Begins w) (headers : List SectionHeader) (index : Nat) :
    Carries Eq (namesView v headers index) (namesView w headers index) := by
  unfold namesView
  by_cases h0 : index = 0
  · rw [if_pos h0, if_pos h0]
    exact .refl _
  rw [if_neg h0, if_neg h0]
  cases headers[index]? with
  | none => exact .refl _
  | some sh =>
    dsimp only
    cases hs : v.sub sh.offset.toNat sh.size.toNat with
    | error e => exact .error _ _
    | ok names =>
      rw [carries_eq_iff.1 (h.sub _ _) names hs]
      exact .refl _

/-- A longer file has the same section table. -/
theorem read_carries (h : v.Begins w) (header : Header) :
    Carries (fun t t' => t' = t.within w) (read v header options) (read w header options) := by
  have readHeader (offset : Nat) :
      Carries Eq (SectionHeader.read v offset header.ident) (SectionHeader.read w offset header.ident) :=
    (SectionHeader.isRecord_read header.ident.cls header.ident.order).carries h
  intro t ht
  rcases read_eq_ok_iff.1 ht with ⟨h0, rfl⟩ | ⟨hne, first, headers, names, d⟩
  · exact ⟨_, read_eq_ok_iff.2 (.inl ⟨h0, rfl⟩), rfl⟩
  · have hheaders := Carries.mapM_eq (fun i => readHeader (headerOffset header i)) (List.range (sectionCount header first))
    refine ⟨_, read_eq_ok_iff.2 (.inr ⟨hne, first, headers, names, ?_⟩), rfl⟩
    exact {
      entrySize_le := d.entrySize_le, count_le := d.count_le, length_lt := d.length_lt
      readFirst := carries_eq_iff.1 (readHeader _) first d.readFirst
      covers := h.covers d.covers
      readHeaders := carries_eq_iff.1 hheaders headers d.readHeaders
      readNames := carries_eq_iff.1 (namesView_carries h _ _) names d.readNames
      table := by rw [within, d.table] }

variable {t : SectionTable}

/-- What is copied for a section is the same in a longer file. -/
theorem copy_carries (h : t.view.Begins w) (name : String) (sh : SectionHeader) :
    Carries Eq (t.copy name sh options) ((t.within w).copy name sh options) := by
  rw [carries_eq_iff]
  intro bytes hb
  rcases copy_eq_ok_iff.1 hb with ⟨hdata, rfl⟩ | ⟨hdata, hm, hs⟩
  · exact copy_eq_ok_iff.2 (.inl ⟨hdata, rfl⟩)
  · exact copy_eq_ok_iff.2 (.inr ⟨hdata, hm, carries_eq_iff.1 (h.slice _ _) bytes hs⟩)

/-- A header becomes the same section in a longer file. -/
theorem loadEntry_carries (h : t.view.Begins w) (e : NamedHeader) :
    Carries Eq (t.loadEntry source options e) ((t.within w).loadEntry source options e) :=
  loadEntry_carries_of_copy (copy_carries h) rfl e

/-- A longer file has the same sections. -/
theorem load_carries (h : t.view.Begins w) : Carries Eq (t.load source options) ((t.within w).load source options) := by
  exact (Carries.mapM_eq (loadEntry_carries h) t.entries).map (by rintro os _ rfl; rfl)

theorem contentsOf_carries (h : t.view.Begins w) (sh : SectionHeader) :
    Carries Eq (t.contentsOf sh) ((t.within w).contentsOf sh) := by
  unfold contentsOf
  split
  · exact h.sub _ _
  · exact .refl _

theorem contents_carries (h : t.view.Begins w) (index : Nat) : Carries Eq (t.contents index) ((t.within w).contents index) := by
  unfold contents
  rw [show (t.within w).header? index = t.header? index from rfl]
  cases t.header? index with
  | none => exact .error _ _
  | some sh => exact contentsOf_carries h sh

end SectionTable

/-! ## Symbol tables -/

namespace SymbolTable

variable {t : SectionTable} {e : NamedHeader} {order : Endianness} {kind : SymbolSource}

/-- The parts of a symbol table are the same in a longer file. -/
theorem parts_carries (h : t.view.Begins w) (sh : SectionHeader) {p : View × View × Nat} (hp : parts t sh = .ok p) :
    parts (t.within w) sh = .ok p := by
  obtain ⟨entries, strings, size⟩ := p
  obtain ⟨hlink, hentries, hstrings, hsize⟩ := parts_eq_ok_iff.1 hp
  exact parts_eq_ok_iff.2 ⟨hlink, carries_eq_iff.1 (SectionTable.contentsOf_carries h _) _ hentries,
    carries_eq_iff.1 (SectionTable.contents_carries h _) _ hstrings, hsize⟩

/-- A symbol table that is read to its end is the same in a longer file. -/
theorem result_carries (h : t.view.Begins w) :
    Carries Eq (readEntry t e order kind options).result (readEntry (t.within w) e order kind options).result := by
  cases hp : parts t e.header with
  | error fault =>
    have : (readEntry t e order kind options).result = .error (.symbolTable (nameOf e) fault) := by
      simp only [readEntry, hp, TableReading.result, Reading.failure_failed]
    rw [this]
    exact .error _ _
  | ok p =>
    have : readEntry (t.within w) e order kind options = readEntry t e order kind options := by
      unfold readEntry
      rw [parts_carries h _ hp, hp]
      rfl
    rw [this]
    exact .refl _

end SymbolTable

namespace Image

/-- The image with another file to read contents from. -/
def within (image : Image) (w : View) : Image :=
  { image with sections := image.sections.within w }

/-- A longer file has the same headers. -/
theorem read_carries (h : v.Begins w) :
    Carries (fun image image' => image' = image.within w) (Image.read v options) (Image.read w options) := by
  intro image hi
  obtain ⟨hheader, hsupported, htable⟩ := read_eq_ok_iff.1 hi
  obtain ⟨_, htable', rfl⟩ := SectionTable.read_carries h _ _ htable
  have hheader' := carries_eq_iff.1 (Header.read_carries h) _ hheader
  exact ⟨image.within w, read_eq_ok_iff.2 ⟨hheader', hsupported, htable'⟩, rfl⟩

/-- The tables are the same table by table: the labels agree, and what is loaded is loaded from the longer file too. -/
theorem forall₂_symbolTables (options : Options) {image : Image} (h : image.sections.view.Begins w) :
    List.Forall₂ (fun t t' => t.label = t'.label ∧ ∀ table, t.outcome = .loaded table → t'.outcome = .loaded table)
      (image.symbolTables options) ((image.within w).symbolTables options) := by
  have main (type : UInt32) (kind : SymbolSource) (hs : kind = .dynamic ↔ type = SectionHeader.typeDynsym) :
      List.Forall₂ (fun t t' => t.label = t'.label ∧ ∀ table, t.outcome = .loaded table → t'.outcome = .loaded table)
        (image.tablesOfType options type kind) ((image.within w).tablesOfType options type kind) := by
    rw [tablesOfType_eq hs, tablesOfType_eq hs, List.forall₂_map_left_iff, List.forall₂_map_right_iff]
    refine List.forall₂_same.2 fun e _ => ⟨rfl, fun table ht => ?_⟩
    rw [LabelledTable.outcome_eq_loaded_iff] at ht ⊢
    exact carries_eq_iff.1 (SymbolTable.result_carries h) table ht
  exact List.rel_append (main _ _ (by decide)) (main _ _ (by decide))

end Image

end ExecImage.Elf
