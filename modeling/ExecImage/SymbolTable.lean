import ExecImage.Symbol
import ExecImage.Warning

/-!
# Reading and merging symbol tables

A table is read entry by entry. An entry contributes at most one symbol and at most one notice, and may say that entries
after it belong to it and are passed over. The reading stops at the first entry that cannot be read at all, and then no
symbol of the table survives, though the notices met on the way have been reported.

Tables are merged in the order given: symbols and warnings are concatenated, nothing is dropped but symbols that are no
functions, and a failed table leaves one warning.
-/

namespace ExecImage

/-- What one entry of a symbol table contributes. -/
structure TableEntry where
  /-- The symbol that the entry defines, if it is kept. -/
  symbol : Option Symbol := none
  /-- What the entry lacks. -/
  notice : Option Notice := none
  /-- How many entries after this one belong to it. -/
  trailing : Nat := 0
  deriving DecidableEq, Repr

/-- What reading a table has given. -/
structure Reading where
  /-- The symbols read, in the order of the table. -/
  symbols : List Symbol := []
  /-- The notices met, in the order of the table. -/
  notices : List Notice := []
  /-- The error that ended the reading before the end of the table. -/
  failure : Option LoadError := none
  deriving DecidableEq

namespace Reading

/-- A reading with the contribution of an entry before it. -/
def after (entry : TableEntry) (r : Reading) : Reading :=
  { r with symbols := entry.symbol.toList ++ r.symbols, notices := entry.notice.toList ++ r.notices }

/-- A reading with a notice before it. -/
def noting (notice : Option Notice) (r : Reading) : Reading :=
  { r with notices := notice.toList ++ r.notices }

/-- A reading that failed before any entry. -/
def failed (error : LoadError) : Reading :=
  { failure := some error }

end Reading

/-- Reads the entries from `index` up to `limit`. The fuel bounds the number of entries that are interpreted, which
`limit - index` always covers. -/
def readEntriesFrom (entry : Nat → Except LoadError TableEntry) (limit : Nat) : (fuel index : Nat) → Reading
  | 0, _ => {}
  | fuel + 1, index =>
    if index < limit then
      match entry index with
      | .error error => .failed error
      | .ok e => .after e (readEntriesFrom entry limit fuel (index + 1 + e.trailing))
    else {}

/-- Reads the entries of a table below `limit`. -/
def readEntries (entry : Nat → Except LoadError TableEntry) (limit : Nat) : Reading :=
  readEntriesFrom entry limit limit 0

/-- A symbol table that was read to its end. -/
structure LoadedTable where
  /-- The table's name. -/
  table : String
  /-- Its symbols. -/
  symbols : List Symbol := []
  /-- The trouble met in it. -/
  warnings : List Warning := []
  deriving DecidableEq, Repr

/-- What became of a symbol table. -/
inductive TableOutcome where
  | loaded (table : LoadedTable)
  | failed (table : String) (error : LoadError)
  deriving DecidableEq, Repr

namespace TableOutcome

/-- The outcome of a reading under a label. A loaded table goes by its own name. -/
def ofResult (label : String) : Except LoadError LoadedTable → TableOutcome
  | .ok t => .loaded t
  | .error e => .failed label e

/-- The name that an outcome goes by. -/
def table : TableOutcome → String
  | .loaded t => t.table
  | .failed label _ => label

/-- The symbols that an outcome contributes. -/
def symbols : TableOutcome → List Symbol
  | .loaded t => t.symbols.filter Symbol.isFunction
  | .failed _ _ => []

/-- The warnings that an outcome contributes. -/
def warnings : TableOutcome → List Warning
  | .loaded t => t.warnings
  | .failed label error => [.ofError label error]

/-- The events that merging an outcome gives rise to. -/
def events : TableOutcome → List Event
  | .loaded _ => []
  | .failed label error => [.skipped label error]

end TableOutcome

/-- A symbol table as it was read: its name, and what the reading gave. -/
structure TableReading where
  /-- The table's name. -/
  table : String
  /-- What reading it has given. -/
  reading : Reading
  deriving DecidableEq

namespace TableReading

/-- The notices of a reading under the table's name. -/
def warnings (t : TableReading) : List Warning :=
  t.reading.notices.map fun n => ⟨t.table, n.message⟩

/-- The table, if the reading came to its end. -/
def result (t : TableReading) : Except LoadError LoadedTable :=
  match t.reading.failure with
  | none => .ok { table := t.table, symbols := t.reading.symbols, warnings := t.warnings }
  | some error => .error error

/-- The events of the reading, whether or not it came to its end. -/
def events (t : TableReading) : List Event :=
  t.warnings.map .noticed

end TableReading

/-- A symbol table as it was read for an image. The label is the image's own name for the table, chosen before the
table is read; the reading goes by the name that its reader gives it. -/
structure LabelledTable where
  /-- The name under which the image asked for the table. -/
  label : String
  /-- The table as it was read. -/
  read : TableReading
  deriving DecidableEq

namespace LabelledTable

/-- What became of the table. -/
def outcome (t : LabelledTable) : TableOutcome :=
  .ofResult t.label t.read.result

end LabelledTable

/-- The symbols and the warnings of several tables together. -/
structure MergedSymbols where
  /-- The function symbols, table by table. -/
  symbols : List Symbol
  /-- The warnings, table by table. -/
  warnings : List Warning
  deriving DecidableEq, Repr

/-- Puts tables together in the order given. -/
def merge (outcomes : List TableOutcome) : MergedSymbols :=
  { symbols := outcomes.flatMap TableOutcome.symbols
    warnings := outcomes.flatMap TableOutcome.warnings }

/-- The log of reading tables in order and then merging them. -/
def tableEvents (tables : List LabelledTable) : List Event :=
  (tables.flatMap fun t => t.read.events) ++ tables.flatMap fun t => t.outcome.events

end ExecImage
