import ExecImage.Text

/-!
# Symbols

A symbol names the address of a function. Symbols of other kinds exist in tables and in stored models; a load keeps
functions only.
-/

namespace ExecImage

/-- What a symbol names. -/
inductive SymbolKind where
  | function
  | unknown
  deriving DecidableEq, Repr, Inhabited

namespace SymbolKind

/-- A kind as it is shown in listings. -/
def label : SymbolKind → String
  | .function => "FUNC"
  | .unknown => "UKN"

end SymbolKind

/-- The kind of table that a symbol was read from. -/
inductive SymbolSource where
  /-- The static symbol table of an ELF image, or the COFF symbol table of a PE image. -/
  | static
  /-- The dynamic symbol table of an ELF image. -/
  | dynamic
  /-- The export directory of a PE image. -/
  | exported
  deriving DecidableEq, Repr, Inhabited

namespace SymbolSource

/-- A source as it is shown in listings. -/
def label : SymbolSource → String
  | .static => "static"
  | .dynamic => "dynamic"
  | .exported => "export"

end SymbolSource

/-- A name for an address. -/
structure Symbol where
  /-- What the symbol names. -/
  kind : SymbolKind
  /-- The name, empty if the table gives none that can be read. -/
  name : String
  /-- The address. -/
  addr : UInt64
  /-- The table that the symbol was read from. -/
  source : SymbolSource
  deriving DecidableEq, Repr, Inhabited

namespace Symbol

/-- A symbol that names a function. -/
def function (name : String) (addr : UInt64) (source : SymbolSource) : Symbol :=
  ⟨.function, name, addr, source⟩

/-- The symbol names a function. -/
def isFunction (s : Symbol) : Bool :=
  s.kind = .function

/-- The symbol as a line of a listing. -/
def line (s : Symbol) : String :=
  s!"{Text.column 40 s.name} {Text.hexAddress s.addr.toNat} {s.kind.label}"

end Symbol

end ExecImage
