import ExecImage.Mangled.Itanium.Source

/-!
# The grammar of the Itanium scheme: constructs inside others

Names hold types, types hold names and expressions, and so on, without a bound. A rule of the grammar is written against the
readers of what is one level further inside, and the levels are put on top of one another where a whole name is read.
-/

namespace ExecImage.Mangled.Itanium

/-- Readers of the constructs at one level of nesting. -/
structure Readers where
  /-- A function with its types, a variable, or what a compiler makes for something. -/
  encoding : Parse Part
  /-- What a compiler makes for a type, a variable or a function. -/
  special : Parse Part
  /-- A name. -/
  name : Parse Part
  /-- A name with its scopes. -/
  nested : Parse Part
  /-- A path of scopes. -/
  path : Parse Part
  /-- One more scope, name or list of arguments of a path, or its end. -/
  pathStep : Option Part → Parse (Option Part ⊕ Part)
  /-- The name of something in the body of a function. -/
  localName : Parse Part
  /-- The name of an item without its scopes. -/
  unqualified : Parse Part
  /-- The name of an operator function. -/
  operatorName : Parse Part
  /-- Arguments of a template. -/
  arguments : Parse (List Part)
  /-- An argument of a template. -/
  argument : Parse Part
  /-- The types of the result and the parameters of a function. -/
  signature : Parse (List Part)
  /-- A type. -/
  type : Parse Part
  /-- A class, union or enumeration by its name. -/
  classType : Parse Part
  /-- A function type. -/
  functionType : Parse Part
  /-- The type of an expression. -/
  decltype : Parse Part
  /-- A literal, or a variable or function in the place of one. -/
  primary : Parse Part
  /-- A name whose scope is not known before a template is instantiated. -/
  unresolved : Parse Part
  /-- An expression. -/
  expression : Parse Part

/-- Readers at a level at which nothing may be opened. -/
def Readers.innermost : Readers where
  encoding := failure
  special := failure
  name := failure
  nested := failure
  path := failure
  pathStep := fun _ => failure
  localName := failure
  unqualified := failure
  operatorName := failure
  arguments := failure
  argument := failure
  signature := failure
  type := failure
  classType := failure
  functionType := failure
  decltype := failure
  primary := failure
  unresolved := failure
  expression := failure

end ExecImage.Mangled.Itanium
