import ExecImage.Mangled.Itanium.Grammar

/-!
# The grammar of the Itanium scheme: expressions

An expression stands in a name where a type or an argument depends on it.
-/

namespace ExecImage.Mangled.Itanium.Readers

open Reader Parse

/-- A literal: its type and how it is written. -/
def readLiteral (inner : Readers) : Parse Part := do
  let ofType ← inner.type
  let digits ← takeWhile (· != 'E')
  exactly "E"
  return .literal ofType digits

/-- A variable or function in the place of a literal. -/
def readExternal (inner : Readers) : Parse Part := do
  if !(← accept "_Z") then exactly "Z"
  let p ← inner.encoding
  exactly "E"
  return p

/-- A literal, or a variable or function in the place of one. -/
def readPrimary (inner : Readers) : Parse Part := do
  exactly "L"
  inner.readLiteral <|> inner.readExternal

/-- A name with the arguments after it, if there are any. -/
def withArguments (inner : Readers) (p : Part) : Parse Part :=
  (Part.instantiated p <$> inner.arguments) <|> pure p

/-- An identifier with the arguments after it. -/
def readSimple (inner : Readers) : Parse Part := do
  inner.withArguments (.source (← identifier))

/-- The last name of one whose scope is not known. -/
def readUnresolvedBase (inner : Readers) : Parse Part :=
  inner.readSimple <|> (do exactly "on"; inner.withArguments (← inner.operatorName)) <|>
    (do exactly "dn"; return .enclosed "~" (← inner.readSimple) "")

/-- The type that a name is looked up in. -/
def readUnresolvedScope (inner : Readers) : Parse Part := do
  let p ← (parameter >>= remember) <|> (inner.decltype >>= remember) <|> substitution
  (do let xs ← inner.arguments
      remember (.instantiated p xs)) <|> pure p

/-- A name that is looked up in a scope of a type. -/
def readInnerScope (inner : Readers) : Parse Part := do
  exactly "N"
  let scope ← inner.readUnresolvedScope
  let scopes ← many1 inner.readSimple
  exactly "E"
  return .member (scopes.foldl .member scope) (← inner.readUnresolvedBase)

/-- A name that is looked up in scopes. -/
def readOuterScope (inner : Readers) : Parse Part := do
  let first ← inner.readSimple
  let scopes ← untilEnd inner.readSimple
  return .member (scopes.foldl .member first) (← inner.readUnresolvedBase)

/-- A name that is looked up in a type. -/
def readTypeScope (inner : Readers) : Parse Part := do
  let scope ← inner.type
  return .member scope (← inner.readUnresolvedBase)

/-- A name with the scope that it is looked up in. -/
def readLookedUp (inner : Readers) : Parse Part := do
  exactly "sr"
  inner.readInnerScope <|> inner.readOuterScope <|> inner.readTypeScope

/-- A name whose scope is not known before a template is instantiated. -/
def readUnresolved (inner : Readers) : Parse Part :=
  inner.readLookedUp <|> inner.readUnresolvedBase

/-- A parameter of a function, or the object that it is called on. -/
def readFunctionParameter : Parse Part := do
  if ← accept "fpT" then return .functionParameter none
  else
    if !(← accept "fp") then
      exactly "fL"
      let _ ← decimal
      exactly "p"
    let _ ← qualifiers
    return .functionParameter (some (← ordinal decimal))

/-- An operator with its operands. -/
def readOperation (inner : Readers) : Parse Part := do
  let op ← operator
  match op.arity with
  | 1 => return .unary op.symbol (← inner.expression)
  | 2 =>
    let left ← inner.expression
    return .binary op.symbol left (← inner.expression)
  | _ =>
    if op.code != "qu" then failure
    let condition ← inner.expression
    let yes ← inner.expression
    return .choice condition yes (← inner.expression)

/-- An expression with a code for a word, which is written around a type or an expression. -/
def readWorded (inner : Readers) : Parse Part :=
  (do exactly "pp_"; return .enclosed "++" (← inner.expression) "") <|>
  (do exactly "mm_"; return .enclosed "--" (← inner.expression) "") <|>
  (do exactly "ti"; return .enclosed "typeid (" (← inner.type) ")") <|>
  (do exactly "te"; return .enclosed "typeid (" (← inner.expression) ")") <|>
  (do exactly "st"; return .enclosed "sizeof (" (← inner.type) ")") <|>
  (do exactly "sz"; return .enclosed "sizeof (" (← inner.expression) ")") <|>
  (do exactly "at"; return .enclosed "alignof (" (← inner.type) ")") <|>
  (do exactly "az"; return .enclosed "alignof (" (← inner.expression) ")") <|>
  (do exactly "nx"; return .enclosed "noexcept (" (← inner.expression) ")") <|>
  (do exactly "sZ"; return .enclosed "sizeof...(" (← parameter <|> readFunctionParameter) ")") <|>
  (do exactly "sp"; return .expansion (← inner.expression)) <|>
  (do exactly "tw"; return .enclosed "throw " (← inner.expression) "") <|>
  (do exactly "tr"; return .source "throw".toList) <|>
  (do exactly "gs"; return .enclosed "::" (← inner.unresolved) "")

/-- An expression with two parts and a code for the word or symbol between or before them. -/
def readPaired (inner : Readers) : Parse Part :=
  (do exactly "dc"; return .cast "dynamic_cast" (← inner.type) (← inner.expression)) <|>
  (do exactly "sc"; return .cast "static_cast" (← inner.type) (← inner.expression)) <|>
  (do exactly "cc"; return .cast "const_cast" (← inner.type) (← inner.expression)) <|>
  (do exactly "rc"; return .cast "reinterpret_cast" (← inner.type) (← inner.expression)) <|>
  (do exactly "dt"; return .access "." (← inner.expression) (← inner.unresolved)) <|>
  (do exactly "pt"; return .access "->" (← inner.expression) (← inner.unresolved)) <|>
  (do exactly "ds"; return .access ".*" (← inner.expression) (← inner.expression))

/-- A call, a conversion or a list in braces. -/
def readListed (inner : Readers) : Parse Part :=
  (do exactly "cl"; let f ← inner.expression; return .call f (← untilEnd inner.expression)) <|>
  (do exactly "cv"
      let target ← inner.type
      if ← accept "_" then return .convert target (← untilEnd inner.expression)
      else return .convert target [← inner.expression]) <|>
  (do exactly "tl"; let t ← inner.type; return .braced (some t) (← untilEnd inner.expression)) <|>
  (do exactly "il"; return .braced none (← untilEnd inner.expression))

/-- An expression. -/
def readExpression (inner : Readers) : Parse Part :=
  inner.readWorded <|> inner.readPaired <|> inner.readListed <|> inner.readOperation <|> parameter <|>
    readFunctionParameter <|> inner.unresolved <|> inner.primary

end ExecImage.Mangled.Itanium.Readers
