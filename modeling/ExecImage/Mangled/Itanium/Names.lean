import ExecImage.Mangled.Itanium.Grammar

/-!
# The grammar of the Itanium scheme: names

What may be referred back to is part of the grammar: the scopes and templates on the way to a name, but not the name at the end
of a nested one.
-/

namespace ExecImage.Mangled.Itanium.Readers

open Reader Parse

/-- The name of a conversion function. -/
def readConversion (inner : Readers) : Parse Part := do
  exactly "cv"
  keep fun m => { m with inConversion := true }
  let target ← inner.type
  keep fun m => { m with inConversion := false }
  return .conversion target

/-- The name of an operator function. -/
def readOperatorName (inner : Readers) : Parse Part :=
  (Part.operator <$> operator) <|> (do exactly "li"; return .literalOperator (← identifier)) <|> inner.readConversion

/-- The name of a constructor or a destructor. -/
def readConstructorName (inner : Readers) : Parse Part := do
  if ← accept "CI" then
    let _ ← oneOf ['1', '2']
    return .constructor (some (← inner.type))
  else if ← accept "C" then
    let _ ← oneOf ['1', '2', '3', '4']
    return .constructor none
  else
    exactly "D"
    let _ ← oneOf ['0', '1', '2', '4']
    return .destructor

/-- A name that only one file knows. -/
def readFileLocal : Parse Part := do
  exactly "L"
  let name ← identifier
  let _ ← maybe discriminator
  withTags (.source name)

/-- A closure type: its parameters and its number. -/
def readLambda (inner : Readers) : Parse Part := do
  exactly "Ul"
  let parameters ← (do exactly "vE"; return []) <|> untilEnd inner.type
  return .lambda parameters (← ordinal decimal)

/-- A type without a name. -/
def readUnnamed : Parse Part := do
  exactly "Ut"
  return .unnamed (← ordinal decimal)

/-- The name of an item without its scopes. -/
def readUnqualified (inner : Readers) : Parse Part :=
  (inner.operatorName >>= withTags) <|> (inner.readConstructorName >>= withTags) <|> readFileLocal <|>
    (identifier >>= fun name => withTags (.source name)) <|> inner.readLambda <|> readUnnamed

/-- The character may start the name of an item. -/
def startsUnqualified (c : Char) : Bool :=
  c.isDigit || c.isLower || c = 'C' || c = 'D' || c = 'L' || c = 'U'

/-- Keeps a part of a path unless the path ends with it. -/
def rememberUnlessLast (p : Part) : Parse Part := do
  if (← peek?) = some 'E' then return p else remember p

/-- One more name of a path. A name of a variable whose initializer is meant ends with a letter of its own. -/
def readScope (inner : Readers) (before : Option Part) : Parse (Option Part ⊕ Part) := do
  let name ← inner.unqualified
  let p := match before with
    | some p => .member p name
    | none => name
  let p ← rememberUnlessLast p
  let _ ← accept "M"
  return .inl (some p)

/-- One more scope, name or list of arguments of a path, or its end. -/
def readPathStep (inner : Readers) (before : Option Part) : Parse (Option Part ⊕ Part) := do
  match ← peek?, before with
  | none, some p | some 'E', some p => return .inr p
  | none, none | some 'E', none => failure
  | some 'S', none => return .inl (some (← substitution))
  | some 'T', none => return .inl (some (← parameter >>= remember))
  | some 'S', some _ | some 'T', some _ => failure
  | some 'I', some p => return .inl (some (← rememberUnlessLast (.instantiated p (← inner.arguments))))
  | some 'D', none =>
    match ← maybe inner.decltype with
    | some p => return .inl (some (← remember p))
    | none => inner.readScope none
  | some c, some p => if startsUnqualified c then inner.readScope (some p) else return .inr p
  | some c, none => if startsUnqualified c then inner.readScope none else failure

/-- A path of scopes. -/
def readPath (inner : Readers) : Parse Part :=
  loop inner.pathStep none

/-- A name with its scopes, of which there is at least one. -/
def readNested (inner : Readers) : Parse Part := do
  exactly "N"
  let q ← qualifiers
  let reference ← maybe referenceKind
  let p ← inner.path
  exactly "E"
  match p with
  | .member _ _ | .instantiated _ _ => return .nested p q reference
  | _ => failure

/-- A name in no scope or in that of the standard library, with the arguments after it. -/
def readUnscoped (inner : Readers) : Parse Part := do
  let p ← (do exactly "St"; return .member (.abbreviation .std) (← inner.unqualified)) <|> inner.unqualified
  if (← peek?) = some 'I' then
    let template ← remember p
    return .instantiated template (← inner.arguments)
  else return p

/-- A template that is referred back to, with its arguments. -/
def readKnownTemplate (inner : Readers) : Parse Part := do
  let template ← substitution
  return .instantiated template (← inner.arguments)

/-- The name of something in the body of a function. -/
def readLocalName (inner : Readers) : Parse Part := do
  exactly "Z"
  let function ← inner.encoding
  exactly "E"
  if ← accept "s" then
    let _ ← maybe discriminator
    return .inFunction function none
  else if ← accept "d" then
    let _ ← maybe decimal
    exactly "_"
    return .inFunction function (some (← inner.name))
  else
    let entity ← inner.name
    let _ ← maybe discriminator
    return .inFunction function (some entity)

/-- A name. -/
def readName (inner : Readers) : Parse Part :=
  inner.nested <|> inner.readUnscoped <|> inner.readKnownTemplate <|> inner.localName

/-- What a compiler makes for a type, a variable or a function. -/
def readSpecial (inner : Readers) : Parse Part := do
  match ← Reader.take 2 with
  | ['T', 'V'] => return .special .virtualTable (← inner.type)
  | ['T', 'T'] => return .special .tableOfVirtualTables (← inner.type)
  | ['T', 'I'] => return .special .typeInfo (← inner.type)
  | ['T', 'S'] => return .special .typeInfoName (← inner.type)
  | ['T', 'F'] => return .special .typeInfoFunction (← inner.type)
  | ['T', 'H'] => return .special .initOfThreadLocal (← inner.name)
  | ['T', 'W'] => return .special .wrapperOfThreadLocal (← inner.name)
  | ['T', 'h'] =>
    let a ← offset
    return .special (.thunk [a]) (← inner.encoding)
  | ['T', 'v'] =>
    let a ← virtualOffset
    return .special (.thunk [a]) (← inner.encoding)
  | ['T', 'c'] =>
    let a ← adjustment
    let b ← adjustment
    return .special (.thunk [a, b]) (← inner.encoding)
  | ['T', 'C'] =>
    let derived ← inner.type
    let _ ← decimal
    exactly "_"
    return .constructionTable derived (← inner.type)
  | ['G', 'V'] => return .special .guard (← inner.name)
  | ['G', 'R'] =>
    let p ← inner.name
    return .special (.temporary (← ordinal base36)) p
  | ['G', 'A'] => return .special .hiddenAlias (← inner.encoding)
  | ['G', 'T'] =>
    if ← accept "t" then return .special .transactionClone (← inner.encoding)
    else
      exactly "n"
      return .special .nonTransactionClone (← inner.encoding)
  | _ => failure

/-- A function with its types, or a variable. -/
def readOrdinary (inner : Readers) : Parse Part := do
  let p ← inner.name
  match ← maybe inner.signature with
  | some types => return .function p types
  | none => return p

/-- A function with its types, a variable, or what a compiler makes for something. -/
def readEncoding (inner : Readers) : Parse Part :=
  inner.readOrdinary <|> inner.special

end ExecImage.Mangled.Itanium.Readers
