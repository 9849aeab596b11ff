import ExecImage.Mangled.Itanium.Grammar

/-!
# The grammar of the Itanium scheme: types and arguments of templates

All types but the basic ones may be referred back to.
-/

namespace ExecImage.Mangled.Itanium.Readers

open Reader Parse

/-- The types of the result and the parameters of a function. -/
def readSignature (inner : Readers) : Parse (List Part) :=
  many1 inner.type

/-- A floating type of a number of bits. -/
def readFloating : Parse Part := do
  exactly "DF"
  let n ← decimal
  exactly "_"
  return .source ("_Float" ++ toString n).toList

/-- A basic type of a vendor. -/
def readVendorBasic : Parse Part := do
  exactly "u"
  return .source (← identifier)

/-- A class, union or enumeration by its name. -/
def readClassType (inner : Readers) : Parse Part :=
  inner.name <|> (do exactly "Ts"; return .elaborated "class" (← inner.name)) <|>
    (do exactly "Tu"; return .elaborated "union" (← inner.name)) <|>
    (do exactly "Te"; return .elaborated "enum" (← inner.name))

/-- A function type. -/
def readFunctionType (inner : Readers) : Parse Part := do
  let q ← qualifiers
  let isNoexcept ← accept "Do"
  let _ ← accept "Dx"
  exactly "F"
  let _ ← accept "Y"
  let types ← inner.signature
  let reference ← maybe referenceKind
  exactly "E"
  return .functionType types q isNoexcept reference

/-- An array type: its size, which may be left open, and the type of its elements. -/
def readArray (inner : Readers) : Parse Part := do
  exactly "A"
  if ← accept "_" then return .array none (← inner.type)
  else
    let size ← (Part.number <$> decimal) <|> inner.expression
    exactly "_"
    return .array (some size) (← inner.type)

/-- A vector type: its size and the type of its elements. -/
def readVector (inner : Readers) : Parse Part := do
  exactly "Dv"
  let size ← (Part.number <$> decimal) <|> (do exactly "_"; inner.expression)
  exactly "_"
  return .vector size (← inner.type)

/-- A pointer to a member: the class and the type of the member. -/
def readMemberPointer (inner : Readers) : Parse Part := do
  exactly "M"
  let owner ← inner.type
  return .memberPointer owner (← inner.type)

/-- A parameter of a template. One that is a template itself has arguments, which is kept apart from its use. -/
def readParameter (inner : Readers) : Parse Part := do
  let p ← parameter
  if (← peek?) = some 'I' && !(← kept).inConversion then
    let template ← remember p
    return .instantiated template (← inner.arguments)
  else return p

/-- What is put around a type. -/
def readWrapper : Parse Wrapper :=
  (Wrapper.qualified <$> someQualifiers) <|> (do exactly "P"; return .pointer) <|>
    (Wrapper.reference <$> referenceKind) <|> (do exactly "C"; return .complex) <|> (do exactly "G"; return .imaginary)

/-- A type that is made from another. -/
def readWrapped (inner : Readers) : Parse Part := do
  let w ← readWrapper
  return .wrapped w (← inner.type)

/-- A type with a qualifier of a vendor. -/
def readVendorQualified (inner : Readers) : Parse Part := do
  exactly "U"
  let p := .source (← identifier)
  let p ← (Part.instantiated p <$> inner.arguments) <|> pure p
  return .vendorQualified p (← inner.type)

/-- A pattern that is repeated for all members of a pack. -/
def readExpansion (inner : Readers) : Parse Part := do
  exactly "Dp"
  return .expansion (← inner.type)

/-- A type that may be referred back to. -/
def readRemembered (inner : Readers) : Parse Part :=
  inner.functionType <|> inner.readArray <|> inner.readVector <|> inner.readMemberPointer <|> inner.readParameter <|>
    inner.decltype <|> inner.readWrapped <|> inner.readVendorQualified <|> inner.readExpansion

/-- A type. -/
def readType (inner : Readers) : Parse Part :=
  basicType <|> readVendorBasic <|> readFloating <|> (inner.classType >>= remember) <|> substitution <|>
    (inner.readRemembered >>= remember)

/-- The type of an expression. -/
def readDecltype (inner : Readers) : Parse Part := do
  exactly "D"
  if !(← accept "t") then exactly "T"
  let e ← inner.expression
  exactly "E"
  return .decltype e

/-- Arguments in the place of one. -/
def readPack (inner : Readers) : Parse Part := do
  if !(← accept "J") then exactly "I"
  return .pack (← untilEnd inner.argument)

/-- An argument of a template: an expression, a type or a pack of arguments. -/
def readArgument (inner : Readers) : Parse Part :=
  (do exactly "X"; let e ← inner.expression; exactly "E"; return e) <|> inner.primary <|> inner.type <|> inner.readPack

/-- Arguments of a template, of which there is at least one. -/
def readArguments (inner : Readers) : Parse (List Part) := do
  exactly "I"
  let xs ← many1 inner.argument
  exactly "E"
  return xs

end ExecImage.Mangled.Itanium.Readers
