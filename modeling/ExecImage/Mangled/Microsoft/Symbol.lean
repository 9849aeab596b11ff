import ExecImage.Mangled.Microsoft.Source

/-!
# Reading and showing names of the Microsoft scheme

A name is written from the inside out, the item first and then its scopes, and after an at sign comes what the item is: a
variable with its type, or a function with its access, the way it is called, its result and its parameters.

A rule of the grammar is written against readers of what is one level further inside. Every level takes at least one
character, so that there are no more levels than characters.
-/

namespace ExecImage.Mangled.Microsoft

/-- Readers of the constructs at one level of nesting. -/
structure Readers where
  /-- A whole name with its type, after the mark that starts it. -/
  symbol : Parse (List Char)
  /-- The name of a class with its scopes. -/
  className : Parse (List Char)
  /-- A type. -/
  type : Parse Written

/-- Names with two colons between them. -/
def joinScopes (names : List (List Char)) : List Char :=
  List.intercalate [':', ':'] names

/-- Texts with a comma between them. -/
def commaSeparated (texts : List (List Char)) : List Char :=
  List.intercalate [','] texts

/-- Arguments in angle brackets, which are kept apart. -/
def inBrackets (arguments : List (List Char)) : List Char :=
  let body := commaSeparated arguments
  '<' :: body ++ (if body.getLast? = some '>' then [' '] else []) ++ ['>']

/-- The name of an item without its scopes. -/
inductive ItemName where
  | text (cs : List Char)
  | constructor
  | destructor
  | conversion
  deriving DecidableEq, Repr

namespace Readers

open Reader Parse

/-- A type that is not referred back to. One of more than one letter is kept. -/
def readNewParameter (inner : Readers) : Parse Written := do
  let before ← left
  let w ← inner.type
  if (← left) + 1 < before then rememberType w
  return w

/-- A parameter of a function or an argument of a template that is a type. -/
def readParameter (inner : Readers) : Parse Written :=
  knownType <|> inner.readNewParameter

/-- The marks of packs, which stand for no argument. -/
def packMarks : List Word := [⟨"$$V", ""⟩, ⟨"$$$V", ""⟩, ⟨"$$Z", ""⟩, ⟨"$S", ""⟩]

/-- An argument of a template, or none for the mark of a pack. -/
def readArgument (inner : Readers) : Parse (List (List Char)) :=
  (do let _ ← word packMarks; return []) <|>
  (do exactly "$0"; return [(toString (← integer)).toList]) <|>
  (do exactly "$1?"; return ['&' :: (← inner.symbol)]) <|>
  (do return [(← inner.readParameter).text])

/-- Arguments of a template. -/
def readArguments (inner : Readers) : Parse (List Char) := do
  let arguments ← many inner.readArgument
  exactly "@"
  return inBrackets arguments.flatten

/-- A template with arguments, after its mark. What is kept inside is kept apart. -/
def readTemplate (inner : Readers) : Parse (List Char) :=
  apart do
    let name ← newName
    return name ++ (← inner.readArguments)

/-- A scope: a name, a template, a namespace without a name, a block of a function or a function. -/
def readScope (inner : Readers) : Parse (List Char) :=
  knownName <|>
  (do exactly "?$"
      let name ← inner.readTemplate
      rememberName name
      return name) <|>
  (do exactly "?A"
      let _ ← takeWhile (· != '@')
      exactly "@"
      let name := "`anonymous namespace'".toList
      rememberName name
      return name) <|>
  (do exactly "??"
      return "`".toList ++ (← inner.symbol) ++ ['\'']) <|>
  (do exactly "?"
      return ("`" ++ toString (← natural) ++ "'").toList) <|>
  newName

/-- The scopes of an item, from the inside out. -/
def readScopes (inner : Readers) : Parse (List (List Char)) := do
  let scopes ← many inner.readScope
  exactly "@"
  return scopes

/-- The name of a class with its scopes. -/
def readClassName (inner : Readers) : Parse (List Char) := do
  let name ← inner.readScope
  let scopes ← inner.readScopes
  return joinScopes (name :: scopes).reverse

/-- The types of the parameters of a function and the mark of its end. -/
def readParameters (inner : Readers) : Parse (List Char) := do
  if ← accept "X" then
    exactly "Z"
    return "void".toList
  else
    let types ← many1 inner.readParameter
    let texts := types.map Written.text
    if ← accept "@" then
      exactly "Z"
      return commaSeparated texts
    else
      exactly "ZZ"
      return commaSeparated (texts ++ ["...".toList])

/-- The type of the result of a function. A constructor or destructor has none. -/
def readResult (inner : Readers) : Parse (Option Written) := do
  if ← accept "@" then return none
  else if ← accept "?" then
    let words ← word qualifiers
    return some ((← inner.type).qualified words)
  else return some (← inner.type)

/-- A function type: the way it is called, its result and its parameters. -/
def readFunctionType (inner : Readers) (trailing : String) : Parse Written := do
  let convention ← word conventions
  let result := (← inner.readResult).getD (.ofText [])
  let parameters ← inner.readParameters
  let right := ['('] ++ parameters ++ [')'] ++ trailing.toList ++ result.right
  return { left := result.left, right, shape := .function convention }

/-- The qualifiers of the object that a function is called on. -/
def readObject : Parse String := do
  pointerMarks
  let reference ← word [⟨"G", " &"⟩, ⟨"H", " &&"⟩] <|> pure ""
  return (← word qualifiers) ++ reference

/-- An array type: the number of its dimensions, the dimensions, and the type of its elements. -/
def readArray (inner : Readers) : Parse Written := do
  exactly "Y"
  let count ← natural
  let dimensions ← (List.range count).mapM fun _ => natural
  let words ← (do exactly "$$C"; word qualifiers) <|> pure ""
  let element ← inner.type
  let shown := dimensions.flatMap fun n => '[' :: (toString n).toList ++ [']']
  return { (element.qualified words) with right := shown ++ element.right, shape := .array }

/-- A pointer or a reference: to a function, to a member of a class, or to a value. -/
def readPointer (inner : Readers) : Parse Written := do
  let symbol ← word pointers
  if ← accept "6" then return (← inner.readFunctionType "").pointer [] symbol
  else if ← accept "8" then
    let owner ← inner.className
    let trailing ← readObject
    return (← inner.readFunctionType trailing).pointer (owner ++ [':', ':']) symbol
  else
    pointerMarks
    (do let words ← word qualifiers
        return ((← inner.readArray <|> inner.type).qualified words).pointer [] symbol) <|>
      (do let words ← word memberQualifiers
          let owner ← inner.className
          return ((← inner.type).qualified words).pointer (owner ++ [':', ':']) symbol)

/-- A type with a name and a word for its kind. -/
def readNamedType (inner : Readers) : Parse Written := do
  let kind ← word namedKinds
  return .ofText (kind.toList ++ ' ' :: (← inner.className))

/-- A type. -/
def readType (inner : Readers) : Parse Written :=
  ((fun s => Written.ofText s.toList) <$> word basicTypes) <|> inner.readNamedType <|> inner.readPointer <|>
    inner.readArray <|>
    (do exactly "$$B"; inner.readArray) <|>
    (do exactly "$$A6"; inner.readFunctionType "") <|>
    (do exactly "$$A8@@"; inner.readFunctionType (← readObject)) <|>
    (do exactly "$$C"
        let words ← word qualifiers
        return (← inner.type).qualified words) <|>
    (do exactly "?"
        let words ← word qualifiers
        return (← inner.type).qualified words)

/-- A name of what describes a class while a program runs, which holds a type or numbers. -/
def readDescriptor (inner : Readers) : Parse (List Char) :=
  (do exactly "_R0"
      return spaced (← inner.type).text ++ "`RTTI Type Descriptor'".toList) <|>
  (do exactly "_R1"
      let a ← integer
      let b ← integer
      let c ← integer
      let d ← integer
      let numbers := commaSeparated ([a, b, c, d].map fun n => (toString n).toList)
      return "`RTTI Base Class Descriptor at (".toList ++ numbers ++ [')', '\''])

/-- A name of a function that runs before or after a program for a variable. -/
def readDynamic : Parse (List Char) := do
  let kind ← word [⟨"__E", "`dynamic initializer for '"⟩, ⟨"__F", "`dynamic atexit destructor for '"⟩]
  return kind.toList ++ (← newName) ++ ['\'', '\'']

/-- The name of an operator or of what a compiler makes. -/
def readOperator (inner : Readers) : Parse ItemName :=
  (do exactly "0"; return .constructor) <|> (do exactly "1"; return .destructor) <|>
    (do exactly "B"; return .conversion) <|> (ItemName.text <$> inner.readDescriptor) <|> (ItemName.text <$> readDynamic) <|>
    (do exactly "__K"; return .text ("operator \"\" ".toList ++ (← newName))) <|>
    ((fun s => ItemName.text s.toList) <$> word operators)

/-- The name of an item without its scopes. -/
def readItemName (inner : Readers) : Parse ItemName :=
  (do exactly "?$?"
      apart do
        match ← inner.readOperator with
        | .text cs => return .text (cs ++ (← inner.readArguments))
        | item => do
          let _ ← inner.readArguments
          return item) <|>
  (do exactly "?$"; return .text (← inner.readTemplate)) <|>
  (do exactly "?"; inner.readOperator) <|>
  (ItemName.text <$> knownName) <|>
  (ItemName.text <$> newName)

/-- The name of an item with its scopes. A constructor has the name of its class, and a conversion that of its result. -/
def fullName (item : ItemName) (scopes : List (List Char)) (result : Option Written) : Parse (List Char) := do
  let name ← match item, scopes, result with
    | .text cs, _, _ => pure cs
    | .constructor, owner :: _, _ => pure owner
    | .destructor, owner :: _, _ => pure ('~' :: owner)
    | .conversion, _, some w => pure ("operator ".toList ++ w.text)
    | _, _, _ => failure
  return joinScopes (name :: scopes).reverse

/-- A variable: where it lives, its type and its name. Qualifiers after a pointer repeat those of what it points to. -/
def readVariable (inner : Readers) (item : ItemName) (scopes : List (List Char)) : Parse (List Char) := do
  let storage ← word storages
  let w ← inner.type
  pointerMarks
  let words ← word qualifiers
  let w := if w.shape = .pointer then w else w.qualified words
  return storage.toList ++ spaced w.left ++ (← fullName item scopes none) ++ w.right

/-- A table that a compiler makes for a class, or for a base of it. -/
def readTable (inner : Readers) (item : ItemName) (scopes : List (List Char)) : Parse (List Char) := do
  let _ ← oneOf ['6', '7']
  let words ← word qualifiers
  let name ← fullName item scopes none
  let shown := if words = "" then name else words.toList.drop 1 ++ [' '] ++ name
  if ← accept "@" then return shown
  else
    let base ← inner.className
    exactly "@"
    return shown ++ "\x7bfor `".toList ++ base ++ ['\'', '\x7d']

/-- A function: how it may be reached, the way it is called, its result, its name and its parameters. -/
def readFunction (inner : Readers) (item : ItemName) (scopes : List (List Char)) : Parse (List Char) := do
  let access ← choose Access.code accesses
  let adjustment ← if access.membership = .adjustedObject then
      (do return "`adjustor\x7b".toList ++ (toString (← integer)).toList ++ "\x7d' ".toList)
    else pure []
  let trailing ← if access.membership = .noObject then pure "" else readObject
  let convention ← word conventions
  let result ← inner.readResult
  let name ← fullName item scopes result
  let parameters ← inner.readParameters
  let shown := if item = .conversion then .ofText [] else result.getD (.ofText [])
  let before := if shown.left.isEmpty then [] else spaced shown.left
  let called := access.text.toList ++ before ++ convention.toList ++ [' '] ++ name ++ adjustment
  return called ++ ['('] ++ parameters ++ [')'] ++ shown.right ++ trailing.toList

/-- A whole name with its type, after the mark that starts it. Of a string literal only that it is one is shown. -/
def readSymbol (inner : Readers) : Parse (List Char) :=
  (do exactly "?_C@"
      let _ ← takeWhile fun _ => true
      return "`string'".toList) <|>
  (do let item ← inner.readItemName
      let scopes ← inner.readScopes
      inner.readVariable item scopes <|> inner.readTable item scopes <|> inner.readFunction item scopes <|>
        (do let _ ← oneOf ['8', '9']
            fullName item scopes none))

/-- Readers at a level at which nothing may be opened. -/
def innermost : Readers where
  symbol := failure
  className := failure
  type := failure

/-- Readers one level further out. -/
def outward (inner : Readers) : Readers where
  symbol := inner.readSymbol
  className := inner.readClassName
  type := inner.readType

end Readers

/-- Readers at a level inside which a number of constructs may be opened in one another. -/
def readersWith : (room : Nat) → Readers
  | 0 => .innermost
  | room + 1 => (readersWith room).outward

/-- The readable form of a name that starts with a question mark. -/
def read? (cs : List Char) : Option (List Char) :=
  match cs with
  | '?' :: rest => ((readersWith (rest.length + 1)).symbol { rest, kept := {} }).map Prod.fst
  | _ => none

end ExecImage.Mangled.Microsoft
