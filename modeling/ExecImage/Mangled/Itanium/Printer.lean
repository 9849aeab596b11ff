import ExecImage.Mangled.Itanium.Declarator

/-!
# Showing names of the Itanium scheme

A part is shown in a scope, which holds the arguments that its parameters stand for and the class that its constructors and
destructors are of. Parameters of closures have no arguments and are shown by their numbers.

An expansion of a pattern is marked with three dots as long as no pack has been shown.
-/

namespace ExecImage.Mangled.Itanium

/-- What surrounds a part. -/
structure Scope where
  /-- The arguments of the templates around the part, from the inside out. -/
  arguments : List (List Part) := []
  /-- The class or namespace that the part is a member of. -/
  owner : Option Part := none
  /-- The part is a parameter of a closure. -/
  inLambda : Bool := false

namespace Scope

/-- The argument that a parameter stands for. -/
def argument? (s : Scope) (index : Nat) : Option Part :=
  s.arguments.findSome? fun xs => xs[index]?

/-- The scope inside a template with arguments. -/
def inside (s : Scope) : Option (List Part) → Scope
  | some xs => { s with arguments := xs :: s.arguments }
  | none => s

end Scope

/-- Showing a part may fail, and remembers whether a pack has been shown. -/
abbrev Showing := StateT Bool Option

/-- A way to show parts. -/
abbrev Display := Scope → Part → Showing Declarator

namespace Display

/-- The text of a part. -/
def text (inner : Display) (scope : Scope) (p : Part) : Showing (List Char) :=
  Declarator.text <$> inner scope p

/-- The texts of parts, in order. -/
def texts (inner : Display) (scope : Scope) (ps : List Part) : Showing (List (List Char)) :=
  ps.mapM (inner.text scope)

/-- The text of a list of parts. -/
def list (inner : Display) (scope : Scope) (ps : List Part) : Showing (List Char) :=
  commaSeparated <$> inner.texts scope ps

/-- Arguments of a template after its name. Angle brackets are kept apart from those beside them. -/
def arguments (inner : Display) (scope : Scope) (before : List Char) (xs : List Part) : Showing (List Char) := do
  let body ← inner.list scope xs
  let first := if endsIn before ['<'] then [' '] else []
  let last := if endsIn body ['>'] then [' '] else []
  return first ++ '<' :: body ++ last ++ ['>']

/-- Parameters of a function. An only parameter of type void is none. -/
def parameters (inner : Display) (scope : Scope) : List Part → Showing (List Char)
  | [.basic ⟨"v", _⟩] => return []
  | types => inner.list scope types

/-- The kind of reference that a function is called on, after what comes before it. -/
def withReference (cs : List Char) : Option ReferenceKind → List Char
  | some kind => withWord cs kind.symbol
  | none => cs

/-- The name of a constructor, which is that of its class or of the class that it is taken over from. -/
def constructor (inner : Display) (scope : Scope) (inherited : Option Part) : Showing (List Char) :=
  match inherited.elim scope.owner some >>= Part.className? with
  | some p => inner.text scope p
  | none => failure

/-- A function: its result if the name is a template's, its name, and its parameters. -/
def function (inner : Display) (scope : Scope) (name : Part) (types : List Part) : Showing Declarator := do
  let scope := scope.inside name.arguments?
  let hasResult := name.arguments?.isSome && !name.hasNoResult
  let result ← if hasResult then (· ++ [' ']) <$> inner.list scope (types.take 1) else pure []
  let shown ← inner scope name
  let parameters ← inner.parameters scope (if hasResult then types.drop 1 else types)
  return .ofText (result ++ shown.left ++ '(' :: parameters ++ ')' :: shown.right)

/-- A function type. -/
def functionType (inner : Display) (scope : Scope) (types : List Part) (q : Qualifiers) (isNoexcept : Bool)
    (reference : Option ReferenceKind) : Showing Declarator :=
  match types with
  | [] => failure
  | result :: types => do
    let d ← inner scope result
    let parameters ← inner.parameters scope types
    let trailing := withReference (withQualifiers [] q) reference
    return d.functionOf parameters (if isNoexcept then withWord trailing "noexcept" else trailing)

/-- How a literal is written: the letter for a sign comes first. -/
def digits : List Char → List Char
  | 'n' :: cs => '-' :: cs
  | cs => cs

/-- A literal: its type is shown unless it has a mark or is plain. -/
def literal (inner : Display) (scope : Scope) (ofType : Part) (cs : List Char) : Showing (List Char) := do
  let typed := return '(' :: (← inner.text scope ofType) ++ [')']
  match ofType with
  | .basic b =>
    match b.code with
    | "b" =>
      match cs with
      | ['0'] => return "false".toList
      | ['1'] => return "true".toList
      | _ => return (← typed) ++ digits cs
    | "i" => return digits cs
    | "j" => return digits cs ++ ['u']
    | "l" => return digits cs ++ ['l']
    | "m" => return digits cs ++ ['u', 'l']
    | "x" => return digits cs ++ ['l', 'l']
    | "y" => return digits cs ++ ['u', 'l', 'l']
    | "f" | "d" | "e" | "g" => return (← typed) ++ '[' :: digits cs ++ [']']
    | _ => return (← typed) ++ digits cs
  | _ => return (← typed) ++ digits cs

/-- A pattern for all members of a pack. -/
def expansion (inner : Display) (scope : Scope) (pattern : Part) : Showing Declarator := do
  let d ← inner scope pattern
  if ← get then return d else return .ofText (d.text ++ ['.', '.', '.'])

/-- The argument of a parameter. -/
def parameter (inner : Display) (scope : Scope) (index : Nat) : Showing Declarator :=
  if scope.inLambda then return .ofText ("auto:" ++ toString (index + 1)).toList
  else
    match scope.argument? index with
    | some p => inner scope p
    | none => failure

/-- A pack of arguments. -/
def pack (inner : Display) (scope : Scope) (xs : List Part) : Showing Declarator := do
  set true
  return .ofItems ((← xs.mapM (inner scope)).map Declarator.toItem)

/-- The identifier, or what is shown for a namespace without a name. -/
def identifier (name : List Char) : List Char :=
  match name.drop 8 with
  | c :: 'N' :: _ =>
    if name.take 8 = "_GLOBAL_".toList ∧ c ∈ ['.', '_', '$'] then "(anonymous namespace)".toList else name
  | _ => name

/-- The name of an item without its scopes. -/
def simpleName? : Part → Option (List Char)
  | .source name => some (identifier name)
  | .abbreviation a => some a.text.toList
  | .operator op => some ((if op.isWord then "operator " else "operator") ++ op.symbol).toList
  | .literalOperator suffix => some ("operator\"\" ".toList ++ suffix)
  | .unnamed n => some ("\x7bunnamed type#" ++ toString (n + 1) ++ "\x7d").toList
  | .number n => some (toString n).toList
  | .functionParameter none => some "this".toList
  | .functionParameter (some n) => some ("\x7bparm#" ++ toString (n + 1) ++ "\x7d").toList
  | .basic b => some b.name.toList
  | _ => none

/-- A name. -/
def name (inner : Display) (scope : Scope) : Part → Showing Declarator
  | .tagged p tags => do
    let shown ← inner.text scope p
    return .ofText (shown ++ tags.flatMap fun t => "[abi:".toList ++ t ++ [']'])
  | .conversion target => return .ofText ("operator ".toList ++ (← inner.text { scope with owner := none } target))
  | .constructor inherited => .ofText <$> inner.constructor scope inherited
  | .destructor => return .ofText ('~' :: (← inner.constructor scope none))
  | .lambda parameters n => do
    let shown ← inner.list { scope with inLambda := true } parameters
    return .ofText ("\x7blambda(".toList ++ shown ++ (")#" ++ toString (n + 1) ++ "\x7d").toList)
  | .member path p => do
    let before ← inner.text scope path
    return .ofText (before ++ [':', ':'] ++ (← inner.text { scope with owner := some path } p))
  | .instantiated template xs => do
    let before ← inner.text scope template
    return .ofText (before ++ (← inner.arguments scope before xs))
  | .nested path q reference =>
    return { left := ← inner.text scope path, right := withReference (withQualifiers [] q) reference, shape := .scoped }
  | .inFunction f none => return .ofText ((← inner.text scope f) ++ "::string literal".toList)
  | .inFunction f (some entity) => do
    let before ← inner.text scope f
    let d ← inner scope entity
    return { d with left := before ++ [':', ':'] ++ d.left }
  | _ => failure

/-- An expression. -/
def expression (inner : Display) (scope : Scope) : Part → Showing (List Char)
  | .literal ofType cs => inner.literal scope ofType cs
  | .unary symbol e => return symbol.toList ++ (← inner.text scope e)
  | .binary symbol left right => do
    let left ← inner.text scope left
    let right ← inner.text scope right
    let shown := '(' :: left ++ [')'] ++ symbol.toList ++ '(' :: right ++ [')']
    return if symbol = ">" then '(' :: shown ++ [')'] else shown
  | .choice condition yes no => do
    let condition ← inner.text scope condition
    let yes ← inner.text scope yes
    return condition ++ [' ', '?', ' '] ++ yes ++ [' ', ':', ' '] ++ (← inner.text scope no)
  | .call f xs => do
    let f ← inner.text scope f
    return '(' :: f ++ [')', '('] ++ (← inner.list scope xs) ++ [')']
  | .convert target xs => do
    let target ← inner.text scope target
    return '(' :: target ++ [')', '('] ++ (← inner.list scope xs) ++ [')']
  | .braced target xs => do
    let target ← match target with
      | some target => inner.text scope target
      | none => pure []
    return target ++ '\x7b' :: (← inner.list scope xs) ++ ['\x7d']
  | .cast keyword target e => do
    let target ← inner.text scope target
    return keyword.toList ++ '<' :: target ++ ['>', '('] ++ (← inner.text scope e) ++ [')']
  | .enclosed before e after => return before.toList ++ (← inner.text scope e) ++ after.toList
  | .access symbol e p => do
    let e ← inner.text scope e
    return e ++ symbol.toList ++ (← inner.text scope p)
  | .decltype e => return "decltype (".toList ++ (← inner.text scope e) ++ [')']
  | _ => failure

/-- A part: a name, a type, an expression or what a compiler makes for something. -/
def part (inner : Display) (scope : Scope) (p : Part) : Showing Declarator :=
  match simpleName? p with
  | some cs => return .ofText cs
  | none =>
    match p with
    | .function f types => inner.function scope f types
    | .special role p => return .ofText (role.before.toList ++ (← inner.text scope p) ++ role.after.toList)
    | .constructionTable derived base => do
      let derived ← inner.text scope derived
      return .ofText ("construction vtable for ".toList ++ derived ++ "-in-".toList ++ (← inner.text scope base))
    | .elaborated keyword p => return .ofText (keyword.toList ++ ' ' :: (← inner.text scope p))
    | .functionType types q isNoexcept reference => inner.functionType scope types q isNoexcept reference
    | .array none element => return (← inner scope element).arrayOf []
    | .array (some size) element => do
      let d ← inner scope element
      return d.arrayOf (← inner.text scope size)
    | .vector size element => do
      let d ← inner scope element
      return { d with left := d.left ++ " __vector(".toList ++ (← inner.text scope size) ++ [')'], shape := .plain }
    | .memberPointer owner target => do
      let d ← inner scope target
      return d.memberPointer (← inner.text scope owner)
    | .parameter index => inner.parameter scope index
    | .wrapped w inside => return (← inner scope inside).wrap w
    | .vendorQualified q inside => do
      let shown ← inner.text scope inside
      return .ofText (shown ++ ' ' :: (← inner.text scope q))
    | .expansion pattern => inner.expansion scope pattern
    | .pack xs => inner.pack scope xs
    | _ => inner.name scope p <|> (.ofText <$> inner.expression scope p)

end Display

/-- A way to show parts with a number of others in one another inside them. -/
def displayWith : (room : Nat) → Display
  | 0 => fun _ _ => failure
  | room + 1 => (displayWith room).part

/-- The most parts that are shown inside one another. -/
def maxShown : Nat := 128

/-- A name and the suffixes of copies as they are shown. -/
def render? (p : Part) (suffixes : List (List Char)) : Option (List Char) := do
  let (d, _) ← (displayWith maxShown {} p).run false
  return d.text ++ suffixes.flatMap fun s => " [clone ".toList ++ s ++ [']']

end ExecImage.Mangled.Itanium
