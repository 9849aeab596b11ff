import ExecImage.Mangled.Itanium.Part

/-!
# How types are written around the things declared with them

In a declaration, part of a type stands before the thing declared and part behind it. What a type is wrapped in goes between
the two, in parentheses where a function or an array would claim it. References to references collapse to one.
-/

namespace ExecImage.Mangled.Itanium

/-- The text ends with one of several characters. -/
def endsIn (cs : List Char) (ends : List Char) : Bool :=
  cs.getLast?.any (· ∈ ends)

/-- A text with a space at its end. -/
def spaced (cs : List Char) : List Char :=
  if endsIn cs [' '] then cs else cs ++ [' ']

/-- A text with a word after it. -/
def withWord (cs : List Char) (word : String) : List Char :=
  spaced cs ++ word.toList

/-- A text with the words for qualifiers after it. -/
def withQualifiers (cs : List Char) (q : Qualifiers) : List Char :=
  q.words.foldl withWord cs

/-- Texts with a comma and a space between them. -/
def commaSeparated (texts : List (List Char)) : List Char :=
  List.intercalate [',', ' '] texts

/-- How a member of a pack behaves towards what the pack is wrapped in. -/
inductive Reaction where
  /-- It stays as it is. -/
  | inert
  /-- It takes what comes first. -/
  | takesOne
  /-- It takes all that comes, before what stands behind the thing declared. -/
  | takesAll
  /-- It is a reference, which collapses with one. -/
  | collapses (kind : ReferenceKind)
  deriving DecidableEq, Repr

/-- A member of a pack. -/
structure Item where
  left : List Char
  right : List Char
  reaction : Reaction
  deriving DecidableEq, Repr

namespace Item

/-- The text of a member. -/
def text (i : Item) : List Char :=
  i.left ++ i.right

/-- The member takes no more. -/
def settled (i : Item) : Item :=
  { i with reaction := .inert }

end Item

/-- What decides how a type is wrapped. -/
inductive Shape where
  | plain
  /-- A name with its scopes. -/
  | scoped
  | function
  | array
  | reference (kind : ReferenceKind)
  | pack (items : List Item)
  deriving DecidableEq, Repr

/-- A type as it is written: what stands before and what stands behind the thing declared. -/
structure Declarator where
  left : List Char
  right : List Char := []
  shape : Shape := .plain
  deriving DecidableEq, Repr

/-- A text with what a type is wrapped in after it. -/
def withWrapper (cs : List Char) : Wrapper → List Char
  | .qualified q => withQualifiers cs q
  | .pointer => cs ++ ['*']
  | .reference kind => cs ++ kind.symbol.toList
  | .complex => withWord cs "_Complex"
  | .imaginary => withWord cs "_Imaginary"

/-- Members of a pack after it is wrapped, and whether one of them took what it is wrapped in. -/
def wrapItems (w : Wrapper) : List Item → List Item × Bool
  | [] => ([], false)
  | i :: items =>
    let goOn := fun (i : Item) =>
      let (items, isTaken) := wrapItems w items
      (i.settled :: items, isTaken)
    match i.reaction, w with
    | .inert, _ => goOn i
    | .takesOne, _ => ({ i with left := withWrapper i.left w }.settled :: items, true)
    | .takesAll, _ => ({ i with left := withWrapper i.left w } :: items.map Item.settled, true)
    | .collapses .rvalue, .reference .lvalue => goOn { i with left := i.left.dropLast.dropLast }
    | .collapses _, .reference _ => (i.settled :: items, true)
    | .collapses _, _ => goOn i

/-- A member of a pack that is put at its end, or where there is no other. -/
def appendToItems (w : Wrapper) : List Item → List Item
  | [] => [{ left := withWrapper [] w, right := [], reaction := .inert }]
  | [i] => [{ left := withWrapper i.text w, right := [], reaction := .inert }]
  | i :: items => i :: appendToItems w items

namespace Declarator

/-- A type that is a text. -/
def ofText (cs : List Char) : Declarator :=
  { left := cs }

/-- The type as it is written with nothing declared. -/
def text (d : Declarator) : List Char :=
  d.left ++ d.right

/-- The type as a member of a pack. -/
def toItem (d : Declarator) : Item where
  left := d.left
  right := d.right
  reaction :=
    match d.shape with
    | .scoped => .takesOne
    | .reference kind => if d.right.isEmpty then .collapses kind else .takesAll
    | _ => if d.right.isEmpty then .inert else .takesAll

/-- A pack of types. -/
def ofItems (items : List Item) : Declarator where
  left := commaSeparated (items.map Item.text)
  shape := .pack items

/-- The type with parentheses around the thing declared, if it is a function or an array. -/
def opened (d : Declarator) (isSpaced : Bool) : Declarator :=
  let between := fun cs => { left := cs ++ ['('], right := ')' :: d.right : Declarator }
  match d.shape with
  | .function => between (if !isSpaced && endsIn d.left ['(', '*'] then d.left else spaced d.left)
  | .array => between (spaced d.left)
  | _ => d

/-- The type wrapped in a qualifier, a pointer or a reference. -/
def wrap (w : Wrapper) (d : Declarator) : Declarator :=
  match w, d.shape with
  | _, .pack items =>
    let (wrapped, isTaken) := wrapItems w items
    ofItems (if isTaken then wrapped else appendToItems w wrapped)
  | .qualified q, .array => { d with left := withQualifiers d.left q }
  | .reference _, .reference .lvalue => d
  | .reference .rvalue, .reference .rvalue => d
  | .reference .lvalue, .reference .rvalue => { d with left := d.left.dropLast, shape := .reference .lvalue }
  | .reference kind, _ =>
    let d := d.opened false
    { d with left := d.left ++ kind.symbol.toList, shape := .reference kind }
  | .pointer, _ =>
    let d := d.opened false
    { d with left := d.left ++ ['*'], shape := .plain }
  | w, _ =>
    let d := d.opened true
    { d with left := withWrapper d.left w, shape := .plain }

/-- A pointer to a member of a class. -/
def memberPointer (owner : List Char) (d : Declarator) : Declarator :=
  let d := d.opened true
  let left := if endsIn d.left ['('] then d.left else spaced d.left
  { d with left := left ++ owner ++ "::*".toList, shape := .plain }

/-- A function with this type as its result. -/
def functionOf (parameters trailing : List Char) (d : Declarator) : Declarator where
  left := if d.right.isEmpty then spaced d.left else d.left
  right := '(' :: parameters ++ ')' :: trailing ++ d.right
  shape := .function

/-- An array of elements of this type. -/
def arrayOf (size : List Char) (d : Declarator) : Declarator where
  left := d.left
  right := [' ', '['] ++ size ++ [']'] ++ (if d.shape = .array then d.right.drop 1 else d.right)
  shape := .array

end Declarator

end ExecImage.Mangled.Itanium
