import ExecImage.Json.Token

/-!
# Values of JSON

A value is built from tokens by a machine that holds the arrays and objects that are open around the place that it
has reached. A document is one value. The members of an object keep their order, and a key may occur twice: what that
means is for the reader of the object to say.
-/

namespace ExecImage

/-- A JSON value. -/
inductive Json where
  | null
  | bool (b : Bool)
  /-- A number written in decimal digits alone. -/
  | natural (n : Nat)
  /-- Any other number, as it is written. -/
  | number (text : String)
  /-- A string, with its text if it holds one. -/
  | text (s : Option String)
  | array (items : List Json)
  | object (members : List (Option String × Json))
  deriving Inhabited

namespace Json

/-- An array or an object that is open around a value, with what it holds before the value, last first. -/
inductive Frame where
  | array (items : List Json)
  | object (members : List (Option String × Json)) (key : Option String)

/-- A place in a document between two tokens, with what is open around it, innermost first. -/
inductive Place where
  /-- A value comes next. -/
  | value (around : List Frame)
  /-- An array has been opened. -/
  | arrayStart (around : List Frame)
  /-- An item of an array has been read. -/
  | item (items : List Json) (around : List Frame)
  /-- An object has been opened. -/
  | objectStart (around : List Frame)
  /-- A key comes next. -/
  | key (members : List (Option String × Json)) (around : List Frame)
  /-- A key has been read. -/
  | keyed (key : Option String) (members : List (Option String × Json)) (around : List Frame)
  /-- A member of an object has been read. -/
  | member (members : List (Option String × Json)) (around : List Frame)
  /-- The value of the document has been read. -/
  | complete (j : Json)

namespace Place

/-- The place after a value. -/
def after (j : Json) : List Frame → Place
  | [] => complete j
  | .array items :: around => item (j :: items) around
  | .object members name :: around => member ((name, j) :: members) around

/-- The place after a token that starts a value. -/
def start (around : List Frame) : Token → Option Place
  | .null => some (after .null around)
  | .bool b => some (after (.bool b) around)
  | .natural n => some (after (.natural n) around)
  | .number s => some (after (.number s) around)
  | .text s => some (after (.text s) around)
  | .openArray => some (arrayStart around)
  | .openObject => some (objectStart around)
  | _ => none

/-- The place after a token, if the token may stand there. -/
def step : Place → Token → Option Place
  | value around, t => start around t
  | arrayStart around, .closeArray => some (after (.array []) around)
  | arrayStart around, t => start (.array [] :: around) t
  | item items around, .comma => some (value (.array items :: around))
  | item items around, .closeArray => some (after (.array items.reverse) around)
  | objectStart around, .closeObject => some (after (.object []) around)
  | objectStart around, .text s => some (keyed s [] around)
  | key members around, .text s => some (keyed s members around)
  | keyed s members around, .colon => some (value (.object members s :: around))
  | member members around, .comma => some (key members around)
  | member members around, .closeObject => some (after (.object members.reverse) around)
  | _, _ => none

/-- The place after several tokens. -/
def steps : Place → List Token → Option Place
  | p, [] => some p
  | p, t :: ts => (p.step t).bind fun q => steps q ts

end Place

/-- The value that tokens spell. -/
def ofTokens? (ts : List Token) : Option Json :=
  match (Place.value []).steps ts with
  | some (.complete j) => some j
  | _ => none

/-- The value of a document. -/
def parse? (s : String) : Option Json :=
  (tokens? s.toList).bind ofTokens?

mutual

/-- The tokens of a value. -/
def tokens : Json → List Token
  | .null => [.null]
  | .bool b => [.bool b]
  | .natural n => [.natural n]
  | .number s => [.number s]
  | .text s => [.text s]
  | .array items => .openArray :: (itemTokens items ++ [.closeArray])
  | .object members => .openObject :: (memberTokens members ++ [.closeObject])

/-- The tokens of the items of an array, with commas between them. -/
def itemTokens : List Json → List Token
  | [] => []
  | [j] => tokens j
  | j :: js => tokens j ++ .comma :: itemTokens js

/-- The tokens of the members of an object, with commas between them. -/
def memberTokens : List (Option String × Json) → List Token
  | [] => []
  | [(key, j)] => .text key :: .colon :: tokens j
  | (key, j) :: ms => .text key :: .colon :: (tokens j ++ .comma :: memberTokens ms)

end

/-- A value without spaces. -/
def compact (j : Json) : String :=
  String.ofList (j.tokens.flatMap Token.write)

/-- An object with every member on a line of its own, two spaces in. -/
def indented (members : List (String × Json)) : String :=
  let lines := members.map fun (key, j) => s!"  {String.ofList (quote key)}: {j.compact}"
  match lines with
  | [] => "\x7b\x7d"
  | _ => "\x7b\n" ++ String.intercalate ",\n" lines ++ "\n\x7d"

/-- A string that holds a text. -/
def ofString (s : String) : Json :=
  .text (some s)

/-- An object with keys that hold texts. -/
def ofMembers (members : List (String × Json)) : Json :=
  .object (members.map fun (key, j) => (some key, j))

/-! ## Reading fields -/

/-- The text of a string. -/
def string? : Json → Option String
  | .text s => s
  | _ => none

/-- The value of a truth value. -/
def bool? : Json → Option Bool
  | .bool b => some b
  | _ => none

/-- The value of a number of decimal digits that fits 64 bits. -/
def uint64? : Json → Option UInt64
  | .natural n => if n < UInt64.size then some (UInt64.ofNat n) else none
  | _ => none

/-- The value of a number of decimal digits that fits 8 bits. -/
def uint8? : Json → Option UInt8
  | .natural n => if n < UInt8.size then some (UInt8.ofNat n) else none
  | _ => none

/-- The items of an array, read one by one. -/
def list? {α : Type} (item? : Json → Option α) : Json → Option (List α)
  | .array items => items.mapM item?
  | _ => none

/-- The name of a choice: a string, or an object whose only member has the name as its key and no value. -/
def choice? : Json → Option String
  | .text s => s
  | .object [(key, .null)] => key
  | _ => none

/-- The only member of a key, nothing if there is none; two of them are an error. -/
def member? (key : String) (members : List (Option String × Json)) : Option (Option Json) :=
  match members.filter fun m => m.1 == some key with
  | [] => some none
  | [m] => some (some m.2)
  | _ => none

/-- The values of a record's fields, in the order of the names. A record is an object, whose other members are passed over,
or an array of the fields in order, of which the last ones may be missing. -/
def fields? (names : List String) : Json → Option (List (Option Json))
  | .object members =>
    if members.all fun m => m.1.isSome then names.mapM fun name => member? name members else none
  | .array items =>
    if items.length ≤ names.length then
      some (items.map some ++ List.replicate (names.length - items.length) none)
    else none
  | _ => none

end Json

end ExecImage
