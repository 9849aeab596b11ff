import ExecImage.Mangled.PathCursor
import ExecImage.Mangled.Punycode
import ExecImage.Text.Unprinted

/-!
# Showing mangled paths

Reading and showing go together: what is read is shown at once, so that a name that turns out wrong half way is shown as far
as it goes, with a mark where it broke off and question marks for what would follow. A name is checked first by reading it
without showing anything, and then references back are not followed.

Nothing is shown beyond a million bytes.
-/

namespace ExecImage.Mangled.PathName

/-- How far a name has been read and shown. -/
structure State where
  /-- The mangled name. -/
  name : Array Char
  /-- The position in it, or the error that ended the reading. -/
  cursor : Except ParseError Cursor
  /-- Nothing is shown. -/
  silent : Bool
  /-- What has been shown, last first. -/
  out : List Char := []
  /-- How many bytes more may be shown. -/
  room : Nat := 1000000
  /-- There was no room for what was to be shown. -/
  full : Bool := false
  /-- How many lifetimes are bound around the position. -/
  lifetimes : Nat := 0

/-- A step of reading and showing. -/
abbrev Action := State → State

namespace State

/-- Shows characters. -/
def print (st : State) (cs : List Char) : State :=
  if st.silent || st.full then st
  else
    let size := cs.foldl (fun n c => n + c.utf8Size) 0
    if size ≤ st.room then { st with out := cs.reverse ++ st.out, room := st.room - size }
    else { st with full := true }

/-- Shows a text. -/
def printText (st : State) (s : String) : State :=
  st.print s.toList

/-- The reading has failed. -/
def isFailed (st : State) : Bool :=
  match st.cursor with
  | .ok _ => false
  | .error _ => true

/-- Ends the reading with an error, and shows it. -/
def fail (st : State) (e : ParseError) : State :=
  { st.printText e.message with cursor := .error e }

/-- Reads a part and goes on with it. A new error is shown and ends the step, after an older one a question mark is shown. -/
def parse {α : Type} (st : State) (p : Parse α) (k : α → Action) : State :=
  if st.full then st
  else
    match st.cursor with
    | .error _ => st.printText "?"
    | .ok c =>
      match p st.name c with
      | .ok (x, c) => k x { st with cursor := .ok c }
      | .error e => st.fail e

/-- Reads a character if it comes next and nothing has failed. -/
def accept (st : State) (d : Char) : Bool × State :=
  match st.cursor with
  | .error _ => (false, st)
  | .ok c =>
    if st.name[c.next]? = some d then (true, { st with cursor := .ok { c with next := c.next + 1 } }) else (false, st)

/-- Closes the construct that was opened last. -/
def leave (st : State) : State :=
  match st.cursor with
  | .ok c => { st with cursor := .ok { c with depth := c.depth - 1 } }
  | .error _ => st

/-- Goes back by one character. -/
def back (st : State) : State :=
  match st.cursor with
  | .ok c => { st with cursor := .ok { c with next := c.next - 1 } }
  | .error _ => st

/-- Shows an identifier, in its mangled form if its insertions cannot be made. -/
def printIdent (st : State) (i : Ident) : State :=
  match Punycode.decode? i.ascii i.punycode with
  | some cs => cs.foldl (fun st c => st.print [c]) st
  | none =>
    if i.punycode.isEmpty then st.print i.ascii
    else
      let st := st.printText "punycode\x7b"
      let st := if i.ascii.isEmpty then st else (st.print i.ascii).printText "-"
      (st.print i.punycode).printText "\x7d"

/-- Shows a lifetime by its distance from the innermost one that is bound, counted from one; zero is one without a name. -/
def printLifetime (st : State) (index : Nat) : State :=
  if st.silent then st
  else
    let st := st.printText "'"
    if index = 0 then st.printText "_"
    else if st.lifetimes < index then st.fail .invalid
    else
      let place := st.lifetimes - index
      if place < 26 then st.print [Char.ofNat ('a'.toNat + place)]
      else (st.printText "_").printText (toString place)

/-- Reads on at a position that a reference back leads to, and then after the reference. Nothing is followed while nothing
is shown. -/
def printBackref (st : State) (f : Action) : State :=
  st.parse backref fun target st =>
    if st.silent then st else { f { st with cursor := .ok target } with cursor := st.cursor }

/-- Binds lifetimes one by one and shows them. -/
def bindLifetimes : (count : Nat) → (isFirst : Bool) → State → State
  | 0, _, st => st
  | count + 1, isFirst, st =>
    if st.full then st
    else
      let st := if isFirst then st else st.printText ", "
      bindLifetimes count false (printLifetime { st with lifetimes := st.lifetimes + 1 } 1)

/-- Reads the number of lifetimes that are bound, shows them, and reads on with them. -/
def inBinder (st : State) (f : Action) : State :=
  st.parse (optInteger62 'G') fun count st =>
    if st.silent then f st
    else
      let bound := if count = 0 then st else (bindLifetimes count true (st.printText "for<")).printText "> "
      { f bound with lifetimes := st.lifetimes }

end State

/-- The name of a basic type by its letter. -/
def basicType? : Char → Option String
  | 'b' => some "bool"
  | 'c' => some "char"
  | 'e' => some "str"
  | 'u' => some "()"
  | 'a' => some "i8"
  | 's' => some "i16"
  | 'l' => some "i32"
  | 'x' => some "i64"
  | 'n' => some "i128"
  | 'i' => some "isize"
  | 'h' => some "u8"
  | 't' => some "u16"
  | 'm' => some "u32"
  | 'y' => some "u64"
  | 'o' => some "u128"
  | 'j' => some "usize"
  | 'f' => some "f32"
  | 'd' => some "f64"
  | 'z' => some "!"
  | 'p' => some "_"
  | 'v' => some "..."
  | _ => none

/-- The value of a small hexadecimal digit. -/
def nibbleValue (c : Char) : Nat :=
  if c.isDigit then c.toNat - '0'.toNat else c.toNat - 'a'.toNat + 10

/-- The value of hexadecimal digits, if it fits 64 bits. -/
def nibblesValue? (cs : List Char) : Option Nat :=
  let digits := cs.dropWhile (· == '0')
  if 16 < digits.length then none else some (digits.foldl (fun n c => n * 16 + nibbleValue c) 0)

/-- The bytes of pairs of hexadecimal digits. -/
def nibbleBytes? : List Char → Option (List UInt8)
  | [] => some []
  | [_] => none
  | a :: b :: cs => (nibbleBytes? cs).map (UInt8.ofNat (nibbleValue a * 16 + nibbleValue b) :: ·)

/-- The characters of hexadecimal digits that write UTF-8. -/
def nibbleChars? (cs : List Char) : Option (List Char) := do
  let bytes ← nibbleBytes? cs
  (String.fromUTF8? ⟨bytes.toArray⟩).map String.toList

/-- A character as it is shown between quotes. -/
def quotedChar (quote c : Char) : List Char :=
  if (quote = '\'' ∧ c = '"') ∨ (quote = '"' ∧ c = '\'') then [c]
  else if c = '\x00' then ['\\', '0']
  else if c = '\t' then ['\\', 't']
  else if c = '\r' then ['\\', 'r']
  else if c = '\n' then ['\\', 'n']
  else if c = '\'' ∨ c = '"' ∨ c = '\\' then ['\\', c]
  else if Text.isUnprinted c then "\\u\x7b".toList ++ Nat.toDigits 16 c.toNat ++ ['\x7d']
  else [c]

/-- Shows characters between quotes. -/
def State.printQuoted (st : State) (quote : Char) (cs : List Char) : State :=
  (cs.foldl (fun st c => st.print (quotedChar quote c)) (st.print [quote])).print [quote]

/-- Shows a number. One that does not fit 64 bits is shown as it is written. -/
def State.printUnsigned (st : State) : State :=
  st.parse nibbles fun cs st =>
    match nibblesValue? cs with
    | some n => st.printText (toString n)
    | none => (st.printText "0x").print cs

/-- Shows a string. -/
def State.printString (st : State) : State :=
  st.parse nibbles fun cs st =>
    match nibbleChars? cs with
    | some cs => st.printQuoted '"' cs
    | none => st.fail .invalid

/-- Shows the name of a calling convention, with hyphens for underscores. -/
def State.printAbi (st : State) (abi : List Char) : State :=
  ((st.printText "extern \"").print (abi.map fun c => if c = '_' then '-' else c)).printText "\" "

mutual

/-- A path. Among values, arguments come after two colons. -/
def showPath (fuel : Nat) (inValue : Bool) (st : State) : State :=
  match fuel with
  | 0 => st.fail .tooDeep
  | fuel + 1 =>
    st.parse enter fun _ st => st.parse anyChar fun tag st =>
      match tag with
      | 'C' => st.parse disambiguator fun _ st => st.parse ident fun name st => (st.printIdent name).leave
      | 'N' =>
        st.parse nestedKind fun kind st =>
          let st := showPath fuel inValue st
          let st := if st.isFailed then st.printText "::" else st
          st.parse disambiguator fun number st => st.parse ident fun name st =>
            match kind with
            | some kind =>
              let st := st.printText "::\x7b"
              let st :=
                match kind with
                | 'C' => st.printText "closure"
                | 'S' => st.printText "shim"
                | _ => st.print [kind]
              let st := if name.isEmpty then st else (st.printText ":").printIdent name
              (((st.printText "#").printText (toString number)).printText "\x7d").leave
            | none => (if name.isEmpty then st else (st.printText "::").printIdent name).leave
      | 'M' =>
        st.parse disambiguator fun _ st =>
          ((showType fuel ((showSilently fuel st).printText "<")).printText ">").leave
      | 'X' =>
        st.parse disambiguator fun _ st => (showImplemented fuel (showSilently fuel st)).leave
      | 'Y' => (showImplemented fuel st).leave
      | 'I' =>
        let st := showPath fuel inValue st
        let st := if inValue then st.printText "::" else st
        ((showArguments fuel true (st.printText "<")).printText ">").leave
      | 'B' => (st.printBackref (showPath fuel inValue)).leave
      | _ => st.fail .invalid

/-- A path that is read and not shown. -/
def showSilently (fuel : Nat) (st : State) : State :=
  match fuel with
  | 0 => st.fail .tooDeep
  | fuel + 1 => { showPath fuel false { st with silent := true } with silent := st.silent }

/-- A type and a trait that it implements. -/
def showImplemented (fuel : Nat) (st : State) : State :=
  match fuel with
  | 0 => st.fail .tooDeep
  | fuel + 1 =>
    let st := showType fuel (st.printText "<")
    (showPath fuel false (st.printText " as ")).printText ">"

/-- The rest of a list of arguments, from the first one or a later one on. -/
def showArguments (fuel : Nat) (isFirst : Bool) (st : State) : State :=
  match fuel with
  | 0 => st.fail .tooDeep
  | fuel + 1 =>
    if st.isFailed || st.full then st
    else
      match st.accept 'E' with
      | (true, st) => st
      | (false, st) => showArguments fuel false (showArgument fuel (if isFirst then st else st.printText ", "))

/-- An argument: a lifetime, a constant or a type. -/
def showArgument (fuel : Nat) (st : State) : State :=
  match fuel with
  | 0 => st.fail .tooDeep
  | fuel + 1 =>
    match st.accept 'L' with
    | (true, st) => st.parse integer62 fun index st => st.printLifetime index
    | (false, st) =>
      match st.accept 'K' with
      | (true, st) => showConst fuel false st
      | (false, st) => showType fuel st

/-- The rest of a list of types, and how many there are with those before. -/
def showTypes (fuel : Nat) (count : Nat) (st : State) : Nat × State :=
  match fuel with
  | 0 => (count, st.fail .tooDeep)
  | fuel + 1 =>
    if st.isFailed || st.full then (count, st)
    else
      match st.accept 'E' with
      | (true, st) => (count, st)
      | (false, st) => showTypes fuel (count + 1) (showType fuel (if count = 0 then st else st.printText ", "))

/-- A type. -/
def showType (fuel : Nat) (st : State) : State :=
  match fuel with
  | 0 => st.fail .tooDeep
  | fuel + 1 =>
    st.parse anyChar fun tag st =>
      match basicType? tag with
      | some name => st.printText name
      | none =>
        st.parse enter fun _ st =>
          match tag with
          | 'R' => (showReference fuel false (st.printText "&")).leave
          | 'Q' => (showReference fuel true (st.printText "&")).leave
          | 'P' => (showType fuel (st.printText "*const ")).leave
          | 'O' => (showType fuel (st.printText "*mut ")).leave
          | 'A' =>
            let st := showType fuel (st.printText "[")
            ((showConst fuel true (st.printText "; ")).printText "]").leave
          | 'S' => ((showType fuel (st.printText "[")).printText "]").leave
          | 'T' =>
            let (count, st) := showTypes fuel 0 (st.printText "(")
            ((if count = 1 then st.printText "," else st).printText ")").leave
          | 'F' => (st.inBinder (showFunction fuel)).leave
          | 'D' =>
            let st := (st.printText "dyn ").inBinder (showTraits fuel true)
            match st.accept 'L' with
            | (false, st) => st.fail .invalid
            | (true, st) =>
              st.parse integer62 fun index st =>
                (if index = 0 then st else (st.printText " + ").printLifetime index).leave
          | 'B' => (st.printBackref (showType fuel)).leave
          | _ => (showPath fuel false st.back).leave

/-- What a reference leads to, after its lifetime if it has one. -/
def showReference (fuel : Nat) (isMutable : Bool) (st : State) : State :=
  match fuel with
  | 0 => st.fail .tooDeep
  | fuel + 1 =>
    let rest := fun st => showType fuel (if isMutable then State.printText st "mut " else st)
    match st.accept 'L' with
    | (true, st) =>
      st.parse integer62 fun index st =>
        rest (if index = 0 then st else (st.printLifetime index).printText " ")
    | (false, st) => rest st

/-- A function type after the lifetimes that it binds. -/
def showFunction (fuel : Nat) (st : State) : State :=
  match fuel with
  | 0 => st.fail .tooDeep
  | fuel + 1 =>
    let (isUnsafe, st) := st.accept 'U'
    let rest := fun (abi : Option (List Char)) (st : State) =>
      let st := if isUnsafe then st.printText "unsafe " else st
      let st :=
        match abi with
        | some abi => st.printAbi abi
        | none => st
      let (_, st) := showTypes fuel 0 (st.printText "fn(")
      match (st.printText ")").accept 'u' with
      | (true, st) => st
      | (false, st) => showType fuel (st.printText " -> ")
    match st.accept 'K' with
    | (false, st) => rest none st
    | (true, st) =>
      match st.accept 'C' with
      | (true, st) => rest (some ['C']) st
      | (false, st) =>
        st.parse ident fun abi st =>
          if abi.ascii.isEmpty || !abi.punycode.isEmpty then st.fail .invalid else rest (some abi.ascii) st

/-- The rest of the traits of a trait object. -/
def showTraits (fuel : Nat) (isFirst : Bool) (st : State) : State :=
  match fuel with
  | 0 => st.fail .tooDeep
  | fuel + 1 =>
    if st.isFailed || st.full then st
    else
      match st.accept 'E' with
      | (true, st) => st
      | (false, st) =>
        let (isOpen, st) := showOpenPath fuel (if isFirst then st else st.printText " + ")
        showTraits fuel false (showBindings fuel isOpen st)

/-- A path whose list of arguments is left open, if it has one. -/
def showOpenPath (fuel : Nat) (st : State) : Bool × State :=
  match fuel with
  | 0 => (false, st.fail .tooDeep)
  | fuel + 1 =>
    match st.accept 'B' with
    | (true, st) =>
      if st.full then (false, st)
      else
        match st.cursor with
        | .error _ => (false, st.printText "?")
        | .ok c =>
          match backref st.name c with
          | .error e => (false, st.fail e)
          | .ok (target, after) =>
            if st.silent then (false, { st with cursor := .ok after })
            else
              let (isOpen, shown) := showOpenPath fuel { st with cursor := .ok target }
              (isOpen, { shown with cursor := .ok after })
    | (false, st) =>
      match st.accept 'I' with
      | (true, st) => (true, showArguments fuel true ((showPath fuel false st).printText "<"))
      | (false, st) => (false, showPath fuel false st)

/-- The rest of the bindings of a trait, and the end of its list of arguments. -/
def showBindings (fuel : Nat) (isOpen : Bool) (st : State) : State :=
  match fuel with
  | 0 => st.fail .tooDeep
  | fuel + 1 =>
    match st.accept 'p' with
    | (false, st) => if isOpen then st.printText ">" else st
    | (true, st) =>
      (st.printText (if isOpen then ", " else "<")).parse ident fun name st =>
        showBindings fuel true (showType fuel ((st.printIdent name).printText " = "))

/-- The rest of a list of constants, and how many there are with those before. -/
def showConsts (fuel : Nat) (count : Nat) (st : State) : Nat × State :=
  match fuel with
  | 0 => (count, st.fail .tooDeep)
  | fuel + 1 =>
    if st.isFailed || st.full then (count, st)
    else
      match st.accept 'E' with
      | (true, st) => (count, st)
      | (false, st) => showConsts fuel (count + 1) (showConst fuel true (if count = 0 then st else st.printText ", "))

/-- The rest of the named fields of a constant. -/
def showFields (fuel : Nat) (isFirst : Bool) (st : State) : State :=
  match fuel with
  | 0 => st.fail .tooDeep
  | fuel + 1 =>
    if st.isFailed || st.full then st
    else
      match st.accept 'E' with
      | (true, st) => st
      | (false, st) =>
        let st := if isFirst then st else st.printText ", "
        let st := st.parse disambiguator fun _ st => st.parse ident fun name st =>
          showConst fuel true ((st.printIdent name).printText ": ")
        showFields fuel false st

/-- A constant. Outside an expression, all but plain values stand in braces. -/
def showConst (fuel : Nat) (inValue : Bool) (st : State) : State :=
  match fuel with
  | 0 => st.fail .tooDeep
  | fuel + 1 =>
    st.parse anyChar fun tag st => st.parse enter fun _ st =>
      let brace := fun (st : State) => if inValue then st else st.printText "\x7b"
      let close := fun (st : State) => (if inValue then st else st.printText "\x7d").leave
      match tag with
      | 'p' => (st.printText "_").leave
      | 'h' | 't' | 'm' | 'y' | 'o' | 'j' => st.printUnsigned.leave
      | 'a' | 's' | 'l' | 'x' | 'n' | 'i' =>
        match st.accept 'n' with
        | (true, st) => (st.printText "-").printUnsigned.leave
        | (false, st) => st.printUnsigned.leave
      | 'b' =>
        st.parse nibbles fun cs st =>
          match nibblesValue? cs with
          | some 0 => (st.printText "false").leave
          | some 1 => (st.printText "true").leave
          | _ => st.fail .invalid
      | 'c' =>
        st.parse nibbles fun cs st =>
          match nibblesValue? cs with
          | some n => if n.isValidChar then (st.printQuoted '\'' [Char.ofNat n]).leave else st.fail .invalid
          | none => st.fail .invalid
      | 'e' => close ((brace st).printText "*").printString
      | 'R' | 'Q' =>
        match if tag = 'R' then st.accept 'e' else (false, st) with
        | (true, st) => st.printString.leave
        | (false, st) =>
          close (showConst fuel true ((brace st).printText (if tag = 'R' then "&" else "&mut ")))
      | 'A' =>
        let (_, st) := showConsts fuel 0 ((brace st).printText "[")
        close (st.printText "]")
      | 'T' =>
        let (count, st) := showConsts fuel 0 ((brace st).printText "(")
        close ((if count = 1 then st.printText "," else st).printText ")")
      | 'V' =>
        (showPath fuel true (brace st)).parse anyChar fun shape st =>
          match shape with
          | 'U' => close st
          | 'T' => close ((showConsts fuel 0 (st.printText "(")).2.printText ")")
          | 'S' => close ((showFields fuel true (st.printText " \x7b ")).printText " \x7d")
          | _ => st.fail .invalid
      | 'B' => (st.printBackref (showConst fuel inValue)).leave
      | _ => st.fail .invalid

end

/-- A bound on how deep calls nest while a name is shown: at every depth the lists and their parts take no more calls than
the name has characters. -/
def fuelFor (name : Array Char) : Nat :=
  (maxDepth + 2) * (name.size + 8)

/-- Reads a path without showing it, from a position on. -/
def skipPath (name : Array Char) (next : Nat) : Except ParseError Nat :=
  let st := showPath (fuelFor name) false { name, cursor := .ok ⟨next, 0⟩, silent := true }
  st.cursor.map Cursor.next

/-- The character may start a path. -/
def startsPath (c : Char) : Bool :=
  'A' ≤ c && c ≤ 'Z'

/-- What comes after the mark of the scheme: a letter `R`, alone or after one or two underscores. -/
def inner? (cs : List Char) : Option (List Char) :=
  match cs with
  | '_' :: 'R' :: c :: cs => some (c :: cs)
  | 'R' :: c :: cs => some (c :: cs)
  | '_' :: '_' :: 'R' :: c :: cs => some (c :: cs)
  | _ => none

/-- Where the path of a mangled name ends, with the path of the item that made the compiler emit it if there is one. -/
def extent? (name : Array Char) : Option Nat := do
  let first ← (skipPath name 0).toOption
  match name[first]? with
  | some c => if startsPath c then (skipPath name first).toOption else some first
  | none => some first

/-- The readable form of a mangled path and what follows it. -/
def read? (cs : List Char) : Option (List Char × List Char) := do
  let inner ← inner? cs
  let name := inner.toArray
  if (inner.head?.any startsPath) && inner.all fun c => c.toNat < 0x80 then
    let stop ← extent? name
    let st := showPath (fuelFor name) true { name, cursor := .ok ⟨0, 0⟩, silent := false }
    let shown := st.out.reverse
    some (if st.full then shown ++ "\x7bsize limit reached\x7d".toList else shown, inner.drop stop)
  else none

end ExecImage.Mangled.PathName
