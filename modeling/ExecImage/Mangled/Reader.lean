/-!
# Reading characters from the front of a name

A reader either takes characters from the front of a name or fails, and where one fails another may be tried on the name as it
was. Besides the characters that are left, a reader sees what was kept of those before: a mangled name seldom writes a thing
twice, and refers back to it instead.
-/

namespace ExecImage.Mangled

/-- What is left of a name, and what has been kept of the characters before. -/
structure Source (κ : Type) where
  /-- The characters that are left. -/
  rest : List Char
  /-- What has been kept. -/
  kept : κ

/-- A reader of some part of a name. -/
abbrev Reader (κ : Type) := StateT (Source κ) Option

namespace Reader

variable {κ α σ : Type}

/-- What has been kept. -/
def kept : Reader κ κ := fun s =>
  some (s.kept, s)

/-- Changes what has been kept. -/
def keep (f : κ → κ) : Reader κ Unit := fun s =>
  some ((), { s with kept := f s.kept })

/-- How many characters are left. -/
def left : Reader κ Nat := fun s =>
  some (s.rest.length, s)

/-- The next character, which is not taken. -/
def peek? : Reader κ (Option Char) := fun s =>
  some (s.rest.head?, s)

/-- Takes the next character. -/
def next : Reader κ Char := fun s =>
  match s.rest with
  | c :: cs => some (c, { s with rest := cs })
  | [] => none

/-- Takes the characters of a text. -/
def exactly (text : String) : Reader κ Unit := fun s =>
  if text.toList.isPrefixOf s.rest then some ((), { s with rest := s.rest.drop text.length }) else none

/-- Takes the characters of a text if they come next. -/
def accept (text : String) : Reader κ Bool := fun s =>
  if text.toList.isPrefixOf s.rest then some (true, { s with rest := s.rest.drop text.length }) else some (false, s)

/-- Takes the longest run of characters of a class. -/
def takeWhile (p : Char → Bool) : Reader κ (List Char) := fun s =>
  some (s.rest.takeWhile p, { s with rest := s.rest.dropWhile p })

/-- Takes a number of characters. -/
def take (n : Nat) : Reader κ (List Char) := fun s =>
  if n ≤ s.rest.length then some (s.rest.take n, { s with rest := s.rest.drop n }) else none

/-- Takes one of several characters. -/
def oneOf (letters : List Char) : Reader κ Char := do
  let c ← next
  if c ∈ letters then return c else failure

/-- Takes the code of the first of several things whose code comes next. -/
def choose (code : α → String) (xs : List α) : Reader κ α := fun s =>
  (xs.find? fun x => (code x).toList.isPrefixOf s.rest).map fun x =>
    (x, { s with rest := s.rest.drop (code x).length })

/-- What a reader reads, if it does not fail. -/
def maybe (p : Reader κ α) : Reader κ (Option α) :=
  (some <$> p) <|> pure none

/-- Repeats a reader until it fails. The fuel bounds the number of repetitions. -/
def manyFrom (p : Reader κ α) : (fuel : Nat) → Reader κ (List α)
  | 0 => pure []
  | fuel + 1 => (do let x ← p; let xs ← manyFrom p fuel; return x :: xs) <|> pure []

/-- What a reader reads until it fails. A repetition takes characters, so that there are no more of them than are left. -/
def many (p : Reader κ α) : Reader κ (List α) := fun s =>
  manyFrom p s.rest.length s

/-- What a reader reads until it fails, which is not at once. -/
def many1 (p : Reader κ α) : Reader κ (List α) := do
  let x ← p
  let xs ← many p
  return x :: xs

/-- Repeats a step until it ends with a result. The fuel bounds the number of steps. -/
def loopFrom (step : σ → Reader κ (σ ⊕ α)) : (fuel : Nat) → σ → Reader κ α
  | 0, _ => failure
  | fuel + 1, x => do
    match ← step x with
    | .inl x => loopFrom step fuel x
    | .inr y => return y

/-- Repeats a step until it ends with a result. All steps but the last take characters. -/
def loop (step : σ → Reader κ (σ ⊕ α)) (x : σ) : Reader κ α := fun s =>
  loopFrom step (s.rest.length + 1) x s

end Reader

end ExecImage.Mangled
