import ExecImage.Load

/-!
# Images in files

A file is read whole, if it is not larger than a limit, and its image is loaded under the file's path. What the system answers
to the request for a file is either its contents or a refusal.
-/

namespace ExecImage

/-- Why an image in a file was not loaded. -/
inductive FileError where
  /-- The file is larger than the limit. -/
  | tooLarge (limit found : Nat)
  /-- The system did not give the contents of the file. -/
  | notRead
  /-- The image was not loaded. -/
  | load (error : LoadError)
  deriving DecidableEq, Repr

/-- The text of a file that is too large. -/
def tooLargeMessage (limit found : Nat) : String :=
  s!"File size of {found} bytes exceeds the maximum allowed size of {limit} bytes."

/-- The limit on the size of a file if none is given. -/
def defaultFileLimit : Nat := 512 * 1024 * 1024

/-- A file that has been read. -/
structure ImageFile where
  /-- The path. -/
  path : String
  /-- The contents. -/
  contents : View
  deriving DecidableEq, Inhabited

namespace ImageFile

/-- Takes the contents of a file, if the system gave them and they are within the limit. -/
def read (path : String) (contents : Option Bytes) (limit : Nat) : Except FileError ImageFile :=
  match contents with
  | none => .error .notRead
  | some bytes =>
    if limit < bytes.size then .error (.tooLarge limit bytes.size)
    else .ok { path, contents := ⟨bytes⟩ }

/-- Loads the image of a file under the file's path. -/
def load (f : ImageFile) (hint : FormatHint) (options : Options) : Except LoadError Binary :=
  ExecImage.load f.contents f.path hint options

end ImageFile

/-- Reads a file and loads its image, under the usual limit and options. -/
def loadFile (path : String) (contents : Option Bytes) (hint : FormatHint) : Except FileError Binary := do
  let file ← ImageFile.read path contents defaultFileLimit
  match file.load hint {} with
  | .ok b => return b
  | .error e => throw (.load e)

end ExecImage
