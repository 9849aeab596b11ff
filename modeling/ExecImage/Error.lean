import ExecImage.Text

/-!
# Why a load fails

A load fails for one of seven reasons. Two of them, a corrupt section and a faulty symbol table, name the part of the image
and say what is wrong with it; each such fault is a constructor of `Fault`, and its wording is in `Fault.message`.
-/

namespace ExecImage

open Text

/-- The table of a data directory of exports that an address or an entry belongs to. -/
inductive ExportPart where
  | directory
  | addressTable
  | nameTable
  | ordinalTable
  deriving DecidableEq, Repr

namespace ExportPart

/-- The part as it is named in messages. -/
def name : ExportPart → String
  | .directory => "directory"
  | .addressTable => "address table"
  | .nameTable => "name table"
  | .ordinalTable => "ordinal table"

end ExportPart

/-- What is wrong with a section or a symbol table. -/
inductive Fault where
  /-- The entries of a table are declared smaller than the format's. -/
  | entrySize (size minimum : Nat)
  /-- More sections are declared than the limit admits. -/
  | sectionCount (count limit : Nat)
  /-- A section's contents are not inside the file. -/
  | contentsOutside (offset size fileSize : Nat)
  /-- No section has this index. -/
  | sectionIndex (index : Nat)
  /-- A section's addresses do not fit the address space. -/
  | addressRange (start size : Nat) (bits : UInt8)
  /-- A section's addresses, counted from the image base, do not fit the address space. -/
  | relativeRange (start size : Nat) (bits : UInt8)
  /-- A section's raw data are not inside the file. -/
  | rawDataOutside (offset size fileSize : Nat)
  /-- The optional header has no room for its magic number. -/
  | optionalHeaderTooSmall (size : Nat)
  /-- The optional header ends before its data directories. -/
  | optionalHeaderShort (size minimum : Nat)
  /-- The section that a symbol table links to is none that can hold its strings. -/
  | stringLink (link : Nat)
  /-- A symbol table's entries are not inside the file. -/
  | entriesOutside (offset size : Nat)
  /-- A symbol table's strings are not inside the file. -/
  | stringsOutside (link : Nat)
  /-- A string's offset points into the size field that starts the string table. -/
  | stringOffset (offset : Nat)
  /-- A record of a symbol table is not inside the file. -/
  | recordOutside (offset len fileSize : Nat)
  /-- A relative address of an export table has no bytes in the file. -/
  | notBacked (part : ExportPart) (rva : Nat)
  /-- The export directory is not inside the file. -/
  | directoryOutside (offset : Nat)
  /-- An entry of an export table is not inside the file. -/
  | exportEntryOutside (part : ExportPart) (index : Nat)
  /-- A fault that is stated in words. -/
  | stated (message : String)
  deriving DecidableEq, Repr

/-- Why an image was not loaded. -/
inductive LoadError where
  /-- A range to be read does not lie in the bytes at hand. -/
  | outOfBounds (offset len size : Nat)
  /-- The image is of no supported format. -/
  | unsupportedFormat
  /-- The image is not of the format that was asked for. -/
  | formatMismatch (requested found : String)
  /-- The image is of a supported format for a machine that is not supported. -/
  | unsupportedArchitecture (format : String) (machine : UInt16)
  /-- A section, or the table of the sections, is at fault. -/
  | corruptSection (name : String) (fault : Fault)
  /-- A symbol table is at fault. -/
  | symbolTable (table : String) (fault : Fault)
  /-- A section is larger than may be copied. -/
  | outOfMemory (requested : Nat)
  deriving DecidableEq, Repr

/-- The text of a read outside the bytes at hand. -/
def outOfBoundsMessage (offset len size : Nat) : String :=
  s!"Out of bounds read at offset {hex offset} (length {len}, buffer size {size})"

namespace Fault

/-- The text of a fault. -/
def message : Fault → String
  | entrySize size minimum => s!"entry size {size} smaller than {minimum}"
  | sectionCount count limit => s!"{count} sections exceeds limit of {limit}"
  | contentsOutside offset size fileSize =>
    s!"contents at {hex offset}+{hex size} exceed file size {hex fileSize}"
  | sectionIndex index => s!"section index {index} out of range"
  | addressRange start size bits => s!"address range {hex start}+{hex size} overflows {bits}-bit address space"
  | relativeRange start size bits => s!"address {hex start}+{hex size} overflows {bits}-bit address space"
  | rawDataOutside offset size fileSize =>
    s!"raw data at {hex offset}+{hex size} exceeds file size {hex fileSize}"
  | optionalHeaderTooSmall size => s!"optional header size {size} too small"
  | optionalHeaderShort size minimum => s!"optional header size {size} smaller than {minimum}"
  | stringLink link => s!"string table link {link} out of range"
  | entriesOutside offset size => s!"contents at {hex offset}+{hex size} exceed file size"
  | stringsOutside link => s!"string table {link} exceeds file size"
  | stringOffset offset => s!"string offset {offset} inside size field"
  | recordOutside offset len fileSize =>
    s!"symbol table beyond end of file: {outOfBoundsMessage offset len fileSize}"
  | notBacked part rva => s!"{part.name} RVA {hex rva} not backed by file data"
  | directoryOutside offset => s!"directory at {hex offset} beyond end of file"
  | exportEntryOutside part index => s!"{part.name} entry {index} beyond end of file"
  | stated message => message

end Fault

namespace LoadError

/-- The text of an error. -/
def message : LoadError → String
  | outOfBounds offset len size => outOfBoundsMessage offset len size
  | unsupportedFormat => "Unsupported binary format"
  | formatMismatch requested found => s!"Format mismatch: requested {requested}, found {found}"
  | unsupportedArchitecture format machine => s!"Unsupported architecture: {format} machine {hex machine.toNat}"
  | corruptSection name fault => s!"Corrupt section {name}: {fault.message}"
  | symbolTable table fault => s!"Symbol table error in {table}: {fault.message}"
  | outOfMemory requested => s!"Out of memory: could not allocate {requested} bytes"

/-- Only a faulty symbol table leaves the rest of an image loadable. -/
def isRecoverable : LoadError → Bool
  | symbolTable _ _ => true
  | _ => false

end LoadError

end ExecImage
