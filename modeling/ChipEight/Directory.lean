import ChipEight.FileName

/-!
# Files

Programs and screenshots are named files of one flat directory. There are no directories in it, so
that a name with a slash leads nowhere; the names of the directory itself and its parent are no
files. Files are found by the bytes of their names, of which there are at most 255. A name that has
no bytes or holds a NUL is turned down before anything is looked up.
-/
namespace ChipEight

inductive FileError where
  | missing (name : FileName)
  /-- The name leads into a file as if it were a directory. -/
  | notDirectory (name : FileName)
  | isDirectory (name : FileName)
  | nameTooLong (name : FileName)
  /-- A NUL in the name, so that nothing can be asked for by it. -/
  | unusableName
  /-- A surrogate in the name that stands for no byte. -/
  | unencodable (error : EncodingError)
  deriving DecidableEq, Repr

def FileError.message : FileError → String
  | missing name => "[Errno 2] No such file or directory: " ++ name.quoted
  | notDirectory name => "[Errno 20] Not a directory: " ++ name.quoted
  | isDirectory name => "[Errno 21] Is a directory: " ++ name.quoted
  | nameTooLong name => "[Errno 36] File name too long: " ++ name.quoted
  | unusableName => "embedded null byte"
  | unencodable error => error.message

/-- The files that can be read, by name. -/
abbrev Directory := List (FileName × List UInt8)

namespace Directory

/-- The most bytes between two slashes. -/
def partLimit : Nat := 255

/-- The most bytes with all slashes. -/
def nameLimit : Nat := 4095

def slash : UInt8 := 0x2F

/-- What is looked up first: all of the name, or the directory that it leads into. -/
def firstPart (bytes : List UInt8) : List UInt8 := bytes.takeWhile (· ≠ slash)

/-- The bytes to look a name up by. Later parts of a name are never looked up, as the first of
several is no directory. -/
def checkName (name : FileName) : Except FileError (List UInt8) := do
  let bytes ← name.encode.mapError .unencodable
  if .char (Char.ofNat 0) ∈ name.points then .error .unusableName
  else if nameLimit < bytes.length ∨ partLimit < (firstPart bytes).length then
    .error (.nameTooLong name)
  else .ok bytes

/-- What the file holds whose name has these bytes. Names that differ may have the same. -/
def content? (directory : Directory) (bytes : List UInt8) : Option (List UInt8) :=
  (directory.find? fun file => file.1.encode.toOption = some bytes).map (·.2)

/-- Why there is no file of this name. -/
def absence (directory : Directory) (name : FileName) (bytes : List UInt8) : FileError :=
  if slash ∈ bytes ∧ (directory.content? (firstPart bytes)).isSome then .notDirectory name
  else .missing name

def read (directory : Directory) (name : FileName) : Except FileError (List UInt8) := do
  let bytes ← checkName name
  if name = "." ∨ name = ".." then .error (.isDirectory name)
  else match directory.content? bytes with
    | some content => .ok content
    | none => .error (directory.absence name bytes)

/-- Whether a file of this name can be created or replaced. -/
def accepts (directory : Directory) (name : FileName) : Except FileError Unit := do
  let bytes ← checkName name
  if slash ∈ bytes then .error (directory.absence name bytes) else .ok ()

end Directory
end ChipEight
