import ChipEight.Failure
import ChipEight.Screen.Raster

/-!
# Commands that end at once

A command has a line for a file or a program that it cannot use. A few causes have none: they end
the command where they arise, after the lines printed so far.
-/
namespace ChipEight.CommandLine

/-- What the value of an option is needed for. -/
inductive Need where
  | dialect
  | seed
  | instructionRate
  | cycles
  | scale
  /-- Whether one more word is to be listed. -/
  | wordLimit
  /-- Whether a last byte is to be listed. -/
  | byteLimit
  deriving DecidableEq, Repr

inductive Abort where
  | unusableName
  | unencodable (error : EncodingError)
  | image (failure : Raster.Failure)
  /-- An option was given without the value that is needed. -/
  | noValue (need : Need)
  deriving DecidableEq, Repr

namespace Abort

def message : Abort → String
  | unusableName => FileError.unusableName.message
  | unencodable error => error.message
  | image failure => failure.message
  | noValue _ => "option without a value"

/-- The file errors that have no line. -/
def ofFileError? : FileError → Option Abort
  | .unusableName => some unusableName
  | .unencodable error => some (unencodable error)
  | .missing _ | .notDirectory _ | .isDirectory _ | .nameTooLong _ => none

def ofFailure? : Failure → Option Abort
  | .file error => ofFileError? error
  | .stack _ | .image _ => none

end Abort
end ChipEight.CommandLine
