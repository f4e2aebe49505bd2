import ChipEight.CommandLine.Abort
import ChipEight.CommandLine.Arguments
import ChipEight.Listing
import ChipEight.Memory

/-!
# The listing command

Prints the listing of a program file.
-/
namespace ChipEight.CommandLine.Lister

structure Options where
  file : String
  preset : Option String
  limit : Setting Int

def specs : List OptionSpec := [⟨"--quirks", .text⟩, ⟨"--count", .integer⟩]

def Options.parse (argv : List String) : Except UsageError Options := do
  let (file, arguments) ← Arguments.parse specs argv
  return ⟨file, arguments.text? "--quirks", arguments.integer "--count"⟩

/-- Lines for standard output and an exit status, and what ended the command before its time. -/
structure Report where
  lines : List String
  status : Nat
  abort : Option Abort := none
  deriving DecidableEq, Repr

def failed (options : Options) (reason : String) : Report :=
  { lines := ["Failed to disassemble " ++ options.file ++ ": " ++ reason], status := 1 }

def aborted (abort : Abort) : Report := { lines := [], status := 1, abort := some abort }

/-- A limit without a value does no harm where there is nothing to list. -/
def listing (dialect : Dialect) (image : List UInt8) : Setting Int → Report
  | .absent => ⟨Listing.ofImage dialect image Memory.imageStart none, 0, none⟩
  | .value limit => ⟨Listing.ofImage dialect image Memory.imageStart (some limit), 0, none⟩
  | .bare =>
    match image with
    | [] => ⟨[], 0, none⟩
    | [_] => aborted (.noValue .byteLimit)
    | _ => aborted (.noValue .wordLimit)

/-- A file that cannot be read is reported before an unknown dialect. -/
def report (directory : Directory) (options : Options) : Report :=
  match directory.read options.file with
  | .error error =>
    match Abort.ofFileError? error with
    | some abort => aborted abort
    | none => failed options error.message
  | .ok image =>
    match (options.preset.map Dialect.preset).getD (.ok {}) with
    | .error unknown => failed options (Text.quoted unknown.message)
    | .ok dialect => listing dialect image options.limit

def invoke (directory : Directory) (argv : List String) : Report :=
  match Options.parse argv with
  | .ok options => report directory options
  | .error error => ⟨[], error.status, none⟩

end ChipEight.CommandLine.Lister
