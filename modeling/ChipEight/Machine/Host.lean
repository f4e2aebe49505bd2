import ChipEight.Listing
import ChipEight.Machine.Step

/-!
# Host operations

What the owner of a machine can do with it. Each operation answers with the machine after it, a
failure if there was one, and diagnostics. Loading, reset and unloading leave the random generator
alone, so that it goes on with its stream.
-/
namespace ChipEight.Machine

/-- Processor, screen and keys as at power on; memory and generator stay. -/
def reset (machine : Machine) : Machine :=
  { machine with cpu := .initial, screen := .blank, keys := .released }

def load (machine : Machine) (image : List UInt8) : Except ImageTooLarge Machine := do
  return { machine with memory := ← machine.memory.load image }

def unload (machine : Machine) : Machine :=
  { machine.reset with memory := machine.memory.clearImage }

def setKeys (machine : Machine) (states : List Bool) : Machine :=
  { machine with keys := machine.keys.copy states }

def holdKey (machine : Machine) (key : Fin 16) (held : Bool) : Machine :=
  { machine with keys := machine.keys.hold key held }

def setRedraw (machine : Machine) (redraw : Bool) : Machine :=
  { machine with screen := machine.screen.setRedraw redraw }

/-- The text of the last fetched instruction. -/
def instructionText (machine : Machine) : String :=
  Listing.instruction machine.dialect machine.cpu.last.word.toNat machine.cpu.last.address.toNat

/-- The registers by name, in a fixed order. -/
def registerTable (machine : Machine) : List (String × Nat) :=
  let general := (List.finRange 16).map fun register =>
    ("V" ++ Text.Hex.ofNat 1 register.val, (machine.cpu.get register).toNat)
  general ++
    [ ("I", machine.cpu.index.toNat),
      ("PC", machine.cpu.pc.toNat),
      ("SP", machine.cpu.stack.depth.val),
      ("DT", machine.cpu.delay.toNat),
      ("ST", machine.cpu.sound.toNat) ]

inductive Action where
  | load (image : List UInt8)
  | loadFile (name : FileName)
  | unload
  | reset
  | step
  | run (count : Nat)
  | tick
  | setKeys (states : List Bool)
  | holdKey (key : Fin 16) (held : Bool)
  | setRedraw (redraw : Bool)

structure Response where
  machine : Machine
  failure : Option Failure
  notes : List Diagnostic

def Response.ofOutcome (outcome : Outcome) : Response :=
  ⟨outcome.machine, outcome.fault.map .stack, outcome.notes⟩

def loading (machine : Machine) (image : List UInt8) (after : List Diagnostic) : Response :=
  match machine.load image with
  | .ok loaded =>
    ⟨loaded, none, .imageCopied image.length :: .imageLoaded image.length :: after⟩
  | .error rejected => ⟨machine, some (.image rejected), []⟩

def perform (directory : Directory) (machine : Machine) : Action → Response
  | .load image => machine.loading image []
  | .loadFile name =>
    match directory.read name with
    | .ok image => machine.loading image [.fileLoaded name]
    | .error error => ⟨machine, some (.file error), []⟩
  | .unload => ⟨machine.unload, none, [.resetComplete]⟩
  | .reset => ⟨machine.reset, none, [.resetComplete]⟩
  | .step => .ofOutcome machine.step
  | .run count => .ofOutcome (machine.run count)
  | .tick => ⟨machine.tick, none, []⟩
  | .setKeys states => ⟨machine.setKeys states, none, []⟩
  | .holdKey key held => ⟨machine.holdKey key held, none, []⟩
  | .setRedraw redraw => ⟨machine.setRedraw redraw, none, []⟩

/-- Perform one action after the other, failed ones included. -/
def performAll (directory : Directory) (machine : Machine) (actions : List Action) : Machine :=
  actions.foldl (fun current action => (current.perform directory action).machine) machine

end ChipEight.Machine
