import ChipEight.Machine.Host
import ChipEight.Settings

/-!
# Instances

An instance is a machine with a pace of its own. Time comes from the host: a call of `run` makes at
most one timer tick and at most one slot of instructions, each when enough time has passed since
the last of its kind. An instance keeps a log of the words it has executed.
-/
namespace ChipEight

inductive Instance.State where
  | empty
  | loaded
  | running
  deriving DecidableEq, Repr

def Instance.State.label : Instance.State → String
  | empty => "Empty"
  | loaded => "Loaded"
  | running => "Running"

structure Instance where
  id : Nat
  machine : Machine
  state : Instance.State
  slotsPerSecond : Nat
  /-- Instructions in a slot. -/
  slotLength : Nat
  inputEnabled : Bool
  /-- The words executed last, oldest first. -/
  log : Array Fetched
  fault : Option StackFault
  lastTick : Float
  lastSlot : Float

/-- What an instance prints: diagnostics on request, stack faults always. -/
inductive Message where
  | note (diagnostic : Diagnostic)
  | faulted (id : Nat) (fault : StackFault)
  deriving DecidableEq, Repr

namespace Message

def text : Message → String
  | note diagnostic => diagnostic.text
  | faulted id fault => "Instance " ++ toString id ++ ": " ++ fault.message

def isNote : Message → Bool
  | note _ => true
  | faulted _ _ => false

def shown (debug : Bool) (messages : List Message) : List String :=
  (messages.filter fun message => debug || !message.isNote).map text

end Message

namespace Instance

/-- As with machines, a seed that is not given is one that the host has drawn. -/
def create (id : Nat) (dialect : Dialect) (seed : Int) (clock : Float) : Instance where
  id := id
  machine := .initial dialect seed
  state := .empty
  slotsPerSecond := Settings.slotsPerSecond
  slotLength := Settings.slotLength
  inputEnabled := Settings.inputEnabled
  log := #[]
  fault := none
  lastTick := clock
  lastSlot := clock

/-- A load that failed, with the instance that it had come to and what it had reported. -/
structure FailedLoad where
  inst : Instance
  rejected : ImageTooLarge
  notes : List Diagnostic

/-- Replace the program. Speed, clocks and the input switch stay, and so does the generator. The
size is checked before the old program is given up, and once more by the memory. -/
def load (current : Instance) (image : List UInt8) : Except FailedLoad Instance :=
  if Memory.imageCapacity < image.length then .error ⟨current, ⟨image.length⟩, []⟩
  else
    let emptied := { current with machine := current.machine.unload }
    match emptied.machine.load image with
    | .ok machine => .ok { emptied with machine, state := .loaded, log := #[], fault := none }
    | .error rejected => .error ⟨emptied, rejected, [.resetComplete]⟩

def start (current : Instance) (clock : Float) : Instance :=
  if current.state = .empty then current
  else { current with state := .running, lastTick := clock, lastSlot := clock }

def stop (current : Instance) : Instance :=
  if current.state = .running then { current with state := .loaded } else current

def reset (current : Instance) : Instance :=
  { current with machine := current.machine.reset, log := #[], fault := none }

def setSlotsPerSecond (current : Instance) (requested : Int) : Instance :=
  { current with slotsPerSecond := (min requested Settings.maxSlotsPerSecond).toNat }

def setSlotLength (current : Instance) (requested : Int) : Instance :=
  { current with slotLength := (max 1 (min requested Settings.maxSlotLength)).toNat }

/-- Keys reach the machine only while input is enabled. -/
def setKeys (current : Instance) (states : List Bool) : Instance :=
  if current.inputEnabled then { current with machine := current.machine.setKeys states }
  else current

/-- A full log loses its oldest entry. -/
def remember (log : Array Fetched) (entry : Fetched) : Array Fetched :=
  if log.size < Settings.logCapacity then log.push entry
  else (log.extract 1 log.size).push entry

/-- An instance after some instructions, and their number. -/
structure Progress where
  inst : Instance
  executed : Nat
  messages : List Message

def idle (current : Instance) : Progress := ⟨current, 0, []⟩

/-- Execute up to `length` instructions. A stack fault is kept, reported, and stops the instance. -/
def runSlot : Nat → Instance → Progress
  | 0, current => current.idle
  | length + 1, current =>
    let outcome := current.machine.step
    let messages := outcome.notes.map Message.note
    match outcome.fault with
    | some fault =>
      ⟨stop { current with machine := outcome.machine, fault := some fault }, 0,
        messages ++ [.faulted current.id fault]⟩
    | none =>
      let rest := runSlot length { current with
        machine := outcome.machine
        log := remember current.log outcome.machine.cpu.last }
      ⟨rest.inst, rest.executed + 1, messages ++ rest.messages⟩

/-- One slot at once, whatever the clocks say. -/
def step (current : Instance) : Progress :=
  if current.state = .empty then current.idle else runSlot current.slotLength current

/-- Whether an interval has passed since a time. -/
def due (now last interval : Float) : Bool := now - last ≥ interval

def tickIfDue (current : Instance) (now : Float) : Instance :=
  if due now current.lastTick Settings.tickInterval then
    { current with machine := current.machine.tick, lastTick := now }
  else current

def slotIfDue (current : Instance) (now : Float) : Progress :=
  if due now current.lastSlot (1.0 / Float.ofNat current.slotsPerSecond) then
    let slot := runSlot current.slotLength current
    { slot with inst := { slot.inst with lastSlot := now } }
  else current.idle

/-- The tick comes before the slot. -/
def run (current : Instance) (now : Float) : Progress :=
  if current.state = .running ∧ current.slotsPerSecond ≠ 0 then
    (current.tickIfDue now).slotIfDue now
  else current.idle

/-- The logged instructions as text. -/
def logLines (current : Instance) : List String :=
  current.log.toList.map fun entry =>
    Listing.instruction current.machine.dialect entry.word.toNat entry.address.toNat

def describe (current : Instance) : List (String × String) :=
  [("ID", toString current.id), ("State", current.state.label)] ++
    current.machine.dialect.describe

end Instance
end ChipEight
