import ChipEight.Machine.Execution

/-!
# Steps

A step fetches the word at the program counter, moves the counter on, and executes the word. On a
stack fault the counter goes back to the faulting instruction.
-/
namespace ChipEight.Machine

/-- Record the word at the program counter and move the counter past it. -/
def fetch (machine : Machine) : Machine :=
  { machine with
    cpu := { machine.cpu with
      last := ⟨machine.memory.readWord machine.cpu.pc.toNat, machine.cpu.pc⟩
      pc := Processor.following machine.cpu.pc
      awaitingKey := false } }

/-- What the last fetched word means in the machine's dialect. -/
def operation (machine : Machine) : Operation :=
  (OpcodeTable.ofDialect machine.dialect).lookup machine.cpu.last.word

structure Outcome where
  machine : Machine
  fault : Option StackFault
  notes : List Diagnostic

def step (machine : Machine) : Outcome :=
  let start := machine.cpu.pc
  let ready := machine.fetch
  let word := ready.cpu.last.word
  let operation := ready.operation
  let notes := operation.notes word ready.cpu
  match operation.execute word ready with
  | .ok next => ⟨next, none, notes⟩
  | .error fault => ⟨{ ready with cpu := { ready.cpu with pc := start } }, some fault, notes⟩

/-- Up to `count` steps, none after a fault. -/
def run : Nat → Machine → Outcome
  | 0, machine => ⟨machine, none, []⟩
  | count + 1, machine =>
    let first := machine.step
    match first.fault with
    | some _ => first
    | none =>
      let rest := run count first.machine
      { rest with notes := first.notes ++ rest.notes }

def tick (machine : Machine) : Machine := { machine with cpu := machine.cpu.tick }

end ChipEight.Machine
