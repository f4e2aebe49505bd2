import ChipEight.CallStack
import ChipEight.Dialect
import ChipEight.Screen
import ChipEight.Keypad
import ChipEight.Memory
import ChipEight.Random

/-!
# Machines

A machine joins a processor with memory, screen, keys and a random generator. Its dialect is fixed
when it is built. Values that only a host reads are the redraw flag, the last fetched word, and
the two hints `halted` and `awaitingKey`.
-/
namespace ChipEight

/-- A word with the address it was fetched from. -/
structure Fetched where
  word : Word
  address : UInt16
  deriving DecidableEq, Repr

structure Processor where
  registers : Vector UInt8 16
  index : UInt16
  pc : UInt16
  stack : CallStack
  delay : UInt8
  sound : UInt8
  last : Fetched
  /-- A jump to its own address has been executed. -/
  halted : Bool
  /-- The last instruction was a wait for a key that found none held. -/
  awaitingKey : Bool
  deriving DecidableEq

namespace Processor

def initial : Processor where
  registers := Vector.replicate 16 0
  index := 0
  pc := 0x200
  stack := .empty
  delay := 0
  sound := 0
  last := ⟨0, 0x200⟩
  halted := false
  awaitingKey := false

def get (cpu : Processor) (register : Register) : UInt8 := cpu.registers[register.val]

def set (cpu : Processor) (register : Register) (value : UInt8) : Processor :=
  { cpu with registers := cpu.registers.set register.val value }

def setFlag (cpu : Processor) (raised : Bool) : Processor :=
  cpu.set .flag (if raised then 1 else 0)

/-- The address of the following instruction; addresses wrap at 4096. -/
def following (address : UInt16) : UInt16 := (address + 2) % 4096

def skipIf (cpu : Processor) (condition : Bool) : Processor :=
  if condition then { cpu with pc := following cpu.pc } else cpu

/-- A jump to the address it was fetched from leaves the hint that the program has halted. -/
def jump (cpu : Processor) (target : UInt16) : Processor :=
  { cpu with pc := target, halted := cpu.halted || target == cpu.last.address }

def setIndex (cpu : Processor) (index : UInt16) : Processor := { cpu with index }

/-- The memory byte that lies `offset` after the index register. -/
def indexed (cpu : Processor) (offset : Nat) : Address := .ofNat (cpu.index.toNat + offset)

/-- Both timers stop at zero. -/
def tick (cpu : Processor) : Processor :=
  { cpu with
    delay := if cpu.delay = 0 then 0 else cpu.delay - 1
    sound := if cpu.sound = 0 then 0 else cpu.sound - 1 }

theorem get_set (cpu : Processor) (register other : Register) (value : UInt8) :
    (cpu.set register value).get other = if other = register then value else cpu.get other := by
  simp only [get, set, Vector.getElem_set, Fin.ext_iff, eq_comm]

theorem toNat_following (address : UInt16) :
    (following address).toNat = (address.toNat + 2) % 4096 := by
  simp only [following, UInt16.toNat_mod, UInt16.toNat_add, UInt16.reduceToNat]
  omega

end Processor

structure Machine where
  dialect : Dialect
  cpu : Processor
  memory : Memory
  screen : Screen
  keys : Keypad
  random : Random.Generator
  deriving DecidableEq

namespace Machine

/-- A machine at power on. There is always a seed: a host that is given none draws one by chance, so
that a machine without a seed is one with a seed that nobody has chosen. -/
def initial (dialect : Dialect) (seed : Int) : Machine where
  dialect := dialect
  cpu := .initial
  memory := .initial
  screen := .blank
  keys := .released
  random := .ofSeed seed

end Machine
end ChipEight
