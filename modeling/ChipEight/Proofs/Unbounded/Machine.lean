import Mathlib.Data.Int.Bitwise
import ChipEight.Machine.Host
import ChipEight.Proofs.Unbounded.Cells

/-!
# The unbounded machine

A machine of integers without limits, in lists without a fixed length. Nothing keeps a value in its
register or a number within its list but the remainders that each instruction takes and the checks
of the lists. A remainder by a power of two keeps the low bits of a number, a quotient drops them.
-/
namespace ChipEight.Unbounded

structure State where
  dialect : Dialect
  registers : List Int
  index : Int
  pc : Int
  depth : Int
  slots : List Int
  delay : Int
  sound : Int
  word : Int
  address : Int
  halted : Bool
  awaitingKey : Bool
  memory : List Int
  screen : List Int
  redraw : Bool
  keys : List Bool
  random : Random.Generator

/-- A lit cell; the others are zero. -/
def lit : Int := 0xFFFFFFFF

def ofByte (byte : UInt8) : Int := byte.toNat

def x (word : Int) : Int := word / 256 % 16

def y (word : Int) : Int := word / 16 % 16

def n (word : Int) : Int := word % 16

def nn (word : Int) : Int := word % 256

def nnn (word : Int) : Int := word % 4096

/-- Program writes leave the font alone. -/
def write (memory : List Int) (address value : Int) : Except Fault (List Int) :=
  if 0x50 ≤ address % 4096 ∧ address % 4096 < 0xA0 then .ok memory
  else replace memory (address % 4096) (value % 256)

/-- One row of a sprite, up to the right edge; `base` is the number of the line's leftmost cell. -/
def drawColumns (pixels x base : Int) : List Nat → List Int × Bool → Except Fault (List Int × Bool)
  | [], surface => .ok surface
  | column :: columns, (screen, collided) =>
    if 64 ≤ x + column then .ok (screen, collided)
    else if pixels / Int.pow 2 (7 - column) % 2 = 0 then
      drawColumns pixels x base columns (screen, collided)
    else do
      let cell ← entry screen (base + (x + column))
      let screen ← replace screen (base + (x + column)) (Int.xor cell lit)
      drawColumns pixels x base columns (screen, collided || cell == lit)

/-- The rows of a sprite, down to the lower edge. -/
def drawRows (x y : Int) : List Int → List Int × Bool → Except Fault (List Int × Bool)
  | [], surface => .ok surface
  | pixels :: rows, surface =>
    if 32 ≤ y then .ok surface
    else do
      let surface ← drawColumns pixels x (y * 64) (List.range 8) surface
      drawRows x (y + 1) rows surface

namespace State

def get (state : State) (register : Int) : Except Fault Int := entry state.registers register

def set (state : State) (register value : Int) : Except Fault State := do
  let registers ← replace state.registers register value
  .ok { state with registers }

def setFlag (state : State) (raised : Bool) : Except Fault State :=
  state.set 15 (if raised then 1 else 0)

def read (state : State) (address : Int) : Except Fault Int := entry state.memory (address % 4096)

def readBlock (state : State) (address : Int) : Nat → Except Fault (List Int)
  | 0 => .ok []
  | count + 1 => do
    let block ← state.readBlock address count
    let byte ← state.read (address + count)
    .ok (block ++ [byte])

def skipIf (state : State) (condition : Bool) : State :=
  if condition then { state with pc := (state.pc + 2) % 4096 } else state

def jump (state : State) (target : Int) : State :=
  { state with
    pc := target % 4096
    halted := if target % 4096 = state.address then true else state.halted }

def push (state : State) (address : Int) : Except Fault State :=
  if 16 ≤ state.depth then .error (.stack .overflow state.address)
  else do
    let slots ← replace state.slots state.depth address
    .ok { state with slots, depth := state.depth + 1 }

def pop (state : State) : Except Fault (Int × State) :=
  if state.depth = 0 then .error (.stack .underflow state.address)
  else do
    let address ← entry state.slots (state.depth - 1)
    .ok (address, { state with depth := state.depth - 1 })

/-- Memory with the first `count` registers stored from the index on. -/
def storeRegisters (state : State) : Nat → Except Fault (List Int)
  | 0 => .ok state.memory
  | count + 1 => do
    let memory ← state.storeRegisters count
    let value ← state.get count
    write memory (state.index + count) value

def advance (state : State) (advance : IndexAdvance) (x : Int) : State :=
  match advance with
  | .pastLast => { state with index := (state.index + x + 1) % 65536 }
  | .ontoLast => { state with index := (state.index + x) % 65536 }
  | .unchanged => state

end State
end ChipEight.Unbounded
