import ChipEight.Diagnostic
import ChipEight.Failure
import ChipEight.Machine
import ChipEight.OpcodeTable

/-!
# Execution

The effect of one operation on a machine whose program counter has already moved on. Operands are
read before anything is written, and the flag register is written last.
-/
namespace ChipEight

def LogicOp.apply : LogicOp → UInt8 → UInt8 → UInt8
  | or, left, right => left ||| right
  | and, left, right => left &&& right
  | xor, left, right => left ^^^ right

def ShiftDirection.apply : ShiftDirection → UInt8 → UInt8
  | right, value => value >>> 1
  | left, value => value <<< 1

/-- The bit that a shift pushes out. -/
def ShiftDirection.lostBit : ShiftDirection → UInt8 → Bool
  | right, value => value % 2 == 1
  | left, value => value / 128 == 1

namespace Operation

/-- Where a jump goes; the sum of an offset jump wraps at 4096. -/
def target? (operation : Operation) (word : Word) (cpu : Processor) : Option UInt16 :=
  match operation with
  | jump => some word.nnn
  | jumpOffset addsNamed =>
    let offset := cpu.get (if addsNamed then word.x else .offset)
    some ((word.nnn + offset.toUInt16) % 4096)
  | _ => none

/-- The bytes that an operation asks memory to store, in order. -/
def writes (operation : Operation) (word : Word) (cpu : Processor) : List (Address × UInt8) :=
  match operation with
  | decimal =>
    let value := cpu.get word.x
    [ (cpu.indexed 0, value / 100),
      (cpu.indexed 1, value / 10 % 10),
      (cpu.indexed 2, value % 10) ]
  | store _ =>
    ((List.finRange 16).take (word.x.val + 1)).map fun register =>
      (cpu.indexed register.val, cpu.get register)
  | _ => []

/-- Registers `V0` to `VX` as an operation of loading finds them in memory, the others unchanged. -/
def loadedRegisters (word : Word) (machine : Machine) : Vector UInt8 16 :=
  Vector.ofFn fun register =>
    if register ≤ word.x then machine.memory.get (machine.cpu.indexed register.val)
    else machine.cpu.get register

def execute (operation : Operation) (word : Word) (machine : Machine) :
    Except StackFault Machine :=
  let cpu := machine.cpu
  let vx := cpu.get word.x
  let vy := cpu.get word.y
  let finish (next : Processor) : Except StackFault Machine := .ok { machine with cpu := next }
  match operation with
  | undefined => .ok machine
  | clear => .ok { machine with screen := .blank }
  | ret =>
    match cpu.stack.pop? with
    | some (address, stack) => finish { cpu with stack, pc := address }
    | none => .error ⟨.underflow, cpu.last.address⟩
  | call =>
    match cpu.stack.push? cpu.pc with
    | some stack => finish { cpu with stack, pc := word.nnn }
    | none => .error ⟨.overflow, cpu.last.address⟩
  | jump | jumpOffset _ => finish ((operation.target? word cpu).elim cpu cpu.jump)
  | skipByte whenEqual => finish (cpu.skipIf ((vx == word.nn) == whenEqual))
  | skipRegister whenEqual => finish (cpu.skipIf ((vx == vy) == whenEqual))
  | setByte => finish (cpu.set word.x word.nn)
  | addByte => finish (cpu.set word.x (vx + word.nn))
  | copy => finish (cpu.set word.x vy)
  | logic op clearsFlag =>
    let next := cpu.set word.x (op.apply vx vy)
    finish (if clearsFlag then next.setFlag false else next)
  | add => finish ((cpu.set word.x (vx + vy)).setFlag (255 < vx.toNat + vy.toNat))
  | subtract => finish ((cpu.set word.x (vx - vy)).setFlag (vy ≤ vx))
  | subtractFrom => finish ((cpu.set word.x (vy - vx)).setFlag (vx ≤ vy))
  | shift direction inPlace =>
    let source := if inPlace then vx else vy
    finish ((cpu.set word.x (direction.apply source)).setFlag (direction.lostBit source))
  | setIndex => finish (cpu.setIndex word.nnn)
  | random =>
    let (byte, rest) := machine.random.nextByte
    .ok { machine with cpu := cpu.set word.x (byte &&& word.nn), random := rest }
  | draw =>
    let rows := machine.memory.readBlock cpu.index.toNat word.n.val
    let (screen, collided) := machine.screen.draw vx.toNat vy.toNat (rows.map (·.toNat))
    .ok { machine with cpu := cpu.setFlag collided, screen }
  | skipKey whenHeld =>
    finish (cpu.skipIf (machine.keys.isHeld ⟨vx.toNat % 16, by omega⟩ == whenHeld))
  | readDelay => finish (cpu.set word.x cpu.delay)
  | awaitKey =>
    match machine.keys.lowestHeld? with
    | some key => finish (cpu.set word.x (UInt8.ofNat key.val))
    | none => finish { cpu with pc := (cpu.pc - 2) % 4096, awaitingKey := true }
  | setDelay => finish { cpu with delay := vx }
  | setSound => finish { cpu with sound := vx }
  | addIndex =>
    finish ((cpu.setIndex (cpu.index + vx.toUInt16)).setFlag (255 < cpu.index.toNat + vx.toNat))
  | glyph => finish (cpu.setIndex (UInt16.ofNat (Font.glyphAddress vx.toNat)))
  | decimal => .ok { machine with memory := machine.memory.storeAll (operation.writes word cpu) }
  | store advance =>
    .ok { machine with
      cpu := cpu.setIndex (cpu.index + UInt16.ofNat (advance.distance word.x.val))
      memory := machine.memory.storeAll (operation.writes word cpu) }
  | load advance =>
    finish { cpu with
      registers := loadedRegisters word machine
      index := cpu.index + UInt16.ofNat (advance.distance word.x.val) }

/-- A halt is reported only the first time; a write to the font is reported each time. -/
def notes (operation : Operation) (word : Word) (cpu : Processor) : List Diagnostic :=
  match operation with
  | undefined => [.undefinedWord word cpu.last.address]
  | jump | jumpOffset _ =>
    match operation.target? word cpu with
    | some target =>
      if target = cpu.last.address ∧ cpu.halted = false then [.selfJump target] else []
    | none => []
  | decimal | store _ => (operation.writes word cpu).filterMap Diagnostic.ofWrite?
  | _ => []

end Operation
end ChipEight
