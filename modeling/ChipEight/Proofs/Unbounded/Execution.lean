import ChipEight.Proofs.Unbounded.Machine

/-!
# Running the unbounded machine

The instructions in integer arithmetic, the step that fetches and dispatches them through tables
that are lists, and the actions of a host.
-/
namespace ChipEight.Unbounded

/-- An opcode table laid out as lists. -/
structure Table where
  family : List FamilyEntry
  zero : List Operation
  eight : List Operation
  e : List Operation
  f : List Operation

def Table.ofDialect (dialect : Dialect) : Table where
  family := (List.finRange 16).map (OpcodeTable.families dialect)
  zero := (List.range 256).map fun byte => OpcodeTable.groupZero (UInt8.ofNat byte)
  eight := (List.finRange 16).map (OpcodeTable.groupEight dialect)
  e := (List.finRange 16).map OpcodeTable.groupE
  f := (List.range 256).map fun byte => OpcodeTable.groupF dialect (UInt8.ofNat byte)

def Table.lookup (table : Table) (word : Int) : Except Fault Operation := do
  let found ← entry table.family (word / 4096)
  match found with
  | .operation operation => .ok operation
  | .group .zero => entry table.zero (nn word)
  | .group .eight => entry table.eight (n word)
  | .group .e => entry table.e (n word)
  | .group .f => entry table.f (nn word)

def logic (op : LogicOp) (left right : Int) : Int :=
  match op with
  | .or => Int.lor left right
  | .and => Int.land left right
  | .xor => Int.xor left right

def execute (operation : Operation) (word : Int) (state : State) : Except Fault State :=
  match operation with
  | .undefined => .ok state
  | .clear => .ok { state with screen := state.screen.map fun _ => 0, redraw := true }
  | .ret => do
    let (address, popped) ← state.pop
    .ok { popped with pc := address }
  | .jump => .ok (state.jump (nnn word))
  | .call => do
    let pushed ← state.push state.pc
    .ok { pushed with pc := nnn word }
  | .skipByte whenEqual => do
    let vx ← state.get (x word)
    .ok (state.skipIf ((vx == nn word) == whenEqual))
  | .skipRegister whenEqual => do
    let vx ← state.get (x word)
    let vy ← state.get (y word)
    .ok (state.skipIf ((vx == vy) == whenEqual))
  | .setByte => state.set (x word) (nn word)
  | .addByte => do
    let vx ← state.get (x word)
    state.set (x word) ((vx + nn word) % 256)
  | .copy => do
    let vy ← state.get (y word)
    state.set (x word) vy
  | .logic op clearsFlag => do
    let vx ← state.get (x word)
    let vy ← state.get (y word)
    let next ← state.set (x word) (logic op vx vy)
    if clearsFlag then next.set 15 0 else .ok next
  | .add => do
    let vx ← state.get (x word)
    let vy ← state.get (y word)
    let next ← state.set (x word) ((vx + vy) % 256)
    next.setFlag (255 < vx + vy)
  | .subtract => do
    let vx ← state.get (x word)
    let vy ← state.get (y word)
    let next ← state.set (x word) ((vx - vy) % 256)
    next.setFlag (vy ≤ vx)
  | .subtractFrom => do
    let vx ← state.get (x word)
    let vy ← state.get (y word)
    let next ← state.set (x word) ((vy - vx) % 256)
    next.setFlag (vx ≤ vy)
  | .shift .right inPlace => do
    let source ← state.get (if inPlace then x word else y word)
    let next ← state.set (x word) (source / 2)
    next.set 15 (source % 2)
  | .shift .left inPlace => do
    let source ← state.get (if inPlace then x word else y word)
    let next ← state.set (x word) (source * 2 % 256)
    next.set 15 (source / 128)
  | .setIndex => .ok { state with index := nnn word }
  | .jumpOffset addsNamed => do
    let offset ← state.get (if addsNamed then x word else 0)
    .ok (state.jump (offset + nnn word))
  | .random =>
    let (byte, rest) := state.random.nextByte
    { state with random := rest }.set (x word) (Int.land (ofByte byte) word % 256)
  | .draw => do
    let vx ← state.get (x word)
    let vy ← state.get (y word)
    let rows ← state.readBlock state.index (n word).toNat
    let (screen, collided) ← drawRows (vx % 64) (vy % 32) rows (state.screen, false)
    { state with screen, redraw := true }.setFlag collided
  | .skipKey whenHeld => do
    let vx ← state.get (x word)
    let held ← entry state.keys (vx % 16)
    .ok (state.skipIf (held == whenHeld))
  | .readDelay => state.set (x word) state.delay
  | .awaitKey =>
    match state.keys.findIdx? id with
    | some key => state.set (x word) key
    | none => .ok { state with pc := (state.pc - 2) % 4096, awaitingKey := true }
  | .setDelay => do
    let vx ← state.get (x word)
    .ok { state with delay := vx }
  | .setSound => do
    let vx ← state.get (x word)
    .ok { state with sound := vx }
  | .addIndex => do
    let vx ← state.get (x word)
    { state with index := (state.index + vx) % 65536 }.setFlag (255 < state.index + vx)
  | .glyph => do
    let vx ← state.get (x word)
    .ok { state with index := 0x50 + 5 * (vx % 16) }
  | .decimal => do
    let vx ← state.get (x word)
    let memory ← write state.memory state.index (vx / 100)
    let memory ← write memory (state.index + 1) (vx / 10 % 10)
    let memory ← write memory (state.index + 2) (vx % 10)
    .ok { state with memory }
  | .store advance => do
    let memory ← state.storeRegisters (x word + 1).toNat
    .ok ({ state with memory }.advance advance (x word))
  | .load advance => do
    let registers ← assign (fun offset => state.read (state.index + offset)) (x word + 1).toNat
      state.registers
    .ok ({ state with registers }.advance advance (x word))

namespace State

/-- The word at the program counter, high byte first. -/
def fetch (state : State) : Except Fault State := do
  let high ← state.read state.pc
  let low ← state.read (state.pc + 1)
  .ok { state with
    word := Int.lor (high * 256) low
    address := state.pc
    pc := (state.pc + 2) % 4096
    awaitingKey := false }

/-- Only a stack fault puts the counter back. -/
def step (state : State) : State × Option Fault :=
  match state.fetch with
  | .error fault => (state, some fault)
  | .ok ready =>
    match (Table.ofDialect state.dialect).lookup ready.word >>= fun operation =>
        execute operation ready.word ready with
    | .ok next => (next, none)
    | .error (.stack kind address) => ({ ready with pc := state.pc }, some (.stack kind address))
    | .error .outOfRange => (ready, some .outOfRange)

def run : Nat → State → State × Option Fault
  | 0, state => (state, none)
  | count + 1, state =>
    match state.step with
    | (next, none) => run count next
    | (next, some fault) => (next, some fault)

def tick (state : State) : State :=
  { state with
    delay := if 0 < state.delay then state.delay - 1 else state.delay
    sound := if 0 < state.sound then state.sound - 1 else state.sound }

def reset (state : State) : Except Fault State := do
  let registers ← assign (fun _ => .ok 0) 16 state.registers
  let slots ← assign (fun _ => .ok 0) 16 state.slots
  let keys ← assign (fun _ => .ok false) 16 state.keys
  .ok { state with
    registers, slots, keys
    index := 0
    pc := 0x200
    depth := 0
    delay := 0
    sound := 0
    word := 0
    address := 0x200
    halted := false
    awaitingKey := false
    screen := state.screen.map fun _ => 0
    redraw := true }

end State

inductive Failure where
  | fault (fault : Fault)
  | image (rejected : ImageTooLarge)
  | file (error : FileError)
  deriving DecidableEq, Repr

/-- What a host gets from an action that is done or has failed as a whole. -/
def State.attempt (state : State) (result : Except Fault State) : State × Option Failure :=
  match result with
  | .ok next => (next, none)
  | .error fault => (state, some (.fault fault))

def State.load (state : State) (image : List UInt8) : State × Option Failure :=
  if 3584 < image.length then (state, some (.image ⟨image.length⟩))
  else
    ({ state with
      memory := state.memory.take 0x200 ++ image.map ofByte ++
        state.memory.drop (0x200 + image.length) }, none)

def State.perform (directory : Directory) (state : State) (action : Machine.Action) :
    State × Option Failure :=
  match action with
  | .load image => state.load image
  | .loadFile name =>
    match directory.read name with
    | .ok image => state.load image
    | .error error => (state, some (.file error))
  | .unload => state.attempt do
    let fresh ← state.reset
    .ok { fresh with memory := fresh.memory.take 0x200 ++ List.replicate 3584 0 }
  | .reset => state.attempt state.reset
  | .step => (state.step.1, state.step.2.map .fault)
  | .run count => ((State.run count state).1, (State.run count state).2.map .fault)
  | .tick => (state.tick, none)
  | .setKeys states => state.attempt do
    let keys ← assign (fun key => entry states key) (min states.length 16) state.keys
    .ok { state with keys }
  | .holdKey key held => state.attempt do
    let keys ← replace state.keys key.val held
    .ok { state with keys }
  | .setRedraw redraw => ({ state with redraw }, none)

def State.performAll (directory : Directory) (state : State) (actions : List Machine.Action) :
    State :=
  actions.foldl (fun current action => (current.perform directory action).1) state

/-- A machine at power on: an empty memory with the font copied in. -/
def State.initial (dialect : Dialect) (seed : Int) : State where
  dialect := dialect
  registers := List.replicate 16 0
  index := 0
  pc := 0x200
  depth := 0
  slots := List.replicate 16 0
  delay := 0
  sound := 0
  word := 0
  address := 0x200
  halted := false
  awaitingKey := false
  memory := List.replicate 0x50 0 ++ Font.bytes.toList.map ofByte ++
    List.replicate (4096 - 0xA0) 0
  screen := List.replicate 2048 0
  redraw := true
  keys := List.replicate 16 false
  random := .ofSeed seed

end ChipEight.Unbounded
