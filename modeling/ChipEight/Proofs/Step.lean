import ChipEight.Machine.Host
import ChipEight.Proofs.Decoding

/-!
# What a step can do

Each operation touches few parts of a machine. The lemmas on `execute` say which operations write to
a part, and what becomes of memory; only a call and a return can fail.
-/
namespace ChipEight

/-- The words of an image that memory holds from `0x200` on. -/
theorem Memory.readWord_overlay (memory : Memory) (image : Array UInt8) (offset : Nat)
    (inside : offset + 1 < image.size) (room : imageStart + image.size ≤ 4096) :
    (memory.overlay imageStart image).readWord ((imageStart + offset : Nat) : Int) =
      .ofBytes image[offset] image[offset + 1] := by
  have byte (place : Nat) (held : place < image.size) :
      (memory.overlay imageStart image).read ((imageStart + place : Nat) : Int) = image[place] := by
    have small : (imageStart + place) % 4096 = imageStart + place := Nat.mod_eq_of_lt (by omega)
    rw [read, Address.ofInt_natCast, get_overlay]
    simp [small, held]
  have next : ((imageStart + offset : Nat) : Int) + 1 =
      ((imageStart + (offset + 1) : Nat) : Int) := by
    omega
  rw [readWord, next, byte offset (by omega), byte (offset + 1) inside]

namespace Operation

variable {operation : Operation} {word : Word} {machine next : Machine}

theorem execute_error_iff (fault : StackFault) :
    operation.execute word machine = .error fault ↔
      (operation = .call ∧ machine.cpu.stack.depth.val = 16 ∧
        fault = ⟨.overflow, machine.cpu.last.address⟩) ∨
      (operation = .ret ∧ machine.cpu.stack.depth.val = 0 ∧
        fault = ⟨.underflow, machine.cpu.last.address⟩) := by
  cases operation with
  | call =>
    have full := machine.cpu.stack.push?_eq_none_iff machine.cpu.pc
    rw [CallStack.length_toList] at full
    cases pushed : machine.cpu.stack.push? machine.cpu.pc with
    | some stack =>
      have free : machine.cpu.stack.depth.val ≠ 16 := by
        intro depth
        simp [full.mpr depth] at pushed
      simp [execute, pushed, free]
    | none => simp [execute, pushed, full.mp pushed, eq_comm (a := fault)]
  | ret =>
    have empty := machine.cpu.stack.pop?_eq_none_iff
    rw [← List.length_eq_zero_iff, CallStack.length_toList] at empty
    cases popped : machine.cpu.stack.pop? with
    | some found =>
      have used : machine.cpu.stack.depth.val ≠ 0 := by
        intro depth
        simp [empty.mpr depth] at popped
      simp [execute, popped, used]
    | none => simp [execute, popped, empty.mp popped, eq_comm (a := fault)]
  | awaitKey =>
    simp only [execute]
    split <;> simp
  | _ => simp [execute]

theorem execute_memory (done : operation.execute word machine = .ok next) :
    next.memory = machine.memory.storeAll (operation.writes word machine.cpu) := by
  cases operation with
  | call | ret | awaitKey =>
    simp only [execute] at done
    split at done <;> cases done <;> rfl
  | _ => cases done; rfl

theorem execute_random (word : Word) (machine : Machine) :
    Operation.random.execute word machine =
      .ok { machine with
        cpu := machine.cpu.set word.x (machine.random.nextByte.1 &&& word.nn)
        random := machine.random.nextByte.2 } := by
  unfold execute
  -- With the drawn byte left open, nothing has to run the generator.
  generalize machine.random.nextByte = drawn
  obtain ⟨byte, rest⟩ := drawn
  rfl

theorem execute_of_target {target : UInt16}
    (found : operation.target? word machine.cpu = some target) :
    operation.execute word machine = .ok { machine with cpu := machine.cpu.jump target } := by
  cases operation with
  | jump | jumpOffset _ =>
    simp only [execute, found]
    rfl
  | _ => cases found

/-- A wait that finds no key goes back to itself. -/
theorem execute_awaitKey_of_released (released : machine.keys.lowestHeld? = none) :
    awaitKey.execute word machine =
      .ok { machine with
        cpu := { machine.cpu with pc := (machine.cpu.pc - 2) % 4096, awaitingKey := true } } := by
  simp only [execute, released]

theorem execute_awaitKey_of_held {key : Fin 16} (held : machine.keys.lowestHeld? = some key) :
    awaitKey.execute word machine =
      .ok { machine with cpu := machine.cpu.set word.x (UInt8.ofNat key.val) } := by
  simp only [execute, held]

/-- Parts that few operations write to, each with these as exceptions. -/
structure Spares (operation : Operation) (word : Word) (before after : Machine) : Prop where
  stack : operation ≠ .call → operation ≠ .ret → after.cpu.stack = before.cpu.stack
  delay : operation ≠ .setDelay → after.cpu.delay = before.cpu.delay
  sound : operation ≠ .setSound → after.cpu.sound = before.cpu.sound
  /-- Only a fetch puts an instruction on record. -/
  last : after.cpu.last = before.cpu.last
  halted : operation.target? word before.cpu = none → after.cpu.halted = before.cpu.halted
  awaitingKey : operation ≠ .awaitKey → after.cpu.awaitingKey = before.cpu.awaitingKey
  keys : after.keys = before.keys
  random : operation ≠ .random → after.random = before.random

theorem execute_spares (done : operation.execute word machine = .ok next) :
    operation.Spares word machine next := by
  -- In each case a part is as it was, or the operation is one of its exceptions.
  cases operation with
  | call | ret | awaitKey =>
    simp only [execute] at done
    split at done <;> cases done <;> constructor <;> intros <;> first | contradiction | rfl
  | random =>
    rw [execute_random] at done
    cases done
    constructor <;> intros <;> first | contradiction | rfl
  | skipByte _ | skipRegister _ | skipKey _ =>
    cases done
    simp only [Processor.skipIf]
    split <;> constructor <;> intros <;> rfl
  | logic _ clearsFlag =>
    cases done
    cases clearsFlag <;> constructor <;> intros <;> rfl
  | _ =>
    cases done
    constructor <;> intros <;> first | contradiction | rfl

end Operation

namespace Machine

variable (machine : Machine)

/-- The word at the program counter. -/
def word : Word := machine.memory.readWord machine.cpu.pc.toNat

/-- The machine after a step that failed: only the attempted instruction is on record. -/
def recorded : Machine :=
  { machine with
    cpu := { machine.cpu with last := ⟨machine.word, machine.cpu.pc⟩, awaitingKey := false } }

/-- The operation that the next step executes. -/
def upcoming : Operation := (OpcodeTable.ofDialect machine.dialect).lookup machine.word

theorem upcoming_of_group {group : OpcodeGroup} (family : machine.word.family.val = group.family) :
    machine.upcoming = group.entry machine.dialect machine.word :=
  OpcodeTable.lookup_of_group machine.dialect machine.word family

theorem upcoming_eq_call_iff : machine.upcoming = .call ↔ machine.word.family.val = 0x2 :=
  OpcodeTable.lookup_eq_call_iff machine.dialect machine.word

theorem upcoming_eq_jump_iff : machine.upcoming = .jump ↔ machine.word.family.val = 0x1 :=
  OpcodeTable.lookup_eq_jump_iff machine.dialect machine.word

theorem upcoming_eq_jumpOffset_iff (addsNamed : Bool) :
    machine.upcoming = .jumpOffset addsNamed ↔
      machine.word.family.val = 0xB ∧ machine.dialect.jumpAddsNamed = addsNamed :=
  OpcodeTable.lookup_eq_jumpOffset_iff machine.dialect machine.word addsNamed

theorem upcoming_eq_ret_iff :
    machine.upcoming = .ret ↔ machine.word.family.val = 0x0 ∧ machine.word.nn = 0xEE :=
  OpcodeTable.lookup_eq_ret_iff machine.dialect machine.word

theorem upcoming_eq_clear_iff :
    machine.upcoming = .clear ↔ machine.word.family.val = 0x0 ∧ machine.word.nn = 0xE0 :=
  OpcodeTable.lookup_eq_clear_iff machine.dialect machine.word

theorem upcoming_eq_random_iff : machine.upcoming = .random ↔ machine.word.family.val = 0xC :=
  OpcodeTable.lookup_eq_random_iff machine.dialect machine.word

theorem upcoming_eq_draw_iff : machine.upcoming = .draw ↔ machine.word.family.val = 0xD :=
  OpcodeTable.lookup_eq_draw_iff machine.dialect machine.word

theorem upcoming_eq_readDelay_iff :
    machine.upcoming = .readDelay ↔ machine.word.family.val = 0xF ∧ machine.word.nn = 0x07 :=
  OpcodeTable.lookup_eq_readDelay_iff machine.dialect machine.word

theorem upcoming_eq_awaitKey_iff :
    machine.upcoming = .awaitKey ↔ machine.word.family.val = 0xF ∧ machine.word.nn = 0x0A :=
  OpcodeTable.lookup_eq_awaitKey_iff machine.dialect machine.word

theorem upcoming_eq_decimal_iff :
    machine.upcoming = .decimal ↔ machine.word.family.val = 0xF ∧ machine.word.nn = 0x33 :=
  OpcodeTable.lookup_eq_decimal_iff machine.dialect machine.word

theorem upcoming_eq_store_iff (advance : IndexAdvance) :
    machine.upcoming = .store advance ↔
      machine.word.family.val = 0xF ∧ machine.word.nn = 0x55 ∧
        machine.dialect.indexAdvance = advance :=
  OpcodeTable.lookup_eq_store_iff machine.dialect machine.word advance

theorem step_eq :
    machine.step =
      match machine.upcoming.execute machine.word machine.fetch with
      | .ok next => ⟨next, none, machine.upcoming.notes machine.word machine.fetch.cpu⟩
      | .error fault =>
        ⟨machine.recorded, some fault, machine.upcoming.notes machine.word machine.fetch.cpu⟩ :=
  rfl

theorem step_of_ok {machine next : Machine}
    (done : machine.upcoming.execute machine.word machine.fetch = .ok next) :
    machine.step.machine = next ∧ machine.step.fault = none := by
  have same :
      machine.fetch.operation.execute machine.fetch.cpu.last.word machine.fetch = .ok next :=
    done
  simp [step, same]

theorem step_of_error {machine : Machine} {fault : StackFault}
    (failed : machine.upcoming.execute machine.word machine.fetch = .error fault) :
    machine.step.machine = machine.recorded ∧ machine.step.fault = some fault := by
  have same :
      machine.fetch.operation.execute machine.fetch.cpu.last.word machine.fetch = .error fault :=
    failed
  constructor
  · simp only [step, same]
    rfl
  · simp only [step, same]

/-- A step that waits in vain stays where it is. -/
theorem step_awaitKey_of_released {machine : Machine} (waits : machine.upcoming = .awaitKey)
    (released : machine.keys.lowestHeld? = none) :
    machine.step.machine.cpu.pc = (Processor.following machine.cpu.pc - 2) % 4096 ∧
    machine.step.machine.cpu.awaitingKey = true := by
  have waited := @Operation.execute_awaitKey_of_released machine.word machine.fetch released
  rw [← waits] at waited
  rw [(step_of_ok waited).1]
  exact ⟨rfl, rfl⟩

theorem execute_of_unfaulted {machine : Machine} (unfaulted : machine.step.fault = none) :
    machine.upcoming.execute machine.word machine.fetch = .ok machine.step.machine := by
  cases outcome : machine.upcoming.execute machine.word machine.fetch with
  | ok next => rw [(step_of_ok outcome).1]
  | error fault => simp [(step_of_error outcome).2] at unfaulted

/-- Two situations fail, and the fault names the instruction. -/
theorem step_fault :
    machine.step.fault =
      if machine.upcoming = .call ∧ machine.cpu.stack.depth.val = 16 then
        some ⟨.overflow, machine.cpu.pc⟩
      else if machine.upcoming = .ret ∧ machine.cpu.stack.depth.val = 0 then
        some ⟨.underflow, machine.cpu.pc⟩
      else none := by
  have failures := @Operation.execute_error_iff machine.upcoming machine.word machine.fetch
  cases outcome : machine.upcoming.execute machine.word machine.fetch with
  | ok next =>
    -- A step that is done excludes both situations, each with the fault it would have given.
    simp only [outcome, reduceCtorEq, false_iff, not_or] at failures
    rw [(step_of_ok outcome).2, if_neg, if_neg]
    · exact fun faulty => (failures _).2 ⟨faulty.1, faulty.2, rfl⟩
    · exact fun faulty => (failures _).1 ⟨faulty.1, faulty.2, rfl⟩
  | error fault =>
    rw [(step_of_error outcome).2]
    rcases (failures fault).mp outcome with ⟨call, full, rfl⟩ | ⟨ret, empty, rfl⟩
    · rw [if_pos ⟨call, full⟩]
      rfl
    · rw [if_neg (by simp [ret]), if_pos ⟨ret, empty⟩]
      rfl

theorem step_faulted {machine : Machine} {fault : StackFault}
    (faulted : machine.step.fault = some fault) : machine.step.machine = machine.recorded := by
  cases outcome : machine.upcoming.execute machine.word machine.fetch with
  | ok next => simp [(step_of_ok outcome).2] at faulted
  | error _ => exact (step_of_error outcome).1

/-- A part of the machine that neither the fetch nor the operation touches. -/
theorem step_part {Part : Type} (part : Machine → Part) {machine : Machine}
    (fetched : part machine.fetch = part machine)
    (recorded : part machine.recorded = part machine)
    (executed : ∀ next, machine.upcoming.execute machine.word machine.fetch = .ok next →
      part next = part machine.fetch) :
    part machine.step.machine = part machine := by
  cases outcome : machine.upcoming.execute machine.word machine.fetch with
  | ok next =>
    rw [(step_of_ok outcome).1, executed next outcome]
    exact fetched
  | error fault =>
    rw [(step_of_error outcome).1]
    exact recorded

/-- After a step the record shows the word that it fetched, whatever became of memory since. -/
theorem step_last (machine : Machine) :
    machine.step.machine.cpu.last = ⟨machine.word, machine.cpu.pc⟩ := by
  cases outcome : machine.upcoming.execute machine.word machine.fetch with
  | ok next =>
    rw [(step_of_ok outcome).1, (Operation.execute_spares outcome).last]
    rfl
  | error _ =>
    rw [(step_of_error outcome).1]
    rfl

theorem step_notes :
    machine.step.notes = machine.upcoming.notes machine.word machine.fetch.cpu := by
  rw [step_eq]
  split <;> rfl

theorem run_succ_of_fault {machine : Machine} {fault : StackFault}
    (faulted : machine.step.fault = some fault) (count : Nat) :
    run (count + 1) machine = machine.step := by
  simp only [run, faulted]

theorem run_succ {machine : Machine} (unfaulted : machine.step.fault = none) (count : Nat) :
    (run (count + 1) machine).machine = (run count machine.step.machine).machine ∧
    (run (count + 1) machine).fault = (run count machine.step.machine).fault := by
  simp only [run, unfaulted, and_self]

/-- A machine at power on that holds an image. -/
def holding (image : Array UInt8) : Machine :=
  { initial {} 0 with memory := Memory.initial.overlay Memory.imageStart image }

/-- Where a machine begins that holds an image. -/
theorem word_of_overlay {machine : Machine} {memory : Memory} {image : Array UInt8}
    (begins : machine.cpu.pc = 0x200)
    (held : machine.memory = memory.overlay Memory.imageStart image) (inside : 1 < image.size)
    (room : Memory.imageStart + image.size ≤ 4096) :
    machine.word = .ofBytes image[0] image[1] := by
  rw [word, begins, held]
  exact memory.readWord_overlay image 0 inside room

theorem word_holding {image : Array UInt8} (inside : 1 < image.size)
    (room : Memory.imageStart + image.size ≤ 4096) :
    (holding image).word = .ofBytes image[0] image[1] := by
  have held : (holding image).memory = Memory.initial.overlay Memory.imageStart image := rfl
  exact word_of_overlay rfl held inside room

/-- What each step keeps, a run keeps. -/
theorem run_keeps (kept : Machine → Prop)
    (step_keeps : ∀ machine, kept machine → kept machine.step.machine) (count : Nat)
    {machine : Machine} (start : kept machine) : kept (run count machine).machine := by
  induction count generalizing machine with
  | zero => exact start
  | succ count ih =>
    cases faulted : machine.step.fault with
    | some fault =>
      -- The failed step is the last one, and it counts.
      rw [run_succ_of_fault faulted]
      exact step_keeps machine start
    | none =>
      rw [(run_succ faulted count).1]
      exact ih (step_keeps machine start)

def Action.isTick : Action → Bool
  | tick => true
  | _ => false

theorem performAll_append (directory : Directory) (actions later : List Action) :
    machine.performAll directory (actions ++ later) =
      (machine.performAll directory actions).performAll directory later :=
  List.foldl_append

/-- What each action keeps, a sequence of actions keeps. -/
theorem performAll_keeps (kept : Machine → Prop) (directory : Directory)
    (perform_keeps : ∀ machine action, kept machine →
      kept (machine.perform directory action).machine)
    (actions : List Action) {machine : Machine} (start : kept machine) :
    kept (machine.performAll directory actions) := by
  induction actions generalizing machine with
  | nil => exact start
  | cons action actions ih => exact ih (perform_keeps machine action start)

theorem load_of_fits {image : List UInt8} (fits : image.length ≤ Memory.imageCapacity) :
    machine.load image = .ok
      { machine with memory := machine.memory.overlay Memory.imageStart image.toArray } := by
  rw [load, Memory.load, if_pos fits]
  rfl

theorem load_of_tooLarge {image : List UInt8} (tooLarge : ¬image.length ≤ Memory.imageCapacity) :
    machine.load image = .error ⟨image.length⟩ := by
  rw [load, Memory.load, if_neg tooLarge]
  rfl

/-- Loading changes memory, and that only if the image fits. -/
theorem loading_eq (image : List UInt8) (after : List Diagnostic) :
    machine.loading image after =
      if image.length ≤ Memory.imageCapacity then
        ⟨{ machine with memory := machine.memory.overlay Memory.imageStart image.toArray }, none,
          .imageCopied image.length :: .imageLoaded image.length :: after⟩
      else ⟨machine, some (.image ⟨image.length⟩), []⟩ := by
  by_cases fits : image.length ≤ Memory.imageCapacity
  · rw [loading, machine.load_of_fits fits, if_pos fits]
  · rw [loading, machine.load_of_tooLarge fits, if_neg fits]

/-- The new memory is left open, so that nothing has to look into it. -/
theorem loading_memory (machine : Machine) (image : List UInt8) (after : List Diagnostic) :
    ∃ memory, (machine.loading image after).machine = { machine with memory } := by
  rw [loading_eq]
  split
  · exact ⟨_, rfl⟩
  · exact ⟨machine.memory, rfl⟩

theorem perform_loadFile_memory (machine : Machine) (directory : Directory) (name : FileName) :
    ∃ memory, (machine.perform directory (.loadFile name)).machine = { machine with memory } := by
  simp only [perform]
  split
  · exact machine.loading_memory _ _
  · exact ⟨machine.memory, rfl⟩

theorem perform_load (machine : Machine) (directory : Directory) {image : List UInt8}
    (fits : image.length ≤ Memory.imageCapacity) :
    (machine.perform directory (.load image)).machine =
      { machine with memory := machine.memory.overlay Memory.imageStart image.toArray } := by
  have loaded := machine.loading_eq image []
  rw [if_pos fits] at loaded
  simp only [perform, loaded]

theorem performAll_load (directory : Directory) {image : Array UInt8}
    (fits : image.toList.length ≤ Memory.imageCapacity) :
    (initial {} 0).performAll directory [.load image.toList] = holding image := by
  have loaded := perform_load (initial {} 0) directory fits
  rw [Array.toArray_toList] at loaded
  exact loaded

theorem performAll_load_step (directory : Directory) {image : Array UInt8}
    (fits : image.toList.length ≤ Memory.imageCapacity) :
    (initial {} 0).performAll directory [.load image.toList, .step] =
      (holding image).step.machine :=
  congrArg (fun machine => machine.step.machine) (performAll_load directory fits)

theorem perform_loadFile (machine : Machine) {directory : Directory} {name : FileName}
    {image : List UInt8} (found : directory.read name = .ok image)
    (fits : image.length ≤ Memory.imageCapacity) :
    (machine.perform directory (.loadFile name)).failure = none ∧
      (machine.perform directory (.loadFile name)).machine =
        { machine with memory := machine.memory.overlay Memory.imageStart image.toArray } := by
  have loaded := machine.loading_eq image [.fileLoaded name]
  rw [if_pos fits] at loaded
  simp only [perform, found, loaded, and_self]

end Machine
end ChipEight
