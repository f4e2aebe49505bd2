import Mathlib.Data.List.Forall2
import ChipEight.Proofs.DialectIndependence
import ChipEight.Proofs.OpenCalls

/-!
# What only a host looks at

A program reads neither the sound timer nor the redraw flag, neither the hints nor the record of the
last fetched word, and no slot of the call stack that is not in use. Main statement: two machines
that differ in nothing else answer every sequence of host operations alike.
-/
namespace ChipEight

/-- The redraw flag plays no part in drawing. -/
theorem Screen.draw_eq {left right : Screen} (cells : left.cells = right.cells) (x y : Int)
    (rows : List Int) : left.draw x y rows = right.draw x y rows := by
  obtain ⟨_, _⟩ := left
  obtain ⟨_, _⟩ := right
  cases cells
  rfl

namespace Machine

/-- Agreement in all that a program can come to read. Of the call stack that is what the used slots
hold, and of the screen the cells. -/
structure Alike (left right : Machine) : Prop where
  dialect : left.dialect = right.dialect
  registers : left.cpu.registers = right.cpu.registers
  index : left.cpu.index = right.cpu.index
  pc : left.cpu.pc = right.cpu.pc
  stack : left.cpu.stack.toList = right.cpu.stack.toList
  delay : left.cpu.delay = right.cpu.delay
  memory : left.memory = right.memory
  cells : left.screen.cells = right.screen.cells
  keys : left.keys = right.keys
  random : left.random = right.random

namespace Alike

variable {left right : Machine}

theorem get (same : left.Alike right) (register : Register) :
    left.cpu.get register = right.cpu.get register := by
  rw [Processor.get, Processor.get, same.registers]

theorem depth (same : left.Alike right) :
    left.cpu.stack.depth.val = right.cpu.stack.depth.val := by
  rw [← CallStack.length_toList, ← CallStack.length_toList, same.stack]

theorem word (same : left.Alike right) : left.word = right.word := by
  rw [Machine.word, Machine.word, same.memory, same.pc]

theorem upcoming (same : left.Alike right) : left.upcoming = right.upcoming := by
  rw [Machine.upcoming, Machine.upcoming, same.dialect, same.word]

theorem writes (same : left.Alike right) (operation : Operation) (word : Word) :
    operation.writes word left.cpu = operation.writes word right.cpu := by
  cases operation with
  | decimal | store _ => simp only [Operation.writes, Processor.indexed, same.get, same.index]
  | _ => rfl

theorem loadedRegisters (same : left.Alike right) (word : Word) :
    Operation.loadedRegisters word left = Operation.loadedRegisters word right := by
  simp only [Operation.loadedRegisters, Processor.indexed, same.get, same.index, same.memory]

theorem target? (same : left.Alike right) (operation : Operation) (word : Word) :
    operation.target? word left.cpu = operation.target? word right.cpu := by
  cases operation with
  | jumpOffset _ => simp only [Operation.target?, same.get]
  | _ => rfl

theorem skipIf (same : left.Alike right) (condition : Bool) :
    Alike { left with cpu := left.cpu.skipIf condition }
      { right with cpu := right.cpu.skipIf condition } := by
  cases condition
  · exact same
  · exact { same with pc := congrArg Processor.following same.pc }

theorem set (same : left.Alike right) (register : Register) (value : UInt8) :
    Alike { left with cpu := left.cpu.set register value }
      { right with cpu := right.cpu.set register value } :=
  { same with registers := congrArg (·.set register.val value) same.registers }

end Alike

end Machine

namespace Operation

variable {left right leftNext rightNext : Machine}

theorem execute_alike {operation : Operation} {word : Word} (same : left.Alike right)
    (done : operation.execute word left = .ok leftNext)
    (other : operation.execute word right = .ok rightNext) : leftNext.Alike rightNext := by
  cases operation
  case ret =>
    -- Both give back the last of the same used slots.
    have returned := execute_ret_stack done
    rw [same.stack, execute_ret_stack other] at returned
    obtain ⟨stack, pc⟩ := List.append_inj' returned rfl
    simp only [execute] at done other
    split at done <;> cases done
    split at other <;> cases other
    exact { same with stack := stack.symm, pc := (List.singleton_inj.mp pc).symm }
  case call =>
    have called := execute_call_stack done
    rw [same.stack, same.pc, ← execute_call_stack other] at called
    simp only [execute] at done other
    split at done <;> cases done
    split at other <;> cases other
    exact { same with stack := called, pc := rfl }
  case awaitKey =>
    simp only [execute, same.keys] at done
    simp only [execute] at other
    cases found : right.keys.lowestHeld? with
    | some key =>
      simp only [found, Except.ok.injEq] at done other
      subst done other
      exact { same.set word.x _ with keys := rfl }
    | none =>
      simp only [found, Except.ok.injEq] at done other
      subst done other
      exact { same with pc := congrArg (fun pc => (pc - 2) % 4096) same.pc, keys := rfl }
  case random =>
    rw [execute_random, Except.ok.injEq] at done other
    subst done other
    rw [same.random]
    generalize right.random.nextByte = drawn
    exact { same.set word.x _ with random := rfl }
  case draw =>
    simp only [execute, same.get, same.memory, same.index, Screen.draw_eq same.cells,
      Except.ok.injEq] at done other
    subst done other
    exact { same.set .flag _ with memory := rfl, cells := rfl }
  -- The other operations cannot fail, so that what they leave is known.
  all_goals
    cases done
    cases other
  case undefined => exact same
  case clear => exact { same with cells := rfl }
  case jump => exact { same with pc := rfl }
  case jumpOffset addsNamed =>
    exact { same with pc := Option.some.inj (same.target? (jumpOffset addsNamed) word) }
  case skipByte | skipRegister =>
    simp only [same.get]
    exact same.skipIf _
  case skipKey =>
    simp only [same.get, same.keys]
    exact { same.skipIf _ with keys := rfl }
  case setByte => exact same.set _ _
  case addByte | copy =>
    simp only [same.get]
    exact same.set _ _
  case logic op clearsFlag =>
    simp only [same.get]
    cases clearsFlag
    · exact same.set _ _
    · exact (same.set _ _).set _ _
  case add | subtract | subtractFrom | shift =>
    simp only [same.get]
    exact (same.set _ _).set _ _
  case setIndex => exact { same with index := rfl }
  case glyph =>
    simp only [same.get]
    exact { same with index := rfl }
  case readDelay =>
    simp only [same.delay]
    exact same.set _ _
  case setDelay => exact { same with delay := same.get _ }
  case setSound => exact { same with }
  case addIndex =>
    simp only [same.get, same.index]
    exact { same.set .flag _ with index := rfl }
  case decimal => exact { same with memory := by rw [same.memory, same.writes] }
  case store advance =>
    exact { same with
      index := by simp only [Processor.setIndex, same.index]
      memory := by rw [same.memory, same.writes] }
  case load advance =>
    exact { same with
      registers := same.loadedRegisters word
      index := by simp only [same.index] }

end Operation

namespace Machine

namespace Alike

variable {left right : Machine}

/-- The memories are left open, so that nothing has to look into them. -/
theorem withMemory (same : left.Alike right) {memory other : Memory} (equal : memory = other) :
    Alike { left with memory } { right with memory := other } :=
  { same with memory := equal }

theorem withKeys (same : left.Alike right) {keys other : Keypad} (equal : keys = other) :
    Alike { left with keys } { right with keys := other } :=
  { same with keys := equal }

theorem fetch (same : left.Alike right) : left.fetch.Alike right.fetch :=
  { same with pc := congrArg Processor.following same.pc }

theorem recorded (same : left.Alike right) : left.recorded.Alike right.recorded := { same with }

theorem step_fault (same : left.Alike right) : left.step.fault = right.step.fault := by
  rw [Machine.step_fault, Machine.step_fault, same.upcoming, same.depth, same.pc]

theorem step (same : left.Alike right) : left.step.machine.Alike right.step.machine := by
  cases faulted : left.step.fault with
  | some fault =>
    rw [step_faulted faulted, step_faulted (same.step_fault ▸ faulted)]
    exact same.recorded
  | none =>
    have done := execute_of_unfaulted faulted
    rw [same.upcoming, same.word] at done
    exact Operation.execute_alike same.fetch done (execute_of_unfaulted (same.step_fault ▸ faulted))

theorem run (same : left.Alike right) (count : Nat) :
    (Machine.run count left).fault = (Machine.run count right).fault ∧
      (Machine.run count left).machine.Alike (Machine.run count right).machine := by
  induction count generalizing left right with
  | zero => exact ⟨rfl, same⟩
  | succ count ih =>
    cases faulted : left.step.fault with
    | some fault =>
      -- Both runs end here, with the same fault.
      rw [run_succ_of_fault faulted, run_succ_of_fault (same.step_fault ▸ faulted)]
      exact ⟨same.step_fault, same.step⟩
    | none =>
      obtain ⟨ours, our_fault⟩ := run_succ faulted count
      obtain ⟨theirs, their_fault⟩ := run_succ (same.step_fault ▸ faulted) count
      rw [ours, our_fault, theirs, their_fault]
      exact ih same.step

theorem loading (same : left.Alike right) (image : List UInt8) (after : List Diagnostic) :
    (left.loading image after).failure = (right.loading image after).failure ∧
      (left.loading image after).machine.Alike (right.loading image after).machine := by
  rw [loading_eq, loading_eq]
  split
  · exact ⟨rfl, same.withMemory (by rw [same.memory])⟩
  · exact ⟨rfl, same⟩

theorem reset (same : left.Alike right) : left.reset.Alike right.reset where
  dialect := same.dialect
  registers := rfl
  index := rfl
  pc := rfl
  stack := rfl
  delay := rfl
  memory := same.memory
  cells := rfl
  keys := rfl
  random := same.random

theorem unload (same : left.Alike right) : left.unload.Alike right.unload := by
  rw [Machine.unload, Machine.unload]
  apply same.reset.withMemory
  rw [same.memory]

theorem perform (same : left.Alike right) (directory : Directory) (action : Action) :
    (left.perform directory action).failure = (right.perform directory action).failure ∧
      (left.perform directory action).machine.Alike (right.perform directory action).machine := by
  cases action with
  | load image => exact same.loading image []
  | loadFile name =>
    simp only [Machine.perform]
    cases directory.read name with
    | ok image => exact same.loading image _
    | error error => exact ⟨rfl, same⟩
  | unload => exact ⟨rfl, same.unload⟩
  | reset => exact ⟨rfl, same.reset⟩
  | step => exact ⟨congrArg (Option.map Failure.stack) same.step_fault, same.step⟩
  | run count =>
    obtain ⟨fault, machine⟩ := same.run count
    exact ⟨congrArg (Option.map Failure.stack) fault, machine⟩
  | tick =>
    have delay : left.tick.cpu.delay = right.tick.cpu.delay := by
      simp only [Machine.tick, Processor.tick, same.delay]
    exact ⟨rfl, { same with delay }⟩
  | setKeys states =>
    have keys : left.keys.copy states = right.keys.copy states := by rw [same.keys]
    exact ⟨rfl, same.withKeys keys⟩
  | holdKey key held =>
    have keys : left.keys.hold key held = right.keys.hold key held := by rw [same.keys]
    exact ⟨rfl, same.withKeys keys⟩
  | setRedraw redraw => exact ⟨rfl, { same with }⟩

end Alike

/-- Whatever the host does with two machines that a program cannot tell apart, the same actions fail
in the same way, and after each of them they still cannot be told apart. -/
theorem observations_never_matter (directory : Directory) {left right : Machine}
    (same : left.Alike right) (actions : List Action) :
    List.Forall₂
      (fun ours theirs => ours.failure = theirs.failure ∧ ours.machine.Alike theirs.machine)
      (left.responses directory actions) (right.responses directory actions) := by
  induction actions generalizing left right with
  | nil => exact .nil
  | cons action actions ih =>
    have now := same.perform directory action
    exact .cons now (ih now.2)

/-- A lone return. -/
def loneReturn : Machine := holding #[0x00, 0xEE]

/-- It has stale return addresses, and whatever else only a host sees is different, too. -/
def staleReturn : Machine :=
  { loneReturn with
    cpu := { loneReturn.cpu with
      stack := { CallStack.empty with slots := Vector.replicate 16 0x300 }
      sound := 9
      last := ⟨0xFFFF, 0x123⟩
      halted := true
      awaitingKey := true }
    screen := loneReturn.screen.setRedraw false }

theorem stale_return_fails_alike :
    loneReturn.Alike staleReturn ∧
    (staleReturn.responses [] [.tick, .step]).map (·.failure) =
      [none, some (.stack ⟨.underflow, 0x200⟩)] := by
  have same : loneReturn.Alike staleReturn := ⟨rfl, rfl, rfl, rfl, rfl, rfl, rfl, rfl, rfl, rfl⟩
  refine ⟨same, ?_⟩
  have word : loneReturn.tick.word = 0x00EE := by
    change (holding #[0x00, 0xEE]).word = 0x00EE
    rw [word_holding (by decide) (by decide)]
    decide
  have returns : loneReturn.tick.upcoming = .ret := by
    rw [upcoming_eq_ret_iff, word]
    decide
  have faulted : loneReturn.tick.step.fault = some ⟨.underflow, 0x200⟩ := by
    rw [step_fault, returns]
    rfl
  have alike := observations_never_matter [] same [.tick, .step]
  simp only [responses, List.forall₂_cons] at alike
  obtain ⟨⟨ticked, -⟩, ⟨stepped, -⟩, -⟩ := alike
  simp only [responses, List.map_cons, List.map_nil, ← ticked, ← stepped]
  simp only [perform, Response.ofOutcome, faulted, Option.map_some]

end Machine
end ChipEight
