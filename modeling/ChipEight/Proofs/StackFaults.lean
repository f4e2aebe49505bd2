import ChipEight.Proofs.Step

/-!
# Stack faults

A step fails exactly on a call with sixteen return addresses pushed and on a return with none. Main
statement: such a step changes nothing but the record of the attempt, and as long as the host only
tries again, ticks the timers and moves keys, every further attempt fails in the same way.
-/
namespace ChipEight.Machine

/-- What a host does without touching the program. -/
def Action.Idle : Action → Prop
  | .step | .tick | .setKeys _ | .holdKey _ _ => True
  | _ => False

/-- Agreement in all that a program computes with, timers, keys and random bytes apart. -/
structure Agrees (left right : Machine) : Prop where
  dialect : left.dialect = right.dialect
  registers : left.cpu.registers = right.cpu.registers
  index : left.cpu.index = right.cpu.index
  pc : left.cpu.pc = right.cpu.pc
  stack : left.cpu.stack = right.cpu.stack
  memory : left.memory = right.memory
  screen : left.screen = right.screen

variable {machine later : Machine} {fault : StackFault}

theorem Agrees.refl (machine : Machine) : Agrees machine machine :=
  ⟨rfl, rfl, rfl, rfl, rfl, rfl, rfl⟩

theorem Agrees.trans {last : Machine} (first : Agrees last later) (second : Agrees later machine) :
    Agrees last machine where
  dialect := first.dialect.trans second.dialect
  registers := first.registers.trans second.registers
  index := first.index.trans second.index
  pc := first.pc.trans second.pc
  stack := first.stack.trans second.stack
  memory := first.memory.trans second.memory
  screen := first.screen.trans second.screen

theorem agrees_recorded (machine : Machine) : Agrees machine.recorded machine :=
  ⟨rfl, rfl, rfl, rfl, rfl, rfl, rfl⟩

theorem agrees_timers (machine : Machine) (delay sound : UInt8) :
    Agrees { machine with cpu := { machine.cpu with delay, sound } } machine :=
  ⟨rfl, rfl, rfl, rfl, rfl, rfl, rfl⟩

theorem agrees_keys (machine : Machine) (keys : Keypad) : Agrees { machine with keys } machine :=
  ⟨rfl, rfl, rfl, rfl, rfl, rfl, rfl⟩

theorem Agrees.upcoming (same : Agrees later machine) : later.upcoming = machine.upcoming := by
  simp only [Machine.upcoming, word, same.dialect, same.memory, same.pc]

theorem Agrees.step_fault (same : Agrees later machine) :
    later.step.fault = machine.step.fault := by
  rw [Machine.step_fault, Machine.step_fault, same.upcoming, same.stack, same.pc]

/-- An attempt that fails agrees with what it started from. -/
theorem Agrees.perform (same : Agrees later machine) (faulted : machine.step.fault = some fault)
    (directory : Directory) {action : Action} (idle : action.Idle) :
    Agrees (later.perform directory action).machine machine := by
  cases action with
  | step =>
    -- The attempt fails again, so that only its record changes once more.
    have again : later.step.fault = some fault := same.step_fault.trans faulted
    change Agrees later.step.machine machine
    rw [step_faulted again]
    exact (agrees_recorded later).trans same
  | tick => exact (agrees_timers later _ _).trans same
  | setKeys _ | holdKey _ _ => exact (agrees_keys later _).trans same
  | load _ | loadFile _ | unload | reset | run _ | setRedraw _ => exact idle.elim

theorem Agrees.performAll (same : Agrees later machine) (faulted : machine.step.fault = some fault)
    (directory : Directory) (actions : List Action) (idle : ∀ action ∈ actions, action.Idle) :
    Agrees (later.performAll directory actions) machine := by
  induction actions generalizing later with
  | nil => exact same
  | cons action actions ih =>
    rw [List.forall_mem_cons] at idle
    exact ih (same.perform faulted directory idle.1) idle.2

theorem step_overflows_iff (machine : Machine) :
    (∃ address, machine.step.fault = some ⟨.overflow, address⟩) ↔
      machine.word.family.val = 0x2 ∧ machine.cpu.stack.depth.val = 16 := by
  rw [← upcoming_eq_call_iff, step_fault]
  split
  next overflows => simp [overflows]
  next sound =>
    -- What remains can only be an underflow.
    refine iff_of_false ?_ sound
    split <;> simp

theorem step_underflows_iff (machine : Machine) :
    (∃ address, machine.step.fault = some ⟨.underflow, address⟩) ↔
      (machine.word.family.val = 0x0 ∧ machine.word.nn = 0xEE) ∧
        machine.cpu.stack.depth.val = 0 := by
  rw [← upcoming_eq_ret_iff, step_fault]
  split
  next overflows => simp [overflows.1]
  next =>
    split
    next underflows => simp [underflows]
    next sound => exact iff_of_false (by simp) sound

theorem address_of_step_fault (faulted : machine.step.fault = some fault) :
    fault.address = machine.cpu.pc := by
  rw [step_fault] at faulted
  split at faulted
  · cases faulted
    rfl
  · split at faulted <;> cases faulted
    rfl

/-- Faults are exact, leave the machine as it was apart from the record of the attempt, and last. -/
theorem stack_faults_are_atomic_and_lasting (directory : Directory) (machine : Machine) :
    ((∃ address, machine.step.fault = some ⟨.overflow, address⟩) ↔
      machine.word.family.val = 0x2 ∧ machine.cpu.stack.depth.val = 16) ∧
    ((∃ address, machine.step.fault = some ⟨.underflow, address⟩) ↔
      (machine.word.family.val = 0x0 ∧ machine.word.nn = 0xEE) ∧ machine.cpu.stack.depth.val = 0) ∧
    ∀ fault, machine.step.fault = some fault →
      fault.address = machine.cpu.pc ∧
      machine.step.machine =
        { machine with
          cpu := { machine.cpu with
            last := ⟨machine.word, machine.cpu.pc⟩
            awaitingKey := false } } ∧
      ∀ actions : List Action, (∀ action ∈ actions, action.Idle) →
        (machine.step.machine.performAll directory actions).step.fault = some fault ∧
        Agrees (machine.step.machine.performAll directory actions) machine := by
  refine ⟨step_overflows_iff machine, step_underflows_iff machine, ?_⟩
  intro fault faulted
  refine ⟨address_of_step_fault faulted, step_faulted faulted, ?_⟩
  intro actions idle
  have start : Agrees machine.step.machine machine := by
    rw [step_faulted faulted]
    exact agrees_recorded machine
  have kept := start.performAll faulted directory actions idle
  exact ⟨kept.step_fault.trans faulted, kept⟩

theorem lone_return_fails_again :
    (holding #[0x00, 0xEE]).step.fault = some ⟨.underflow, 0x200⟩ ∧
    ((holding #[0x00, 0xEE]).step.machine.performAll []
      [.tick, .setKeys [true], .step]).step.fault = some ⟨.underflow, 0x200⟩ := by
  obtain ⟨-, underflows, lasting⟩ := stack_faults_are_atomic_and_lasting [] (holding #[0x00, 0xEE])
  have returns :
      ((holding #[0x00, 0xEE]).word.family.val = 0x0 ∧ (holding #[0x00, 0xEE]).word.nn = 0xEE) ∧
      (holding #[0x00, 0xEE]).cpu.stack.depth.val = 0 := by
    rw [word_holding (by decide) (by decide)]
    decide
  obtain ⟨address, faulted⟩ := underflows.mpr returns
  obtain ⟨named, -, again⟩ := lasting _ faulted
  -- The counter of a fresh machine is known, and the fault names it.
  have named : address = 0x200 := named
  subst named
  exact ⟨faulted, (again [.tick, .setKeys [true], .step] (by simp [Action.Idle])).1⟩

end ChipEight.Machine
