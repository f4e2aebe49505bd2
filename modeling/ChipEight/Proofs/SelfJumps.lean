import ChipEight.Proofs.DialectIndependence
import ChipEight.Proofs.StackFaults
import ChipEight.Proofs.VisitedStates

/-!
# Jumps to themselves

A jump whose target is its own address leaves everything as it is but the hint that the program has
halted. Only such a jump raises the hint, and from then on it is the instruction at the program
counter: nothing that a step, a tick or a key does can move the counter, the word or the register
that the jump adds.
-/
namespace ChipEight

namespace Machine

/-- The instruction at the program counter is a jump to its own address. -/
def AtSelfJump (machine : Machine) : Prop :=
  machine.word.family.val = 0x1 ∧ machine.word.nnn = machine.cpu.pc ∨
  machine.word.family.val = 0xB ∧
    (machine.word.nnn +
      (machine.cpu.get (if machine.dialect.jumpAddsNamed then machine.word.x
        else .offset)).toUInt16) % 4096 = machine.cpu.pc

/-- The machine after a jump to itself. -/
def settled (machine : Machine) : Machine :=
  { machine with
    cpu := { machine.cpu with
      last := ⟨machine.word, machine.cpu.pc⟩
      awaitingKey := false
      halted := true } }

variable {machine later : Machine}

theorem target_eq_pc_iff (machine : Machine) :
    machine.upcoming.target? machine.word machine.cpu = some machine.cpu.pc ↔
      machine.AtSelfJump := by
  constructor
  · intro found
    cases upcoming : machine.upcoming with
    | jump =>
      rw [upcoming] at found
      exact .inl ⟨machine.upcoming_eq_jump_iff.mp upcoming, Option.some.inj found⟩
    | jumpOffset addsNamed =>
      rw [upcoming] at found
      obtain ⟨family, rfl⟩ := (machine.upcoming_eq_jumpOffset_iff addsNamed).mp upcoming
      exact .inr ⟨family, Option.some.inj found⟩
    | _ =>
      rw [upcoming] at found
      cases found
  · rintro (⟨family, here⟩ | ⟨family, here⟩)
    · rw [machine.upcoming_eq_jump_iff.mpr family]
      exact congrArg some here
    · rw [(machine.upcoming_eq_jumpOffset_iff _).mpr ⟨family, rfl⟩]
      exact congrArg some here

theorem step_of_atSelfJump (here : machine.AtSelfJump) :
    machine.step.machine = machine.settled ∧ machine.step.fault = none := by
  have found : machine.upcoming.target? machine.word machine.fetch.cpu = some machine.cpu.pc :=
    machine.target_eq_pc_iff.mpr here
  have jumped : machine.fetch.cpu.jump machine.cpu.pc = machine.settled.cpu := by
    simp [Processor.jump, fetch, settled, word]
  obtain ⟨stepped, unfaulted⟩ := step_of_ok (Operation.execute_of_target found)
  rw [jumped] at stepped
  exact ⟨stepped, unfaulted⟩

/-- A step raises the hint at a jump to itself and nowhere else, and never takes it back. -/
theorem step_halted_iff (machine : Machine) :
    machine.step.machine.cpu.halted = true ↔
      machine.cpu.halted = true ∨ machine.AtSelfJump := by
  cases outcome : machine.upcoming.execute machine.word machine.fetch with
  | error fault =>
    -- A step that fails is no jump, and leaves the hint.
    have elsewhere : ¬machine.AtSelfJump := by
      intro here
      have unfaulted := (step_of_atSelfJump here).2
      simp [(step_of_error outcome).2] at unfaulted
    rw [(step_of_error outcome).1, or_iff_left elsewhere]
    rfl
  | ok next =>
    rw [(step_of_ok outcome).1, ← target_eq_pc_iff]
    cases found : machine.upcoming.target? machine.word machine.fetch.cpu with
    | none =>
      have same : machine.upcoming.target? machine.word machine.cpu = none := found
      rw [(Operation.execute_spares outcome).halted found, same]
      simp [fetch]
    | some target =>
      have same : machine.upcoming.target? machine.word machine.cpu = some target := found
      rw [Operation.execute_of_target found] at outcome
      cases outcome
      rw [same]
      simp [Processor.jump, fetch]

theorem run_halted_iff (count : Nat) (machine : Machine) :
    (run count machine).machine.cpu.halted = true ↔
      machine.cpu.halted = true ∨ ∃ passed ∈ visited count machine, passed.AtSelfJump := by
  induction count generalizing machine with
  | zero => simp [run, visited]
  | succ count ih =>
    rw [visited, List.exists_mem_cons_iff, ← or_assoc, ← step_halted_iff]
    cases faulted : machine.step.fault with
    | some fault =>
      rw [run_succ_of_fault faulted]
      simp
    | none =>
      rw [(run_succ faulted count).1, if_pos rfl]
      exact ih machine.step.machine

/-- Whether an instruction jumps to itself depends on nothing that ticks and keys change. -/
theorem Agrees.atSelfJump (same : Agrees later machine) (here : machine.AtSelfJump) :
    later.AtSelfJump := by
  simpa only [AtSelfJump, word, Processor.get, same.dialect, same.registers, same.pc, same.memory]
    using here

theorem agrees_settled (machine : Machine) : Agrees machine.settled machine :=
  ⟨rfl, rfl, rfl, rfl, rfl, rfl, rfl⟩

/-- Once the hint is raised, the program counter stands at the jump that raised it. -/
def HaltsHere (machine : Machine) : Prop := machine.cpu.halted = true → machine.AtSelfJump

theorem HaltsHere.step (before : machine.HaltsHere) : machine.step.machine.HaltsHere := by
  intro halted
  have here : machine.AtSelfJump := by
    rcases (step_halted_iff machine).mp halted with earlier | here
    · exact before earlier
    · exact here
  rw [(step_of_atSelfJump here).1]
  exact (agrees_settled machine).atSelfJump here

theorem HaltsHere.run (before : machine.HaltsHere) (count : Nat) :
    (Machine.run count machine).machine.HaltsHere :=
  run_keeps HaltsHere (fun _ => HaltsHere.step) count before

theorem HaltsHere.agrees (before : machine.HaltsHere) (same : Agrees later machine)
    (halted : later.cpu.halted = machine.cpu.halted) : later.HaltsHere :=
  fun raised => same.atSelfJump (before (halted ▸ raised))

/-- At a jump to itself the host can step, tick and move keys as long as it wants. -/
structure Rests (later machine : Machine) : Prop where
  agrees : Agrees later machine
  random : later.random = machine.random

theorem Rests.perform (rests : Rests later machine) (here : machine.AtSelfJump)
    (directory : Directory) {action : Action} (idle : action.Idle) :
    (later.perform directory action).failure = none ∧
      Rests (later.perform directory action).machine machine := by
  cases action with
  | step =>
    obtain ⟨stepped, unfaulted⟩ := step_of_atSelfJump (rests.agrees.atSelfJump here)
    simp only [Machine.perform, Response.ofOutcome, stepped, unfaulted]
    exact ⟨rfl, (agrees_settled later).trans rests.agrees, rests.random⟩
  | tick => exact ⟨rfl, (agrees_timers later _ _).trans rests.agrees, rests.random⟩
  | setKeys _ | holdKey _ _ =>
    simp only [Machine.perform, setKeys, holdKey]
    exact ⟨trivial, (agrees_keys later _).trans rests.agrees, rests.random⟩
  | load _ | loadFile _ | unload | reset | run _ | setRedraw _ => exact idle.elim

theorem Rests.responses (rests : Rests later machine) (here : machine.AtSelfJump)
    (directory : Directory) (actions : List Action) (idle : ∀ action ∈ actions, action.Idle) :
    ∀ response ∈ later.responses directory actions,
      response.failure = none ∧ Rests response.machine machine := by
  induction actions generalizing later with
  | nil => simp [Machine.responses]
  | cons action actions ih =>
    rw [List.forall_mem_cons] at idle
    have first := rests.perform here directory idle.1
    rw [Machine.responses, List.forall_mem_cons]
    exact ⟨first, ih first.2 idle.2⟩

end Machine
end ChipEight
