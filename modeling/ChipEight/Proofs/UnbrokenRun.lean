import Mathlib.Logic.Function.Iterate
import ChipEight.Proofs.SelfJumps

/-!
# Runs that go on after a halt

A run with timer ticks in between that does not look for a halt. Main statement: from the first
stage that has halted or failed on, nothing happens any more but timer ticks.
-/
namespace ChipEight.Machine

/-- A machine that stands at a jump to itself and has made it. -/
structure Resting (machine : Machine) : Prop where
  here : machine.AtSelfJump
  settled : machine.settled = machine

variable {machine : Machine}

theorem resting_settled (here : machine.AtSelfJump) : machine.settled.Resting :=
  ⟨(agrees_settled machine).atSelfJump here, rfl⟩

theorem Resting.step (rests : machine.Resting) :
    machine.step.machine = machine ∧ machine.step.fault = none := by
  have stepped := step_of_atSelfJump rests.here
  rw [rests.settled] at stepped
  exact stepped

theorem Resting.tick (rests : machine.Resting) : machine.tick.Resting where
  here := (agrees_timers machine _ _).atSelfJump rests.here
  settled := congrArg Machine.tick rests.settled

theorem Resting.ticks (rests : machine.Resting) (count : Nat) :
    (Machine.tick^[count] machine).Resting := by
  induction count with
  | zero => exact rests
  | succ count ih =>
    rw [Function.iterate_succ_apply']
    exact ih.tick

/-- Ticks touch nothing but the timers. -/
theorem iterate_tick (machine : Machine) (count : Nat) :
    ∃ delay sound, Machine.tick^[count] machine =
      { machine with cpu := { machine.cpu with delay, sound } } := by
  induction count with
  | zero => exact ⟨machine.cpu.delay, machine.cpu.sound, rfl⟩
  | succ count ih =>
    obtain ⟨delay, sound, ticked⟩ := ih
    rw [Function.iterate_succ_apply', ticked]
    exact ⟨_, _, rfl⟩

theorem notes_of_fault {fault : StackFault} (faulted : machine.step.fault = some fault) :
    machine.step.notes = [] := by
  rw [step_notes]
  rw [step_fault] at faulted
  split at faulted
  next call => rw [call.1]; rfl
  next =>
    split at faulted
    next ret => rw [ret.1]; rfl
    · cases faulted

/-! ### Stages -/

/-- Where a run stands that does not look for a halt. -/
structure Stage where
  machine : Machine
  completed : Nat
  ticks : Nat
  fault : Option StackFault

/-- One cycle is a step and, after every `period` completed ones, a tick. After a fault there are
no more. -/
def Stage.next (period : Nat) (stage : Stage) : Stage :=
  if stage.fault.isSome then stage
  else
    let outcome := stage.machine.step
    let completed := stage.completed + 1
    if outcome.fault.isSome then { stage with machine := outcome.machine, fault := outcome.fault }
    else if completed % period = 0 then ⟨outcome.machine.tick, completed, stage.ticks + 1, none⟩
    else ⟨outcome.machine, completed, stage.ticks, none⟩

/-- The run that goes on. -/
def unbroken (period : Nat) (loaded : Machine) : Nat → Stage
  | 0 => ⟨loaded, 0, 0, none⟩
  | cycles + 1 => (unbroken period loaded cycles).next period

/-- What the running command ends at. -/
def Stage.Over (stage : Stage) : Prop :=
  stage.machine.cpu.halted = true ∨ stage.fault.isSome

/-- The first stage to end at, if there is one within the limit. -/
structure EndsAt (period : Nat) (loaded : Machine) (limit stop : Nat) : Prop where
  inside : stop ≤ limit
  first : ∀ cycle < stop, ¬(unbroken period loaded cycle).Over
  ended : stop < limit → (unbroken period loaded stop).Over

variable {period : Nat} {loaded : Machine} {stage : Stage}

theorem Stage.unfaulted_of_open (still_open : ¬stage.Over) : stage.fault = none := by
  rw [Stage.Over, not_or] at still_open
  exact Option.not_isSome_iff_eq_none.mp still_open.2

theorem Stage.next_of_faulted (faulted : stage.fault.isSome) : stage.next period = stage := by
  rw [Stage.next, if_pos faulted]

theorem Stage.next_of_fault (unfaulted : stage.fault = none) {fault : StackFault}
    (faulted : stage.machine.step.fault = some fault) :
    stage.next period =
      { stage with machine := stage.machine.step.machine, fault := some fault } := by
  simp [Stage.next, unfaulted, faulted]

theorem Stage.next_of_done (unfaulted : stage.fault = none)
    (done : stage.machine.step.fault = none) :
    stage.next period =
      if (stage.completed + 1) % period = 0 then
        ⟨stage.machine.step.machine.tick, stage.completed + 1, stage.ticks + 1, none⟩
      else ⟨stage.machine.step.machine, stage.completed + 1, stage.ticks, none⟩ := by
  simp [Stage.next, unfaulted, done]

theorem Stage.fault_of_done (unfaulted : stage.fault = none)
    (done : stage.machine.step.fault = none) :
    (stage.next period).fault = none := by
  rw [Stage.next_of_done unfaulted done]
  split <;> rfl

theorem completed_of_unfaulted {cycles : Nat}
    (unfaulted : (unbroken period loaded cycles).fault = none) :
    (unbroken period loaded cycles).completed = cycles := by
  induction cycles with
  | zero => rfl
  | succ cycles ih =>
    rw [unbroken] at unfaulted ⊢
    cases earlier : (unbroken period loaded cycles).fault with
    | some fault =>
      rw [Stage.next_of_faulted (by simp [earlier]), earlier] at unfaulted
      cases unfaulted
    | none =>
      cases faulted : (unbroken period loaded cycles).machine.step.fault with
      | some fault =>
        rw [Stage.next_of_fault earlier faulted] at unfaulted
        cases unfaulted
      | none =>
        rw [Stage.next_of_done earlier faulted]
        split <;> exact congrArg (· + 1) (ih earlier)

/-! ### After the end -/

/-- The later stage has nothing but ticks ahead of the earlier one. -/
structure OnlyTicked (earlier later : Stage) : Prop where
  ticks : earlier.ticks ≤ later.ticks
  machine : later.machine = Machine.tick^[later.ticks - earlier.ticks] earlier.machine
  fault : later.fault = earlier.fault

theorem onlyTicked_self (stage : Stage) : OnlyTicked stage stage where
  ticks := Nat.le_refl _
  machine := by rw [Nat.sub_self, Function.iterate_zero_apply]
  fault := rfl

theorem OnlyTicked.next {earlier later : Stage} (ticked : OnlyTicked earlier later)
    (rests : earlier.machine.Resting) : OnlyTicked earlier (later.next period) := by
  cases faulted : later.fault with
  | some fault =>
    rw [Stage.next_of_faulted (by simp [faulted])]
    exact ticked
  | none =>
    -- A resting machine steps in place, so that a tick is all that a cycle can do.
    have still := rests.ticks (later.ticks - earlier.ticks)
    rw [← ticked.machine] at still
    obtain ⟨stepped, done⟩ := still.step
    rw [Stage.next_of_done faulted done, stepped]
    split
    · have one_more : later.ticks + 1 - earlier.ticks = later.ticks - earlier.ticks + 1 :=
        Nat.succ_sub ticked.ticks
      refine ⟨Nat.le_succ_of_le ticked.ticks, ?_, faulted.symm.trans ticked.fault⟩
      rw [one_more, Function.iterate_succ_apply', ← ticked.machine]
    · exact ⟨ticked.ticks, ticked.machine, faulted.symm.trans ticked.fault⟩

/-- The hint is raised by a jump to itself, at which the machine then rests. -/
theorem Stage.resting_of_halted (still_open : ¬stage.Over)
    (halted : (stage.next period).machine.cpu.halted = true) :
    (stage.next period).machine.Resting := by
  have unfaulted := Stage.unfaulted_of_open still_open
  have unhalted : ¬stage.machine.cpu.halted = true := fun raised => still_open (.inl raised)
  have raised_iff := step_halted_iff stage.machine
  rw [or_iff_right unhalted] at raised_iff
  cases faulted : stage.machine.step.fault with
  | some fault =>
    rw [Stage.next_of_fault unfaulted faulted] at halted
    -- A step that fails was no jump and cannot have raised the hint.
    have done := (step_of_atSelfJump (raised_iff.mp halted)).2
    rw [faulted] at done
    cases done
  | none =>
    rw [Stage.next_of_done unfaulted faulted] at halted ⊢
    have raised : stage.machine.step.machine.cpu.halted = true := by
      split at halted <;> exact halted
    have here := raised_iff.mp raised
    have rests := resting_settled here
    rw [← (step_of_atSelfJump here).1] at rests
    split
    · exact rests.tick
    · exact rests

theorem onlyTicked_of_resting {stop : Nat}
    (rests : (unbroken period loaded stop).machine.Resting) (later : Nat) :
    OnlyTicked (unbroken period loaded stop) (unbroken period loaded (stop + later)) := by
  induction later with
  | zero => exact onlyTicked_self _
  | succ later ih => exact ih.next rests

theorem unbroken_of_fault {stop : Nat} (faulted : (unbroken period loaded stop).fault.isSome)
    (later : Nat) : unbroken period loaded (stop + later) = unbroken period loaded stop := by
  induction later with
  | zero => rfl
  | succ later ih => rw [← Nat.add_assoc, unbroken, ih, Stage.next_of_faulted faulted]

theorem EndsAt.onlyTicked {limit stop : Nat} (ends : EndsAt period loaded limit stop)
    (unhalted : loaded.cpu.halted = false) :
    OnlyTicked (unbroken period loaded stop) (unbroken period loaded limit) := by
  obtain ⟨later, rfl⟩ := Nat.exists_eq_add_of_le ends.inside
  rcases Nat.eq_zero_or_pos later with rfl | positive
  · -- All cycles were made, and it is the same stage.
    exact onlyTicked_self _
  · rcases ends.ended (Nat.lt_add_of_pos_right positive) with halted | faulted
    · cases stop with
      | zero => simp [unbroken, unhalted] at halted
      | succ cycle =>
        have still_open := ends.first cycle (Nat.lt_succ_self cycle)
        have rests : (unbroken period loaded (cycle + 1)).machine.Resting :=
          Stage.resting_of_halted still_open halted
        exact onlyTicked_of_resting rests later
    · rw [unbroken_of_fault faulted]
      exact onlyTicked_self _

/-- Only the cycle that fails does not complete. -/
theorem EndsAt.completed {limit stop : Nat} (ends : EndsAt period loaded limit stop) :
    (unbroken period loaded stop).completed =
      if (unbroken period loaded stop).fault.isSome then stop - 1 else stop := by
  cases faulted : (unbroken period loaded stop).fault with
  | none => exact completed_of_unfaulted faulted
  | some fault =>
    cases stop with
    | zero => cases faulted
    | succ cycle =>
      have unfaulted := Stage.unfaulted_of_open (ends.first cycle (Nat.lt_succ_self cycle))
      cases failed : (unbroken period loaded cycle).machine.step.fault with
      | none =>
        rw [unbroken, Stage.fault_of_done unfaulted failed] at faulted
        cases faulted
      | some _ =>
        rw [unbroken, Stage.next_of_fault unfaulted failed]
        exact completed_of_unfaulted unfaulted

end ChipEight.Machine
