import ChipEight.Proofs.VisitedStates

/-!
# The limits of the speeds

Both speeds of an instance are limited where they are set, and nothing else sets them. A second is
divided by the number of slots only after that was found not to be zero.
-/
namespace ChipEight.Instance

/-- Whatever a call of `run` does, it changes no more than this. -/
theorem run_frame (current : Instance) (directory : Directory) (clock : Float)
    (now : Option Amount) :
    ∃ machine state log fault lastTick lastSlot,
      (current.respond ⟨directory, clock, .run now⟩).inst =
        { current with machine, state, log, fault, lastTick, lastSlot } := by
  change ∃ machine state log fault lastTick lastSlot,
    (current.run (now.elim clock Amount.toFloat)).inst = _
  obtain ⟨machine, lastTick, -, ⟨-, lastSlot, ran⟩ | ⟨-, ran⟩⟩ :=
    current.run_cases directory clock now
  · obtain ⟨machine, state, log, fault, slot⟩ :=
      runSlot_frame current.slotLength { current with machine, lastTick }
    exact ⟨machine, state, log, fault, lastTick, lastSlot, by rw [ran, slot]⟩
  · exact ⟨_, _, _, _, _, _, by rw [ran]; rfl⟩

/-! ### Who sets the speeds -/

structure SamePace (later current : Instance) : Prop where
  slotsPerSecond : later.slotsPerSecond = current.slotsPerSecond
  slotLength : later.slotLength = current.slotLength

theorem stop_samePace (current : Instance) : SamePace current.stop current := by
  unfold stop
  split <;> exact ⟨rfl, rfl⟩

/-- No other request touches them. -/
theorem respond_samePace (current : Instance) {call : Call}
    (unset : ∀ slotsPerSecond slotLength, call.request ≠ .setSpeed slotsPerSecond slotLength) :
    SamePace (current.respond call).inst current := by
  by_cases asked : call.request.ForProgram
  · obtain ⟨machine, notes, responded⟩ | ⟨failure, responded⟩ := current.respond_forProgram asked
    · rw [responded]
      exact ⟨rfl, rfl⟩
    · rw [responded]
      exact ⟨rfl, rfl⟩
  obtain ⟨directory, clock, request⟩ := call
  cases request with
  | load _ | loadFile _ => exact absurd trivial asked
  | start =>
    by_cases empty : current.state = .empty
    · rw [respond_start_of_empty empty]
      exact ⟨rfl, rfl⟩
    · rw [respond_start_of_occupied empty]
      exact ⟨rfl, rfl⟩
  | stop => exact current.stop_samePace
  | reset => exact ⟨rfl, rfl⟩
  | resetAndStop =>
    obtain ⟨slotsPerSecond, slotLength⟩ := current.reset.stop_samePace
    exact ⟨slotsPerSecond, slotLength⟩
  | step =>
    change SamePace current.step.inst current
    unfold step
    split
    · exact ⟨rfl, rfl⟩
    · obtain ⟨machine, state, log, fault, slot⟩ := runSlot_frame current.slotLength current
      rw [slot]
      exact ⟨rfl, rfl⟩
  | run now =>
    obtain ⟨machine, state, log, fault, lastTick, lastSlot, ran⟩ :=
      current.run_frame directory clock now
    rw [ran]
    exact ⟨rfl, rfl⟩
  | setSpeed slotsPerSecond slotLength => exact absurd rfl (unset slotsPerSecond slotLength)
  | enableInput enabled => exact ⟨rfl, rfl⟩
  | setKeys states =>
    change SamePace (current.setKeys states) current
    unfold setKeys
    split <;> exact ⟨rfl, rfl⟩

structure WithinLimits (current : Instance) : Prop where
  slots : current.slotsPerSecond ≤ 144
  positive : 1 ≤ current.slotLength
  length : current.slotLength ≤ 50

theorem withinLimits_create (id : Nat) (dialect : Dialect) (seed : Int) (clock : Float) :
    (create id dialect seed clock).WithinLimits :=
  ⟨(by decide : 60 ≤ 144), (by decide : 1 ≤ 10), (by decide : 10 ≤ 50)⟩

variable {current : Instance}

theorem WithinLimits.of_samePace {later : Instance} (within : current.WithinLimits)
    (same : SamePace later current) : later.WithinLimits where
  slots := same.slotsPerSecond ▸ within.slots
  positive := same.slotLength ▸ within.positive
  length := same.slotLength ▸ within.length

theorem WithinLimits.setSlotsPerSecond (within : current.WithinLimits) (requested : Int) :
    (current.setSlotsPerSecond requested).WithinLimits := by
  refine ⟨?_, within.positive, within.length⟩
  simp only [Instance.setSlotsPerSecond, Settings.maxSlotsPerSecond]
  omega

theorem WithinLimits.setSlotLength (within : current.WithinLimits) (requested : Int) :
    (current.setSlotLength requested).WithinLimits := by
  refine ⟨within.slots, ?_, ?_⟩ <;>
    simp only [Instance.setSlotLength, Settings.maxSlotLength] <;> omega

theorem WithinLimits.setSpeed (within : current.WithinLimits) (directory : Directory)
    (clock : Float) (slotsPerSecond slotLength : Option Amount) :
    (current.respond
      ⟨directory, clock, .setSpeed slotsPerSecond slotLength⟩).inst.WithinLimits := by
  -- The two speeds are set one after the other, each only if it is given.
  have paced : (slotsPerSecond.elim current
      (current.setSlotsPerSecond ·.truncate)).WithinLimits := by
    cases slotsPerSecond with
    | none => exact within
    | some requested => exact within.setSlotsPerSecond requested.truncate
  cases slotLength with
  | none => exact paced
  | some requested => exact paced.setSlotLength requested.truncate

theorem WithinLimits.respond (within : current.WithinLimits) (call : Call) :
    (current.respond call).inst.WithinLimits := by
  by_cases set : ∃ slotsPerSecond slotLength, call.request = .setSpeed slotsPerSecond slotLength
  · obtain ⟨directory, clock, request⟩ := call
    obtain ⟨slotsPerSecond, slotLength, rfl⟩ := set
    exact within.setSpeed directory clock slotsPerSecond slotLength
  · exact within.of_samePace (current.respond_samePace fun slotsPerSecond slotLength same =>
      set ⟨slotsPerSecond, slotLength, same⟩)

theorem WithinLimits.answerAll (within : current.WithinLimits) (calls : List Call) :
    (current.answerAll calls).WithinLimits := by
  induction calls generalizing current with
  | nil => exact within
  | cons call calls ih => exact ih (within.respond call)

/-! ### What depends on the limits -/

/-- The time from one slot to the next, if a second can be divided by their number. -/
def slotInterval? (current : Instance) : Option Float :=
  if current.slotsPerSecond = 0 then none else some (1.0 / Float.ofNat current.slotsPerSecond)

/-- A call of `run` that gives up where it would divide by zero. -/
def run? (current : Instance) (now : Float) : Option Progress :=
  if current.state = .running ∧ current.slotsPerSecond ≠ 0 then
    let ticked := current.tickIfDue now
    ticked.slotInterval?.map fun interval =>
      if due now ticked.lastSlot interval then
        let slot := runSlot ticked.slotLength ticked
        { slot with inst := { slot.inst with lastSlot := now } }
      else ticked.idle
  else some current.idle

theorem run?_eq (current : Instance) (now : Float) : current.run? now = some (current.run now) := by
  unfold run? run
  split
  next runs =>
    obtain ⟨machine, lastTick, ticked, -⟩ := current.tickIfDue_eq now
    simp only [ticked, slotInterval?, if_neg runs.2, Option.map_some, slotIfDue]
  · rfl

theorem runSlot_executed_le (length : Nat) (current : Instance) :
    (runSlot length current).executed ≤ length := by
  induction length generalizing current with
  | zero => exact Nat.le_refl 0
  | succ length ih =>
    simp only [runSlot]
    split
    · exact Nat.zero_le _
    · exact Nat.succ_le_succ (ih _)

theorem run_executed_le (current : Instance) (now : Float) :
    (current.run now).executed ≤ current.slotLength := by
  unfold run
  split
  · obtain ⟨machine, lastTick, ticked, -⟩ := current.tickIfDue_eq now
    rw [ticked]
    unfold slotIfDue
    dsimp only
    split
    · exact runSlot_executed_le current.slotLength _
    · exact Nat.zero_le _
  · exact Nat.zero_le _

end ChipEight.Instance
