import ChipEight.Proofs.Reloading
import ChipEight.Proofs.TickRate

/-!
# The cadence of ticks and slots

A call of `run` asks the machine for a tick, a slot, both or neither. Each of the two has a clock
that tells when it was made last, and nothing but its own clock, its own interval and the times of
the calls decides when it is made again. Main statement: of two instances that are run at the same
times, ticks fall on the same calls, whatever they execute and however fast; and so do slots while
the speeds are the same.
-/
namespace ChipEight

namespace Machine.Action

def isRun : Action → Bool
  | run _ => true
  | _ => false

end Machine.Action

namespace Instance

/-- A call of `run`: the instance that it meets, and its time. -/
structure Run where
  inst : Instance
  now : Float

namespace Run

/-- The call makes what is due. -/
def Live (run : Run) : Prop := run.inst.state = .running ∧ run.inst.slotsPerSecond ≠ 0

def progress (run : Run) : Progress := run.inst.run run.now

/-- What the call asks of the machine. -/
def actions (run : Run) : List Machine.Action := run.inst.actionsAt run.now

def ticks (run : Run) : Bool := run.actions.any Machine.Action.isTick

def slots (run : Run) : Bool := run.actions.any Machine.Action.isRun

variable {run : Run}

theorem actions_of_live (live : run.Live) :
    run.actions =
      (if due run.now run.inst.lastTick Settings.tickInterval then [.tick] else []) ++
        (if due run.now run.inst.lastSlot (1.0 / Float.ofNat run.inst.slotsPerSecond) then
          [.run run.inst.slotLength]
        else []) :=
  if_pos live

theorem actions_of_idle (idle : ¬run.Live) : run.actions = [] := if_neg idle

theorem ticks_of_live (live : run.Live) :
    run.ticks = due run.now run.inst.lastTick Settings.tickInterval := by
  rw [ticks, actions_of_live live]
  cases due run.now run.inst.lastTick Settings.tickInterval <;>
    cases due run.now run.inst.lastSlot (1.0 / Float.ofNat run.inst.slotsPerSecond) <;> rfl

theorem slots_of_live (live : run.Live) :
    run.slots = due run.now run.inst.lastSlot (1.0 / Float.ofNat run.inst.slotsPerSecond) := by
  rw [slots, actions_of_live live]
  cases due run.now run.inst.lastTick Settings.tickInterval <;>
    cases due run.now run.inst.lastSlot (1.0 / Float.ofNat run.inst.slotsPerSecond) <;> rfl

/-- What one call of `run` does. -/
structure Regular (run : Run) : Prop where
  /-- Whatever the machine is, just these actions are performed on it. -/
  performed (machine : Machine) (directory : Directory) :
    ({ run.inst with machine }.run run.now).inst.machine =
      machine.performAll directory run.actions
  /-- At most one tick and one slot, the tick first. -/
  ordered : run.actions.Sublist [.tick, .run run.inst.slotLength]
  ticks_iff : run.ticks = true ↔ run.Live ∧ run.now - run.inst.lastTick ≥ Settings.tickInterval
  slots_iff : run.slots = true ↔
    run.Live ∧ run.now - run.inst.lastSlot ≥ 1.0 / Float.ofNat run.inst.slotsPerSecond
  idle : ¬run.Live → run.progress = ⟨run.inst, 0, []⟩

theorem regular (run : Run) : run.Regular where
  performed machine := { run.inst with machine }.run_performs run.now
  ordered := by
    by_cases live : run.Live
    · rw [actions_of_live live]
      -- Each of the two is due or not, whatever the other is.
      cases due run.now run.inst.lastTick Settings.tickInterval <;>
        cases due run.now run.inst.lastSlot (1.0 / Float.ofNat run.inst.slotsPerSecond) <;> simp
    · rw [actions_of_idle live]
      exact List.nil_sublist _
  ticks_iff := by
    by_cases live : run.Live
    · rw [ticks_of_live live, due, decide_eq_true_iff, and_iff_right live]
    · simp [ticks, actions_of_idle live, live]
  slots_iff := by
    by_cases live : run.Live
    · rw [slots_of_live live, due, decide_eq_true_iff, and_iff_right live]
    · simp [slots, actions_of_idle live, live]
  idle := fun idle => if_neg idle

end Run

/-- The time of a call of `run`. -/
def Call.time? (call : Call) : Option Float :=
  match call.request with
  | .run now => some (now.elim call.clock Amount.toFloat)
  | _ => none

/-- The calls of `run` among some calls. -/
def runs : Instance → List Call → List Run
  | _, [] => []
  | current, call :: calls =>
    let later := runs (current.respond call).inst calls
    match call.time? with
    | some now => ⟨current, now⟩ :: later
    | none => later

theorem runs_of_time {call : Call} {now : Float} (time : call.time? = some now)
    (current : Instance) (calls : List Call) :
    current.runs (call :: calls) = ⟨current, now⟩ :: (current.run now).inst.runs calls := by
  obtain ⟨directory, clock, request⟩ := call
  cases request with
  | run _ =>
    cases time
    rfl
  | _ => cases time

theorem runs_of_untimed {call : Call} (untimed : call.time? = none) (current : Instance)
    (calls : List Call) :
    current.runs (call :: calls) = (current.respond call).inst.runs calls := by
  simp only [runs, untimed]

/-- The tick times of some calls are the times of those that ask the machine for a tick. -/
theorem tickTimes_eq_filter (current : Instance) (times : List Float) :
    current.tickTimes times = ((current.runs (callsAt times)).filter Run.ticks).map Run.now := by
  induction times generalizing current with
  | nil => rfl
  | cons now later ih =>
    have runs : current.runs (callsAt (now :: later)) =
        ⟨current, now⟩ :: (current.run now).inst.runs (callsAt later) := rfl
    rw [runs, tickTimes, ih, List.filter_cons]
    have ticks : Run.ticks ⟨current, now⟩ = true ↔
        (current.state = .running ∧ current.slotsPerSecond ≠ 0) ∧
          now - current.lastTick ≥ Settings.tickInterval := (Run.regular _).ticks_iff
    simp only [← and_assoc, due, decide_eq_true_eq, ← ticks]
    split <;> rfl

theorem timeless_of_untimed {call : Call} (unstarted : call.request ≠ .start)
    (untimed : call.time? = none) : call.request.Timeless := by
  obtain ⟨directory, clock, request⟩ := call
  cases request with
  | start => exact absurd rfl unstarted
  | run _ => cases untimed
  | _ => trivial

/-- The decisions of a clock that is set whenever its interval has passed, at some times with the
interval of each. -/
def decisions : Float → List (Float × Float) → List Bool
  | _, [] => []
  | last, (now, interval) :: later =>
    due now last interval :: decisions (if due now last interval then now else last) later

/-- What a call of `run` makes whenever an interval has passed since the time it last did so. -/
structure Clock where
  last : Instance → Float
  interval : Instance → Float
  strikes : Run → Bool
  strikes_of_live (run : Run) (live : run.Live) :
    strikes run = due run.now (last run.inst) (interval run.inst)
  moved (run : Run) (live : run.Live) :
    last run.progress.inst =
      if due run.now (last run.inst) (interval run.inst) then run.now else last run.inst
  /-- No other request sets the clock but a start. -/
  kept (current : Instance) (call : Call) (timeless : call.request.Timeless) :
    last (current.respond call).inst = last current

namespace Clock

variable {current other : Instance} {calls otherCalls : List Call}

/-- The time of a call with the interval that the clock has at it. -/
def reading (clock : Clock) (run : Run) : Float × Float := (run.now, clock.interval run.inst)

/-- What a clock decides depends on nothing but where it stood, the times and the intervals. -/
theorem strikes_eq_decisions (clock : Clock) (unstarted : ∀ call ∈ calls, call.request ≠ .start)
    (live : ∀ run ∈ current.runs calls, run.Live) :
    (current.runs calls).map clock.strikes =
      decisions (clock.last current) ((current.runs calls).map clock.reading) := by
  induction calls generalizing current with
  | nil => rfl
  | cons call calls ih =>
    rw [List.forall_mem_cons] at unstarted
    cases time : call.time? with
    | none =>
      -- Between two runs the clock stands still.
      rw [runs_of_untimed time] at live ⊢
      rw [ih unstarted.2 live, clock.kept current call (timeless_of_untimed unstarted.1 time)]
    | some now =>
      rw [runs_of_time time, List.forall_mem_cons] at live
      have moved : clock.last (current.run now).inst =
          if due now (clock.last current) (clock.interval current) then now
          else clock.last current :=
        clock.moved _ live.1
      -- The rest goes by the clock as this run leaves it, and that is known without the machine.
      rw [runs_of_time time, List.map_cons, List.map_cons, ih unstarted.2 live.2, moved,
        clock.strikes_of_live _ live.1]
      rfl

/-- Two instances that are run at the same times cannot be told apart by their clocks. -/
theorem strikes_eq (clock : Clock)
    (unstarted : ∀ call ∈ calls ++ otherCalls, call.request ≠ .start)
    (live : ∀ run ∈ current.runs calls ++ other.runs otherCalls, run.Live)
    (same : clock.last current = clock.last other)
    (readings : (current.runs calls).map clock.reading =
      (other.runs otherCalls).map clock.reading) :
    (current.runs calls).map clock.strikes = (other.runs otherCalls).map clock.strikes := by
  rw [List.forall_mem_append] at unstarted live
  rw [clock.strikes_eq_decisions unstarted.1 live.1, clock.strikes_eq_decisions unstarted.2 live.2,
    same, readings]

end Clock

def tickClock : Clock where
  last := lastTick
  interval _ := Settings.tickInterval
  strikes := Run.ticks
  strikes_of_live _ live := Run.ticks_of_live live
  moved run live := by
    rw [Run.progress, run_eq live.1 live.2, (slotIfDue_keeps _ _).1, tickIfDue_lastTick]
  kept current _ timeless := (current.respond_sameHost timeless).lastTick

/-- Neither a tick nor what a slot executes moves this clock; a slot that fails counts, too. -/
def slotClock : Clock where
  last := lastSlot
  interval current := 1.0 / Float.ofNat current.slotsPerSecond
  strikes := Run.slots
  strikes_of_live _ live := Run.slots_of_live live
  moved run live := by
    -- The tick comes first, but neither this clock nor the speed is any of its business.
    obtain ⟨machine, lastTick, ticked, -⟩ := run.inst.tickIfDue_eq run.now
    rw [Run.progress, run_eq live.1 live.2, ticked, slotIfDue]
    dsimp only
    split <;> rfl
  kept current _ timeless := (current.respond_sameHost timeless).lastSlot

/-- Of two instances that are run at the same times, ticks fall on the same calls if the last tick
of both was made at one time, whatever they execute and however fast; and so do slots if their last
slots agree and the speeds do at each call. Each call makes at most a tick and after it a slot, just
those that are due, and nothing at all if the instance does not run or has no speed. -/
theorem ticks_and_slots_are_decoupled (current other : Instance) (calls otherCalls : List Call)
    (unstarted : ∀ call ∈ calls ++ otherCalls, call.request ≠ .start)
    (live : ∀ run ∈ current.runs calls ++ other.runs otherCalls, run.Live)
    (times : (current.runs calls).map (·.now) = (other.runs otherCalls).map (·.now)) :
    (current.lastTick = other.lastTick →
      (current.runs calls).map Run.ticks = (other.runs otherCalls).map Run.ticks) ∧
    (current.lastSlot = other.lastSlot →
      (current.runs calls).map (·.inst.slotsPerSecond) =
        (other.runs otherCalls).map (·.inst.slotsPerSecond) →
      (current.runs calls).map Run.slots = (other.runs otherCalls).map Run.slots) ∧
    ∀ run : Run, run.Regular := by
  refine ⟨?_, ?_, Run.regular⟩
  · intro same
    have reading (runs : List Run) : runs.map tickClock.reading =
        (runs.map (·.now)).map fun now => (now, Settings.tickInterval) := by
      rw [List.map_map]
      rfl
    exact tickClock.strikes_eq unstarted live same (by rw [reading, reading, times])
  · intro same speeds
    have reading (runs : List Run) : runs.map slotClock.reading =
        List.zipWith (fun now speed => (now, 1.0 / Float.ofNat speed)) (runs.map (·.now))
          (runs.map (·.inst.slotsPerSecond)) := by
      rw [List.zipWith_map, List.zipWith_self]
      rfl
    exact slotClock.strikes_eq unstarted live same (by rw [reading, reading, times, speeds])

/-- An instance that runs and comes no further. -/
structure InPlace (current : Instance) : Prop where
  here : current.machine.AtSelfJump
  running : current.state = .running
  speed : current.slotsPerSecond ≠ 0

namespace InPlace

variable {current : Instance}

theorem tickIfDue (stays : current.InPlace) (now : Float) : (current.tickIfDue now).InPlace := by
  obtain ⟨machine, lastTick, ticked, same | same⟩ := current.tickIfDue_eq now
  · rw [ticked, same]
    exact ⟨stays.here, stays.running, stays.speed⟩
  · rw [ticked, same]
    exact ⟨(Machine.agrees_timers current.machine _ _).atSelfJump stays.here, stays.running,
      stays.speed⟩

theorem runSlot (stays : current.InPlace) (length : Nat) :
    (runSlot length current).inst.InPlace := by
  induction length generalizing current with
  | zero => exact stays
  | succ length ih =>
    obtain ⟨stepped, unfaulted⟩ := Machine.step_of_atSelfJump stays.here
    simp only [Instance.runSlot, unfaulted, stepped]
    exact ih ⟨(Machine.agrees_settled current.machine).atSelfJump stays.here, stays.running,
      stays.speed⟩

theorem slotIfDue (stays : current.InPlace) (now : Float) :
    (current.slotIfDue now).inst.InPlace := by
  unfold Instance.slotIfDue
  split
  · have slot := stays.runSlot current.slotLength
    exact ⟨slot.here, slot.running, slot.speed⟩
  · exact stays

theorem run (stays : current.InPlace) (now : Float) : (current.run now).inst.InPlace := by
  rw [run_eq stays.running stays.speed]
  exact (stays.tickIfDue now).slotIfDue now

theorem run_speed (stays : current.InPlace) (now : Float) :
    (current.run now).inst.slotsPerSecond = current.slotsPerSecond := by
  rw [run_eq stays.running stays.speed, (slotIfDue_keeps _ _).2, tickIfDue_slotsPerSecond]

theorem setSlotsPerSecond (stays : current.InPlace) {requested : Int}
    (speed : (min requested Settings.maxSlotsPerSecond).toNat ≠ 0) :
    (current.setSlotsPerSecond requested).InPlace :=
  ⟨stays.here, stays.running, speed⟩

theorem live (stays : current.InPlace) (now : Float) : Run.Live ⟨current, now⟩ :=
  ⟨stays.running, stays.speed⟩

end InPlace

/-- An instance that has loaded a jump to itself and was started at time zero. -/
structure StartedInPlace (fresh started : Instance) : Prop where
  origin : (fresh.respond ⟨[], 0, .load [0x12, 0x00]⟩).inst.start 0 = started
  stays : started.InPlace
  speed : started.slotsPerSecond = fresh.slotsPerSecond
  tick : started.lastTick = 0
  slot : started.lastSlot = 0

theorem exists_startedInPlace {fresh : Instance} (speed : fresh.slotsPerSecond ≠ 0) :
    ∃ started, StartedInPlace fresh started := by
  obtain ⟨loaded, load⟩ :
    ∃ loaded, (fresh.respond ⟨[], 0, .load [0x12, 0x00]⟩).inst = loaded := ⟨_, rfl⟩
  obtain ⟨here, replaced⟩ := loaded_atSelfJump load
  have occupied : loaded.state ≠ .empty := by
    rw [replaced]
    exact State.noConfusion
  have kept : loaded.slotsPerSecond = fresh.slotsPerSecond := by rw [replaced]
  refine ⟨loaded.start 0, by rw [load], ?_, ?_, ?_, ?_⟩ <;> rw [start_eq occupied]
  · exact ⟨here, rfl, kept ▸ speed⟩
  · exact kept

/-- Two calls, of which only the second comes late enough for a tick. -/
def twoRuns : List Call := [⟨[], 1 / 64, .run none⟩, ⟨[], 1 / 32, .run none⟩]

/-- The same calls with a new speed between them. -/
def twoRunsSlowed : List Call :=
  [⟨[], 1 / 64, .run none⟩, ⟨[], 1 / 64, .setSpeed (some (.whole 1)) none⟩, ⟨[], 1 / 32, .run none⟩]

theorem runs_twoRuns (current : Instance) :
    current.runs twoRuns = [⟨current, 1 / 64⟩, ⟨(current.run (1 / 64)).inst, 1 / 32⟩] :=
  rfl

theorem runs_twoRunsSlowed (current : Instance) :
    current.runs twoRunsSlowed =
      [⟨current, 1 / 64⟩, ⟨(current.run (1 / 64)).inst.setSlotsPerSecond 1, 1 / 32⟩] :=
  rfl

theorem InPlace.live_twoRuns {current : Instance} (stays : current.InPlace) :
    ∀ run ∈ current.runs twoRuns, run.Live := by
  rw [runs_twoRuns]
  simpa using ⟨stays.live _, (stays.run _).live _⟩

theorem InPlace.live_twoRunsSlowed {current : Instance} (stays : current.InPlace) :
    ∀ run ∈ current.runs twoRunsSlowed, run.Live := by
  rw [runs_twoRunsSlowed]
  simpa using ⟨stays.live _, ((stays.run _).setSlotsPerSecond (by decide)).live _⟩

theorem jumps_in_place_tick_alike : ∃ current other : Instance,
    StartedInPlace (create 0 {} 0 0) current ∧
    StartedInPlace (create 1 { shiftInPlace := false } 7 0) other ∧
    (current.runs twoRunsSlowed).map Run.ticks = (other.runs twoRuns).map Run.ticks ∧
    (other.runs twoRuns).map Run.ticks = [false, true] ∧
    (current.runs twoRuns).map Run.slots = (other.runs twoRuns).map Run.slots := by
  obtain ⟨current, started⟩ :=
    exists_startedInPlace (show (create 0 {} 0 0).slotsPerSecond ≠ 0 by decide)
  obtain ⟨other, otherStarted⟩ :=
    exists_startedInPlace
      (show (create 1 { shiftInPlace := false } 7 0).slotsPerSecond ≠ 0 by decide)
  have live := started.stays.live_twoRuns
  have otherLive := otherStarted.stays.live_twoRuns
  refine ⟨current, other, started, otherStarted, ?_, ?_, ?_⟩
  · have slowedLive := started.stays.live_twoRunsSlowed
    obtain ⟨alike, -, -⟩ := ticks_and_slots_are_decoupled current other twoRunsSlowed twoRuns
      (by simp [twoRuns, twoRunsSlowed]) (List.forall_mem_append.mpr ⟨slowedLive, otherLive⟩) rfl
    exact alike (started.tick.trans otherStarted.tick.symm)
  · have decided : (other.runs twoRuns).map Run.ticks = decisions other.lastTick
        [(1 / 64, Settings.tickInterval), (1 / 32, Settings.tickInterval)] :=
      tickClock.strikes_eq_decisions (by simp [twoRuns]) otherLive
    rw [decided, otherStarted.tick]
    decide +kernel
  · obtain ⟨-, alike, -⟩ := ticks_and_slots_are_decoupled current other twoRuns twoRuns
      (by simp [twoRuns]) (List.forall_mem_append.mpr ⟨live, otherLive⟩) rfl
    apply alike (started.slot.trans otherStarted.slot.symm)
    rw [runs_twoRuns, runs_twoRuns]
    simp only [List.map_cons, List.map_nil, started.stays.run_speed, started.speed,
      otherStarted.stays.run_speed, otherStarted.speed, create]

end Instance
end ChipEight
