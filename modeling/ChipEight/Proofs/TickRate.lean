import Mathlib.Data.Rat.Floor
import Mathlib.Logic.Function.Iterate
import ChipEight.Proofs.InstanceActions
import ChipEight.Proofs.Seconds

/-!
# The rate of timer ticks

A tick is due once the tick interval has passed since the call that made the last one, and that
call sets the time from which the next interval counts. A call shortly before the end of an
interval therefore delays the tick by a whole step of the host, and the delay is never made up.
Main statements: calls at most a sixtieth of a second apart make at least 30 ticks a second and
never two within one interval, but they can make little more than 30.
-/
namespace ChipEight

open Seconds (value ExactGap)

/-- Times of calls after a start, each at most a sixtieth of a second after the one before. -/
structure Paced (start : Float) (times : List Float) : Prop where
  exact : (start :: times).Pairwise ExactGap
  first : ∀ now ∈ times.head?, value now - value start ≤ 1 / 60
  rising : times.IsChain fun earlier later => value earlier < value later
  steady : times.IsChain fun earlier later => value later - value earlier ≤ 1 / 60

/-- Those of some times at which a tick is due, if the last tick was made at `last`. -/
def dueTicks : Float → List Float → List Float
  | _, [] => []
  | last, now :: later =>
    if Instance.due now last Settings.tickInterval then now :: dueTicks now later
    else dueTicks last later

/-- The tick interval, as the double nearest to it. -/
def tickSeconds : ℚ := value Settings.tickInterval

theorem of?_tickInterval : Seconds.of? Settings.tickInterval = some tickSeconds := by
  decide +kernel

theorem tickSeconds_pos : 0 < tickSeconds := by
  decide +kernel

theorem tickSeconds_le : tickSeconds ≤ 1 / 60 := by
  decide +kernel

theorem due_tick_iff {last now : Float} (gap : ExactGap last now) :
    Instance.due now last Settings.tickInterval = true ↔ tickSeconds ≤ value now - value last := by
  rw [Instance.due, decide_eq_true_iff]
  exact Seconds.le_iff of?_tickInterval gap.2.2

/-- Ticks are never closer than the interval. -/
theorem dueTicks_spaced {last : Float} {times : List Float}
    (exact : (last :: times).Pairwise ExactGap) :
    (last :: dueTicks last times).IsChain fun earlier later =>
      tickSeconds ≤ value later - value earlier := by
  induction times generalizing last with
  | nil => exact .singleton last
  | cons now later ih =>
    rw [dueTicks]
    split
    next due =>
      rw [due_tick_iff (List.rel_of_pairwise_cons exact List.mem_cons_self)] at due
      exact List.isChain_cons_cons.mpr ⟨due, ih exact.of_cons⟩
    next => exact ih (exact.sublist (by simp))

/-- At the last call less than an interval has passed since the last tick, and each tick before it
was made at the first call after its interval. -/
theorem elapsed_lt {last previous : Float} {times : List Float}
    (exact : (last :: times).Pairwise ExactGap)
    (steady : (previous :: times).IsChain fun earlier later => value later - value earlier ≤ 1 / 60)
    (waiting : value previous - value last < tickSeconds) :
    value (times.getLastD previous) - value last <
      (dueTicks last times).length / 30 + tickSeconds := by
  -- `previous` is the call before the remaining ones: it made the last tick or was too early for
  -- the next.
  induction times generalizing last previous with
  | nil => simpa [dueTicks] using waiting
  | cons now later ih =>
    rw [List.isChain_cons_cons] at steady
    have late := steady.1
    have gap : ExactGap last now := List.rel_of_pairwise_cons exact List.mem_cons_self
    rw [List.getLastD_cons, dueTicks]
    split
    next due =>
      have rest := ih exact.of_cons steady.2 (by simpa using tickSeconds_pos)
      have interval := tickSeconds_le
      -- The call before came within the interval, so this tick is late by less than a sixtieth.
      rw [List.length_cons, Nat.cast_succ]
      linarith
    next early =>
      rw [due_tick_iff gap, not_le] at early
      exact ih (exact.sublist (by simp)) steady.2 early

namespace Instance

/-- The instance after calls at the given times. -/
def runAll : Instance → List Float → Instance
  | current, [] => current
  | current, now :: later => runAll (current.run now).inst later

/-- Those of some calls that make a tick. -/
def tickTimes : Instance → List Float → List Float
  | _, [] => []
  | current, now :: later =>
    if current.state = .running ∧ current.slotsPerSecond ≠ 0 ∧
        due now current.lastTick Settings.tickInterval then
      now :: tickTimes (current.run now).inst later
    else tickTimes (current.run now).inst later

variable {current : Instance}

theorem runSlot_keeps (length : Nat) (current : Instance) :
    (runSlot length current).inst.lastTick = current.lastTick ∧
      (runSlot length current).inst.slotsPerSecond = current.slotsPerSecond := by
  obtain ⟨machine, state, log, fault, slot⟩ := runSlot_frame length current
  rw [slot]
  exact ⟨rfl, rfl⟩

theorem slotIfDue_keeps (current : Instance) (now : Float) :
    (current.slotIfDue now).inst.lastTick = current.lastTick ∧
      (current.slotIfDue now).inst.slotsPerSecond = current.slotsPerSecond := by
  unfold slotIfDue
  split
  · exact runSlot_keeps current.slotLength current
  · exact ⟨rfl, rfl⟩

theorem run_eq (running : current.state = .running) (speed : current.slotsPerSecond ≠ 0)
    (now : Float) : current.run now = (current.tickIfDue now).slotIfDue now :=
  if_pos ⟨running, speed⟩

theorem tickIfDue_lastTick (current : Instance) (now : Float) :
    (current.tickIfDue now).lastTick =
      if due now current.lastTick Settings.tickInterval then now else current.lastTick := by
  unfold tickIfDue
  split <;> rfl

theorem tickIfDue_slotsPerSecond (current : Instance) (now : Float) :
    (current.tickIfDue now).slotsPerSecond = current.slotsPerSecond := by
  unfold tickIfDue
  split <;> rfl

/-- While an instance runs, its ticks depend on the times alone. -/
theorem tickTimes_eq {times : List Float} (speed : current.slotsPerSecond ≠ 0)
    (running : ∀ count, (current.runAll (times.take count)).state = .running) :
    current.tickTimes times = dueTicks current.lastTick times := by
  induction times generalizing current with
  | nil => rfl
  | cons now later ih =>
    have here : current.state = .running := running 0
    have run := run_eq here speed now
    -- Of what decides about the next tick only the time of the last one has changed.
    have kept := slotIfDue_keeps (current.tickIfDue now) now
    rw [← run, tickIfDue_lastTick, tickIfDue_slotsPerSecond] at kept
    have rest := ih (kept.2 ▸ speed) fun count => running (count + 1)
    rw [kept.1] at rest
    rw [tickTimes, dueTicks, rest]
    by_cases tick : due now current.lastTick Settings.tickInterval = true
    · rw [if_pos ⟨here, speed, tick⟩, if_pos tick, if_pos tick]
    · rw [if_neg (fun ticks => tick ticks.2.2), if_neg tick, if_neg tick]

/-- Calls of `run` at some times, with nothing in between. -/
def callsAt (times : List Float) : List Call := times.map fun now => ⟨[], now, .run none⟩

theorem runAll_eq_answerAll (current : Instance) (times : List Float) :
    current.runAll times = current.answerAll (callsAt times) := by
  induction times generalizing current with
  | nil => rfl
  | cons now later ih => exact ih (current.run now).inst

theorem countP_isTick_actionsAt (current : Instance) (now : Float) :
    (current.actionsAt now).countP Machine.Action.isTick =
      if current.state = .running ∧ current.slotsPerSecond ≠ 0 ∧
        due now current.lastTick Settings.tickInterval then 1 else 0 := by
  by_cases live : current.state = .running ∧ current.slotsPerSecond ≠ 0
  · rw [actionsAt, if_pos live]
    simp only [live.1, live.2, ne_eq, not_false_eq_true, true_and]
    -- Whether a slot is due makes no difference to the count.
    cases due now current.lastTick Settings.tickInterval <;>
      cases due now current.lastSlot (1.0 / Float.ofNat current.slotsPerSecond) <;> rfl
  · rw [actionsAt, if_neg live, if_neg (fun ticks => live ⟨ticks.1, ticks.2.1⟩)]
    rfl

/-- The calls tick the machine as often as there are tick times, whatever else they ask of it and
however the instance comes to a halt. -/
theorem ticks_of_runAll (current : Instance) (times : List Float) (directory : Directory) :
    (current.runAll times).machine =
      current.machine.performAll directory (current.actionsAll (callsAt times)) ∧
    (current.actionsAll (callsAt times)).countP Machine.Action.isTick =
      (current.tickTimes times).length := by
  refine ⟨?_, ?_⟩
  · rw [runAll_eq_answerAll]
    exact current.answerAll_performs (callsAt times) directory
  · induction times generalizing current with
    | nil => rfl
    | cons now later ih =>
      have actions : current.actionsAll (callsAt (now :: later)) =
          current.actionsAt now ++ (current.run now).inst.actionsAll (callsAt later) := rfl
      rw [actions, List.countP_append, countP_isTick_actionsAt, ih, tickTimes]
      split
      · rw [List.length_cons, Nat.add_comm]
      · rw [Nat.zero_add]

theorem start_eq (occupied : current.state ≠ .empty) (clock : Float) :
    current.start clock =
      { current with state := .running, lastTick := clock, lastSlot := clock } :=
  if_neg occupied

theorem occupied_of_started {clock : Float} (running : (current.start clock).state = .running) :
    current.state ≠ .empty := by
  intro empty
  rw [start, if_pos empty, empty] at running
  cases running

/-- Between two slots an instance only ticks. -/
theorem runAll_between_slots {times : List Float} (running : current.state = .running)
    (speed : current.slotsPerSecond ≠ 0)
    (quiet : ∀ now ∈ times,
      due now current.lastSlot (1.0 / Float.ofNat current.slotsPerSecond) = false) :
    current.runAll times = { current with
      machine := Machine.tick^[(current.tickTimes times).length] current.machine
      lastTick := (current.tickTimes times).getLastD current.lastTick } := by
  induction times generalizing current with
  | nil => rfl
  | cons now later ih =>
    rw [List.forall_mem_cons] at quiet
    have idle : (current.run now).inst = current.tickIfDue now := by
      have slot : due now (current.tickIfDue now).lastSlot
          (1.0 / Float.ofNat (current.tickIfDue now).slotsPerSecond) = false := by
        rw [tickIfDue_slotsPerSecond]
        unfold tickIfDue
        split <;> exact quiet.1
      rw [run_eq running speed, slotIfDue, if_neg (Bool.eq_false_iff.mp slot)]
      rfl
    rw [runAll, tickTimes, idle]
    by_cases tick : due now current.lastTick Settings.tickInterval = true
    · have ticked : (current.tickIfDue now).state = .running := by
        rw [tickIfDue, if_pos tick]
        exact running
      -- The tick has moved its own clock but not that of the slots.
      rw [tickIfDue, if_pos tick] at ticked ⊢
      rw [if_pos ⟨running, speed, tick⟩, ih ticked speed quiet.2, List.length_cons,
        Function.iterate_succ_apply, List.getLastD_cons]
    · rw [if_neg (fun ticks => tick ticks.2.2), tickIfDue, if_neg tick,
        ih running speed quiet.2]

/-- An instance started and then called often enough, at a speed above zero and without a stop. -/
structure SteadilyCalled (current : Instance) (start : Float) (times : List Float) (final : Float) :
    Prop where
  speed : current.slotsPerSecond ≠ 0
  paced : Paced start times
  last : times.getLast? = some final
  running : ∀ count, ((current.start start).runAll (times.take count)).state = .running

theorem SteadilyCalled.tickTimes_eq {start final : Float} {times : List Float}
    (called : SteadilyCalled current start times final) :
    (current.start start).tickTimes times = dueTicks start times := by
  have started := start_eq (occupied_of_started (called.running 0)) start
  rw [Instance.tickTimes_eq (by rw [started]; exact called.speed) called.running, started]

theorem SteadilyCalled.tickTimes_spaced {start final : Float} {times : List Float}
    (called : SteadilyCalled current start times final) :
    (start :: (current.start start).tickTimes times).IsChain fun earlier later =>
      tickSeconds ≤ value later - value earlier := by
  rw [called.tickTimes_eq]
  exact dueTicks_spaced called.paced.exact

/-- Calls at most a sixtieth of a second apart make at least 30 ticks a second, whatever the times
of the calls are. -/
theorem ticks_at_half_rate (current : Instance) (start final : Float) (times : List Float)
    (called : SteadilyCalled current start times final) :
    ⌊30 * (value final - value start)⌋ ≤ ((current.start start).tickTimes times).length := by
  have steady : (start :: times).IsChain fun earlier later =>
      value later - value earlier ≤ 1 / 60 :=
    List.isChain_cons.mpr ⟨called.paced.first, called.paced.steady⟩
  have elapsed := elapsed_lt called.paced.exact steady (by simpa using tickSeconds_pos)
  rw [List.getLastD_eq_getLast?, called.last, Option.getD_some] at elapsed
  have interval := tickSeconds_le
  rw [called.tickTimes_eq, ← Int.lt_add_one_iff, Int.floor_lt]
  push_cast
  linarith

theorem load_ok {image : List UInt8} (fits : image.length ≤ Memory.imageCapacity) :
    ∃ loaded, current.load image = .ok loaded ∧ loaded.state = .loaded :=
  ⟨_, current.load_of_fits fits, rfl⟩

/-- Ten calls, each 15/1024 s after the one before, which is less than a sixtieth of a second. -/
def briskCalls : List Float := (List.range 10).map fun call => Float.ofNat (15 * (call + 1)) / 1024

theorem briskCalls_quiet : ∀ now ∈ briskCalls, due now 0 (1.0 / Float.ofNat 1) = false := by
  decide +kernel

theorem briskCalls_running (running : current.state = .running) (speed : current.slotsPerSecond = 1)
    (slot : current.lastSlot = 0) (count : Nat) :
    (current.runAll (briskCalls.take count)).state = .running := by
  have quiet : ∀ now ∈ briskCalls.take count,
      due now current.lastSlot (1.0 / Float.ofNat current.slotsPerSecond) = false := by
    rw [speed, slot]
    exact fun now listed => briskCalls_quiet now (List.mem_of_mem_take listed)
  rw [runAll_between_slots running (by rw [speed]; exact one_ne_zero) quiet]
  exact running

/-- A jump to itself, at one slot a second: none of the calls makes a slot. -/
theorem briskCalls_called : ∃ loaded, (create 0 {} 0 0).load [0x12, 0x00] = .ok loaded ∧
    SteadilyCalled (loaded.setSlotsPerSecond 1) 0 briskCalls (150 / 1024) := by
  obtain ⟨loaded, load, occupied⟩ : ∃ loaded, (create 0 {} 0 0).load [0x12, 0x00] = .ok loaded ∧
      loaded.state = .loaded := load_ok (by decide)
  have started := start_eq (show (loaded.setSlotsPerSecond 1).state ≠ .empty by
    rw [setSlotsPerSecond, occupied]; decide) 0
  refine ⟨loaded, load, ?_, ?_, ?_, briskCalls_running ?_ ?_ ?_⟩
  · exact one_ne_zero
  · exact ⟨by decide +kernel, by decide +kernel, by decide +kernel, by decide +kernel⟩
  · rfl
  · rw [started]
  · rw [started]
    rfl
  · rw [started]

theorem half_rate_of_briskCalls : ∃ loaded, (create 0 {} 0 0).load [0x12, 0x00] = .ok loaded ∧
    SteadilyCalled (loaded.setSlotsPerSecond 1) 0 briskCalls (150 / 1024) ∧
    ⌊30 * (value (150 / 1024) - value 0)⌋ ≤
      (((loaded.setSlotsPerSecond 1).start 0).tickTimes briskCalls).length := by
  obtain ⟨loaded, load, called⟩ := briskCalls_called
  exact ⟨loaded, load, called, ticks_at_half_rate _ 0 _ _ called⟩

/-- Five ticks in the time of eight: each second call comes just too early for a tick. -/
theorem ticks_fall_behind : ∃ loaded, (create 0 {} 0 0).load [0x12, 0x00] = .ok loaded ∧
    SteadilyCalled (loaded.setSlotsPerSecond 1) 0 briskCalls (150 / 1024) ∧
    (((loaded.setSlotsPerSecond 1).start 0).tickTimes briskCalls).length <
      ⌊60 * (value (150 / 1024) - value 0)⌋ - 1 := by
  obtain ⟨loaded, load, called⟩ := briskCalls_called
  refine ⟨loaded, load, called, ?_⟩
  rw [called.tickTimes_eq]
  decide +kernel

end Instance
end ChipEight
