import Mathlib.Algebra.Order.Archimedean.Basic
import Mathlib.Data.Nat.Cast.Order.Field
import Mathlib.Tactic.FieldSimp
import Mathlib.Tactic.Linarith
import Mathlib.Tactic.Positivity
import Mathlib.Tactic.Ring
import ChipEight.Proofs.EarlyEnd

/-!
# Ticks in simulated time

The rate of a run says how many instructions make a second, and sixty ticks belong to a second. The
running command ticks after a whole number of instructions, for which it drops the fraction of the
quotient. Main statement: ticks never fall behind simulated time by a whole tick, but they run ahead
of it by a fixed share; at a rate that sixty divides they are right in every run, and at any other
rate there are runs as far ahead as one likes.
-/
namespace ChipEight

namespace Machine

/-- On its way between two jumps that lead to each other. -/
structure Circling (machine : Machine) : Prop where
  first : machine.memory.readWord 0x200 = 0x1202
  second : machine.memory.readWord 0x202 = 0x1200
  turn : machine.cpu.pc = 0x200 ∨ machine.cpu.pc = 0x202
  unhalted : machine.cpu.halted = false

variable {machine : Machine}

theorem step_of_jump (jumps : machine.word.family.val = 0x1) :
    machine.step.fault = none ∧ machine.step.machine.memory = machine.memory ∧
      machine.step.machine.cpu.pc = machine.word.nnn ∧
      machine.step.machine.cpu.halted =
        (machine.cpu.halted || machine.word.nnn == machine.cpu.pc) := by
  have found : machine.upcoming.target? machine.word machine.fetch.cpu = some machine.word.nnn := by
    rw [machine.upcoming_eq_jump_iff.mpr jumps]
    rfl
  obtain ⟨stepped, done⟩ := step_of_ok (Operation.execute_of_target found)
  rw [stepped]
  exact ⟨done, rfl, rfl, rfl⟩

theorem Circling.step (circles : machine.Circling) :
    machine.step.machine.Circling ∧ machine.step.fault = none := by
  obtain ⟨first, second, turn, unhalted⟩ := circles
  -- Each jump leads to the other one, and so never to itself.
  rcases turn with here | here
  · have word : machine.word = 0x1202 := by
      rw [Machine.word, here]
      exact first
    obtain ⟨done, memory, pc, halted⟩ := step_of_jump (by rw [word]; rfl)
    rw [unhalted, word, here] at halted
    rw [word] at pc
    exact ⟨⟨memory ▸ first, memory ▸ second, .inr pc, halted⟩, done⟩
  · have word : machine.word = 0x1200 := by
      rw [Machine.word, here]
      exact second
    obtain ⟨done, memory, pc, halted⟩ := step_of_jump (by rw [word]; rfl)
    rw [unhalted, word, here] at halted
    rw [word] at pc
    exact ⟨⟨memory ▸ first, memory ▸ second, .inl pc, halted⟩, done⟩

theorem Circling.tick (circles : machine.Circling) : machine.tick.Circling :=
  ⟨circles.first, circles.second, circles.turn, circles.unhalted⟩

theorem Circling.unbroken {period : Nat} (circles : machine.Circling) (cycles : Nat) :
    (unbroken period machine cycles).machine.Circling ∧
      (Machine.unbroken period machine cycles).fault = none := by
  induction cycles with
  | zero => exact ⟨circles, rfl⟩
  | succ cycles ih =>
    obtain ⟨circling, unfaulted⟩ := ih
    obtain ⟨stepped, done⟩ := circling.step
    rw [Machine.unbroken, Stage.next_of_done unfaulted done]
    split
    · exact ⟨stepped.tick, rfl⟩
    · exact ⟨stepped, rfl⟩

theorem circling_of_overlay {memory : Memory} (begins : machine.cpu = .initial)
    (held : machine.memory = memory.overlay Memory.imageStart #[0x12, 0x02, 0x12, 0x00]) :
    machine.Circling where
  first := by
    have start : (0x200 : Int) = ((Memory.imageStart + 0 : Nat) : Int) := rfl
    rw [held, start, memory.readWord_overlay _ 0 (by decide) (by decide)]
    decide
  second := by
    have behind : (0x202 : Int) = ((Memory.imageStart + 2 : Nat) : Int) := rfl
    rw [held, behind, memory.readWord_overlay _ 2 (by decide) (by decide)]
    decide
  turn := by
    rw [begins]
    exact .inl rfl
  unhalted := by
    rw [begins]
    rfl

end Machine

namespace CommandLine.Runner

open Machine (unbroken)

/-- The ticks, with their fraction, that belong to the time some instructions take. -/
def simulatedTicks (rate : Int) (completed : Nat) : ℚ := completed * 60 / rate

/-! ### The ticks of a run -/

/-- A tick is made when the instructions make one more whole period. -/
theorem ticks_tickIfDue {progress : Progress} {period completed : Nat}
    (counted : progress.executed = completed + 1) (kept : progress.ticks = completed / period) :
    (progress.tickIfDue period).ticks = (progress.tickIfDue period).executed / period := by
  unfold Progress.tickIfDue
  split
  next due =>
    rw [counted] at due
    change progress.ticks + 1 = progress.executed / period
    rw [counted, Nat.succ_div, if_pos (Nat.dvd_of_mod_eq_zero due), kept]
  next early =>
    rw [counted] at early
    rw [counted, Nat.succ_div, if_neg (fun whole => early (Nat.mod_eq_zero_of_dvd whole)), kept,
      Nat.add_zero]

theorem ticks_advance (course : Course) (cycles : Nat) (progress : Progress)
    (kept : progress.ticks = progress.executed / course.tickPeriod) :
    (advance course cycles progress).ticks =
      (advance course cycles progress).executed / course.tickPeriod := by
  induction cycles generalizing progress with
  | zero => exact kept
  | succ cycles ih =>
    unfold advance
    dsimp only
    split
    · -- A failed instruction is not counted.
      exact kept
    · -- Whatever the cycle printed, its instruction is counted before the tick.
      generalize ite (course.trace = true) _ _ = lines
      split
      · apply ticks_tickIfDue
        · rfl
        · exact kept
      · apply ih
        apply ticks_tickIfDue
        · rfl
        · exact kept

/-- The ticks of a run are the whole periods in its completed instructions. -/
theorem ticks_run (course : Course) (machine : Machine) :
    (run course machine).ticks = (run course machine).executed / course.tickPeriod :=
  ticks_advance course course.cycles.toNat ⟨machine, 0, 0, none, #[]⟩ (Nat.zero_div _).symm

theorem tickPeriod_eq {course : Course} {rate : Int} (paced : course.instructionsPerSecond = rate)
    (fast : 60 ≤ rate) : course.tickPeriod = (rate / 60).toNat := by
  have period : course.tickPeriod = (max 1 (course.instructionsPerSecond / 60)).toNat := rfl
  omega

/-! ### Bounds -/

section
variable {rate : Int} (completed : Nat)

theorem simulatedTicks_lt (fast : 60 ≤ rate) :
    simulatedTicks rate completed < (completed / (rate / 60).toNat : Nat) + 1 := by
  have positive : (0 : ℚ) < rate := by exact_mod_cast (by omega : 0 < rate)
  have period_pos : 0 < (rate / 60).toNat := by omega
  have sixtieth : ((rate / 60).toNat : ℚ) * 60 ≤ rate := by
    exact_mod_cast (by omega : ((rate / 60).toNat : Int) * 60 ≤ rate)
  generalize (rate / 60).toNat = period at *
  -- The instructions do not fill one more period, and a sixtieth of the rate is no shorter.
  have unfilled : (completed : ℚ) < period * ((completed / period : Nat) + 1) := by
    exact_mod_cast Nat.lt_mul_div_succ completed period_pos
  have more : (0 : ℚ) ≤ (completed / period : Nat) + 1 := by positivity
  rw [simulatedTicks, div_lt_iff₀ positive]
  calc (completed : ℚ) * 60 < period * ((completed / period : Nat) + 1) * 60 := by linarith
    _ = ((completed / period : Nat) + 1) * (period * 60) := by ring
    _ ≤ ((completed / period : Nat) + 1) * rate := mul_le_mul_of_nonneg_left sixtieth more

theorem ticks_sub_simulatedTicks_le (fast : 60 ≤ rate) :
    ((completed / (rate / 60).toNat : Nat) : ℚ) - simulatedTicks rate completed ≤
      simulatedTicks rate completed * ((rate % 60 : Int) / (rate - rate % 60 : Int)) := by
  have positive : (0 : ℚ) < rate := by exact_mod_cast (by omega : 0 < rate)
  have period_pos : (0 : ℚ) < (rate / 60).toNat := by
    exact_mod_cast (by omega : 0 < (rate / 60).toNat)
  -- The rate is made of sixty periods and the fraction that is dropped.
  have whole_part : ((rate - rate % 60 : Int) : ℚ) = (rate / 60).toNat * 60 := by
    exact_mod_cast (by omega : rate - rate % 60 = (rate / 60).toNat * 60)
  have fraction : ((rate % 60 : Int) : ℚ) = rate - (rate / 60).toNat * 60 := by
    exact_mod_cast (by omega : rate % 60 = rate - (rate / 60).toNat * 60)
  rw [whole_part, fraction, simulatedTicks]
  generalize (rate / 60).toNat = period at *
  have filled : ((completed / period : Nat) : ℚ) ≤ completed / period := Nat.cast_div_le
  calc ((completed / period : Nat) : ℚ) - completed * 60 / rate
      ≤ completed / period - completed * 60 / rate := by linarith
    _ = completed * 60 / rate * ((rate - period * 60) / (period * 60)) := by
      field_simp

end

/-! ### Runs that get ahead -/

theorem executed_run_of_circling {loaded : Machine} (circles : loaded.Circling) (course : Course) :
    (run course loaded).executed = course.cycles.toNat := by
  obtain ⟨stop, ends, ran⟩ := run_eq course loaded circles.unhalted
  obtain ⟨circling, unfaulted⟩ : (unbroken course.tickPeriod loaded stop).machine.Circling ∧
    (unbroken course.tickPeriod loaded stop).fault = none := circles.unbroken stop
  -- A run that neither halts nor fails makes all its cycles.
  have all : stop = course.cycles.toNat := by
    by_contra short
    rcases ends.ended (Nat.lt_of_le_of_ne ends.inside short) with halted | faulted
    · rw [circling.unhalted] at halted
      cases halted
    · rw [unfaulted] at faulted
      cases faulted
  rw [ran, ← all]
  exact Machine.completed_of_unfaulted unfaulted

/-- Two jumps that lead to each other. -/
def circleFiles : Directory := [("circle.ch8", [0x12, 0x02, 0x12, 0x00])]

/-- Options to run some instructions of them. -/
def circleOptions (cycles : Nat) (rate : Int) : Options :=
  { loopOptions with
    file := "circle.ch8", cycles := some cycles, instructionsPerSecond := some rate }

theorem exists_circleRun (cycles : Nat) (rate : Int) :
    ∃ loading course, prepare circleFiles (circleOptions cycles rate) 0 = .ok (loading, course) ∧
      course.instructionsPerSecond = rate ∧ (run course loading.machine).executed = cycles := by
  have found : circleFiles.read "circle.ch8" = .ok [0x12, 0x02, 0x12, 0x00] := by rfl
  obtain ⟨unfailed, loaded⟩ :=
    (Machine.initial { jumpAddsNamed := true } 0).perform_loadFile found (by decide)
  have started : (circleOptions cycles rate).machine 0 =
      .ok (Machine.initial { jumpAddsNamed := true } 0) := rfl
  have going : (circleOptions cycles rate).course = .ok ⟨cycles, rate, false, false⟩ := rfl
  have circles : ((Machine.initial { jumpAddsNamed := true } 0).perform circleFiles
      (.loadFile "circle.ch8")).machine.Circling :=
    Machine.circling_of_overlay (by rw [loaded]; rfl) (by rw [loaded])
  refine ⟨_, _, prepare_of_loaded started going unfailed, rfl, ?_⟩
  exact executed_run_of_circling circles _

/-- Each tick of a run comes too early by the same part of an instruction, which adds up. -/
theorem exists_ahead {rate : Int} (fast : 60 ≤ rate) (uneven : ¬60 ∣ rate) (bound : ℚ) :
    ∃ completed : Nat,
      bound < (completed / (rate / 60).toNat : Nat) - simulatedTicks rate completed := by
  obtain ⟨more, above⟩ := exists_nat_gt bound
  have period_pos : 0 < (rate / 60).toNat := by omega
  have rate_ne : (rate : ℚ) ≠ 0 := by exact_mod_cast (by omega : rate ≠ 0)
  have rate_cast : ((rate.toNat : Nat) : ℚ) = rate := by
    exact_mod_cast (by omega : (rate.toNat : Int) = rate)
  have gain : 1 ≤ rate - ((rate / 60).toNat : ℚ) * 60 := by
    exact_mod_cast (by omega : 1 ≤ rate - ((rate / 60).toNat : Int) * 60)
  have more_nonneg : (0 : ℚ) ≤ more := by positivity
  generalize (rate / 60).toNat = period at *
  -- In so many periods the lost fractions make up whole ticks, at least one for each time.
  have due : simulatedTicks rate (period * (more * rate.toNat)) = more * (period * 60) := by
    rw [simulatedTicks]
    push_cast
    rw [rate_cast]
    field_simp
  refine ⟨period * (more * rate.toNat), ?_⟩
  rw [Nat.mul_div_cancel_left _ period_pos, due, Nat.cast_mul, rate_cast]
  calc bound < more := above
    _ = more * 1 := (mul_one _).symm
    _ ≤ more * (rate - period * 60) := mul_le_mul_of_nonneg_left gain more_nonneg
    _ = more * rate - more * (period * 60) := mul_sub _ _ _

/-- The ticks of a run are the whole periods in its completed instructions. So they are no whole
tick behind simulated time, and ahead of it by no more than the share that the period has lost;
where nothing is lost they are right in every run, and elsewhere no bound holds for all. -/
theorem ticks_are_right_at_multiples_of_sixty (rate : Int) (fast : 60 ≤ rate) :
    (∀ (course : Course) (machine : Machine), course.instructionsPerSecond = rate →
      let ran := run course machine
      let due := simulatedTicks rate ran.executed
      ran.ticks = ran.executed / (rate / 60).toNat ∧
      due - 1 < ran.ticks ∧
      ran.ticks - due ≤ due * ((rate % 60 : Int) / (rate - rate % 60 : Int)) ∧
      (60 ∣ rate → |ran.ticks - due| < 1)) ∧
    (¬60 ∣ rate → ∀ bound : ℚ, ∃ directory options loading course,
      options.instructionsPerSecond = some rate ∧
      prepare directory options 0 = .ok (loading, course) ∧
      let ran := run course loading.machine
      bound < ran.ticks - simulatedTicks rate ran.executed) := by
  constructor
  · intro course machine paced ran due
    have ticks : ran.ticks = ran.executed / (rate / 60).toNat := by
      rw [← tickPeriod_eq paced fast]
      exact ticks_run course machine
    have not_behind := simulatedTicks_lt ran.executed fast
    have not_far := ticks_sub_simulatedTicks_le ran.executed fast
    rw [← ticks] at not_behind not_far
    refine ⟨ticks, by linarith, not_far, ?_⟩
    intro even
    -- Nothing is lost, so that the ticks are not ahead at all.
    rw [Int.emod_eq_zero_of_dvd even] at not_far
    rw [abs_lt]
    constructor
    · linarith
    · rw [Int.cast_zero, zero_div, mul_zero] at not_far
      linarith
  · intro uneven bound
    obtain ⟨completed, ahead⟩ := exists_ahead fast uneven bound
    obtain ⟨loading, course, prepared, paced, executed⟩ := exists_circleRun completed rate
    refine ⟨circleFiles, circleOptions completed rate, loading, course, rfl, prepared, ?_⟩
    dsimp only
    rw [ticks_run, executed, tickPeriod_eq paced fast]
    exact ahead

/-- At 600 instructions a second the ticks are right; at 119 they get more than a hundred ahead. -/
theorem circle_ticks_right_and_ahead :
    (∃ loading course, prepare circleFiles (circleOptions 1005 600) 0 = .ok (loading, course) ∧
      let ran := run course loading.machine
      ran.ticks = 100 ∧ |ran.ticks - simulatedTicks 600 1005| < 1) ∧
    ∃ directory options loading course, options.instructionsPerSecond = some 119 ∧
      prepare directory options 0 = .ok (loading, course) ∧
      let ran := run course loading.machine
      100 < ran.ticks - simulatedTicks 119 ran.executed := by
  constructor
  · obtain ⟨loading, course, prepared, paced, executed⟩ := exists_circleRun 1005 600
    obtain ⟨ticks, -, -, right⟩ :=
      (ticks_are_right_at_multiples_of_sixty 600 (by decide)).1 course loading.machine paced
    rw [executed] at ticks right
    exact ⟨loading, course, prepared, ticks, right (by decide)⟩
  · exact (ticks_are_right_at_multiples_of_sixty 119 (by decide)).2 (by decide) 100

def circleArguments : List String := ["circle.ch8", "--cycles", "3", "--ips", "119"]

/-- Three instructions at 119 a second: a tick after each of them, in the time of one and a half. -/
theorem circle_ticks_ahead :
    Options.parse circleArguments = .ok (circleOptions 3 119) ∧
    ∃ loading course, prepare circleFiles (circleOptions 3 119) 0 = .ok (loading, course) ∧
      let ran := run course loading.machine
      ran.executed = 3 ∧ ran.ticks = 3 ∧ 1 < |ran.ticks - simulatedTicks 119 ran.executed| := by
  refine ⟨parse_of_accepted (by decide +kernel), ?_⟩
  obtain ⟨loading, course, prepared, paced, executed⟩ := exists_circleRun 3 119
  have ticks : (run course loading.machine).ticks = 3 := by
    rw [ticks_run, executed, tickPeriod_eq paced (by decide)]
    rfl
  refine ⟨loading, course, prepared, executed, ticks, ?_⟩
  rw [ticks, executed]
  decide +kernel

end CommandLine.Runner
end ChipEight
