import ChipEight.Proofs.EarlyEnd
import ChipEight.Proofs.TimerReads

/-!
# Independence of the tick rate

The running command ticks the timers after every few instructions, how many depends on the rate that
it is given. Main statement: timers reach a program through one instruction only, so that runs apart
from ticks agree as long as they do not come to it, and a program that the command runs without
coming to it gets the same report at every rate.
-/
namespace ChipEight

namespace Machine

/-- Stages of two runs that differ in ticks and timers alone. -/
structure Stage.SameButTimers (ours theirs : Stage) : Prop where
  completed : theirs.completed = ours.completed
  fault : theirs.fault = ours.fault
  machine : ∃ delay sound, theirs.machine = ours.machine.withTimers delay sound

variable {ours theirs : Stage} {period otherPeriod : Nat} {loaded : Machine}

theorem Stage.SameButTimers.next (same : ours.SameButTimers theirs)
    (unread : ¬ours.machine.word.ReadsDelay) :
    (ours.next period).SameButTimers (theirs.next otherPeriod) := by
  cases faulted : ours.fault with
  | some fault =>
    have their_fault : theirs.fault = some fault := same.fault.trans faulted
    rw [Stage.next_of_faulted (by simp [faulted]), Stage.next_of_faulted (by simp [their_fault])]
    exact same
  | none =>
    have unfaulted : theirs.fault = none := same.fault.trans faulted
    obtain ⟨delay, sound, machine⟩ := same.machine
    obtain ⟨nextDelay, nextSound, stepped⟩ := step_withTimers unread delay sound
    rw [← machine] at stepped
    have step_fault : theirs.machine.step.fault = ours.machine.step.fault := by rw [stepped]; rfl
    cases failed : ours.machine.step.fault with
    | some fault =>
      rw [Stage.next_of_fault faulted failed,
        Stage.next_of_fault unfaulted (step_fault.trans failed), stepped]
      exact ⟨same.completed, rfl, nextDelay, nextSound, rfl⟩
    | none =>
      rw [Stage.next_of_done faulted failed,
        Stage.next_of_done unfaulted (step_fault.trans failed), stepped, same.completed]
      -- Each run ticks when it is its turn, and that changes nothing but timers.
      split <;> split <;> exact ⟨rfl, rfl, _, _, rfl⟩

theorem unbroken_sameButTimers (otherPeriod : Nat) {cycles : Nat}
    (unread : ∀ cycle < cycles, ¬(unbroken period loaded cycle).machine.word.ReadsDelay) :
    (unbroken period loaded cycles).SameButTimers (unbroken otherPeriod loaded cycles) := by
  induction cycles with
  | zero => exact ⟨rfl, rfl, loaded.cpu.delay, loaded.cpu.sound, rfl⟩
  | succ cycles ih =>
    have earlier := ih fun cycle less => unread cycle (Nat.lt_succ_of_lt less)
    exact earlier.next (unread cycles (Nat.lt_succ_self cycles))

theorem Stage.SameButTimers.over_iff (same : ours.SameButTimers theirs) :
    theirs.Over ↔ ours.Over := by
  obtain ⟨delay, sound, machine⟩ := same.machine
  rw [Stage.Over, Stage.Over, same.fault, machine]
  rfl

theorem EndsAt.of_sameButTimers {limit stop : Nat} (ends : EndsAt period loaded limit stop)
    (same : ∀ cycle ≤ stop,
      (unbroken period loaded cycle).SameButTimers (unbroken otherPeriod loaded cycle)) :
    EndsAt otherPeriod loaded limit stop where
  inside := ends.inside
  first cycle less := by
    rw [(same cycle (Nat.le_of_lt less)).over_iff]
    exact ends.first cycle less
  ended less := (same stop (Nat.le_refl stop)).over_iff.mpr (ends.ended less)

/-- A run has one first stage to end at. -/
theorem EndsAt.unique {limit stop other : Nat} (ends : EndsAt period loaded limit stop)
    (also : EndsAt period loaded limit other) : other = stop := by
  rcases Nat.lt_trichotomy other stop with earlier | same | later
  · exact absurd (also.ended (Nat.lt_of_lt_of_le earlier ends.inside)) (ends.first other earlier)
  · exact same
  · exact absurd (ends.ended (Nat.lt_of_lt_of_le later also.inside)) (also.first stop later)

/-- A call or a return is no reading of a timer. -/
theorem not_readsDelay_of_fault {machine : Machine} {fault : StackFault}
    (faulted : machine.step.fault = some fault) : ¬machine.word.ReadsDelay := by
  intro reads
  have upcoming := machine.upcoming_eq_readDelay_iff.mpr reads
  rw [step_fault, upcoming] at faulted
  simp at faulted

/-- The cycle that fails need not be looked at. -/
theorem EndsAt.unread {limit stop : Nat} (ends : EndsAt period loaded limit stop)
    (unread : ∀ cycle < (unbroken period loaded stop).completed,
      ¬(unbroken period loaded cycle).machine.word.ReadsDelay) :
    ∀ cycle < stop, ¬(unbroken period loaded cycle).machine.word.ReadsDelay := by
  intro cycle less
  have unfaulted := Stage.unfaulted_of_open (ends.first cycle less)
  cases failed : (unbroken period loaded cycle).machine.step.fault with
  | some fault => exact not_readsDelay_of_fault failed
  | none =>
    apply unread
    rw [ends.completed]
    split
    next faulted =>
      -- The last cycle failed, and this one did not.
      have not_last : cycle + 1 ≠ stop := by
        rintro rfl
        rw [unbroken, Stage.fault_of_done unfaulted failed] at faulted
        cases faulted
      omega
    · exact less

theorem not_readsDelay_of_atSelfJump {machine : Machine} (here : machine.AtSelfJump) :
    ¬machine.word.ReadsDelay := by
  rintro ⟨family, -⟩
  rcases here with ⟨jump, -⟩ | ⟨jump, -⟩
  · rw [family] at jump
    cases jump
  · rw [family] at jump
    cases jump

/-- A program that begins with a jump to itself stays there. -/
theorem unbroken_atSelfJump (here : loaded.AtSelfJump) (cycles : Nat) :
    (unbroken period loaded cycles).machine.AtSelfJump := by
  induction cycles with
  | zero => exact here
  | succ cycles ih =>
    have rests := resting_settled ih
    obtain ⟨stepped, done⟩ := step_of_atSelfJump ih
    rw [unbroken]
    cases faulted : (unbroken period loaded cycles).fault with
    | some fault =>
      rw [Stage.next_of_faulted (by simp [faulted])]
      exact ih
    | none =>
      rw [Stage.next_of_done faulted done, stepped]
      split
      · exact rests.tick.here
      · exact rests.here

end Machine

namespace CommandLine.Runner

open Machine (unbroken EndsAt)

def Course.atRate (course : Course) (rate : Int) : Course :=
  { course with instructionsPerSecond := rate }

def Options.atRate (options : Options) (rate : Int) : Options :=
  { options with instructionsPerSecond := some rate }

section
variable {loaded : Machine} {course : Course}

/-- What a cycle prints shows no timer. -/
theorem printed_atRate (rate : Int) {count : Nat}
    (unread : ∀ cycle < count,
      ¬(unbroken course.tickPeriod loaded cycle).machine.word.ReadsDelay) :
    printed (course.atRate rate) loaded count = printed course loaded count := by
  apply List.flatMap_congr
  intro cycle listed
  have less := List.mem_range.mp listed
  obtain ⟨delay, sound, machine⟩ := (Machine.unbroken_sameButTimers (course.atRate rate).tickPeriod
    fun earlier before => unread earlier (Nat.lt_trans before less)).machine
  obtain ⟨nextDelay, nextSound, stepped⟩ := Machine.step_withTimers (unread cycle less) delay sound
  rw [machine, stepped]
  rfl

theorem run_atRate (rate : Int) (unhalted : loaded.cpu.halted = false)
    (unread : ∀ cycle < (run course loaded).executed,
      ¬(unbroken course.tickPeriod loaded cycle).machine.word.ReadsDelay) :
    ∃ ticks delay sound,
      run (course.atRate rate) loaded =
        { run course loaded with
          ticks, machine := (run course loaded).machine.withTimers delay sound } := by
  obtain ⟨stop, ends, ran⟩ := run_eq course loaded unhalted
  rw [ran] at unread ⊢
  have unread_to_stop := ends.unread unread
  have same (cycle : Nat) (inside : cycle ≤ stop) :=
    Machine.unbroken_sameButTimers (course.atRate rate).tickPeriod
      fun earlier before => unread_to_stop earlier (Nat.lt_of_lt_of_le before inside)
  -- At the other rate the run ends at the same stage.
  obtain ⟨other, also, other_ran⟩ := run_eq (course.atRate rate) loaded unhalted
  rw [(ends.of_sameButTimers same).unique also] at other_ran
  obtain ⟨completed, fault, delay, sound, machine⟩ := same stop (Nat.le_refl stop)
  have printed_same : printed (course.atRate rate) loaded
      (unbroken course.tickPeriod loaded stop).completed =
        printed course loaded (unbroken course.tickPeriod loaded stop).completed :=
    printed_atRate rate unread
  refine ⟨(unbroken (course.atRate rate).tickPeriod loaded stop).ticks, delay, sound, ?_⟩
  rw [other_ran, progressAt, completed, fault, machine, printed_same]
  rfl

end

/-- A report shows nothing of timers and ticks. -/
theorem finish_withTimers (directory : Directory) (options : Options) (progress : Progress)
    (ticks : Nat) (delay sound : UInt8) (milliseconds : Nat) :
    finish directory options
        { progress with ticks, machine := progress.machine.withTimers delay sound } milliseconds =
      finish directory options progress milliseconds :=
  rfl

section
variable {directory : Directory} {options : Options} {seed : Int}

theorem exists_of_prepared {loading : Machine.Response} {course : Course}
    (prepared : prepare directory options seed = .ok (loading, course)) :
    ∃ machine, options.machine seed = .ok machine ∧
      loading = machine.perform directory (.loadFile options.file) := by
  unfold prepare at prepared
  cases started : options.machine seed with
  | error abort =>
    rw [started] at prepared
    cases prepared
  | ok machine =>
    rw [started] at prepared
    dsimp only [Except.mapError, bind, Except.bind] at prepared
    split at prepared
    · cases prepared
    · cases going : options.course with
      | error abort =>
        rw [going] at prepared
        cases prepared
      | ok course =>
        rw [going] at prepared
        cases prepared
        exact ⟨machine, rfl, rfl⟩

theorem cpu_of_started {machine : Machine} (started : options.machine seed = .ok machine) :
    machine.cpu = .initial := by
  unfold Options.machine at started
  split at started
  · cases started
  · cases started
  · cases started
    rfl

/-- Loading lets the processor be, and a new one has not halted. -/
theorem unhalted_of_prepared {loading : Machine.Response} {course : Course}
    (prepared : prepare directory options seed = .ok (loading, course)) :
    loading.machine.cpu.halted = false := by
  obtain ⟨machine, started, rfl⟩ := exists_of_prepared prepared
  obtain ⟨memory, loaded⟩ := machine.perform_loadFile_memory directory options.file
  rw [loaded, cpu_of_started started]
  rfl

/-- The rate plays no part in what comes before the run. -/
theorem prepare_atRate (directory : Directory) (options : Options) (seed rate otherRate : Int) :
    prepare directory (options.atRate otherRate) seed =
      (prepare directory (options.atRate rate) seed).map fun (loading, course) =>
        (loading, course.atRate otherRate) := by
  have course : (options.atRate otherRate).course =
      (options.atRate rate).course.map (·.atRate otherRate) := by
    simp only [Options.course, Options.atRate]
    cases options.cycles <;> rfl
  have started : (options.atRate otherRate).machine seed = (options.atRate rate).machine seed := rfl
  have file (rate : Int) : (options.atRate rate).file = options.file := rfl
  unfold prepare
  rw [course, started, file, file]
  cases (options.atRate rate).machine seed with
  | error abort => rfl
  | ok machine =>
    dsimp only [Except.mapError, bind, Except.bind]
    cases (machine.perform directory (.loadFile options.file)).failure with
    | some failure => rfl
    | none => cases (options.atRate rate).course <;> rfl

/-- The run that the command comes to, if it comes to one, hands the program no timer. -/
def ReadsNoDelay (directory : Directory) (options : Options) (seed : Int) : Prop :=
  ∀ loading course, prepare directory options seed = .ok (loading, course) →
    ∀ cycle < (run course loading.machine).executed,
      ¬(unbroken course.tickPeriod loading.machine cycle).machine.word.ReadsDelay

theorem invoke_atRate {argv otherArgv : List String} {rate otherRate : Int}
    (parsed : Options.parse argv = .ok (options.atRate rate))
    (otherParsed : Options.parse otherArgv = .ok (options.atRate otherRate))
    (unread : ReadsNoDelay directory (options.atRate rate) seed) (milliseconds : Nat) :
    invoke directory otherArgv seed milliseconds = invoke directory argv seed milliseconds := by
  have prepared := prepare_atRate directory options seed rate otherRate
  cases before : prepare directory (options.atRate rate) seed with
  | error ended =>
    -- Neither command comes to a run, and they end in the same way.
    rw [before] at prepared
    simp only [invoke, parsed, otherParsed, report, before, prepared, Except.map]
  | ok started =>
    obtain ⟨loading, course⟩ := started
    rw [before] at prepared
    obtain ⟨ticks, delay, sound, ran⟩ :=
      run_atRate otherRate (unhalted_of_prepared before) (unread loading course before)
    rw [invoke_of_prepared parsed before, invoke_of_prepared otherParsed prepared, ran,
      finish_withTimers]
    rfl

end

/-- Runs that differ in their ticks alone agree in all but timers, unless the first one reads a
timer: they execute the same words and answer all other actions alike, failures included. And a
program that reads no timer gets one report at all rates. -/
theorem timers_reach_programs_by_one_instruction (directory : Directory) (seed : Int) :
    (∀ (dialect : Dialect) (first second : List Machine.Action),
      first.filter (!·.isTick) = second.filter (!·.isTick) →
      let machine := Machine.initial dialect seed
      (∀ word ∈ machine.executedInAll directory first, ¬word.ReadsDelay) →
        machine.executedInAll directory second = machine.executedInAll directory first ∧
        List.Forall₂ (fun ours theirs => ∃ delay sound, theirs = ours.withTimers delay sound)
          (machine.answersBetweenTicks directory first)
          (machine.answersBetweenTicks directory second)) ∧
    ∀ (argv otherArgv : List String) (options : Options) (rate otherRate : Int),
      Options.parse argv = .ok (options.atRate rate) →
      Options.parse otherArgv = .ok (options.atRate otherRate) →
      ReadsNoDelay directory (options.atRate rate) seed →
        ∀ milliseconds,
          invoke directory otherArgv seed milliseconds =
            invoke directory argv seed milliseconds := by
  constructor
  · intro dialect first second same machine unread
    exact Machine.runs_apart_from_ticks directory same unread machine.cpu.delay machine.cpu.sound
  · intro argv otherArgv options rate otherRate parsed otherParsed unread milliseconds
    exact invoke_atRate parsed otherParsed unread milliseconds

/-- A write to the delay timer, and the same with other ticks. -/
def delayWrite : List Machine.Action := [.load [0xF0, 0x15], .tick, .step]

def delayWriteTicked : List Machine.Action := [.tick, .load [0xF0, 0x15], .step, .tick]

def slowLoopArguments : List String := ["loop.ch8", "--cycles", "5", "--ips", "60"]

theorem parse_slowLoopArguments :
    Options.parse slowLoopArguments = .ok (loopOptions.atRate 60) :=
  parse_of_accepted (by decide +kernel)

theorem readsNoDelay_loop : ReadsNoDelay loopFiles (loopOptions.atRate 600) 0 := by
  intro loading course prepared cycle _
  have found : loopFiles.read "loop.ch8" = .ok [0x12, 0x00] := by rfl
  have loaded := (Machine.initial { jumpAddsNamed := true } 0).perform_loadFile found (by decide)
  have known : prepare loopFiles (loopOptions.atRate 600) 0 = .ok (_, ⟨5, 600, false, false⟩) :=
    prepare_of_loaded rfl rfl loaded.1
  rw [prepared, Except.ok.injEq, Prod.mk.injEq] at known
  rw [known.1]
  exact Machine.not_readsDelay_of_atSelfJump
    (Machine.unbroken_atSelfJump loopLoaded_atSelfJump cycle)

theorem ticks_beside_a_delay_write :
    ((Machine.initial {} 0).executedInAll [] delayWriteTicked =
        (Machine.initial {} 0).executedInAll [] delayWrite ∧
      List.Forall₂ (fun ours theirs => ∃ delay sound, theirs = ours.withTimers delay sound)
        ((Machine.initial {} 0).answersBetweenTicks [] delayWrite)
        ((Machine.initial {} 0).answersBetweenTicks [] delayWriteTicked)) ∧
    invoke loopFiles slowLoopArguments 0 0 = invoke loopFiles loopArguments 0 0 := by
  constructor
  · apply (timers_reach_programs_by_one_instruction [] 0).1 {} delayWrite delayWriteTicked rfl
    have fits : ([0xF0, 0x15] : List UInt8).length ≤ Memory.imageCapacity := by decide
    have loaded := Machine.perform_load (.initial {} 0) [] fits
    simp only [delayWrite, Machine.executedInAll, Machine.executed, loaded, List.nil_append,
      List.append_nil, List.forall_mem_singleton]
    change ¬(Machine.holding #[0xF0, 0x15]).word.ReadsDelay
    rw [Machine.word_holding (by decide) (by decide)]
    decide
  · exact (timers_reach_programs_by_one_instruction loopFiles 0).2 loopArguments slowLoopArguments
      loopOptions 600 60 parse_loopArguments parse_slowLoopArguments readsNoDelay_loop 0

end CommandLine.Runner
end ChipEight
