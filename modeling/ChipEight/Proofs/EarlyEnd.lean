import ChipEight.CommandLine.Runner
import ChipEight.Proofs.UnbrokenRun

/-!
# The early end of a run

The running command stops when the program has halted. Main statement: it makes the first part of
the run that goes on, and its report is the same as if all cycles had been made.
-/
namespace ChipEight.CommandLine.Runner

open Machine (Stage unbroken EndsAt OnlyTicked)

/-- The lines that a number of completed cycles print. -/
def printed (course : Course) (loaded : Machine) (count : Nat) : List String :=
  (List.range count).flatMap fun cycle =>
    let outcome := (unbroken course.tickPeriod loaded cycle).machine.step
    Diagnostic.shown course.debug outcome.notes ++
      if course.trace then [outcome.machine.instructionText] else []

/-- The progress of a run that has come to a stage. -/
def progressAt (course : Course) (loaded : Machine) (cycles : Nat) : Progress :=
  let stage := unbroken course.tickPeriod loaded cycles
  { machine := stage.machine
    executed := stage.completed
    ticks := stage.ticks
    fault := stage.fault
    lines := (printed course loaded stage.completed).toArray }

variable {loaded : Machine}

/-! ### The loop -/

theorem printed_succ (course : Course) (loaded : Machine) (count : Nat) :
    let outcome := (unbroken course.tickPeriod loaded count).machine.step
    let lines := (printed course loaded count).toArray ++
      Diagnostic.shown course.debug outcome.notes
    (if course.trace then lines.push outcome.machine.instructionText else lines) =
      (printed course loaded (count + 1)).toArray := by
  rw [printed, printed, List.range_succ, List.flatMap_append, List.flatMap_singleton]
  dsimp only
  split <;> simp

theorem advance_of_fault {course : Course} {passed : Nat}
    (unfaulted : (unbroken course.tickPeriod loaded passed).fault = none) {fault : StackFault}
    (faulted : (unbroken course.tickPeriod loaded passed).machine.step.fault = some fault)
    (remaining : Nat) :
    advance course (remaining + 1) (progressAt course loaded passed) =
      progressAt course loaded (passed + 1) := by
  -- A call or return that fails has nothing to note, so that no line is printed.
  have silent : Diagnostic.shown course.debug [] = [] := ite_self []
  have next : (unbroken course.tickPeriod loaded passed).next course.tickPeriod = _ :=
    Stage.next_of_fault unfaulted faulted
  simp only [advance, progressAt, faulted, Machine.notes_of_fault faulted, silent, unbroken, next]
  simp

theorem progressAt_of_done {course : Course} {passed : Nat}
    (unfaulted : (unbroken course.tickPeriod loaded passed).fault = none)
    (done : (unbroken course.tickPeriod loaded passed).machine.step.fault = none) :
    progressAt course loaded (passed + 1) =
      Progress.tickIfDue
        { machine := (unbroken course.tickPeriod loaded passed).machine.step.machine
          executed := passed + 1
          ticks := (unbroken course.tickPeriod loaded passed).ticks
          fault := none
          lines := (printed course loaded (passed + 1)).toArray }
        course.tickPeriod := by
  have next : (unbroken course.tickPeriod loaded passed).next course.tickPeriod = _ :=
    Stage.next_of_done unfaulted done
  rw [Machine.completed_of_unfaulted unfaulted] at next
  simp only [progressAt, unbroken, next, Progress.tickIfDue]
  split <;> rfl

theorem advance_of_done {course : Course} {passed : Nat}
    (unfaulted : (unbroken course.tickPeriod loaded passed).fault = none)
    (done : (unbroken course.tickPeriod loaded passed).machine.step.fault = none)
    (remaining : Nat) :
    advance course (remaining + 1) (progressAt course loaded passed) =
      if (progressAt course loaded (passed + 1)).machine.cpu.halted then
        progressAt course loaded (passed + 1)
      else advance course remaining (progressAt course loaded (passed + 1)) := by
  rw [progressAt_of_done unfaulted done, ← printed_succ]
  simp only [advance, progressAt, done, unfaulted, Machine.completed_of_unfaulted unfaulted]

theorem advance_eq (course : Course) (loaded : Machine) (remaining : Nat) :
    ∀ passed, (∀ cycle ≤ passed, ¬(unbroken course.tickPeriod loaded cycle).Over) →
      ∃ stop, EndsAt course.tickPeriod loaded (passed + remaining) stop ∧
        advance course remaining (progressAt course loaded passed) =
          progressAt course loaded stop := by
  -- The stages passed so far are all open; each cycle adds the next one or ends at it.
  induction remaining with
  | zero =>
    intro passed open_so_far
    refine ⟨passed, ⟨Nat.le_refl _, ?_, fun less => absurd less (Nat.lt_irrefl _)⟩, rfl⟩
    intro cycle less
    exact open_so_far cycle (Nat.le_of_lt less)
  | succ remaining ih =>
    intro passed open_so_far
    have unfaulted := Stage.unfaulted_of_open (open_so_far passed (Nat.le_refl _))
    -- If the next stage is over, it is the first one that is.
    have ends (ended : (unbroken course.tickPeriod loaded (passed + 1)).Over) :
        EndsAt course.tickPeriod loaded (passed + (remaining + 1)) (passed + 1) :=
      ⟨by omega, fun cycle less => open_so_far cycle (Nat.le_of_lt_succ less), fun _ => ended⟩
    cases faulted : (unbroken course.tickPeriod loaded passed).machine.step.fault with
    | some fault =>
      refine ⟨passed + 1, ends (.inr ?_), advance_of_fault unfaulted faulted remaining⟩
      rw [unbroken, Stage.next_of_fault unfaulted faulted]
      rfl
    | none =>
      rw [advance_of_done unfaulted faulted]
      by_cases halted : (progressAt course loaded (passed + 1)).machine.cpu.halted
      · rw [if_pos halted]
        exact ⟨passed + 1, ends (.inl halted), rfl⟩
      · rw [if_neg halted]
        have still_open : ∀ cycle ≤ passed + 1,
            ¬(unbroken course.tickPeriod loaded cycle).Over := by
          intro cycle inside
          rcases Nat.le_succ_iff.mp inside with earlier | rfl
          · exact open_so_far cycle earlier
          · rintro (raised | failed)
            · exact halted raised
            · rw [unbroken, Stage.fault_of_done unfaulted faulted] at failed
              cases failed
        obtain ⟨stop, ends, same⟩ := ih (passed + 1) still_open
        rw [Nat.succ_add_eq_add_succ] at ends
        exact ⟨stop, ends, same⟩

theorem run_eq (course : Course) (loaded : Machine) (unhalted : loaded.cpu.halted = false) :
    ∃ stop, EndsAt course.tickPeriod loaded course.cycles.toNat stop ∧
      run course loaded = progressAt course loaded stop := by
  have begun : ∀ cycle ≤ 0, ¬(unbroken course.tickPeriod loaded cycle).Over := by
    intro cycle start
    obtain rfl := Nat.le_zero.mp start
    simp [unbroken, Stage.Over, unhalted]
  have advanced := advance_eq course loaded course.cycles.toNat 0 begun
  rw [Nat.zero_add] at advanced
  exact advanced

/-! ### The report -/

/-- The line that ends a report after a fault. -/
def faultLines (fault : Option StackFault) : List String :=
  fault.elim [] fun fault => ["Stopped on fault: " ++ fault.message]

section
variable {directory : Directory} {options : Options} (progress : Progress)

theorem finish_of_ok {taken : Option (Screenshot Raster)} {about : List String}
    (shot : screenshot directory options progress.machine.screen = .ok (taken, about))
    (milliseconds : Nat) :
    finish directory options progress milliseconds =
      { lines := progress.lines.toList ++ about ++ [summary progress milliseconds] ++
          faultLines progress.fault
        status := if progress.fault.isSome then 1 else 0
        screenshot := taken } := by
  simp only [finish, shot]
  cases progress.fault <;> rfl

theorem finish_of_error {abort : Abort}
    (shot : screenshot directory options progress.machine.screen = .error abort)
    (milliseconds : Nat) :
    finish directory options progress milliseconds = aborted progress.lines.toList abort := by
  simp only [finish, shot]

end

/-- The progress of a run that ended at one stage, with machine and fault taken from another. -/
def retold (course : Course) (loaded : Machine) (stop limit : Nat) : Progress :=
  { progressAt course loaded stop with
    machine := (unbroken course.tickPeriod loaded limit).machine
    fault := (unbroken course.tickPeriod loaded limit).fault }

/-- A report shows nothing of a machine that ticks change. -/
theorem finish_retold {course : Course} {stop limit : Nat}
    (ticked : OnlyTicked (unbroken course.tickPeriod loaded stop)
      (unbroken course.tickPeriod loaded limit))
    (directory : Directory) (options : Options) (milliseconds : Nat) :
    finish directory options (retold course loaded stop limit) milliseconds =
      finish directory options (progressAt course loaded stop) milliseconds := by
  obtain ⟨delay, sound, machine⟩ := Machine.iterate_tick
    (unbroken course.tickPeriod loaded stop).machine
    ((unbroken course.tickPeriod loaded limit).ticks -
      (unbroken course.tickPeriod loaded stop).ticks)
  rw [retold, ticked.machine, machine, ticked.fault]
  rfl

section
variable {directory : Directory} {options : Options} {seed : Int} {course : Course}

theorem prepare_of_loaded {machine : Machine} (started : options.machine seed = .ok machine)
    (going : options.course = .ok course)
    (loaded : (machine.perform directory (.loadFile options.file)).failure = none) :
    prepare directory options seed =
      .ok (machine.perform directory (.loadFile options.file), course) := by
  unfold prepare
  rw [started, going]
  dsimp only [Except.mapError, bind, Except.bind]
  rw [loaded]
  rfl

theorem invoke_of_prepared {argv : List String} {loading : Machine.Response}
    (parsed : Options.parse argv = .ok options)
    (prepared : prepare directory options seed = .ok (loading, course)) (milliseconds : Nat) :
    invoke directory argv seed milliseconds =
      let rest := finish directory options (run course loading.machine) milliseconds
      { rest with lines := opening options loading ++ rest.lines } := by
  simp only [invoke, parsed, report, prepared]

end

/-- The command keeps to the run that goes on up to the first stage that has halted or failed. But
for the number of completed instructions, its report is about the whole of that run. -/
theorem early_end_loses_only_ticks {directory : Directory} {argv : List String}
    {options : Options} {dialect : Dialect} {cycles rate chosen : Int} {image : List UInt8}
    (seed : Int) (milliseconds : Nat)
    (parsed : Options.parse argv = .ok options) (speaks : options.dialect = some dialect)
    (cycles_given : options.cycles = some cycles)
    (rate_given : options.instructionsPerSecond = some rate)
    (seeded : options.seed.withDefault seed = some chosen)
    (found : directory.read options.file = .ok image)
    (fits : image.length ≤ Memory.imageCapacity) :
    let loading := (Machine.initial dialect chosen).perform directory (.loadFile options.file)
    let course : Course := ⟨cycles, rate, options.trace, options.debug⟩
    let period := (max 1 (rate / 60)).toNat
    let whole := unbroken period loading.machine cycles.toNat
    ∃ stop, EndsAt period loading.machine cycles.toNat stop ∧
      let ended := unbroken period loading.machine stop
      let lines := opening options loading ++ printed course loading.machine ended.completed
      OnlyTicked ended whole ∧
      run course loading.machine = progressAt course loading.machine stop ∧
      ended.completed = (if ended.fault.isSome then stop - 1 else stop) ∧
      (∀ taken about, screenshot directory options whole.machine.screen = .ok (taken, about) →
        invoke directory argv seed milliseconds =
          { lines := lines ++ about ++
              ["Headless run complete: cycles=" ++ toString ended.completed ++
                ", elapsed=" ++ secondsText milliseconds ++ "s" ++
                ", pc=0x" ++ Text.Hex.ofNat 3 whole.machine.cpu.pc.toNat ++
                ", lit=" ++ toString whole.machine.screen.litCount ++
                ", halted=" ++ Settings.truthText whole.machine.cpu.halted] ++
              faultLines whole.fault
            status := if whole.fault.isSome then 1 else 0
            screenshot := taken }) ∧
      ∀ abort, screenshot directory options whole.machine.screen = .error abort →
        invoke directory argv seed milliseconds = aborted lines abort := by
  intro loading course period whole
  have started : options.machine seed = .ok (.initial dialect chosen) := by
    simp only [Options.machine, speaks, seeded]
  have going : options.course = .ok course := by
    simp only [Options.course, cycles_given, rate_given, course]
  obtain ⟨loaded, machine_then⟩ := (Machine.initial dialect chosen).perform_loadFile found fits
  have unhalted : loading.machine.cpu.halted = false := by
    rw [machine_then]
    rfl
  obtain ⟨stop, ends, ran⟩ := run_eq course loading.machine unhalted
  have ticked := ends.onlyTicked unhalted
  -- What is told of the machine and its fault may be taken from the whole run.
  let reported := retold course loading.machine stop cycles.toNat
  have invoked : invoke directory argv seed milliseconds =
      let rest := finish directory options reported milliseconds
      { rest with lines := opening options loading ++ rest.lines } := by
    rw [invoke_of_prepared parsed (prepare_of_loaded started going loaded), ran,
      finish_retold ticked]
  refine ⟨stop, ends, ticked, ran, ends.completed, ?_, ?_⟩
  · intro taken about shot
    rw [invoked, finish_of_ok reported shot]
    simp only [List.append_assoc]
    rfl
  · intro abort shot
    rw [invoked, finish_of_error reported shot]
    rfl

/-- A program that jumps to itself at once. -/
def loopFiles : Directory := [("loop.ch8", [0x12, 0x00])]

def loopArguments : List String := ["loop.ch8", "--cycles", "5", "--ips", "600"]

def loopOptions : Options where
  file := "loop.ch8"
  dialect := some { jumpAddsNamed := true }
  cycles := some 5
  instructionsPerSecond := some 600
  seed := .absent
  screenshot := none
  scale := some 8
  trace := false
  debug := false

def loopLoaded : Machine :=
  ((Machine.initial { jumpAddsNamed := true } 0).perform loopFiles (.loadFile "loop.ch8")).machine

/-- Decided as an option, since errors are not compared. -/
theorem parse_of_accepted {argv : List String} {options : Options}
    (accepted : (Options.parse argv).toOption = some options) :
    Options.parse argv = .ok options := by
  cases parsed : Options.parse argv with
  | error refused => rw [parsed] at accepted; cases accepted
  | ok options => rw [parsed] at accepted; cases accepted; rfl

theorem parse_loopArguments : Options.parse loopArguments = .ok loopOptions :=
  parse_of_accepted (by decide +kernel)

theorem loopLoaded_eq :
    loopLoaded =
      { Machine.initial { jumpAddsNamed := true } 0 with
        memory := Memory.initial.overlay Memory.imageStart #[0x12, 0x00] } := by
  have found : loopFiles.read "loop.ch8" = .ok [0x12, 0x00] := by rfl
  exact (Machine.perform_loadFile _ found (by decide)).2

theorem loopLoaded_atSelfJump : loopLoaded.AtSelfJump := by
  have held : loopLoaded.memory = Memory.initial.overlay Memory.imageStart #[0x12, 0x00] := by
    rw [loopLoaded_eq]
  have word : loopLoaded.word = 0x1200 := by
    rw [Machine.word_of_overlay (by rw [loopLoaded_eq]; rfl) held (by decide) (by decide)]
    decide
  rw [Machine.AtSelfJump, word, loopLoaded_eq]
  decide

theorem unbroken_loopLoaded : unbroken 10 loopLoaded 1 = ⟨loopLoaded.settled, 1, 0, none⟩ := by
  obtain ⟨settled, done⟩ := Machine.step_of_atSelfJump loopLoaded_atSelfJump
  simp only [unbroken, Stage.next, settled, done]
  rfl

/-- Of five cycles only the first is made, and the command succeeds. -/
theorem loop_ends_after_one :
    EndsAt 10 loopLoaded 5 1 ∧
    (invoke loopFiles loopArguments 0 0).status = 0 := by
  have found : loopFiles.read loopOptions.file = .ok [0x12, 0x00] := by rfl
  obtain ⟨stop, ends, ticked, -, -, reports, -⟩ :=
    early_end_loses_only_ticks 0 0 parse_loopArguments rfl rfl rfl rfl found (by decide)
  have loaded : ((Machine.initial { jumpAddsNamed := true } 0).perform loopFiles
      (.loadFile loopOptions.file)).machine = loopLoaded := rfl
  have period : (max 1 (600 / 60 : Int)).toNat = 10 := rfl
  have limit : Int.toNat 5 = 5 := rfl
  rw [loaded, period, limit] at ends ticked
  simp only [loaded, period, limit] at reports
  have first := unbroken_loopLoaded
  -- The first stage is open and the second is not.
  have stops : stop = 1 := by
    have not_before : stop ≠ 0 := by
      rintro rfl
      rcases ends.ended (by decide) with halted | faulted
      · change loopLoaded.cpu.halted = true at halted
        rw [loopLoaded_eq] at halted
        cases halted
      · cases faulted
    have not_behind : ¬1 < stop := by
      intro behind
      exact ends.first 1 behind (.inl (by rw [first]; rfl))
    omega
  subst stops
  rw [first] at ticked
  have unfaulted : (unbroken 10 loopLoaded 5).fault = none := ticked.fault
  have shot (screen : Screen) : screenshot loopFiles loopOptions screen = .ok (none, []) := rfl
  refine ⟨ends, ?_⟩
  rw [reports none [] (shot _), unfaulted]
  rfl

end ChipEight.CommandLine.Runner
