import ChipEight.Proofs.SelfJumps

/-!
# The halt hint of an instance

The hint of an instance tells exactly whether one of the instructions executed since the last reset
or the last program was a jump to itself. Main statement: the hint is exact, and where it is raised
the host can step, tick and move keys without any change to what the program computes with.
-/
namespace ChipEight.Instance

structure HintExact (machine : Machine) (passed : List Machine) : Prop where
  raised : machine.cpu.halted = true ↔ ∃ earlier ∈ passed, earlier.AtSelfJump
  here : machine.HaltsHere

variable {machine later : Machine} {passed : List Machine}

theorem hintExact_of_lowered (lowered : machine.cpu.halted = false) : HintExact machine [] where
  raised := by simp [lowered]
  here raised := by simp [lowered] at raised

theorem HintExact.agrees (exact : HintExact machine passed) (same : Machine.Agrees later machine)
    (halted : later.cpu.halted = machine.cpu.halted) : HintExact later passed where
  raised := by rw [halted, exact.raised]
  here := exact.here.agrees same halted

theorem HintExact.run (exact : HintExact machine passed) (count : Nat) :
    HintExact (Machine.run count machine).machine (passed ++ machine.visited count) where
  raised := by
    rw [Machine.run_halted_iff, exact.raised]
    simp only [List.mem_append, or_and_right, exists_or]
  here := exact.here.run count

theorem HintExact.tickIfDue {current : Instance} (exact : HintExact current.machine passed)
    (now : Float) : HintExact (current.tickIfDue now).machine passed := by
  obtain ⟨machine, lastTick, ticked, same | same⟩ := current.tickIfDue_eq now
  · rw [ticked, same]
    exact exact
  · rw [ticked, same]
    exact exact.agrees (Machine.agrees_timers current.machine _ _) rfl

theorem HintExact.loading {current : Instance} (exact : HintExact current.machine passed)
    (image : List UInt8) (after : List Diagnostic) :
    HintExact (current.loading image after).inst.machine
      (if (current.loading image after).failure = none then [] else passed) := by
  rw [loading_eq]
  split
  · exact hintExact_of_lowered rfl
  · exact exact

theorem HintExact.step {current : Instance} (exact : HintExact current.machine passed)
    (directory : Directory) (clock : Float) :
    HintExact current.step.inst.machine
      (passed ++ current.visited ⟨directory, clock, .step⟩) := by
  rw [step_machine]
  dsimp only [visited]
  split
  · rwa [List.append_nil]
  · exact exact.run current.slotLength

theorem HintExact.runAt {current : Instance} (exact : HintExact current.machine passed)
    (directory : Directory) (clock : Float) (now : Option Amount) :
    HintExact (current.run (now.elim clock Amount.toFloat)).inst.machine
      (passed ++ current.visited ⟨directory, clock, .run now⟩) := by
  rw [run_machine]
  dsimp only [visited]
  by_cases runs : current.state = .running ∧ current.slotsPerSecond ≠ 0
  · have ticked := exact.tickIfDue (now.elim clock Amount.toFloat)
    rw [if_pos runs]
    split
    next slot =>
      rw [if_pos ⟨runs.1, runs.2, slot⟩]
      exact ticked.run current.slotLength
    next early =>
      rw [if_neg (fun slot => early slot.2.2), List.append_nil]
      exact ticked
  · rw [if_neg runs, if_neg (fun slot => runs ⟨slot.1, slot.2.1⟩), List.append_nil]
    exact exact

theorem HintExact.respond_of_calm {current : Instance} (exact : HintExact current.machine passed)
    {call : Call} (calm : call.request.Calm) :
    HintExact (current.respond call).inst.machine (current.visitedSince passed call) := by
  obtain ⟨keys, responded⟩ := current.respond_machine_of_calm calm
  rw [visitedSince_of_calm calm, responded]
  exact exact.agrees (Machine.agrees_keys current.machine keys) rfl

theorem HintExact.respond {current : Instance} (exact : HintExact current.machine passed)
    (call : Call) :
    HintExact (current.respond call).inst.machine (current.visitedSince passed call) := by
  obtain ⟨directory, clock, request⟩ := call
  cases request with
  | load image => exact exact.loading image []
  | loadFile name =>
    dsimp only [visitedSince]
    cases read : directory.read name with
    | ok image =>
      rw [respond_loadFile_of_ok current read]
      exact exact.loading image _
    | error error =>
      rw [respond_loadFile_of_error current read]
      exact exact
  | reset => exact hintExact_of_lowered rfl
  | resetAndStop =>
    change HintExact current.reset.stop.machine []
    rw [stop_machine]
    exact hintExact_of_lowered rfl
  | step => exact exact.step directory clock
  | run now => exact exact.runAt directory clock now
  | start | stop | setSpeed _ _ | enableInput _ | setKeys _ => exact exact.respond_of_calm trivial

theorem HintExact.answerAll {current : Instance} (exact : HintExact current.machine passed)
    (calls : List Call) :
    HintExact (current.answerAll calls).machine (current.visitedSinceAll passed calls) := by
  induction calls generalizing current passed with
  | nil => exact exact
  | cons call calls ih => exact ih (exact.respond call)

/-- The hint tells whether an instruction executed since the last reset or program was a jump to
itself. Once it is raised the machine stands at such a jump, and however often the host then steps
it, ticks its timers and moves its keys, nothing fails and nothing moves. -/
theorem halt_hint_is_exact_and_lasting (id : Nat) (dialect : Dialect) (seed : Int) (clock : Float)
    (calls : List Call) (directory : Directory) :
    let fresh := create id dialect seed clock
    let machine := (fresh.answerAll calls).machine
    (machine.cpu.halted = true ↔
      ∃ earlier ∈ fresh.visitedSinceAll [] calls, earlier.AtSelfJump) ∧
    (machine.cpu.halted = true →
      machine.AtSelfJump ∧
      ∀ actions : List Machine.Action, (∀ action ∈ actions, action.Idle) →
        ∀ response ∈ machine.responses directory actions,
          response.failure = none ∧ Machine.Rests response.machine machine) := by
  intro fresh machine
  have exact : HintExact machine (fresh.visitedSinceAll [] calls) :=
    (hintExact_of_lowered rfl : HintExact fresh.machine []).answerAll calls
  refine ⟨exact.raised, ?_⟩
  intro halted
  have here := exact.here halted
  refine ⟨here, ?_⟩
  intro actions idle
  exact Machine.Rests.responses ⟨Machine.Agrees.refl machine, rfl⟩ here directory actions idle

/-- The calls that load an offset jump to `0x200`, where it stands itself, and run it ten times. -/
def jumpInPlace : List Call :=
  [⟨[], 0, .load [0xB2, 0x00]⟩, ⟨[], 0, .step⟩]

theorem jumpInPlace_halts :
    let machine := ((create 0 {} 0 0).answerAll jumpInPlace).machine
    machine.cpu.halted = true ∧ machine.AtSelfJump ∧
    ∀ response ∈ machine.responses [] [.tick, .setKeys [true], .step],
      response.failure = none ∧ Machine.Rests response.machine machine := by
  obtain ⟨exact, lasting⟩ := halt_hint_is_exact_and_lasting 0 {} 0 0 jumpInPlace []
  have loaded := (create 0 {} 0 0).loading_eq [0xB2, 0x00] []
  rw [if_pos (by decide)] at loaded
  have word : ((create 0 {} 0 0).loading [0xB2, 0x00] []).inst.machine.word = 0xB200 := by
    have held : ((create 0 {} 0 0).loading [0xB2, 0x00] []).inst.machine.memory =
        (create 0 {} 0 0).machine.unload.memory.overlay Memory.imageStart #[0xB2, 0x00] := by
      rw [loaded]
    rw [Machine.word_of_overlay (by rw [loaded]; rfl) held (by decide) (by decide)]
    decide
  have here : ((create 0 {} 0 0).loading [0xB2, 0x00] []).inst.machine.AtSelfJump := by
    rw [Machine.AtSelfJump, word, loaded]
    decide
  have first : ((create 0 {} 0 0).loading [0xB2, 0x00] []).inst.machine ∈
      (create 0 {} 0 0).visitedSinceAll [] jumpInPlace := by
    simp only [jumpInPlace, visitedSinceAll, visitedSince, visited, respond, answer, ite_self,
      List.nil_append, loaded, reduceCtorEq, if_false]
    exact Machine.mem_visited (by decide) _
  have halted := exact.mpr ⟨_, first, here⟩
  obtain ⟨stands, rests⟩ := lasting halted
  exact ⟨halted, stands, rests _ (by simp [Machine.Action.Idle])⟩

end ChipEight.Instance
