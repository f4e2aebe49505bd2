import Mathlib.Data.List.Forall2
import ChipEight.Proofs.DialectIndependence

/-!
# Who reads the timers

One instruction hands the delay timer to a program, and none the sound timer. A run that does not
come to that instruction cannot tell how often the timers were ticked: with ticks put in or left out
it executes the same words, fails at the same actions and leaves the same machines but for timers.
-/
namespace ChipEight

/-- The word copies the delay timer into a register. -/
def Word.ReadsDelay (word : Word) : Prop := word.family.val = 0xF ∧ word.nn = 0x07

instance (word : Word) : Decidable word.ReadsDelay := inferInstanceAs (Decidable (_ ∧ _))

def Processor.withTimers (cpu : Processor) (delay sound : UInt8) : Processor :=
  { cpu with delay, sound }

theorem Processor.skipIf_withTimers (cpu : Processor) (delay sound : UInt8) (condition : Bool) :
    (cpu.withTimers delay sound).skipIf condition =
      (cpu.skipIf condition).withTimers delay sound := by
  cases condition <;> rfl

namespace Machine

def withTimers (machine : Machine) (delay sound : UInt8) : Machine :=
  { machine with cpu := machine.cpu.withTimers delay sound }

def Outcome.withTimers (outcome : Outcome) (delay sound : UInt8) : Outcome :=
  { outcome with machine := outcome.machine.withTimers delay sound }

def Response.withTimers (response : Response) (delay sound : UInt8) : Response :=
  { response with machine := response.machine.withTimers delay sound }

end Machine

/-- Three operations deal with timers, of which one copies a timer somewhere else. -/
theorem Operation.execute_withTimers {operation : Operation} (unread : operation ≠ .readDelay)
    (word : Word) (machine : Machine) (delay sound : UInt8) :
    ∃ nextDelay nextSound,
      operation.execute word (machine.withTimers delay sound) =
        (operation.execute word machine).map (·.withTimers nextDelay nextSound) := by
  cases operation with
  | readDelay => exact absurd rfl unread
  | setDelay => exact ⟨machine.cpu.get word.x, sound, rfl⟩
  | setSound => exact ⟨delay, machine.cpu.get word.x, rfl⟩
  | ret | call | awaitKey =>
    refine ⟨delay, sound, ?_⟩
    simp only [execute, Machine.withTimers, Processor.withTimers]
    split <;> rfl
  | skipByte _ | skipRegister _ | skipKey _ =>
    refine ⟨delay, sound, ?_⟩
    simp only [execute, Machine.withTimers, Except.map, Processor.skipIf_withTimers]
    rfl
  | logic op clearsFlag => cases clearsFlag <;> exact ⟨delay, sound, rfl⟩
  | _ => exact ⟨delay, sound, rfl⟩

namespace Machine

variable {machine : Machine}

theorem upcoming_ne_readDelay (unread : ¬machine.word.ReadsDelay) :
    machine.upcoming ≠ .readDelay := by
  rw [ne_eq, upcoming_eq_readDelay_iff]
  exact unread

theorem step_withTimers (unread : ¬machine.word.ReadsDelay) (delay sound : UInt8) :
    ∃ nextDelay nextSound,
      (machine.withTimers delay sound).step = machine.step.withTimers nextDelay nextSound := by
  obtain ⟨nextDelay, nextSound, executed⟩ := Operation.execute_withTimers
    (upcoming_ne_readDelay unread) machine.word machine.fetch delay sound
  have executed : (machine.withTimers delay sound).upcoming.execute
      (machine.withTimers delay sound).word (machine.withTimers delay sound).fetch = _ := executed
  have notes : (machine.withTimers delay sound).upcoming.notes
      (machine.withTimers delay sound).word (machine.withTimers delay sound).fetch.cpu =
        machine.upcoming.notes machine.word machine.fetch.cpu := by
    change machine.upcoming.notes machine.word _ = _
    cases machine.upcoming <;> rfl
  rw [step_eq, step_eq, executed, notes]
  cases machine.upcoming.execute machine.word machine.fetch with
  | ok next => exact ⟨nextDelay, nextSound, rfl⟩
  | error fault => exact ⟨delay, sound, rfl⟩

/-- The same words are executed, and the outcomes differ in timers alone. -/
theorem run_withTimers (count : Nat)
    (unread : ∀ word ∈ executedInRun count machine, ¬word.ReadsDelay) (delay sound : UInt8) :
    executedInRun count (machine.withTimers delay sound) = executedInRun count machine ∧
      ∃ nextDelay nextSound,
        run count (machine.withTimers delay sound) =
          (run count machine).withTimers nextDelay nextSound := by
  -- The timers are left open, as each step may set them anew.
  induction count generalizing machine delay sound with
  | zero => exact ⟨rfl, delay, sound, rfl⟩
  | succ count ih =>
    rw [executedInRun, List.forall_mem_cons] at unread
    obtain ⟨unread, later⟩ := unread
    obtain ⟨stepDelay, stepSound, stepped⟩ := step_withTimers unread delay sound
    simp only [executedInRun, run, stepped, Outcome.withTimers]
    cases faulted : machine.step.fault with
    | some fault =>
      refine ⟨rfl, stepDelay, stepSound, ?_⟩
      simp only [faulted]
    | none =>
      rw [if_pos faulted] at later
      obtain ⟨words, nextDelay, nextSound, ran⟩ := ih later stepDelay stepSound
      refine ⟨by rw [words]; rfl, nextDelay, nextSound, ?_⟩
      simp only [ran, Outcome.withTimers]

/-- The memory is left open, so that nothing has to look into it. -/
theorem loaded_withTimers (machine : Machine) (memory : Memory) (notes : List Diagnostic)
    (delay sound : UInt8) :
    (⟨{ machine.withTimers delay sound with memory }, none, notes⟩ : Response) =
      (⟨{ machine with memory }, none, notes⟩ : Response).withTimers delay sound :=
  rfl

theorem loading_withTimers (machine : Machine) (image : List UInt8) (after : List Diagnostic)
    (delay sound : UInt8) :
    (machine.withTimers delay sound).loading image after =
      (machine.loading image after).withTimers delay sound := by
  rw [loading_eq, loading_eq]
  split
  · exact loaded_withTimers machine _ _ delay sound
  · rfl

theorem perform_withTimers (directory : Directory) (action : Action)
    (unread : ∀ word ∈ machine.executed action, ¬word.ReadsDelay) (delay sound : UInt8) :
    (machine.withTimers delay sound).executed action = machine.executed action ∧
      ∃ nextDelay nextSound,
        (machine.withTimers delay sound).perform directory action =
          (machine.perform directory action).withTimers nextDelay nextSound := by
  cases action with
  | load image => exact ⟨rfl, delay, sound, machine.loading_withTimers image [] delay sound⟩
  | loadFile name =>
    refine ⟨rfl, delay, sound, ?_⟩
    simp only [perform]
    split
    · exact machine.loading_withTimers _ _ delay sound
    · rfl
  | unload | reset =>
    -- The timers are zero afterwards, whatever they were.
    exact ⟨rfl, 0, 0, rfl⟩
  | step =>
    obtain ⟨nextDelay, nextSound, stepped⟩ :=
      step_withTimers (unread machine.word List.mem_cons_self) delay sound
    refine ⟨rfl, nextDelay, nextSound, ?_⟩
    simp only [perform, stepped]
    rfl
  | run count =>
    obtain ⟨words, nextDelay, nextSound, ran⟩ := run_withTimers count unread delay sound
    refine ⟨words, nextDelay, nextSound, ?_⟩
    simp only [perform, ran]
    rfl
  | tick => exact ⟨rfl, _, _, rfl⟩
  | setKeys _ | holdKey _ _ | setRedraw _ => exact ⟨rfl, delay, sound, rfl⟩

/-! ### Ticks put in and left out -/

/-- The answers to all actions that are no ticks. -/
def answersBetweenTicks (directory : Directory) : Machine → List Action → List Response
  | _, [] => []
  | machine, action :: actions =>
    let response := machine.perform directory action
    let later := answersBetweenTicks directory response.machine actions
    if action.isTick then later else response :: later

theorem Action.eq_tick {action : Action} (ticks : action.isTick = true) : action = .tick := by
  cases action with
  | tick => rfl
  | _ => cases ticks

theorem withTimers_withTimers (machine : Machine) (delay sound laterDelay laterSound : UInt8) :
    (machine.withTimers delay sound).withTimers laterDelay laterSound =
      machine.withTimers laterDelay laterSound :=
  rfl

/-- Ticks at the beginning leave nothing but other timers to the rest of the actions. -/
theorem skip_ticks (directory : Directory) {ticks : List Action}
    (all : ∀ action ∈ ticks, action.isTick = true) (machine : Machine) :
    ∃ delay sound, ∀ actions,
      executedInAll directory machine (ticks ++ actions) =
        executedInAll directory (machine.withTimers delay sound) actions ∧
      answersBetweenTicks directory machine (ticks ++ actions) =
        answersBetweenTicks directory (machine.withTimers delay sound) actions := by
  induction ticks generalizing machine with
  | nil => exact ⟨machine.cpu.delay, machine.cpu.sound, fun _ => ⟨rfl, rfl⟩⟩
  | cons action ticks ih =>
    rw [List.forall_mem_cons] at all
    obtain rfl := Action.eq_tick all.1
    obtain ⟨delay, sound, rest⟩ := ih all.2 machine.tick
    exact ⟨delay, sound, rest⟩

/-- Two runs with the same actions between their ticks, of which the first reads no timer, execute
the same words and get the same answers but for timers. -/
theorem runs_apart_from_ticks (directory : Directory) {first second : List Action}
    (same : first.filter (!·.isTick) = second.filter (!·.isTick))
    (unread : ∀ word ∈ executedInAll directory machine first, ¬word.ReadsDelay)
    (delay sound : UInt8) :
    executedInAll directory (machine.withTimers delay sound) second =
        executedInAll directory machine first ∧
      List.Forall₂ (fun ours theirs => ∃ delay sound, theirs = ours.withTimers delay sound)
        (answersBetweenTicks directory machine first)
        (answersBetweenTicks directory (machine.withTimers delay sound) second) := by
  induction first generalizing machine second delay sound with
  | nil =>
    -- Nothing but ticks is left of the second run.
    have ticks : ∀ action ∈ second, action.isTick = true := by
      simpa using same.symm
    obtain ⟨_, _, rest⟩ := skip_ticks directory ticks (machine.withTimers delay sound)
    have ended := rest []
    rw [List.append_nil] at ended
    rw [ended.1, ended.2]
    exact ⟨rfl, .nil⟩
  | cons action first ih =>
    by_cases ticks : action.isTick = true
    · -- A tick of the first run alone: the second has the same machine but for timers.
      obtain rfl := Action.eq_tick ticks
      exact ih same unread delay sound
    · rw [List.filter_cons_of_pos (by simp [ticks])] at same
      obtain ⟨skipped, later, rfl, skipped_ticks, -, rest⟩ :=
        List.filter_eq_cons_iff.mp same.symm
      have skipped_ticks : ∀ action ∈ skipped, action.isTick = true := by
        simpa using skipped_ticks
      -- The second run may have ticks of its own before it comes to this action.
      obtain ⟨delay, sound, skip⟩ :=
        skip_ticks directory skipped_ticks (machine.withTimers delay sound)
      rw [executedInAll, List.forall_mem_append] at unread
      obtain ⟨words, nextDelay, nextSound, performed⟩ :=
        perform_withTimers directory action unread.1 delay sound
      obtain ⟨later_words, later_answers⟩ := ih rest.symm unread.2 nextDelay nextSound
      rw [(skip _).1, (skip _).2, withTimers_withTimers, executedInAll, executedInAll, words,
        answersBetweenTicks, answersBetweenTicks, performed, if_neg ticks, if_neg ticks]
      exact ⟨congrArg _ later_words, .cons ⟨nextDelay, nextSound, rfl⟩ later_answers⟩

end Machine
end ChipEight
