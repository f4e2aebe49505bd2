import ChipEight.Proofs.DialectIndependence
import ChipEight.Proofs.InstanceStates
import ChipEight.Proofs.StackFaults

/-!
# Slots as plain runs

A slot is a loop of its own beside the run of a machine: it logs what it executes and keeps a stack
fault to itself. Main statement: both leave the same machine wherever a fault comes, the number that
a slot replies is that of the instructions that were completed, and the log and the state of the
instance agree with it.
-/
namespace ChipEight

namespace Machine

variable {machine : Machine}

/-- A run of some length completes some instructions, and fails at the next one if it has not yet
reached its length. -/
structure Completes (machine : Machine) (length count : Nat) : Prop where
  within : count ≤ length
  unfaulted : (run count machine).fault = none
  trace : completed (visited length machine) =
    (List.range count).map fun done => (run (done + 1) machine).machine.cpu.last
  ending : (count = length ∧ (run length machine).fault = none) ∨
    count < length ∧ ∃ fault,
      (run count machine).machine.step.fault = some fault ∧
      (run length machine).fault = some fault ∧
      (run length machine).machine = (run count machine).machine.step.machine

theorem completes_zero (machine : Machine) : machine.Completes 0 0 where
  within := Nat.le_refl 0
  unfaulted := rfl
  trace := rfl
  ending := .inl ⟨rfl, rfl⟩

theorem completes_of_fault {fault : StackFault} (faulted : machine.step.fault = some fault)
    (length : Nat) : machine.Completes (length + 1) 0 where
  within := Nat.zero_le _
  unfaulted := rfl
  trace := completed_visited_of_fault faulted length
  ending := by
    rw [run_succ_of_fault faulted]
    exact .inr ⟨Nat.succ_pos length, fault, faulted, faulted, rfl⟩

theorem Completes.succ {length count : Nat} (done : machine.step.fault = none)
    (rest : machine.step.machine.Completes length count) :
    machine.Completes (length + 1) (count + 1) where
  within := Nat.succ_le_succ rest.within
  unfaulted := by rw [(run_succ done count).2, rest.unfaulted]
  trace := by
    have first : (run 1 machine).machine.cpu.last = machine.standing := by
      rw [(run_succ done 0).1]
      exact machine.step_last
    -- The first entry is that of the first step, and the others are those of the rest, one later.
    rw [completed_visited_of_done done, rest.trace, List.range_succ_eq_map, List.map_cons, first,
      List.map_map]
    refine List.cons_eq_cons.mpr ⟨rfl, List.map_congr_left ?_⟩
    intro before _
    rw [Function.comp_apply, ← (run_succ done (before + 1)).1]
  ending := by
    rw [(run_succ done length).1, (run_succ done length).2, (run_succ done count).1]
    rcases rest.ending with ⟨all, unfaulted⟩ | ⟨less, failed⟩
    · exact .inl ⟨congrArg Nat.succ all, unfaulted⟩
    · exact .inr ⟨Nat.succ_lt_succ less, failed⟩

theorem exists_completes (length : Nat) (machine : Machine) :
    ∃ count, machine.Completes length count := by
  induction length generalizing machine with
  | zero => exact ⟨0, machine.completes_zero⟩
  | succ length ih =>
    cases faulted : machine.step.fault with
    | some fault => exact ⟨0, completes_of_fault faulted length⟩
    | none =>
      obtain ⟨count, rest⟩ := ih machine.step.machine
      exact ⟨count + 1, rest.succ faulted⟩

theorem run_dialect (count : Nat) (machine : Machine) :
    (run count machine).machine.dialect = machine.dialect :=
  run_keeps (·.dialect = machine.dialect)
    (fun before same => before.step_dialect.trans same) count rfl

end Machine

namespace Instance

variable {current : Instance}

theorem stop_state (current : Instance) :
    current.stop.state = if current.state = .running then .loaded else current.state := by
  unfold stop
  split <;> rfl

theorem stop_state_of_occupied (occupied : current.state ≠ .empty) :
    current.stop.state = .loaded := by
  rw [stop_state]
  cases state : current.state with
  | empty => exact absurd state occupied
  | loaded => rfl
  | running => rfl

theorem runSlot_of_unfaulted {length : Nat}
    (unfaulted : (Machine.run length current.machine).fault = none) :
    (runSlot length current).inst.state = current.state ∧
    (runSlot length current).inst.fault = current.fault := by
  induction length generalizing current with
  | zero => exact ⟨rfl, rfl⟩
  | succ length ih =>
    cases faulted : current.machine.step.fault with
    | some fault =>
      rw [Machine.run_succ_of_fault faulted, faulted] at unfaulted
      cases unfaulted
    | none =>
      rw [(Machine.run_succ faulted length).2] at unfaulted
      simp only [runSlot, faulted]
      exact ih unfaulted

theorem runSlot_of_fault {length : Nat} {fault : StackFault}
    (failed : (Machine.run length current.machine).fault = some fault) :
    (runSlot length current).inst.state = current.stop.state ∧
    (runSlot length current).inst.fault = some fault := by
  induction length generalizing current with
  | zero => cases failed
  | succ length ih =>
    cases faulted : current.machine.step.fault with
    | some first =>
      rw [Machine.run_succ_of_fault faulted, faulted] at failed
      cases failed
      simp only [runSlot, faulted]
      exact ⟨by rw [stop_state, stop_state], stop_fault _⟩
    | none =>
      rw [(Machine.run_succ faulted length).2] at failed
      obtain ⟨state, kept⟩ := @ih { current with
        machine := current.machine.step.machine
        log := remember current.log current.machine.step.machine.cpu.last } failed
      simp only [runSlot, faulted]
      constructor
      · -- Stopping after the steps looks at the same state as before them.
        rw [state, stop_state, stop_state]
      · exact kept

/-- Nothing of a short log is lost before all that comes after it. -/
theorem runSlot_logLines {count : Nat} (short : current.log.size ≤ Settings.logCapacity)
    (done : current.machine.Completes current.slotLength count) :
    (runSlot current.slotLength current).inst.logLines =
      (current.logLines ++ (List.range count).map fun before =>
        (Machine.run (before + 1) current.machine).machine.instructionText).rtake 1000 := by
  have shown : current.log.toList = fitting current.log.toList := by
    rw [fitting_of_short]
    rwa [Array.length_toList]
  have texts : (List.range count).map
        (fun before => (Machine.run (before + 1) current.machine).machine.instructionText) =
      ((List.range count).map fun before =>
        (Machine.run (before + 1) current.machine).machine.cpu.last).map fun entry =>
          Listing.instruction current.machine.dialect entry.word.toNat entry.address.toNat := by
    rw [List.map_map]
    apply List.map_congr_left
    intro before _
    rw [Machine.instructionText, Machine.run_dialect]
    rfl
  rw [logLines, logLines, runSlot_log current.slotLength shown, runSlot_machine,
    Machine.run_dialect, done.trace, texts, ← List.map_append, fitting, List.rtake, List.rtake,
    List.map_drop, List.length_map]
  rfl

/-- A call made a slot in which some instructions were completed. -/
structure MakesSlot (start : Instance) (response : Response) (count : Nat) : Prop where
  contained : response.failure = none
  replied : response.reply = .executed count
  machine_eq :
    response.inst.machine = (Machine.run start.slotLength start.machine).machine
  within : count ≤ start.slotLength
  unfaulted : (Machine.run count start.machine).fault = none
  /-- One line for each of them, of which the log has room for the last thousand. -/
  logged : response.inst.logLines =
    (start.logLines ++ (List.range count).map fun before =>
      (Machine.run (before + 1) start.machine).machine.instructionText).rtake 1000
  whole : count = start.slotLength →
    response.inst.state = start.state ∧ response.inst.fault = start.fault
  cut_short : count < start.slotLength → ∃ fault,
    (Machine.run count start.machine).machine.step.fault = some fault ∧
    response.inst.fault = some fault ∧ response.inst.machine.cpu.pc = fault.address ∧
    response.inst.state = .loaded

/-- The time of the last slot is set by some calls and not by others. -/
theorem exists_makesSlot (occupied : current.state ≠ .empty)
    (short : current.log.size ≤ Settings.logCapacity) (lastSlot : Float) :
    let slot := runSlot current.slotLength current
    ∃ count,
      current.MakesSlot
        (Progress.response { slot with inst := { slot.inst with lastSlot } }) count := by
  intro slot
  obtain ⟨count, done⟩ := Machine.exists_completes current.slotLength current.machine
  have executed : slot.executed = count := by
    rw [runSlot_executed, done.trace, List.length_map, List.length_range]
  refine ⟨count, rfl, congrArg Reply.executed executed, runSlot_machine _ current, done.within,
    done.unfaulted, runSlot_logLines short done, ?_, ?_⟩
  · intro all
    rcases done.ending with ⟨-, unfaulted⟩ | ⟨less, -⟩
    · exact runSlot_of_unfaulted unfaulted
    · exact absurd all less.ne
  · intro less
    rcases done.ending with ⟨all, -⟩ | ⟨-, fault, next, failed, same⟩
    · exact absurd all less.ne
    · obtain ⟨state, kept⟩ := runSlot_of_fault failed
      refine ⟨fault, next, kept, ?_, state.trans (stop_state_of_occupied occupied)⟩
      -- The failed step leaves the counter where it was, which the fault names.
      have last : slot.inst.machine = _ := runSlot_machine current.slotLength current
      rw [same, Machine.step_faulted next] at last
      change slot.inst.machine.cpu.pc = fault.address
      rw [last, Machine.address_of_step_fault next]
      rfl

theorem log_size_answerAll (id : Nat) (dialect : Dialect) (seed : Int) (clock : Float)
    (calls : List Call) :
    ((create id dialect seed clock).answerAll calls).log.size ≤ Settings.logCapacity := by
  have fresh : LogExact (create id dialect seed clock).log 0 [] := logExact_empty
  have exact := fresh.answerAll calls
  rw [← Array.length_toList, exact.shown, length_fitting]
  exact Nat.min_le_left _ _

/-- Whatever instances go through, a slot does to the machine what a run of its length does, in a
step that is asked for and in a call of `run` that is due, which ticks first. -/
theorem slots_are_plain_runs (id : Nat) (dialect : Dialect) (seed : Int) (made : Float)
    (calls : List Call) :
    let current := (create id dialect seed made).answerAll calls
    current.state ≠ .empty → ∀ (directory : Directory) (clock : Float),
      (∃ count, current.MakesSlot (current.respond ⟨directory, clock, .step⟩) count) ∧
      ∀ now : Option Amount,
        let time := now.elim clock Amount.toFloat
        current.state = .running → current.slotsPerSecond ≠ 0 →
        due time current.lastSlot (1.0 / Float.ofNat current.slotsPerSecond) →
        ∃ count,
          (current.tickIfDue time).MakesSlot (current.respond ⟨directory, clock, .run now⟩)
            count := by
  intro current occupied directory clock
  have short : current.log.size ≤ Settings.logCapacity :=
    log_size_answerAll id dialect seed made calls
  constructor
  · -- A step does not set the time of the last slot.
    have made := exists_makesSlot occupied short (runSlot current.slotLength current).inst.lastSlot
    simp only [respond, answer, step, if_neg occupied]
    exact made
  · intro now time running speed begun
    obtain ⟨machine, lastTick, ticked, -⟩ := current.tickIfDue_eq time
    -- The slot starts from the machine after the tick.
    have made := @exists_makesSlot { current with machine, lastTick } occupied short time
    change ∃ count, (current.tickIfDue time).MakesSlot (current.run time).response count
    rw [run, if_pos ⟨running, speed⟩, ticked, slotIfDue, if_pos begun]
    exact made

theorem MakesSlot.none_of_fault {start : Instance} {response : Response} {count : Nat}
    {fault : StackFault} (slot : start.MakesSlot response count)
    (faulted : start.machine.step.fault = some fault) (positive : 0 < start.slotLength) :
    response.reply = .executed 0 ∧ response.inst.state = .loaded ∧
    response.inst.fault = some fault := by
  cases count with
  | zero =>
    obtain ⟨found, failed, kept, -, state⟩ := slot.cut_short positive
    obtain rfl : fault = found := Option.some.inj (faulted.symm.trans failed)
    exact ⟨slot.replied, state, kept⟩
  | succ count =>
    have unfaulted := slot.unfaulted
    rw [Machine.run_succ_of_fault faulted, faulted] at unfaulted
    cases unfaulted

theorem answerAll_pair (current : Instance) (first second : Call) :
    current.answerAll [first, second] =
      ((current.respond first).inst.respond second).inst :=
  rfl

/-- A return with no call open stops the instance at once, whether it is stepped or runs. -/
theorem lone_return_makes_empty_slots :
    let current := (create 0 {} 0 0).answerAll
      [⟨[], 0, .load [0x00, 0xEE]⟩, ⟨[], 0, .start⟩]
    let stepped := current.respond ⟨[], 1, .step⟩
    let ran := current.respond ⟨[], 1, .run none⟩
    current.state = .running ∧ current.slotsPerSecond ≠ 0 ∧
    due 1 current.lastSlot (1.0 / Float.ofNat current.slotsPerSecond) ∧
    (stepped.reply = .executed 0 ∧ stepped.inst.state = .loaded ∧
      stepped.inst.fault = some ⟨.underflow, 0x200⟩) ∧
    ran.reply = .executed 0 ∧ ran.inst.state = .loaded ∧
    ran.inst.fault = some ⟨.underflow, 0x200⟩ := by
  have slots := slots_are_plain_runs 0 {} 0 0 [⟨[], 0, .load [0x00, 0xEE]⟩, ⟨[], 0, .start⟩]
  have started := (create 0 {} 0 0).answerAll_pair
    ⟨[], 0, .load [0x00, 0xEE]⟩ ⟨[], 0, .start⟩
  obtain ⟨loaded, load⟩ :
    ∃ loaded, ((create 0 {} 0 0).respond ⟨[], 0, .load [0x00, 0xEE]⟩).inst = loaded := ⟨_, rfl⟩
  have fits : ([0x00, 0xEE] : List UInt8).length ≤ Memory.imageCapacity := by decide
  have replaced := ((create 0 {} 0 0).respond_load fits [] 0).2
  rw [load] at replaced
  have occupied : loaded.state ≠ .empty := by
    rw [replaced]
    exact State.noConfusion
  rw [load, respond_start_of_occupied occupied] at started
  -- The instance after the calls is left open, so that nothing has to answer them.
  generalize (create 0 {} 0 0).answerAll _ = current at started slots ⊢
  dsimp only at started slots ⊢
  have running : current.state = .running := by rw [started]
  have speed : current.slotsPerSecond = 60 := by
    rw [started, replaced]
    rfl
  have length : current.slotLength = 10 := by
    rw [started, replaced]
    rfl
  have begun : due 1 current.lastSlot (1.0 / Float.ofNat current.slotsPerSecond) := by
    have slot : current.lastSlot = 0 := by rw [started]
    rw [speed, slot]
    decide +kernel
  have faulted : current.machine.step.fault = some ⟨.underflow, 0x200⟩ := by
    have held : current.machine.memory =
        (create 0 {} 0 0).machine.memory.clearImage.overlay Memory.imageStart #[0x00, 0xEE] := by
      rw [started, replaced]
      rfl
    have begins : current.machine.cpu.pc = 0x200 := by
      rw [started, replaced]
      rfl
    have stack : current.machine.cpu.stack.depth.val = 0 := by
      rw [started, replaced]
      rfl
    have returns : current.machine.upcoming = .ret := by
      rw [Machine.upcoming_eq_ret_iff, Machine.word_of_overlay begins held (by decide) (by decide)]
      decide
    rw [Machine.step_fault, returns, stack, begins]
    rfl
  obtain ⟨⟨count, step⟩, due_run⟩ := slots (by rw [running]; decide) [] 1
  obtain ⟨later, run⟩ := due_run none running (by rw [speed]; decide) begun
  refine ⟨running, by rw [speed]; decide, begun,
    step.none_of_fault faulted (by rw [length]; decide), ?_⟩
  obtain ⟨machine, lastTick, ticked, same⟩ := current.tickIfDue_eq 1
  rw [Option.elim_none, ticked] at run
  refine run.none_of_fault ?_ (by rw [length]; decide)
  rcases same with rfl | rfl
  · exact faulted
  · exact (Machine.agrees_timers current.machine _ _).step_fault.trans faulted

end Instance
end ChipEight
