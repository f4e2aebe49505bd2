import ChipEight.Instance.Host
import ChipEight.Proofs.Step

/-!
# What a request does to an instance

The machine of an instance is moved by host operations alone: a slot is a run, and a program is
loaded into a machine that was unloaded just before. The number of an instance never changes.
-/
namespace ChipEight.Instance

theorem runSlot_machine (length : Nat) (current : Instance) :
    (runSlot length current).inst.machine = (Machine.run length current.machine).machine := by
  induction length generalizing current with
  | zero => rfl
  | succ length ih =>
    unfold runSlot
    dsimp only
    cases faulted : current.machine.step.fault with
    | some fault =>
      -- The slot ends with the failed step; stopping leaves the machine alone.
      rw [Machine.run_succ_of_fault faulted]
      dsimp only [stop]
      split <;> rfl
    | none =>
      rw [(Machine.run_succ faulted length).1]
      exact ih _

theorem step_machine (current : Instance) :
    current.step.inst.machine =
      if current.state = .empty then current.machine
      else (Machine.run current.slotLength current.machine).machine := by
  unfold step
  split
  · rfl
  · exact runSlot_machine current.slotLength current

/-- A tick touches the machine and the time of the last tick. -/
theorem tickIfDue_eq (current : Instance) (now : Float) :
    ∃ machine lastTick, current.tickIfDue now = { current with machine, lastTick } ∧
      (machine = current.machine ∨ machine = current.machine.tick) := by
  unfold tickIfDue
  split
  · exact ⟨_, _, rfl, .inr rfl⟩
  · exact ⟨_, _, rfl, .inl rfl⟩

theorem run_machine (current : Instance) (now : Float) :
    (current.run now).inst.machine =
      if current.state = .running ∧ current.slotsPerSecond ≠ 0 then
        if due now current.lastSlot (1.0 / Float.ofNat current.slotsPerSecond) then
          (Machine.run current.slotLength (current.tickIfDue now).machine).machine
        else (current.tickIfDue now).machine
      else current.machine := by
  unfold run
  split
  · obtain ⟨machine, lastTick, ticked, -⟩ := current.tickIfDue_eq now
    rw [ticked]
    unfold slotIfDue
    dsimp only
    split
    · exact runSlot_machine current.slotLength _
    · rfl
  · rfl

section
variable {image : List UInt8}

/-- The first check catches all that the memory would refuse. -/
theorem load_of_fits (current : Instance) (fits : image.length ≤ Memory.imageCapacity) :
    current.load image = .ok { current with
      machine := { current.machine.unload with
        memory := current.machine.unload.memory.overlay Memory.imageStart image.toArray }
      state := .loaded
      log := #[]
      fault := none } := by
  rw [load, if_neg (Nat.not_lt.mpr fits)]
  simp only [Machine.load_of_fits _ fits]

/-- The old program is still there. -/
theorem load_of_tooLarge (current : Instance) (tooLarge : ¬image.length ≤ Memory.imageCapacity) :
    current.load image = .error ⟨current, ⟨image.length⟩, []⟩ :=
  if_pos (Nat.not_le.mp tooLarge)

end

/-- Loading unloads first, unless the image does not fit. -/
theorem loading_eq (current : Instance) (image : List UInt8) (after : List Diagnostic) :
    current.loading image after =
      if image.length ≤ Memory.imageCapacity then
        ⟨{ current with
            machine := { current.machine.unload with
              memory := current.machine.unload.memory.overlay Memory.imageStart image.toArray }
            state := .loaded
            log := #[]
            fault := none },
          .none, none,
          (.resetComplete :: .imageCopied image.length :: .imageLoaded image.length ::
            after).map Message.note⟩
      else ⟨current, .none, some (.image ⟨image.length⟩), []⟩ := by
  by_cases fits : image.length ≤ Memory.imageCapacity
  · rw [loading, current.load_of_fits fits, if_pos fits]
  · rw [loading, current.load_of_tooLarge fits, if_neg fits]
    rfl

theorem stop_machine (current : Instance) : current.stop.machine = current.machine := by
  unfold stop
  split <;> rfl

/-- Requests that neither execute instructions nor replace or reset the program. -/
def Request.Calm : Request → Prop
  | .start | .stop | .setSpeed _ _ | .enableInput _ | .setKeys _ => True
  | .load _ | .loadFile _ | .reset | .resetAndStop | .step | .run _ => False

/-- The new keys are left open, so that nothing has to look into them. -/
theorem respond_machine_of_calm (current : Instance) {call : Call} (calm : call.request.Calm) :
    ∃ keys, (current.respond call).inst.machine = { current.machine with keys } := by
  obtain ⟨directory, clock, request⟩ := call
  cases request with
  | start =>
    refine ⟨current.machine.keys, ?_⟩
    simp only [respond, answer, start]
    split <;> rfl
  | stop => exact ⟨current.machine.keys, current.stop_machine⟩
  | setSpeed slotsPerSecond slotLength =>
    refine ⟨current.machine.keys, ?_⟩
    cases slotsPerSecond <;> cases slotLength <;> rfl
  | enableInput _ => exact ⟨current.machine.keys, rfl⟩
  | setKeys states =>
    simp only [respond, answer, setKeys, silently, Machine.setKeys]
    split
    · exact ⟨_, rfl⟩
    · exact ⟨current.machine.keys, rfl⟩
  | load _ | loadFile _ | reset | resetAndStop | step | run _ => exact calm.elim

theorem respond_loadFile_of_ok (current : Instance) {directory : Directory} {name : FileName}
    {image : List UInt8} (found : directory.read name = .ok image) (clock : Float) :
    current.respond ⟨directory, clock, .loadFile name⟩ =
      current.loading image [.instanceLoaded current.id name] := by
  simp only [respond, answer, found]

theorem respond_loadFile_of_error (current : Instance) {directory : Directory} {name : FileName}
    {error : FileError} (absent : directory.read name = .error error) (clock : Float) :
    current.respond ⟨directory, clock, .loadFile name⟩ =
      ⟨current, .none, some (.file error), []⟩ := by
  simp only [respond, answer, absent]

/-- Requests for another program. -/
def Request.ForProgram : Request → Prop
  | .load _ | .loadFile _ => True
  | .start | .stop | .reset | .resetAndStop | .step | .run _ | .setSpeed _ _ | .enableInput _
  | .setKeys _ => False

/-- Another program is loaded, which is reported with diagnostics, or nothing happens at all. -/
theorem respond_forProgram (current : Instance) {call : Call} (asked : call.request.ForProgram) :
    (∃ machine notes, current.respond call =
      ⟨{ current with machine, state := .loaded, log := #[], fault := none }, .none, none,
        List.map Message.note notes⟩) ∨
    ∃ failure, current.respond call = ⟨current, .none, some failure, []⟩ := by
  have loading (image : List UInt8) (after : List Diagnostic) :
      (∃ machine notes, current.loading image after =
        ⟨{ current with machine, state := .loaded, log := #[], fault := none }, .none, none,
          List.map Message.note notes⟩) ∨
      ∃ failure, current.loading image after = ⟨current, .none, some failure, []⟩ := by
    rw [loading_eq]
    split
    · exact .inl ⟨_, _, rfl⟩
    · exact .inr ⟨_, rfl⟩
  obtain ⟨directory, clock, request⟩ := call
  cases request with
  | load image => exact loading image []
  | loadFile name =>
    cases read : directory.read name with
    | ok image =>
      rw [respond_loadFile_of_ok current read]
      exact loading image _
    | error error => exact .inr ⟨_, respond_loadFile_of_error current read clock⟩
  | _ => exact asked.elim

theorem respond_start_of_empty {current : Instance} (empty : current.state = .empty)
    (directory : Directory) (clock : Float) :
    current.respond ⟨directory, clock, .start⟩ =
      ⟨current, .accepted false, none, [.note (.instanceEmpty current.id)]⟩ :=
  if_pos empty

theorem respond_start_of_occupied {current : Instance} (occupied : current.state ≠ .empty)
    (directory : Directory) (clock : Float) :
    current.respond ⟨directory, clock, .start⟩ =
      ⟨{ current with state := .running, lastTick := clock, lastSlot := clock },
        .accepted true, none, []⟩ := by
  simp only [respond, answer, start, if_neg occupied]

theorem respond_step_of_empty {current : Instance} (empty : current.state = .empty)
    (directory : Directory) (clock : Float) :
    current.respond ⟨directory, clock, .step⟩ = ⟨current, .executed 0, none, []⟩ := by
  simp only [respond, answer, step, if_pos empty]
  rfl

theorem respond_run_of_empty {current : Instance} (empty : current.state = .empty)
    (directory : Directory) (clock : Float) (now : Option Amount) :
    current.respond ⟨directory, clock, .run now⟩ = ⟨current, .executed 0, none, []⟩ := by
  have idle : ¬(current.state = .running ∧ current.slotsPerSecond ≠ 0) := by simp [empty]
  simp only [respond, answer, run, if_neg idle]
  rfl

/-- What a host tells instances apart and times them by: nothing that a machine does touches it. -/
structure SameHost (later current : Instance) : Prop where
  id : later.id = current.id
  lastTick : later.lastTick = current.lastTick
  lastSlot : later.lastSlot = current.lastSlot

theorem SameHost.refl (current : Instance) : SameHost current current := ⟨rfl, rfl, rfl⟩

theorem stop_sameHost (current : Instance) : SameHost current.stop current := by
  unfold stop
  split <;> exact ⟨rfl, rfl, rfl⟩

/-- Whatever a slot executes, it changes no more than this. -/
theorem runSlot_frame (length : Nat) (current : Instance) :
    ∃ machine state log fault,
      (runSlot length current).inst = { current with machine, state, log, fault } := by
  induction length generalizing current with
  | zero => exact ⟨_, _, _, _, rfl⟩
  | succ length ih =>
    unfold runSlot
    dsimp only
    split
    · unfold stop
      split <;> exact ⟨_, _, _, _, rfl⟩
    · exact ih _

/-- A slot that is asked for at once does not count for the time of the last one. -/
theorem step_sameHost (current : Instance) : SameHost current.step.inst current := by
  unfold step
  split
  · exact .refl current
  · obtain ⟨machine, state, log, fault, slot⟩ := runSlot_frame current.slotLength current
    rw [slot]
    exact ⟨rfl, rfl, rfl⟩

theorem setKeys_sameHost (current : Instance) (states : List Bool) :
    SameHost (current.setKeys states) current := by
  unfold setKeys
  split <;> exact ⟨rfl, rfl, rfl⟩

/-- Requests that neither set the clocks of an instance nor go by them. -/
def Request.Timeless : Request → Prop
  | .start | .run _ => False
  | .load _ | .loadFile _ | .stop | .reset | .resetAndStop | .step | .setSpeed _ _
  | .enableInput _ | .setKeys _ => True

theorem respond_sameHost (current : Instance) {call : Call} (timeless : call.request.Timeless) :
    SameHost (current.respond call).inst current := by
  by_cases asked : call.request.ForProgram
  · obtain ⟨machine, notes, responded⟩ | ⟨failure, responded⟩ := current.respond_forProgram asked
    · rw [responded]
      exact ⟨rfl, rfl, rfl⟩
    · rw [responded]
      exact .refl current
  obtain ⟨directory, clock, request⟩ := call
  cases request with
  | load _ | loadFile _ => exact absurd trivial asked
  | stop => exact current.stop_sameHost
  | reset | enableInput _ => exact ⟨rfl, rfl, rfl⟩
  | resetAndStop =>
    have stopped := current.reset.stop_sameHost
    exact ⟨stopped.id, stopped.lastTick, stopped.lastSlot⟩
  | step => exact current.step_sameHost
  | setSpeed slotsPerSecond slotLength =>
    cases slotsPerSecond <;> cases slotLength <;> exact ⟨rfl, rfl, rfl⟩
  | setKeys states => exact current.setKeys_sameHost states
  | start | run _ => exact timeless.elim

theorem run_id (current : Instance) (now : Float) : (current.run now).inst.id = current.id := by
  unfold run
  split
  · obtain ⟨machine, lastTick, ticked, -⟩ := current.tickIfDue_eq now
    rw [ticked]
    unfold slotIfDue
    dsimp only
    split
    · obtain ⟨machine, state, log, fault, slot⟩ :=
        runSlot_frame current.slotLength { current with machine, lastTick }
      rw [slot]
    · rfl
  · rfl

theorem respond_id (current : Instance) (call : Call) :
    (current.respond call).inst.id = current.id := by
  by_cases timeless : call.request.Timeless
  · exact (current.respond_sameHost timeless).id
  · obtain ⟨directory, clock, request⟩ := call
    cases request with
    | start =>
      simp only [respond, answer, start]
      split <;> rfl
    | run now => exact current.run_id _
    | _ => exact absurd trivial timeless

theorem answerAll_id (current : Instance) (calls : List Call) :
    (current.answerAll calls).id = current.id := by
  induction calls generalizing current with
  | nil => rfl
  | cons call calls ih => exact (ih _).trans (current.respond_id call)

theorem answerAll_append (current : Instance) (calls later : List Call) :
    current.answerAll (calls ++ later) = (current.answerAll calls).answerAll later :=
  List.foldl_append

end ChipEight.Instance
