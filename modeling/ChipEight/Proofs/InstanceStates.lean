import ChipEight.Proofs.History
import ChipEight.Proofs.InstructionLog
import ChipEight.Proofs.Reloading
import ChipEight.Proofs.SpeedLimits

/-!
# The states of an instance

An instance is empty until an image is loaded, and runs from a start until something stops it: a
request, another image or a stack fault. Main statement: the state, the fault and the speeds are
those that the history of calls demands, in whatever order the calls come, and an empty instance
still has the machine that it was made with.
-/
namespace ChipEight

/-- One of some states is followed by a step that fails. -/
def Machine.FaultIn (begun : List Machine) : Prop := ∃ machine ∈ begun, machine.step.fault ≠ none

theorem Machine.not_faultIn_nil : ¬FaultIn [] := by
  simp [FaultIn]

namespace Instance

open Machine (FaultIn not_faultIn_nil)

/-! ### What counts in the history -/

namespace Event

/-- An image was loaded. -/
def Loads (event : Event) : Prop :=
  event.call.request.ForProgram ∧ event.response.failure = none

/-- A start was accepted. -/
def Starts (event : Event) : Prop :=
  event.call.request = .start ∧ event.response.reply = .accepted true

/-- An instruction failed. -/
def Faults (event : Event) : Prop := FaultIn (event.inst.visited event.call)

def Stops (event : Event) : Prop :=
  event.call.request = .stop ∨ event.call.request = .resetAndStop ∨ event.Loads ∨ event.Faults

/-- The fault is forgotten. -/
def Clears (event : Event) : Prop :=
  event.call.request = .reset ∨ event.call.request = .resetAndStop ∨ event.Loads

end Event

/-! ### One call -/

variable {current later : Instance}

/-- What steps from some states make of an instance. -/
structure Outlasts (current later : Instance) (begun : List Machine) : Prop where
  occupied_iff : later.state ≠ .empty ↔ current.state ≠ .empty
  running_iff : later.state = .running ↔ current.state = .running ∧ ¬FaultIn begun
  fault_iff : later.fault ≠ none ↔ FaultIn begun ∨ current.fault ≠ none

theorem outlasts_idle (state : later.state = current.state) (fault : later.fault = current.fault) :
    Outlasts current later [] where
  occupied_iff := by rw [state]
  running_iff := by rw [state, and_iff_left not_faultIn_nil]
  fault_iff := by rw [fault, or_iff_right not_faultIn_nil]

theorem stop_fault (current : Instance) : current.stop.fault = current.fault := by
  unfold stop
  split <;> rfl

theorem stop_not_running (current : Instance) : current.stop.state ≠ .running := by
  unfold stop
  split
  · simp
  next resting => exact resting

theorem stop_occupied_iff (current : Instance) :
    current.stop.state ≠ .empty ↔ current.state ≠ .empty := by
  unfold stop
  split
  next running => simp [running]
  · exact Iff.rfl

theorem outlasts_runSlot (length : Nat) (current : Instance) :
    Outlasts current (runSlot length current).inst (current.machine.visited length) := by
  induction length generalizing current with
  | zero => exact outlasts_idle rfl rfl
  | succ length ih =>
    cases faulted : current.machine.step.fault with
    | some fault =>
      have fails : FaultIn (current.machine.visited (length + 1)) :=
        ⟨current.machine, Machine.mem_visited (Nat.succ_pos length) _, by simp [faulted]⟩
      simp only [runSlot, faulted]
      exact ⟨stop_occupied_iff _, iff_of_false (stop_not_running _) (fun runs => runs.2 fails),
        iff_of_true (by simp [stop_fault]) (.inl fails)⟩
    | none =>
      -- The first step was done, so that only the rest can fail.
      have rest := ih { current with
        machine := current.machine.step.machine
        log := remember current.log current.machine.step.machine.cpu.last }
      have same : FaultIn (current.machine.visited (length + 1)) ↔
          FaultIn (current.machine.step.machine.visited length) := by
        simp [FaultIn, Machine.visited, faulted]
      simp only [runSlot, faulted]
      exact ⟨rest.occupied_iff, rest.running_iff.trans (and_congr_right fun _ => same.not.symm),
        rest.fault_iff.trans (or_congr_left same.symm)⟩

theorem outlasts_step (current : Instance) (directory : Directory) (clock : Float) :
    Outlasts current current.step.inst (current.visited ⟨directory, clock, .step⟩) := by
  unfold step
  dsimp only [visited]
  split
  · exact outlasts_idle rfl rfl
  · exact outlasts_runSlot current.slotLength current

theorem outlasts_run (current : Instance) (directory : Directory) (clock : Float)
    (now : Option Amount) :
    Outlasts current (current.run (now.elim clock Amount.toFloat)).inst
      (current.visited ⟨directory, clock, .run now⟩) := by
  obtain ⟨machine, lastTick, -, ⟨begun, lastSlot, slot⟩ | ⟨begun, idle⟩⟩ :=
    current.run_cases directory clock now
  · rw [begun, slot]
    -- A tick touches neither the state nor the fault.
    obtain ⟨occupied, running, fault⟩ :=
      outlasts_runSlot current.slotLength { current with machine, lastTick }
    exact ⟨occupied, running, fault⟩
  · rw [begun, idle]
    exact outlasts_idle rfl rfl

/-- What a call makes of the state and the fault of the instance that it meets. -/
structure Event.Lawful (event : Event) : Prop where
  occupied_iff : event.response.inst.state ≠ .empty ↔
    event.Loads ∨ event.inst.state ≠ .empty ∧ ¬False
  running_iff : event.response.inst.state = .running ↔
    event.Starts ∨ event.inst.state = .running ∧ ¬event.Stops
  fault_iff : event.response.inst.fault ≠ none ↔
    event.Faults ∨ event.inst.fault ≠ none ∧ ¬event.Clears

/-- A call that at most executes instructions. -/
theorem Event.lawful_of_outlasts {event : Event}
    (outlasts : Outlasts event.inst event.response.inst (event.inst.visited event.call))
    (unloaded : ¬event.Loads) (unstarted : ¬event.Starts)
    (kept : event.call.request ≠ .stop ∧ event.call.request ≠ .reset ∧
      event.call.request ≠ .resetAndStop) : event.Lawful := by
  have stops : event.Stops ↔ event.Faults := by simp [Stops, kept, unloaded]
  have clears : ¬event.Clears := by simp [Clears, kept, unloaded]
  refine ⟨?_, ?_, ?_⟩
  · simpa [unloaded] using outlasts.occupied_iff
  · rw [stops, or_iff_right unstarted]
    exact outlasts.running_iff
  · rw [and_iff_left clears]
    exact outlasts.fault_iff

theorem Event.visited_of_forProgram (event : Event) (asked : event.call.request.ForProgram) :
    event.inst.visited event.call = [] := by
  obtain ⟨current, directory, clock, request⟩ := event
  cases request with
  | load _ | loadFile _ => rfl
  | _ => exact asked.elim

theorem lawful_of_forProgram {event : Event} (asked : event.call.request.ForProgram)
    (unstarted : ¬event.Starts)
    (kept : event.call.request ≠ .stop ∧ event.call.request ≠ .reset ∧
      event.call.request ≠ .resetAndStop) : event.Lawful := by
  have silent := event.visited_of_forProgram asked
  obtain ⟨machine, notes, responded⟩ | ⟨failure, responded⟩ := event.inst.respond_forProgram asked
  · have loaded : event.Loads := ⟨asked, by rw [Event.response, responded]⟩
    have unfaulted : ¬event.Faults := by
      rw [Event.Faults, silent]
      exact not_faultIn_nil
    refine ⟨?_, ?_, ?_⟩ <;>
      simp [Event.response, Event.Stops, Event.Clears, responded, loaded, unstarted, unfaulted]
  · -- An image that was turned down leaves the old program as it was.
    refine Event.lawful_of_outlasts ?_ ?_ unstarted kept
    · rw [Event.response, responded, silent]
      exact outlasts_idle rfl rfl
    · rintro ⟨-, loaded⟩
      rw [Event.response, responded] at loaded
      cases loaded

theorem lawful_start (current : Instance) (directory : Directory) (clock : Float) :
    (Event.mk current ⟨directory, clock, .start⟩).Lawful := by
  by_cases empty : current.state = .empty
  · have responded := respond_start_of_empty empty directory clock
    refine Event.lawful_of_outlasts ?_ (fun loads => loads.1) ?_ (by simp)
    · rw [Event.response, responded]
      exact outlasts_idle rfl rfl
    · simp [Event.Starts, Event.response, responded]
  · have responded := respond_start_of_occupied empty directory clock
    have starts : (Event.mk current ⟨directory, clock, .start⟩).Starts :=
      ⟨rfl, by rw [Event.response, responded]⟩
    refine ⟨?_, ?_, ?_⟩
    · simp [Event.response, responded, empty]
    · simp [Event.response, responded, starts]
    · simp [Event.response, responded, Event.Faults, visited, not_faultIn_nil, Event.Clears,
        Event.Loads, Request.ForProgram]

/-- A call that takes an instance out of its run, at least if it runs. -/
theorem lawful_of_stop {event : Event} (later : Instance)
    (responded : event.response.inst = later.stop)
    (occupied : later.state ≠ .empty ↔ event.inst.state ≠ .empty)
    (fault : later.fault ≠ none ↔ event.inst.fault ≠ none ∧ ¬event.Clears)
    (silent : event.inst.visited event.call = []) (unloaded : ¬event.Loads)
    (unstarted : ¬event.Starts) (stops : event.Stops) : event.Lawful := by
  have unfaulted : ¬event.Faults := by
    rw [Event.Faults, silent]
    exact not_faultIn_nil
  refine ⟨?_, ?_, ?_⟩
  · rw [responded, stop_occupied_iff, occupied]
    simp [unloaded]
  · rw [responded]
    exact iff_of_false (stop_not_running later) (by simp [unstarted, stops])
  · rw [responded, stop_fault, fault, or_iff_right unfaulted]

/-- Requests that stand neither for another program nor for a start, a stop or a reset. -/
theorem Event.lawful_of_kept {event : Event}
    (outlasts : Outlasts event.inst event.response.inst (event.inst.visited event.call))
    (kept : ¬event.call.request.ForProgram ∧ event.call.request ≠ .start ∧
      event.call.request ≠ .stop ∧ event.call.request ≠ .reset ∧
      event.call.request ≠ .resetAndStop) : event.Lawful := by
  obtain ⟨unasked, unstarted, kept⟩ := kept
  exact lawful_of_outlasts outlasts (fun loads => unasked loads.1)
    (fun starts => unstarted starts.1) kept

theorem Event.lawful (event : Event) : event.Lawful := by
  obtain ⟨current, directory, clock, request⟩ := event
  cases request with
  | load _ | loadFile _ => exact lawful_of_forProgram trivial (by simp [Starts]) (by simp)
  | start => exact lawful_start current directory clock
  | stop =>
    have cleared : ¬(Event.mk current ⟨directory, clock, .stop⟩).Clears := by
      simp [Clears, Loads, Request.ForProgram]
    exact lawful_of_stop current rfl Iff.rfl (and_iff_left cleared).symm rfl
      (fun loads => loads.1) (by simp [Starts]) (.inl rfl)
  | reset =>
    -- An instance that runs goes on to run, from the start of its program.
    refine ⟨?_, ?_, ?_⟩
    · simp [Loads, Request.ForProgram, response, respond, answer, Instance.reset]
    · simp [Starts, Stops, Loads, Request.ForProgram, Faults, visited, not_faultIn_nil, response,
        respond, answer, Instance.reset]
    · simp [Clears, Faults, visited, not_faultIn_nil, response, respond, answer, Instance.reset]
  | resetAndStop =>
    have clears : (Event.mk current ⟨directory, clock, .resetAndStop⟩).Clears := .inr (.inl rfl)
    have forgotten : current.reset.fault = none := rfl
    exact lawful_of_stop current.reset rfl Iff.rfl (by simp [clears, forgotten]) rfl
      (fun loads => loads.1) (by simp [Starts]) (.inr (.inl rfl))
  | step =>
    exact lawful_of_kept (current.outlasts_step directory clock) (by simp [Request.ForProgram])
  | run now =>
    exact lawful_of_kept (current.outlasts_run directory clock now) (by simp [Request.ForProgram])
  | setSpeed slotsPerSecond slotLength =>
    refine lawful_of_kept ?_ (by simp [Request.ForProgram])
    cases slotsPerSecond <;> cases slotLength <;> exact outlasts_idle rfl rfl
  | enableInput enabled =>
    exact lawful_of_kept (outlasts_idle rfl rfl) (by simp [Request.ForProgram])
  | setKeys states =>
    refine lawful_of_kept ?_ (by simp [Request.ForProgram])
    change Outlasts current (current.setKeys states) []
    unfold setKeys
    split <;> exact outlasts_idle rfl rfl

/-! ### Before the first program -/

/-- Without a program, a machine changes no more than in its keys. -/
def Unused (machine : Machine) (current : Instance) : Prop :=
  current.state = .empty → ∃ keys, current.machine = { machine with keys }

theorem unused_create (id : Nat) (dialect : Dialect) (seed : Int) (clock : Float) :
    (create id dialect seed clock).Unused (.initial dialect seed) :=
  fun _ => ⟨.released, rfl⟩

/-- A call that loads nothing leaves an empty instance with its machine, apart from the keys, or
resets that machine. -/
theorem respond_machine_of_empty (empty : current.state = .empty) {call : Call}
    (unloaded : ¬(Event.mk current call).Loads) :
    (∃ keys, (current.respond call).inst.machine = { current.machine with keys }) ∨
      (current.respond call).inst.machine = current.machine.reset := by
  by_cases asked : call.request.ForProgram
  · obtain ⟨machine, notes, responded⟩ | ⟨failure, responded⟩ := current.respond_forProgram asked
    · exact absurd ⟨asked, by rw [Event.response, responded]⟩ unloaded
    · exact .inl ⟨current.machine.keys, by rw [responded]⟩
  obtain ⟨directory, clock, request⟩ := call
  cases request with
  | load _ | loadFile _ => exact absurd trivial asked
  | reset => exact .inr rfl
  | resetAndStop => exact .inr current.reset.stop_machine
  | step =>
    refine .inl ⟨current.machine.keys, ?_⟩
    rw [respond_step_of_empty empty]
  | run now =>
    refine .inl ⟨current.machine.keys, ?_⟩
    rw [respond_run_of_empty empty]
  | start | stop | setSpeed _ _ | enableInput _ | setKeys _ =>
    exact .inl (current.respond_machine_of_calm trivial)

theorem Unused.respond {dialect : Dialect} {seed : Int}
    (unused : current.Unused (.initial dialect seed)) (call : Call) :
    (current.respond call).inst.Unused (.initial dialect seed) := by
  intro later
  -- An instance that is still empty was empty before, and nothing has been loaded since.
  obtain ⟨unloaded, empty⟩ : ¬(Event.mk current call).Loads ∧ current.state = .empty := by
    have occupied := (Event.lawful ⟨current, call⟩).occupied_iff.not
    simpa [Event.response, later] using occupied
  obtain ⟨keys, machine⟩ := unused empty
  -- A reset makes a new machine of one whose keys were touched.
  obtain ⟨pressed, same⟩ | reset := respond_machine_of_empty empty unloaded
  · exact ⟨pressed, by rw [same, machine]⟩
  · refine ⟨.released, ?_⟩
    rw [reset, machine]
    rfl

theorem Unused.answerAll {dialect : Dialect} {seed : Int}
    (unused : current.Unused (.initial dialect seed)) (calls : List Call) :
    (current.answerAll calls).Unused (.initial dialect seed) := by
  induction calls generalizing current with
  | nil => exact unused
  | cons call calls ih => exact ih (unused.respond call)

/-! ### Any sequence of calls -/

/-- What an empty instance replies to whoever wants to see it run. -/
structure Refuses (current : Instance) : Prop where
  start (directory : Directory) (clock : Float) :
    (current.respond ⟨directory, clock, .start⟩).reply = .accepted false
  step (directory : Directory) (clock : Float) :
    (current.respond ⟨directory, clock, .step⟩).reply = .executed 0
  run (directory : Directory) (clock : Float) (now : Option Amount) :
    (current.respond ⟨directory, clock, .run now⟩).reply = .executed 0

theorem refuses_of_empty (empty : current.state = .empty) : current.Refuses where
  start directory clock := by rw [respond_start_of_empty empty]
  step directory clock := by rw [respond_step_of_empty empty]
  run directory clock now := by rw [respond_run_of_empty empty]

/-- An instance is empty until an image is loaded. It runs exactly if a start was accepted that no
stop, image or failure has followed, and it has a fault exactly if an instruction has failed since
the last reset or image. While it is empty it refuses to run and its machine is a new one, apart
from the keys. Its speeds keep their limits, so that running it divides by no zero and executes no
more than fifty instructions. -/
theorem states_follow_the_calls (id : Nat) (dialect : Dialect) (seed : Int) (clock : Float)
    (calls : List Call) :
    let fresh := create id dialect seed clock
    let past := fresh.history calls
    let current := fresh.answerAll calls
    (current.state = .empty ↔ ∀ event ∈ past, ¬event.Loads) ∧
    (current.state = .running ↔ Since Event.Starts Event.Stops past) ∧
    (current.fault ≠ none ↔ Since Event.Faults Event.Clears past) ∧
    (current.state = .empty → current.Refuses ∧
      ∃ keys, current.machine = { Machine.initial dialect seed with keys }) ∧
    current.slotsPerSecond ≤ 144 ∧ 1 ≤ current.slotLength ∧ current.slotLength ≤ 50 ∧
    ∀ now, current.run? now = some (current.run now) ∧ (current.run now).executed ≤ 50 := by
  intro fresh past current
  have loaded : current.state ≠ .empty ↔ Since Event.Loads (fun _ => False) past :=
    @holds_iff_since _ _ (·.state ≠ .empty) (fun event => event.lawful.occupied_iff) fresh
      (not_not.mpr rfl) calls
  rw [since_false_iff] at loaded
  have within : current.WithinLimits := (withinLimits_create id dialect seed clock).answerAll calls
  refine ⟨?_, ?_, ?_, fun empty => ⟨refuses_of_empty empty, ?_⟩, within.slots, within.positive,
    within.length, fun now => ⟨current.run?_eq now, ?_⟩⟩
  · refine not_iff_not.mp (loaded.trans ?_)
    push Not
    rfl
  · exact @holds_iff_since _ _ (·.state = .running) (fun event => event.lawful.running_iff) fresh
      (by simp [fresh, create]) calls
  · exact @holds_iff_since _ _ (·.fault ≠ none) (fun event => event.lawful.fault_iff) fresh
      (not_not.mpr rfl) calls
  · exact (unused_create id dialect seed clock).answerAll calls empty
  · exact (current.run_executed_le now).trans within.length

theorem started_once_loaded :
    ((create 0 {} 0 0).answerAll [⟨[], 0, .start⟩]).Refuses ∧
    ((create 0 {} 0 0).answerAll [⟨[], 0, .load [0x12, 0x00]⟩, ⟨[], 0, .start⟩]).state =
      .running := by
  obtain ⟨-, -, -, refuses, -⟩ := states_follow_the_calls 0 {} 0 0 [⟨[], 0, .start⟩]
  obtain ⟨-, running, -⟩ :=
    states_follow_the_calls 0 {} 0 0 [⟨[], 0, .load [0x12, 0x00]⟩, ⟨[], 0, .start⟩]
  constructor
  · have empty : (create 0 {} 0 0).state = .empty := rfl
    refine (refuses ?_).1
    exact congrArg (·.inst.state) (respond_start_of_empty empty [] 0)
  · obtain ⟨loaded, load⟩ :
      ∃ loaded, ((create 0 {} 0 0).respond ⟨[], 0, .load [0x12, 0x00]⟩).inst = loaded := ⟨_, rfl⟩
    have occupied : loaded.state ≠ .empty := by
      rw [(loaded_atSelfJump load).2]
      decide
    refine running.mpr ⟨[_], ⟨loaded, ⟨[], 0, .start⟩⟩, [], by rw [← load]; rfl, ⟨rfl, ?_⟩, by simp⟩
    rw [Event.response, respond_start_of_occupied occupied]

end Instance
end ChipEight
