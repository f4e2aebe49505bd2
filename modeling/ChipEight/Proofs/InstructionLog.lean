import Mathlib.Data.List.DropRight
import ChipEight.Proofs.InstanceActions
import ChipEight.Proofs.VisitedStates

/-!
# The instruction log

The trace of an instance lists the instructions it has completed since the last reset or program,
each as it stood in memory when it was fetched. Main statement: the log shows the end of the trace,
and the counts that calls reply add up to its length.
-/
namespace ChipEight

namespace Machine

/-- The instruction at which a machine stands. -/
def standing (machine : Machine) : Fetched := ⟨machine.word, machine.cpu.pc⟩

/-- The instructions that were completed, out of those begun in some states. -/
def completed (begun : List Machine) : List Fetched :=
  (begun.filter fun machine => machine.step.fault = none).map standing

theorem completed_append (begun later : List Machine) :
    completed (begun ++ later) = completed begun ++ completed later := by
  simp only [completed, List.filter_append, List.map_append]

variable {machine : Machine}

/-- Nothing is begun after a failure, so that a run ends in the state where it fails. -/
theorem completed_visited_of_fault {fault : StackFault} (faulted : machine.step.fault = some fault)
    (count : Nat) : completed (visited (count + 1) machine) = [] := by
  simp [visited, completed, faulted]

theorem completed_visited_of_done (done : machine.step.fault = none) (count : Nat) :
    completed (visited (count + 1) machine) =
      machine.standing :: completed (visited count machine.step.machine) := by
  simp [visited, completed, done]

end Machine

namespace Instance

open Machine (completed)

/-- The part of a trace that a log has room for, its end. -/
def fitting (trace : List Fetched) : List Fetched := trace.rtake Settings.logCapacity

theorem length_fitting (trace : List Fetched) :
    (fitting trace).length = min Settings.logCapacity trace.length := by
  rw [fitting, List.rtake_eq_reverse_take_reverse, List.length_reverse, List.length_take,
    List.length_reverse]

theorem fitting_of_short {trace : List Fetched} (short : trace.length ≤ Settings.logCapacity) :
    fitting trace = trace := by
  rw [fitting, List.rtake, Nat.sub_eq_zero_of_le short, List.drop_zero]

/-- A new entry leaves room for one less of the old ones. -/
theorem fitting_concat (trace : List Fetched) (entry : Fetched) :
    fitting (trace ++ [entry]) = trace.rtake (Settings.logCapacity - 1) ++ [entry] :=
  List.rtake_concat_succ trace (Settings.logCapacity - 1) entry

/-- What has once been dropped plays no part later. -/
theorem fitting_fitting_concat (trace : List Fetched) (entry : Fetched) :
    fitting (fitting trace ++ [entry]) = fitting (trace ++ [entry]) := by
  have shorter : (fitting trace).rtake (Settings.logCapacity - 1) =
      trace.rtake (Settings.logCapacity - 1) := by
    simp only [fitting, List.rtake_eq_reverse_take_reverse, List.reverse_reverse, List.take_take]
    rw [Nat.min_eq_left (Nat.sub_le _ _)]
  rw [fitting_concat, fitting_concat, shorter]

theorem remember_toList {log : Array Fetched} (within : log.size ≤ Settings.logCapacity)
    (entry : Fetched) : (remember log entry).toList = fitting (log.toList ++ [entry]) := by
  unfold remember
  split
  next room =>
    have short : (log.toList ++ [entry]).length ≤ Settings.logCapacity := by
      rw [List.length_append, Array.length_toList]
      exact room
    rw [Array.toList_push, fitting_of_short short]
  next full =>
    -- A full log has one entry more than there is room for beside the new one.
    have size : log.toList.length = Settings.logCapacity := le_antisymm within (not_lt.mp full)
    have rest : (log.toList.drop 1).length ≤ log.size - 1 := by
      rw [List.length_drop, Array.length_toList]
    rw [fitting_concat, Array.toList_push, Array.toList_extract, List.extract_eq_take_drop,
      List.take_of_length_le rest, List.rtake, size]
    rfl

/-- A log that shows the end of a trace goes on to do so. -/
theorem remember_fitting {log : Array Fetched} {trace : List Fetched}
    (shown : log.toList = fitting trace) (entry : Fetched) :
    (remember log entry).toList = fitting (trace ++ [entry]) := by
  have within : log.size ≤ Settings.logCapacity := by
    rw [← Array.length_toList, shown, length_fitting]
    exact Nat.min_le_left _ _
  rw [remember_toList within, shown, fitting_fitting_concat]

theorem stop_log (current : Instance) : current.stop.log = current.log := by
  unfold stop
  split <;> rfl

theorem runSlot_log (length : Nat) {current : Instance} {trace : List Fetched}
    (shown : current.log.toList = fitting trace) :
    (runSlot length current).inst.log.toList =
      fitting (trace ++ completed (current.machine.visited length)) := by
  induction length generalizing current trace with
  | zero =>
    rw [Machine.visited, completed, List.filter_nil, List.map_nil, List.append_nil]
    exact shown
  | succ length ih =>
    cases faulted : current.machine.step.fault with
    | some fault =>
      -- What fails is neither logged nor counted, and ends the slot.
      simp only [runSlot, faulted]
      rw [Machine.completed_visited_of_fault faulted, List.append_nil, stop_log]
      exact shown
    | none =>
      simp only [runSlot, faulted]
      -- The entry is read off the machine after the step, which may have written its own word.
      rw [Machine.completed_visited_of_done faulted, List.append_cons, Machine.step_last]
      exact ih (remember_fitting shown current.machine.standing)

theorem runSlot_executed (length : Nat) (current : Instance) :
    (runSlot length current).executed = (completed (current.machine.visited length)).length := by
  induction length generalizing current with
  | zero => rfl
  | succ length ih =>
    cases faulted : current.machine.step.fault with
    | some fault =>
      simp only [runSlot, faulted]
      rw [Machine.completed_visited_of_fault faulted, List.length_nil]
    | none =>
      simp only [runSlot, faulted]
      rw [Machine.completed_visited_of_done faulted, List.length_cons, ih]

/-- The instructions that a call replies to have executed. -/
def Reply.count : Reply → Nat
  | .executed count => count
  | .none | .accepted _ => 0

/-- The sum of the counts replied since the last reset or program: `count` before the call, the
result after it. -/
def executedSince (current : Instance) (count : Nat) (call : Call) : Nat :=
  match call.request with
  | .load _ | .loadFile _ => if (current.respond call).failure = none then 0 else count
  | .reset | .resetAndStop => 0
  | _ => count + (current.respond call).reply.count

def executedSinceAll : Instance → Nat → List Call → Nat
  | _, count, [] => count
  | current, count, call :: calls =>
    executedSinceAll (current.respond call).inst (current.executedSince count call) calls

/-- A log and a sum of counts that agree with the states since the last reset or program. -/
structure LogExact (log : Array Fetched) (count : Nat) (passed : List Machine) : Prop where
  shown : log.toList = fitting (completed passed)
  counted : count = (completed passed).length

variable {current : Instance} {count : Nat} {passed : List Machine}

theorem logExact_empty : LogExact #[] 0 [] := ⟨rfl, rfl⟩

theorem LogExact.runSlot (exact : LogExact current.log count passed) (length : Nat) :
    LogExact (runSlot length current).inst.log (count + (runSlot length current).executed)
      (passed ++ current.machine.visited length) where
  shown := by rw [runSlot_log length exact.shown, Machine.completed_append]
  counted := by
    rw [runSlot_executed, Machine.completed_append, List.length_append, exact.counted]

theorem LogExact.loading (exact : LogExact current.log count passed) (image : List UInt8)
    (after : List Diagnostic) :
    LogExact (current.loading image after).inst.log
      (if (current.loading image after).failure = none then 0 else count)
      (if (current.loading image after).failure = none then [] else passed) := by
  rw [loading_eq]
  split
  · exact logExact_empty
  · exact exact

theorem LogExact.step (exact : LogExact current.log count passed) (directory : Directory)
    (clock : Float) :
    LogExact current.step.inst.log (count + current.step.executed)
      (passed ++ current.visited ⟨directory, clock, .step⟩) := by
  unfold Instance.step
  dsimp only [visited]
  split
  · rw [List.append_nil]
    exact exact
  · exact exact.runSlot current.slotLength

theorem LogExact.runAt (exact : LogExact current.log count passed) (directory : Directory)
    (clock : Float) (now : Option Amount) :
    LogExact (current.run (now.elim clock Amount.toFloat)).inst.log
      (count + (current.run (now.elim clock Amount.toFloat)).executed)
      (passed ++ current.visited ⟨directory, clock, .run now⟩) := by
  obtain ⟨machine, lastTick, -, ⟨begun, lastSlot, slot⟩ | ⟨begun, idle⟩⟩ :=
    current.run_cases directory clock now
  · rw [begun, slot]
    -- The slot starts from the machine after the tick, which has executed nothing.
    have ticked : LogExact { current with machine, lastTick }.log count passed := exact
    exact ticked.runSlot current.slotLength
  · rw [begun, idle, List.append_nil]
    exact exact

theorem respond_log_of_calm (current : Instance) {call : Call} (calm : call.request.Calm) :
    (current.respond call).inst.log = current.log ∧ (current.respond call).reply.count = 0 := by
  obtain ⟨directory, clock, request⟩ := call
  cases request with
  | start =>
    simp only [respond, answer, start]
    split <;> exact ⟨rfl, rfl⟩
  | stop => exact ⟨current.stop_log, rfl⟩
  | setSpeed slotsPerSecond slotLength =>
    cases slotsPerSecond <;> cases slotLength <;> exact ⟨rfl, rfl⟩
  | enableInput _ => exact ⟨rfl, rfl⟩
  | setKeys states =>
    simp only [respond, answer, setKeys, silently]
    split <;> exact ⟨rfl, rfl⟩
  | load _ | loadFile _ | reset | resetAndStop | step | run _ => exact calm.elim

theorem LogExact.respond_of_calm (exact : LogExact current.log count passed) {call : Call}
    (calm : call.request.Calm) :
    LogExact (current.respond call).inst.log (current.executedSince count call)
      (current.visitedSince passed call) := by
  obtain ⟨same, silent⟩ := current.respond_log_of_calm calm
  have counted : current.executedSince count call = count := by
    obtain ⟨directory, clock, request⟩ := call
    cases request with
    | start | stop | setSpeed _ _ | enableInput _ | setKeys _ =>
      exact congrArg (count + ·) silent
    | load _ | loadFile _ | reset | resetAndStop | step | run _ => exact calm.elim
  rw [same, counted, visitedSince_of_calm calm]
  exact exact

theorem LogExact.respond (exact : LogExact current.log count passed) (call : Call) :
    LogExact (current.respond call).inst.log (current.executedSince count call)
      (current.visitedSince passed call) := by
  obtain ⟨directory, clock, request⟩ := call
  cases request with
  | load image => exact exact.loading image []
  | loadFile name =>
    dsimp only [executedSince, visitedSince]
    cases read : directory.read name with
    | ok image =>
      rw [respond_loadFile_of_ok current read]
      exact exact.loading image _
    | error error =>
      rw [respond_loadFile_of_error current read]
      exact exact
  | reset => exact logExact_empty
  | resetAndStop =>
    change LogExact current.reset.stop.log 0 []
    rw [stop_log]
    exact logExact_empty
  | step => exact exact.step directory clock
  | run now => exact exact.runAt directory clock now
  | start | stop | setSpeed _ _ | enableInput _ | setKeys _ => exact exact.respond_of_calm trivial

theorem LogExact.answerAll (exact : LogExact current.log count passed) (calls : List Call) :
    LogExact (current.answerAll calls).log (current.executedSinceAll count calls)
      (current.visitedSinceAll passed calls) := by
  induction calls generalizing current count passed with
  | nil => exact exact
  | cons call calls ih => exact ih (exact.respond call)

/-- The log shows the instructions completed since the last reset or program, the last thousand if
there are more, each as the text of the word that stood at the program counter when the machine
came to it. As many have been completed as the calls have replied. -/
theorem log_is_the_end_of_the_trace (id : Nat) (dialect : Dialect) (seed : Int) (clock : Float)
    (calls : List Call) :
    let fresh := create id dialect seed clock
    let current := fresh.answerAll calls
    let done := (fresh.visitedSinceAll [] calls).filter fun machine => machine.step.fault = none
    let texts := done.map fun machine =>
      Listing.instruction dialect machine.word.toNat machine.cpu.pc.toNat
    current.logLines = texts.rtake (min 1000 texts.length) ∧
      texts.length = fresh.executedSinceAll 0 calls := by
  intro fresh current done texts
  have exact : LogExact current.log (fresh.executedSinceAll 0 calls)
      (fresh.visitedSinceAll [] calls) := (logExact_empty : LogExact fresh.log 0 []).answerAll calls
  -- Texts are made when the log is read, in the dialect of that time.
  have same : current.machine.dialect = dialect := fresh.answerAll_dialect calls
  let text (entry : Fetched) : String :=
    Listing.instruction dialect entry.word.toNat entry.address.toNat
  have rendered : texts = (completed (fresh.visitedSinceAll [] calls)).map text := by
    rw [completed, List.map_map]
    rfl
  have length : texts.length = (completed (fresh.visitedSinceAll [] calls)).length := by
    rw [rendered, List.length_map]
  constructor
  · have dropped : texts.length - min 1000 texts.length = texts.length - 1000 := by omega
    rw [logLines, exact.shown, same, fitting, List.rtake, List.rtake, dropped, length, rendered,
      List.map_drop]
    rfl
  · rw [length, exact.counted]

end Instance
end ChipEight
