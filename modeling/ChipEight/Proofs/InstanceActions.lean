import ChipEight.Proofs.DialectIndependence
import ChipEight.Proofs.InstanceRequests
import ChipEight.Proofs.MemoryEffects

/-!
# What an instance asks of its machine

The machine of an instance changes by host operations alone, and a call determines which, in which
order. What all host operations keep therefore holds of the machine of an instance after any calls.
-/
namespace ChipEight.Instance

/-- An image that does not fit is turned down before the old program is given up. -/
def loadActions (image : List UInt8) : List Machine.Action :=
  if image.length ≤ Memory.imageCapacity then [.unload, .load image] else []

def actionsAt (current : Instance) (now : Float) : List Machine.Action :=
  if current.state = .running ∧ current.slotsPerSecond ≠ 0 then
    (if due now current.lastTick Settings.tickInterval then [.tick] else []) ++
      (if due now current.lastSlot (1.0 / Float.ofNat current.slotsPerSecond) then
        [.run current.slotLength]
      else [])
  else []

/-- The host operations that a call makes on the machine, in order. -/
def actions (current : Instance) (call : Call) : List Machine.Action :=
  match call.request with
  | .load image => loadActions image
  | .loadFile name =>
    match call.directory.read name with
    | .ok image => loadActions image
    | .error _ => []
  | .reset | .resetAndStop => [.reset]
  | .step => if current.state = .empty then [] else [.run current.slotLength]
  | .run now => current.actionsAt (now.elim call.clock Amount.toFloat)
  | .setKeys states => if current.inputEnabled then [.setKeys states] else []
  | .start | .stop | .setSpeed _ _ | .enableInput _ => []

def actionsAll : Instance → List Call → List Machine.Action
  | _, [] => []
  | current, call :: calls => current.actions call ++ actionsAll (current.respond call).inst calls

theorem loading_performs (current : Instance) (image : List UInt8) (after : List Diagnostic)
    (directory : Directory) :
    (current.loading image after).inst.machine =
      current.machine.performAll directory (loadActions image) := by
  rw [loading_eq, loadActions]
  split
  next fits => exact (current.machine.unload.perform_load directory fits).symm
  · rfl

theorem tickIfDue_performs (current : Instance) (now : Float) (directory : Directory) :
    (current.tickIfDue now).machine =
      current.machine.performAll directory
        (if due now current.lastTick Settings.tickInterval then [.tick] else []) := by
  unfold tickIfDue
  split <;> rfl

theorem run_performs (current : Instance) (now : Float) (directory : Directory) :
    (current.run now).inst.machine =
      current.machine.performAll directory (current.actionsAt now) := by
  rw [run_machine, actionsAt]
  split
  · rw [Machine.performAll_append, ← tickIfDue_performs]
    split <;> rfl
  · rfl

/-- No call names a file to the machine, so that the directory plays no part. -/
theorem respond_performs (current : Instance) (call : Call) (directory : Directory) :
    (current.respond call).inst.machine =
      current.machine.performAll directory (current.actions call) := by
  obtain ⟨files, clock, request⟩ := call
  cases request with
  | load image => exact current.loading_performs image [] directory
  | loadFile name =>
    dsimp only [actions]
    cases read : files.read name with
    | ok image =>
      rw [respond_loadFile_of_ok current read]
      exact current.loading_performs image _ directory
    | error error =>
      rw [respond_loadFile_of_error current read]
      rfl
  | start =>
    simp only [respond, answer, start]
    split <;> rfl
  | stop => exact current.stop_machine
  | reset => rfl
  | resetAndStop => exact current.reset.stop_machine
  | step =>
    refine current.step_machine.trans ?_
    dsimp only [actions]
    split <;> rfl
  | run now => exact current.run_performs _ directory
  | setSpeed slotsPerSecond slotLength => cases slotsPerSecond <;> cases slotLength <;> rfl
  | enableInput _ => rfl
  | setKeys states =>
    simp only [respond, answer, setKeys, silently, actions]
    split <;> rfl

theorem answerAll_performs (current : Instance) (calls : List Call) (directory : Directory) :
    (current.answerAll calls).machine =
      current.machine.performAll directory (current.actionsAll calls) := by
  induction calls generalizing current with
  | nil => rfl
  | cons call calls ih =>
    rw [actionsAll, Machine.performAll_append, ← respond_performs]
    exact ih _

theorem answerAll_dialect (current : Instance) (calls : List Call) :
    (current.answerAll calls).machine.dialect = current.machine.dialect := by
  rw [answerAll_performs current calls []]
  exact Machine.performAll_keeps (·.dialect = current.machine.dialect) []
    (fun machine action same => (machine.perform_dialect [] action).trans same) _ rfl

theorem fontInPlace_answerAll (id : Nat) (dialect : Dialect) (seed : Int) (clock : Float)
    (calls : List Call) :
    ((create id dialect seed clock).answerAll calls).machine.memory.FontInPlace := by
  rw [answerAll_performs _ calls []]
  exact Machine.fontInPlace_performAll [] dialect seed _

end ChipEight.Instance
