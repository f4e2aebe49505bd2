import ChipEight.Proofs.InstanceRequests

/-!
# Visited states

A run stands in a list of states, in each of which it makes a step. What an instance has executed
since its last reset or its last program is told by the states that its calls went through.
-/
namespace ChipEight

namespace Machine

/-- The states in which a run makes its steps, that of a step that fails included. -/
def visited : Nat → Machine → List Machine
  | 0, _ => []
  | count + 1, machine =>
    machine :: if machine.step.fault = none then visited count machine.step.machine else []

theorem mem_visited {count : Nat} (positive : 0 < count) (machine : Machine) :
    machine ∈ visited count machine := by
  cases count with
  | zero => exact absurd positive (by decide)
  | succ count => exact List.mem_cons_self

/-- The states in which an action makes the machine step. -/
def visitedBy (machine : Machine) : Action → List Machine
  | .step => [machine]
  | .run count => visited count machine
  | .load _ | .loadFile _ | .unload | .reset | .tick | .setKeys _ | .holdKey _ _ | .setRedraw _ =>
    []

def visitedByAll (directory : Directory) : Machine → List Action → List Machine
  | _, [] => []
  | machine, action :: actions =>
    machine.visitedBy action ++
      visitedByAll directory (machine.perform directory action).machine actions

end Machine

namespace Instance

/-- The states in which a call makes the machine step. -/
def visited (current : Instance) (call : Call) : List Machine :=
  match call.request with
  | .step =>
    if current.state = .empty then [] else Machine.visited current.slotLength current.machine
  | .run now =>
    let time := now.elim call.clock Amount.toFloat
    if current.state = .running ∧ current.slotsPerSecond ≠ 0 ∧
        due time current.lastSlot (1.0 / Float.ofNat current.slotsPerSecond) then
      Machine.visited current.slotLength (current.tickIfDue time).machine
    else []
  | _ => []

/-- A call of `run` ticks or not, and then makes a slot or not. -/
theorem run_cases (current : Instance) (directory : Directory) (clock : Float)
    (now : Option Amount) :
    ∃ machine lastTick, (machine = current.machine ∨ machine = current.machine.tick) ∧
      let progress := current.run (now.elim clock Amount.toFloat)
      let begun := current.visited ⟨directory, clock, .run now⟩
      let ticked := { current with machine, lastTick }
      let slot := runSlot current.slotLength ticked
      (begun = Machine.visited current.slotLength machine ∧
        ∃ lastSlot, progress = { slot with inst := { slot.inst with lastSlot } }) ∨
      begun = [] ∧ progress = ticked.idle := by
  dsimp only [visited]
  generalize now.elim clock Amount.toFloat = time
  by_cases runs : current.state = .running ∧ current.slotsPerSecond ≠ 0
  · obtain ⟨machine, lastTick, ticked, either⟩ := current.tickIfDue_eq time
    refine ⟨machine, lastTick, either, ?_⟩
    rw [run, if_pos runs, ticked, slotIfDue]
    by_cases slot : due time current.lastSlot (1.0 / Float.ofNat current.slotsPerSecond)
    · rw [if_pos ⟨runs.1, runs.2, slot⟩]
      exact .inl ⟨rfl, time, if_pos slot⟩
    · rw [if_neg (fun both => slot both.2.2)]
      exact .inr ⟨rfl, if_neg slot⟩
  · refine ⟨current.machine, current.lastTick, .inl rfl, .inr ⟨?_, ?_⟩⟩
    · exact if_neg (fun slot => runs ⟨slot.1, slot.2.1⟩)
    · exact if_neg runs

/-- The states since the last reset or program: `passed` before the call, the result after it. -/
def visitedSince (current : Instance) (passed : List Machine) (call : Call) : List Machine :=
  match call.request with
  | .load _ | .loadFile _ => if (current.respond call).failure = none then [] else passed
  | .reset | .resetAndStop => []
  | _ => passed ++ current.visited call

theorem visitedSince_of_calm {current : Instance} {passed : List Machine} {call : Call}
    (calm : call.request.Calm) : current.visitedSince passed call = passed := by
  obtain ⟨directory, clock, request⟩ := call
  cases request with
  | start | stop | setSpeed _ _ | enableInput _ | setKeys _ => exact List.append_nil passed
  | load _ | loadFile _ | reset | resetAndStop | step | run _ => exact calm.elim

def visitedSinceAll : Instance → List Machine → List Call → List Machine
  | _, passed, [] => passed
  | current, passed, call :: calls =>
    visitedSinceAll (current.respond call).inst (current.visitedSince passed call) calls

end Instance
end ChipEight
