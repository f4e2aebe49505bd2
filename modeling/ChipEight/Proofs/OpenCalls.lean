import ChipEight.Proofs.Step

/-!
# Open calls

A call is open until its return. The list of open calls, each by its return address, follows from
the executed instructions alone. Main statement: the used part of the call stack always shows that
list, so that each return goes back to the latest call that is still open.
-/
namespace ChipEight

namespace Operation

variable {word : Word} {machine next : Machine}

theorem execute_call_stack (done : call.execute word machine = .ok next) :
    next.cpu.stack.toList = machine.cpu.stack.toList ++ [machine.cpu.pc] := by
  simp only [execute] at done
  split at done
  next stack pushed =>
    cases done
    exact CallStack.toList_push pushed
  · cases done

theorem execute_ret_stack (done : ret.execute word machine = .ok next) :
    machine.cpu.stack.toList = next.cpu.stack.toList ++ [next.cpu.pc] := by
  simp only [execute] at done
  split at done
  next address stack popped =>
    cases done
    exact CallStack.toList_pop popped
  · cases done

end Operation

namespace Machine

/-- The open calls after a step, oldest first. -/
def openAfterStep (machine : Machine) (calls : List UInt16) : List UInt16 :=
  if machine.step.fault ≠ none then calls
  else if machine.word.family.val = 0x2 then calls ++ [(machine.cpu.pc + 2) % 4096]
  else if machine.word.family.val = 0x0 ∧ machine.word.nn = 0xEE then calls.dropLast
  else calls

/-- The step that fails is the last of a run. -/
def openAfterRun : Nat → Machine → List UInt16 → List UInt16
  | 0, _, calls => calls
  | count + 1, machine, calls =>
    if machine.step.fault ≠ none then machine.openAfterStep calls
    else openAfterRun count machine.step.machine (machine.openAfterStep calls)

def openAfter (machine : Machine) (calls : List UInt16) : Action → List UInt16
  | .step => machine.openAfterStep calls
  | .run count => openAfterRun count machine calls
  | .unload | .reset => []
  | .load _ | .loadFile _ | .tick | .setKeys _ | .holdKey _ _ | .setRedraw _ => calls

def openAfterAll (directory : Directory) : Machine → List UInt16 → List Action → List UInt16
  | _, calls, [] => calls
  | machine, calls, action :: actions =>
    openAfterAll directory (machine.perform directory action).machine
      (machine.openAfter calls action) actions

theorem step_call {machine : Machine} {stack : CallStack} (call : machine.upcoming = .call)
    (pushed : machine.cpu.stack.push? (Processor.following machine.cpu.pc) = some stack) :
    machine.step.machine =
      { machine.fetch with cpu := { machine.fetch.cpu with stack, pc := machine.word.nnn } } := by
  have pushed : machine.fetch.cpu.stack.push? machine.fetch.cpu.pc = some stack := pushed
  refine (step_of_ok ?_).1
  rw [call]
  simp only [Operation.execute, pushed]

theorem toList_step_stack (machine : Machine) :
    machine.step.machine.cpu.stack.toList = machine.openAfterStep machine.cpu.stack.toList := by
  unfold openAfterStep
  cases faulted : machine.step.fault with
  | some fault =>
    -- A failed step opens and closes nothing.
    rw [step_faulted faulted, if_pos (by simp)]
    rfl
  | none =>
    have done := execute_of_unfaulted faulted
    rw [if_neg (by simp)]
    simp only [← upcoming_eq_call_iff, ← upcoming_eq_ret_iff]
    split
    next call =>
      rw [call] at done
      exact Operation.execute_call_stack done
    next no_call =>
      split
      next ret =>
        rw [ret] at done
        -- The stack before is the stack after with the new counter on top.
        have popped := Operation.execute_ret_stack done
        change machine.cpu.stack.toList = _ at popped
        rw [popped, List.dropLast_concat]
      next no_return =>
        have kept := (Operation.execute_spares done).stack no_call no_return
        rw [kept]
        rfl

theorem toList_run_stack (count : Nat) (machine : Machine) :
    (run count machine).machine.cpu.stack.toList =
      openAfterRun count machine machine.cpu.stack.toList := by
  induction count generalizing machine with
  | zero => rfl
  | succ count ih =>
    rw [openAfterRun]
    cases faulted : machine.step.fault with
    | some fault =>
      -- The run ends with the step that failed.
      rw [run_succ_of_fault faulted, if_pos (by simp)]
      exact toList_step_stack machine
    | none =>
      rw [(run_succ faulted count).1, if_neg (by simp), ← toList_step_stack]
      exact ih machine.step.machine

theorem loading_stack (machine : Machine) (image : List UInt8) (after : List Diagnostic) :
    (machine.loading image after).machine.cpu.stack = machine.cpu.stack := by
  obtain ⟨memory, loaded⟩ := machine.loading_memory image after
  rw [loaded]

theorem toList_perform_stack (directory : Directory) (machine : Machine) (action : Action) :
    (machine.perform directory action).machine.cpu.stack.toList =
      machine.openAfter machine.cpu.stack.toList action := by
  cases action with
  | step => exact toList_step_stack machine
  | run count => exact toList_run_stack count machine
  | load image => exact congrArg CallStack.toList (loading_stack machine image [])
  | loadFile name =>
    simp only [perform]
    split
    · exact congrArg CallStack.toList (loading_stack machine _ _)
    · rfl
  | unload | reset => rfl
  | tick | setKeys _ | holdKey _ _ | setRedraw _ => rfl

theorem toList_performAll_stack (directory : Directory) (machine : Machine)
    (actions : List Action) :
    (machine.performAll directory actions).cpu.stack.toList =
      openAfterAll directory machine machine.cpu.stack.toList actions := by
  induction actions generalizing machine with
  | nil => rfl
  | cons action actions ih =>
    rw [openAfterAll, ← toList_perform_stack directory machine action]
    exact ih (machine.perform directory action).machine

/-- The used slots are the open calls, and a return goes to the latest of them: as the next step of
the host, or as a later step of a run. -/
theorem returns_match_open_calls (directory : Directory) (dialect : Dialect) (seed : Int)
    (actions : List Action) :
    let machine := (initial dialect seed).performAll directory actions
    let calls := openAfterAll directory (initial dialect seed) [] actions
    machine.cpu.stack.depth.val = calls.length ∧ calls.length ≤ 16 ∧
    machine.cpu.stack.slots.toList.take machine.cpu.stack.depth.val = calls ∧
    ∀ count, (run count machine).fault = none →
      let reached := (run count machine).machine
      reached.word.family.val = 0x0 ∧ reached.word.nn = 0xEE → reached.step.fault = none →
      (openAfterRun count machine calls).getLast? = some reached.step.machine.cpu.pc := by
  intro machine calls
  have shown : machine.cpu.stack.toList = calls := toList_performAll_stack directory _ actions
  have depth : machine.cpu.stack.depth.val = calls.length := by
    rw [← shown, CallStack.length_toList]
  refine ⟨depth, by omega, shown, ?_⟩
  intro count _ reached returns unfaulted
  -- The run so far opened and closed calls as its steps say, so the stack shows what is left.
  have reached_shown : reached.cpu.stack.toList = openAfterRun count machine calls := by
    rw [← shown]
    exact toList_run_stack count machine
  have done := execute_of_unfaulted unfaulted
  rw [(upcoming_eq_ret_iff reached).mpr returns] at done
  have popped := Operation.execute_ret_stack done
  change reached.cpu.stack.toList = _ at popped
  rw [← reached_shown, popped, List.getLast?_concat]

/-- A call of `0x204`, where a return stands. -/
def callOfReturn : Array UInt8 := #[0x22, 0x04, 0x00, 0x00, 0x00, 0xEE]

/-- Where a machine is that has executed the call. -/
def insideCall : Machine :=
  { (holding callOfReturn).fetch with
    cpu := { (holding callOfReturn).fetch.cpu with
      stack := ⟨CallStack.empty.slots.set 0 0x202, ⟨1, by decide⟩⟩
      pc := 0x204 } }

theorem step_callOfReturn : (holding callOfReturn).step.machine = insideCall := by
  have word : (holding callOfReturn).word = 0x2204 := by
    rw [word_holding (by decide) (by decide)]
    decide
  have call : (holding callOfReturn).upcoming = .call := by
    rw [upcoming_eq_call_iff, word]
    rfl
  have pushed : (holding callOfReturn).cpu.stack.push? 0x202 =
      some ⟨CallStack.empty.slots.set 0 0x202, 1⟩ := rfl
  rw [step_call call pushed, word]
  rfl

theorem call_returns_behind_itself :
    insideCall.word.family.val = 0x0 ∧ insideCall.word.nn = 0xEE ∧ insideCall.step.fault = none ∧
    insideCall.step.machine.cpu.pc = 0x202 := by
  have word : insideCall.word = 0x00EE := by
    have held := Memory.initial.readWord_overlay callOfReturn 4 (by decide) (by decide)
    exact held
  have returns : insideCall.word.family.val = 0x0 ∧ insideCall.word.nn = 0xEE := by
    rw [word]
    decide
  have unfaulted : insideCall.step.fault = none := by
    rw [step_fault, (upcoming_eq_ret_iff _).mpr returns]
    rfl
  obtain ⟨-, -, shown, returned⟩ :=
    returns_match_open_calls [] {} 0 [.load callOfReturn.toList, .step]
  rw [performAll_load_step _ (by decide), step_callOfReturn] at shown returned
  -- No further step lies between the call and the return, so the run is empty.
  have back := returned 0 rfl returns unfaulted
  simp only [run] at back
  have top : (insideCall.cpu.stack.slots.toList.take insideCall.cpu.stack.depth.val).getLast? =
      some 0x202 := rfl
  rw [openAfterRun, ← shown, top] at back
  exact ⟨returns.1, returns.2, unfaulted, (Option.some.inj back).symm⟩

end Machine
end ChipEight
