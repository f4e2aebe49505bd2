import ChipEight.Proofs.Unbounded.Instructions

/-!
# The two machines agree

A step of the unbounded machine is the view of the machine's own step, and so are its runs and the
actions of a host. No list access fails there.
-/
namespace ChipEight.Unbounded

variable (machine : Machine)

theorem lor_ofByte (high low : UInt8) :
    Int.lor (ofByte high * 256) (ofByte low) = ofAddress (Word.ofBytes high low) := by
  have small : low.toNat < 2 ^ 8 := low.toNat_lt
  -- The low byte fits below the high one, so that nothing is carried.
  have joined : high.toNat * 256 ||| low.toNat = high.toNat * 256 + low.toNat := by
    rw [show high.toNat * 256 = high.toNat <<< 8 by rw [Nat.shiftLeft_eq],
      Nat.shiftLeft_add_eq_or_of_lt small]
  rw [ofAddress, Word.toNat_ofBytes, ← joined]
  rfl

theorem fetch_view : (view machine).fetch = .ok (view machine.fetch) := by
  rw [State.fetch, read_view, ok_bind, read_view, ok_bind, lor_ofByte]
  rw [show (view machine).pc = ofAddress machine.cpu.pc from rfl, ← ofAddress_following]
  rfl

theorem step_view :
    (view machine).step = (view machine.step.machine, machine.step.fault.map viewFault) := by
  -- The word finds the same operation in the lists as in the table, and it does the same.
  have executed : ((Table.ofDialect (view machine).dialect).lookup (view machine.fetch).word >>=
      fun operation => execute operation (view machine.fetch).word (view machine.fetch)) =
      viewResult (machine.upcoming.execute machine.word machine.fetch) := by
    rw [show (view machine.fetch).word = ofAddress machine.word from rfl, lookup_ofDialect, ok_bind,
      execute_view]
    rfl
  rw [State.step, fetch_view]
  simp only [executed]
  cases outcome : machine.upcoming.execute machine.word machine.fetch with
  | ok next =>
    obtain ⟨reached, unfaulted⟩ := Machine.step_of_ok outcome
    rw [reached, unfaulted]
    rfl
  | error fault =>
    obtain ⟨reached, faulted⟩ := Machine.step_of_error outcome
    rw [reached, faulted]
    rfl

theorem run_view (count : Nat) (machine : Machine) :
    State.run count (view machine) =
      (view (machine.run count).machine, (machine.run count).fault.map viewFault) := by
  induction count generalizing machine with
  | zero => rfl
  | succ count ih =>
    rw [State.run, step_view]
    cases faulted : machine.step.fault with
    | some fault =>
      -- Both runs stop here and answer with this step.
      rw [Machine.run_succ_of_fault faulted, faulted]
      rfl
    | none =>
      obtain ⟨reached, outcome⟩ := Machine.run_succ faulted count
      rw [reached, outcome]
      exact ih machine.step.machine

theorem ofByte_countdown (timer : UInt8) :
    ofByte (if timer = 0 then 0 else timer - 1) =
      if 0 < ofByte timer then ofByte timer - 1 else ofByte timer := by
  by_cases stopped : timer = 0
  · rw [if_pos stopped, stopped]
    rfl
  · have bounds := ofByte_bounds timer
    have running : 0 < ofByte timer := by
      have positive : ofByte timer ≠ ofByte 0 := fun same => stopped (ofByte_inj.mp same)
      exact lt_of_le_of_ne bounds.1 positive.symm
    rw [if_neg stopped, if_pos running, ofByte_sub, show ofByte 1 = 1 from rfl]
    omega

theorem tick_view : (view machine).tick = view machine.tick := by
  rw [State.tick, Machine.tick, Processor.tick]
  simp only [view, ofByte_countdown]
  rfl

theorem reset_view : (view machine).reset = .ok (view machine.reset) := by
  have registers : (view machine).registers.length = 16 := by simp [view]
  have slots : (view machine).slots.length = 16 := by simp [view]
  have keys : (view machine).keys.length = 16 := by simp [view]
  rw [State.reset, assign_all _ _ registers, ok_bind, assign_all _ _ slots, ok_bind,
    assign_all _ _ keys, ok_bind, cleared_view]
  rfl

/-- What a host is told, with an unbounded fault for a stack fault. -/
def viewFailure : ChipEight.Failure → Failure
  | .stack fault => .fault (viewFault fault)
  | .image rejected => .image rejected
  | .file error => .file error

theorem load_view (image : List UInt8) (after : List Diagnostic) :
    (view machine).load image =
      (view (machine.loading image after).machine,
        (machine.loading image after).failure.map viewFailure) := by
  rw [State.load, Machine.loading_eq]
  by_cases fits : image.length ≤ Memory.imageCapacity
  · have small : ¬3584 < image.length := Nat.not_lt.mpr fits
    have copied : (view machine).memory.take 0x200 ++ image.map ofByte ++
        (view machine).memory.drop (0x200 + image.length) =
        (machine.memory.overlay Memory.imageStart image.toArray).toList.map ofByte :=
      overlay_shown machine.memory fits
    rw [if_pos fits, if_neg small, copied, ← view_memory]
    rfl
  · have large : 3584 < image.length := Nat.lt_of_not_le fits
    rw [if_neg fits, if_pos large]
    rfl

theorem perform_view (directory : Directory) (action : Machine.Action) :
    (view machine).perform directory action =
      (view (machine.perform directory action).machine,
        (machine.perform directory action).failure.map viewFailure) := by
  cases action with
  | load image => exact load_view machine image []
  | loadFile name =>
    rw [State.perform, Machine.perform]
    cases directory.read name with
    | ok image => exact load_view machine image _
    | error error => rfl
  | unload =>
    have cleared : (view machine.reset).memory.take 0x200 ++ List.replicate 3584 0 =
        machine.memory.clearImage.toList.map ofByte := clearImage_shown machine.memory
    rw [State.perform, reset_view, ok_bind, cleared, ← view_memory, State.attempt, Machine.perform,
      Machine.unload, Option.map_none]
  | reset =>
    rw [State.perform, reset_view]
    rfl
  | step =>
    rw [State.perform, step_view]
    simp only [Machine.perform, Machine.Response.ofOutcome, Option.map_map]
    rfl
  | run count =>
    rw [State.perform, run_view]
    simp only [Machine.perform, Machine.Response.ofOutcome, Option.map_map]
    rfl
  | tick =>
    rw [State.perform, tick_view]
    rfl
  | setKeys states =>
    rw [State.perform, copy_view, ok_bind, ← view_keys, State.attempt, Machine.perform,
      Machine.setKeys, Option.map_none]
  | holdKey key held =>
    rw [State.perform, hold_view, ok_bind, ← view_keys, State.attempt, Machine.perform,
      Machine.holdKey, Option.map_none]
  | setRedraw redraw => rfl

theorem performAll_view (directory : Directory) (actions : List Machine.Action)
    (machine : Machine) :
    (view machine).performAll directory actions = view (machine.performAll directory actions) := by
  induction actions generalizing machine with
  | nil => rfl
  | cons action actions ih =>
    rw [State.performAll, List.foldl_cons, perform_view]
    exact ih (machine.perform directory action).machine

theorem initial_view (dialect : Dialect) (seed : Int) :
    State.initial dialect seed = view (Machine.initial dialect seed) := by
  have screen : List.replicate 2048 (0 : Int) = Screen.blank.cells.toList.map ofCell := by
    rw [Screen.blank, Vector.toList_replicate, List.map_replicate]
    rfl
  rw [State.initial, initial_shown, screen]
  rfl

end ChipEight.Unbounded
