import ChipEight.Proofs.Addresses
import ChipEight.Proofs.Unbounded.Agreement

/-!
# Bounds without types

Whatever a host does, the unbounded machine keeps its registers, addresses and lists within the
bounds of the machine that it is a view of, and no access of a list misses. A step fails only by
leaving the call stack.
-/
namespace ChipEight.Unbounded

structure State.WithinBounds (state : State) : Prop where
  registers : state.registers.length = 16 ∧ ∀ value ∈ state.registers, 0 ≤ value ∧ value ≤ 0xFF
  index : 0 ≤ state.index ∧ state.index ≤ 0xFFFF
  pc : 0 ≤ state.pc ∧ state.pc ≤ 0xFFF
  depth : 0 ≤ state.depth ∧ state.depth ≤ 16
  slots : state.slots.length = 16 ∧ ∀ address ∈ state.slots, 0 ≤ address ∧ address ≤ 0xFFF
  delay : 0 ≤ state.delay ∧ state.delay ≤ 0xFF
  sound : 0 ≤ state.sound ∧ state.sound ≤ 0xFF
  word : 0 ≤ state.word ∧ state.word ≤ 0xFFFF
  address : 0 ≤ state.address ∧ state.address ≤ 0xFFF
  memory : state.memory.length = 4096 ∧ ∀ byte ∈ state.memory, 0 ≤ byte ∧ byte ≤ 0xFF
  keys : state.keys.length = 16
  screen : state.screen.length = 2048 ∧ ∀ cell ∈ state.screen, cell = 0 ∨ cell = lit

theorem ofAddress_bounds_of_lt {address : UInt16} (small : address.toNat < 4096) :
    0 ≤ ofAddress address ∧ ofAddress address ≤ 0xFFF := by
  unfold ofAddress
  omega

theorem ofByte_bounds_of_mem {size : Nat} (bytes : Vector UInt8 size) :
    ∀ value ∈ bytes.toList.map ofByte, 0 ≤ value ∧ value ≤ 0xFF := by
  intro value member
  obtain ⟨byte, _, rfl⟩ := List.mem_map.mp member
  exact ofByte_bounds byte

theorem withinBounds_view {machine : Machine} (within : machine.cpu.WithinMemory) :
    (view machine).WithinBounds where
  registers := ⟨by simp [view], ofByte_bounds_of_mem machine.cpu.registers⟩
  index := ofAddress_bounds machine.cpu.index
  pc := ofAddress_bounds_of_lt within.pc
  depth := by
    have bound := machine.cpu.stack.depth.isLt
    simp only [view]
    omega
  slots := by
    refine ⟨by simp [view], ?_⟩
    intro value member
    obtain ⟨address, held, rfl⟩ := List.mem_map.mp member
    obtain ⟨slot, inside, rfl⟩ := List.mem_iff_getElem.mp held
    have slot_lt : slot < 16 := by simpa using inside
    have small := within.slots ⟨slot, slot_lt⟩
    rw [Vector.getElem_toList]
    exact ofAddress_bounds_of_lt small
  delay := ofByte_bounds machine.cpu.delay
  sound := ofByte_bounds machine.cpu.sound
  word := ofAddress_bounds machine.cpu.last.word
  address := ofAddress_bounds_of_lt within.last
  memory := ⟨by simp [view, Memory.toList], ofByte_bounds_of_mem machine.memory.bytes⟩
  keys := by simp [view]
  screen := by
    refine ⟨by simp [view], ?_⟩
    intro value member
    obtain ⟨on, _, rfl⟩ := List.mem_map.mp member
    -- A cell is shown as one of two numbers.
    cases on
    · exact .inl rfl
    · exact .inr rfl

theorem step_view_in_range (machine : Machine) : (view machine).step.2 ≠ some .outOfRange := by
  rw [step_view]
  cases machine.step.fault <;> simp [viewFault]

theorem perform_view_in_range (machine : Machine) (directory : Directory)
    (action : Machine.Action) :
    ((view machine).perform directory action).2 ≠ some (.fault .outOfRange) := by
  rw [perform_view]
  cases (machine.perform directory action).failure with
  | none => simp
  | some failure => cases failure <;> simp [viewFailure, viewFault]

/-- A host may do anything with a fresh machine, in any order, and go on after failures. -/
theorem State.bounded_and_in_range (directory : Directory) (dialect : Dialect) (seed : Int)
    (actions : List Machine.Action) :
    let state := (State.initial dialect seed).performAll directory actions
    let machine := (Machine.initial dialect seed).performAll directory actions
    state = view machine ∧ state.WithinBounds ∧
      state.step = (view machine.step.machine, machine.step.fault.map viewFault) ∧
      state.step.2 ≠ some .outOfRange ∧
      ∀ action, (state.perform directory action).2 ≠ some (.fault .outOfRange) := by
  intro state machine
  have agree : state = view machine := by
    rw [show state = (State.initial dialect seed).performAll directory actions from rfl,
      initial_view, performAll_view]
  -- At a view the types give most bounds, and the addresses have their own invariant.
  rw [agree]
  exact ⟨rfl, withinBounds_view (Machine.performAll_withinMemory directory dialect seed actions),
    step_view machine, step_view_in_range machine, perform_view_in_range machine directory⟩

end ChipEight.Unbounded
