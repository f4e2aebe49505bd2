import ChipEight.Proofs.Unbounded.Drawing
import ChipEight.Proofs.Unbounded.Storage

/-!
# Instructions on a view

Every instruction does the same to a machine and to its view, in each variant that a dialect may
choose.
-/
namespace ChipEight.Unbounded

section Instructions
variable (word : Word) (machine : Machine)

theorem execute_jump_view :
    execute .jump (ofAddress word) (view machine) =
      viewResult (Operation.jump.execute word machine) := by
  -- The typed jump takes no remainder: twelve bits cannot leave memory.
  have reached : ofAddress word.nnn = ofAddress word.nnn % 4096 := by
    have small := word.nnn_lt
    unfold ofAddress
    omega
  rw [execute, nnn_ofAddress, jump_view machine word.nnn reached]
  rfl

theorem execute_jumpOffset_view (addsNamed : Bool) :
    execute (.jumpOffset addsNamed) (ofAddress word) (view machine) =
      viewResult ((Operation.jumpOffset addsNamed).execute word machine) := by
  have named : (if addsNamed then x (ofAddress word) else 0) =
      ((if addsNamed then word.x else Register.offset).val : Nat) := by
    cases addsNamed
    · rfl
    · exact x_ofAddress word
  rw [execute, named, get_view, ok_bind, nnn_ofAddress,
    jump_view machine _ (ofAddress_offset word _)]
  rfl

theorem execute_shift_view (direction : ShiftDirection) (inPlace : Bool) :
    execute (.shift direction inPlace) (ofAddress word) (view machine) =
      viewResult ((Operation.shift direction inPlace).execute word machine) := by
  have source : (view machine).get (if inPlace then x (ofAddress word) else y (ofAddress word)) =
      .ok (ofByte (if inPlace then machine.cpu.get word.x else machine.cpu.get word.y)) := by
    cases inPlace
    · exact y_ofAddress word ▸ get_view machine word.y
    · exact x_ofAddress word ▸ get_view machine word.x
  cases direction with
  | right =>
    rw [execute, source, ok_bind, x_ofAddress, ← ofByte_shiftRight, set_view, ok_bind,
      ofByte_lostBit_right]
    exact setFlag_view _ _
  | left =>
    rw [execute, source, ok_bind, x_ofAddress, ← ofByte_shiftLeft, set_view, ok_bind,
      ofByte_lostBit_left]
    exact setFlag_view _ _

theorem execute_logic_view (op : LogicOp) (clearsFlag : Bool) :
    execute (.logic op clearsFlag) (ofAddress word) (view machine) =
      viewResult ((Operation.logic op clearsFlag).execute word machine) := by
  rw [execute, x_ofAddress, y_ofAddress, get_view, ok_bind, get_view, ok_bind, ← ofByte_logic,
    set_view, ok_bind]
  cases clearsFlag
  · rfl
  · exact setFlag_view _ false

theorem execute_draw_view :
    execute .draw (ofAddress word) (view machine) =
      viewResult (Operation.draw.execute word machine) := by
  let rows := machine.memory.readBlock machine.cpu.index.toNat word.n.val
  let drawn := machine.screen.draw (machine.cpu.get word.x).toNat (machine.cpu.get word.y).toNat
    (rows.map (·.toNat))
  have block : (view machine).readBlock (view machine).index (word.n.val : Int).toNat =
      .ok (rows.map ofByte) := readBlock_view machine _ _
  rw [execute, x_ofAddress, y_ofAddress, n_ofAddress, get_view, ok_bind, get_view, ok_bind, block,
    ok_bind, drawRows_view, ok_bind]
  exact setFlag_view { machine with screen := drawn.1 } drawn.2

theorem execute_random_view :
    execute .random (ofAddress word) (view machine) =
      viewResult (Operation.random.execute word machine) := by
  rw [execute, x_ofAddress]
  simp only [ofByte_and_nn]
  exact set_view { machine with random := machine.random.nextByte.2 } word.x _

theorem execute_awaitKey_view :
    execute .awaitKey (ofAddress word) (view machine) =
      viewResult (Operation.awaitKey.execute word machine) := by
  rw [execute, Operation.execute, lowestHeld?_view, x_ofAddress]
  cases machine.keys.lowestHeld? with
  | none =>
    -- The counter goes back to the wait itself, also from the first address.
    simp only [Option.map_none, view, ← ofAddress_preceding]
    rfl
  | some key =>
    have number : ((key.val : Nat) : Int) = ofByte (UInt8.ofNat key.val) := by
      have bound := key.isLt
      simp only [ofByte, UInt8.toNat_ofNat']
      omega
    simp only [Option.map_some, number]
    exact set_view machine word.x _

theorem execute_decimal_view :
    execute .decimal (ofAddress word) (view machine) =
      viewResult (Operation.decimal.execute word machine) := by
  let value := machine.cpu.get word.x
  have hundreds : ofByte value / 100 = ofByte (value / 100) := (ofByte_div value 100).symm
  have tens : ofByte value / 10 % 10 = ofByte (value / 10 % 10) := by
    rw [ofByte_mod, ofByte_div]
    rfl
  have ones : ofByte value % 10 = ofByte (value % 10) := (ofByte_mod value 10).symm
  -- The three writes go into one memory after the other; the first has no offset to speak of.
  let one := machine.memory.store (machine.cpu.indexed 0) (value / 100)
  let two := one.store (machine.cpu.indexed 1) (value / 10 % 10)
  have first : write (view machine).memory (view machine).index (ofByte (value / 100)) =
      .ok (one.toList.map ofByte) := by
    rw [← Int.add_zero (view machine).index]
    exact write_view machine machine.memory 0 _
  have second : write (one.toList.map ofByte) ((view machine).index + 1)
      (ofByte (value / 10 % 10)) = .ok (two.toList.map ofByte) := write_view machine one 1 _
  have third : write (two.toList.map ofByte) ((view machine).index + 2) (ofByte (value % 10)) =
      .ok ((two.store (machine.cpu.indexed 2) (value % 10)).toList.map ofByte) :=
    write_view machine two 2 _
  rw [execute, x_ofAddress, get_view, ok_bind, hundreds, tens, ones, first, ok_bind, second,
    ok_bind, third, ok_bind]
  rfl

theorem execute_store_view (advance : IndexAdvance) :
    execute (.store advance) (ofAddress word) (view machine) =
      viewResult ((Operation.store advance).execute word machine) := by
  rw [execute, registerCount_ofAddress, storeRegisters_view machine _ word.x.isLt, ok_bind,
    x_ofAddress]
  let written := machine.memory.storeAll ((Operation.store advance).writes word machine.cpu)
  exact congrArg Except.ok (advance_view { machine with memory := written } advance word.x)

theorem execute_load_view (advance : IndexAdvance) :
    execute (.load advance) (ofAddress word) (view machine) =
      viewResult ((Operation.load advance).execute word machine) := by
  rw [execute, registerCount_ofAddress, loadRegisters_view, ok_bind, x_ofAddress]
  let loaded := { machine.cpu with registers := Operation.loadedRegisters word machine }
  exact congrArg Except.ok (advance_view { machine with cpu := loaded } advance word.x)

end Instructions

theorem execute_view (operation : Operation) (word : Word) (machine : Machine) :
    execute operation (ofAddress word) (view machine) =
      viewResult (operation.execute word machine) := by
  cases operation with
  | undefined => rfl
  | clear =>
    rw [execute, cleared_view]
    rfl
  | ret =>
    rw [execute, Operation.execute, pop_view]
    cases machine.cpu.stack.pop? with
    | none => rfl
    | some popped => rfl
  | jump => exact execute_jump_view word machine
  | call =>
    rw [execute, Operation.execute, show (view machine).pc = ofAddress machine.cpu.pc from rfl,
      push_view, nnn_ofAddress]
    cases machine.cpu.stack.push? machine.cpu.pc with
    | none => rfl
    | some pushed => rfl
  | skipByte whenEqual =>
    rw [execute, x_ofAddress, get_view, ok_bind, nn_ofAddress, ofByte_beq, skipIf_view]
    rfl
  | skipRegister whenEqual =>
    rw [execute, x_ofAddress, y_ofAddress, get_view, ok_bind, get_view, ok_bind, ofByte_beq,
      skipIf_view]
    rfl
  | setByte =>
    rw [execute, x_ofAddress, nn_ofAddress]
    exact set_view machine word.x word.nn
  | addByte =>
    rw [execute, x_ofAddress, get_view, ok_bind, nn_ofAddress, ← ofByte_add]
    exact set_view machine word.x _
  | copy =>
    rw [execute, x_ofAddress, y_ofAddress, get_view, ok_bind]
    exact set_view machine word.x _
  | logic op clearsFlag => exact execute_logic_view word machine op clearsFlag
  | add =>
    rw [execute, x_ofAddress, y_ofAddress, get_view, ok_bind, get_view, ok_bind, ← ofByte_add,
      set_view, ok_bind, setFlag_view]
    simp only [carry_ofByte]
    rfl
  | subtract =>
    rw [execute, x_ofAddress, y_ofAddress, get_view, ok_bind, get_view, ok_bind, ← ofByte_sub,
      set_view, ok_bind, setFlag_view]
    simp only [ofByte_le]
    rfl
  | subtractFrom =>
    rw [execute, x_ofAddress, y_ofAddress, get_view, ok_bind, get_view, ok_bind, ← ofByte_sub,
      set_view, ok_bind, setFlag_view]
    simp only [ofByte_le]
    rfl
  | shift direction inPlace => exact execute_shift_view word machine direction inPlace
  | setIndex =>
    rw [execute, nnn_ofAddress]
    rfl
  | jumpOffset addsNamed => exact execute_jumpOffset_view word machine addsNamed
  | random => exact execute_random_view word machine
  | draw => exact execute_draw_view word machine
  | skipKey whenHeld =>
    let key : Fin 16 := ⟨(machine.cpu.get word.x).toNat % 16, by omega⟩
    have named : ofByte (machine.cpu.get word.x) % 16 = (key.val : Nat) := by
      simp [ofByte, key]
    rw [execute, x_ofAddress, get_view, ok_bind, named, isHeld_view, ok_bind, skipIf_view]
    rfl
  | readDelay =>
    rw [execute, x_ofAddress]
    exact set_view machine word.x machine.cpu.delay
  | awaitKey => exact execute_awaitKey_view word machine
  | setDelay =>
    rw [execute, x_ofAddress, get_view, ok_bind]
    rfl
  | setSound =>
    rw [execute, x_ofAddress, get_view, ok_bind]
    rfl
  | addIndex =>
    -- The flag is judged on the sum before its remainder is taken.
    let moved := machine.cpu.setIndex (machine.cpu.index + (machine.cpu.get word.x).toUInt16)
    have carried : 255 < (view machine).index + ofByte (machine.cpu.get word.x) ↔
        255 < machine.cpu.index.toNat + (machine.cpu.get word.x).toNat := by
      simp only [view, ofAddress, ofByte]
      omega
    have sum := ofAddress_addByte machine.cpu.index (machine.cpu.get word.x)
    rw [execute, x_ofAddress, get_view, ok_bind]
    simp only [carried]
    rw [show (view machine).index = ofAddress machine.cpu.index from rfl, ← sum]
    exact setFlag_view { machine with cpu := moved } _
  | glyph =>
    rw [execute, x_ofAddress, get_view, ok_bind, ← ofAddress_glyph]
    rfl
  | decimal => exact execute_decimal_view word machine
  | store advance => exact execute_store_view word machine advance
  | load advance => exact execute_load_view word machine advance

end ChipEight.Unbounded
