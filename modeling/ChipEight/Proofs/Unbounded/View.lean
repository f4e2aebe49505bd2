import ChipEight.Proofs.Step
import ChipEight.Proofs.Unbounded.Execution

/-!
# A machine seen as an unbounded one

The view forgets that a machine's values fit their registers. Each reading, writing and sum of the
unbounded machine gives on a view what the machine's own gives.
-/
namespace ChipEight.Unbounded

def ofAddress (address : UInt16) : Int := address.toNat

def ofCell (on : Bool) : Int := if on then lit else 0

def view (machine : Machine) : State where
  dialect := machine.dialect
  registers := machine.cpu.registers.toList.map ofByte
  index := ofAddress machine.cpu.index
  pc := ofAddress machine.cpu.pc
  depth := machine.cpu.stack.depth.val
  slots := machine.cpu.stack.slots.toList.map ofAddress
  delay := ofByte machine.cpu.delay
  sound := ofByte machine.cpu.sound
  word := ofAddress machine.cpu.last.word
  address := ofAddress machine.cpu.last.address
  halted := machine.cpu.halted
  awaitingKey := machine.cpu.awaitingKey
  memory := machine.memory.toList.map ofByte
  screen := machine.screen.cells.toList.map ofCell
  redraw := machine.screen.redraw
  keys := machine.keys.toList
  random := machine.random

def viewFault (fault : StackFault) : Fault := .stack fault.kind (ofAddress fault.address)

def viewResult : Except StackFault Machine → Except Fault State
  | .ok machine => .ok (view machine)
  | .error fault => .error (viewFault fault)

theorem view_memory (machine : Machine) (memory : Memory) :
    view { machine with memory } = { view machine with memory := memory.toList.map ofByte } :=
  rfl

theorem view_keys (machine : Machine) (keys : Keypad) :
    view { machine with keys } = { view machine with keys := keys.toList } :=
  rfl

theorem ofByte_bounds (byte : UInt8) : 0 ≤ ofByte byte ∧ ofByte byte ≤ 0xFF := by
  have bound := byte.toNat_lt
  unfold ofByte
  omega

theorem ofAddress_bounds (address : UInt16) :
    0 ≤ ofAddress address ∧ ofAddress address ≤ 0xFFFF := by
  have bound := address.toNat_lt
  unfold ofAddress
  omega

theorem ofByte_inj {left right : UInt8} : ofByte left = ofByte right ↔ left = right := by
  rw [← UInt8.toNat_inj]
  unfold ofByte
  omega

theorem ofByte_beq (left right : UInt8) : (ofByte left == ofByte right) = (left == right) := by
  rw [Bool.eq_iff_iff, beq_iff_eq, beq_iff_eq, ofByte_inj]

theorem ofByte_le {left right : UInt8} : ofByte left ≤ ofByte right ↔ left ≤ right := by
  rw [UInt8.le_iff_toNat_le]
  unfold ofByte
  omega

theorem ofAddress_inj {left right : UInt16} : ofAddress left = ofAddress right ↔ left = right := by
  rw [← UInt16.toNat_inj]
  unfold ofAddress
  omega

section Operands
variable (word : Word)

theorem x_ofAddress : x (ofAddress word) = (word.x.val : Nat) := by
  simp [x, Word.x, ofAddress]

/-- How many registers a word from `V0` to `VX` names. -/
theorem registerCount_ofAddress : (x (ofAddress word) + 1).toNat = word.x.val + 1 := by
  rw [x_ofAddress]
  omega

theorem y_ofAddress : y (ofAddress word) = (word.y.val : Nat) := by
  simp [y, Word.y, ofAddress]

theorem n_ofAddress : n (ofAddress word) = (word.n.val : Nat) := by
  simp [n, Word.n, ofAddress]

theorem nn_ofAddress : nn (ofAddress word) = ofByte word.nn := by
  simp [nn, ofByte, ofAddress]

theorem nnn_ofAddress : nnn (ofAddress word) = ofAddress word.nnn := by
  simp [nnn, ofAddress]

end Operands

section Sums
variable (left right : UInt8)

theorem ofByte_add : ofByte (left + right) = (ofByte left + ofByte right) % 256 := by
  simp [ofByte]

theorem carry_ofByte : 255 < ofByte left + ofByte right ↔ 255 < left.toNat + right.toNat := by
  simp only [ofByte]
  omega

theorem ofByte_sub : ofByte (left - right) = (ofByte left - ofByte right) % 256 := by
  -- A byte below zero comes back from above; an integer remainder is never negative.
  have bound := right.toNat_lt
  simp only [ofByte, UInt8.toNat_sub]
  omega

theorem ofByte_div : ofByte (left / right) = ofByte left / ofByte right := by
  simp [ofByte]

theorem ofByte_mod : ofByte (left % right) = ofByte left % ofByte right := by
  simp [ofByte]

theorem ofByte_logic (op : LogicOp) :
    ofByte (op.apply left right) = logic op (ofByte left) (ofByte right) := by
  cases op <;> simp only [LogicOp.apply, logic, ofByte, UInt8.toNat_or, UInt8.toNat_and,
    UInt8.toNat_xor] <;> rfl

theorem ofByte_shiftRight : ofByte (ShiftDirection.right.apply left) = ofByte left / 2 := by
  simp [ShiftDirection.apply, ofByte, Nat.shiftRight_eq_div_pow]

theorem ofByte_shiftLeft : ofByte (ShiftDirection.left.apply left) = ofByte left * 2 % 256 := by
  simp [ShiftDirection.apply, ofByte, Nat.shiftLeft_eq]

theorem ofByte_lostBit_right :
    ofByte left % 2 = if ShiftDirection.right.lostBit left then 1 else 0 := by
  simp only [ShiftDirection.lostBit, ofByte, beq_iff_eq, ← UInt8.toNat_inj, UInt8.toNat_mod,
    UInt8.reduceToNat]
  split <;> omega

theorem ofByte_lostBit_left :
    ofByte left / 128 = if ShiftDirection.left.lostBit left then 1 else 0 := by
  have bound := left.toNat_lt
  simp only [ShiftDirection.lostBit, ofByte, beq_iff_eq, ← UInt8.toNat_inj, UInt8.toNat_div,
    UInt8.reduceToNat]
  split <;> omega

theorem ofByte_and_nn (word : Word) :
    Int.land (ofByte left) (ofAddress word) % 256 = ofByte (left &&& word.nn) := by
  -- Both remainders by 256 become conjunctions with 255, which may be moved about.
  have masked : word.toNat % 256 = word.toNat &&& 255 := (Nat.and_two_pow_sub_one_eq_mod _ 8).symm
  have low : (left.toNat &&& word.toNat) % 256 = left.toNat &&& word.toNat &&& 255 :=
    (Nat.and_two_pow_sub_one_eq_mod _ 8).symm
  simp only [ofByte, ofAddress, UInt8.toNat_and, Word.toNat_nn, masked, ← Nat.and_assoc, ← low]
  rfl

end Sums

section Registers
variable (machine : Machine) (register : Register)

theorem get_view : (view machine).get register.val = .ok (ofByte (machine.cpu.get register)) :=
  entry_shown machine.cpu.registers ofByte register.val register.isLt

theorem set_view (value : UInt8) :
    (view machine).set register.val (ofByte value) =
      .ok (view { machine with cpu := machine.cpu.set register value }) := by
  rw [State.set]
  have replaced := replace_shown machine.cpu.registers ofByte register.val register.isLt value
  rw [show (view machine).registers = machine.cpu.registers.toList.map ofByte from rfl, replaced]
  rfl

theorem setFlag_view (raised : Bool) :
    (view machine).setFlag raised =
      .ok (view { machine with cpu := machine.cpu.setFlag raised }) := by
  cases raised
  · exact set_view machine .flag 0
  · exact set_view machine .flag 1

end Registers

section Counter
variable (machine : Machine)

theorem ofAddress_following (address : UInt16) :
    ofAddress (Processor.following address) = (ofAddress address + 2) % 4096 := by
  simp only [ofAddress, Processor.toNat_following]
  omega

theorem skipIf_view (condition : Bool) :
    (view machine).skipIf condition =
      view { machine with cpu := machine.cpu.skipIf condition } := by
  cases condition
  · rfl
  · simp only [State.skipIf, Processor.skipIf, if_true, view, ofAddress_following]

theorem ofAddress_offset (word : Word) (offset : UInt8) :
    ofAddress ((word.nnn + offset.toUInt16) % 4096) =
      (ofByte offset + ofAddress word.nnn) % 4096 := by
  have small := word.nnn_lt
  have bound := offset.toNat_lt
  simp only [ofAddress, ofByte, UInt16.toNat_mod, UInt16.toNat_add, UInt8.toNat_toUInt16,
    UInt16.reduceToNat]
  omega

theorem ofAddress_preceding (address : UInt16) :
    ofAddress ((address - 2) % 4096) = (ofAddress address - 2) % 4096 := by
  have bound := address.toNat_lt
  simp only [ofAddress, UInt16.toNat_mod, UInt16.toNat_sub, UInt16.reduceToNat]
  omega

theorem jump_view (target : UInt16) {number : Int} (reached : ofAddress target = number % 4096) :
    (view machine).jump number = view { machine with cpu := machine.cpu.jump target } := by
  simp only [State.jump, Processor.jump, view, ← reached, ofAddress_inj]
  -- The hint is raised by a jump to its own address and otherwise left alone.
  by_cases own : target = machine.cpu.last.address
  · simp [own]
  · simp [own]

end Counter

section Index
variable (machine : Machine)

theorem ofAddress_addByte (index : UInt16) (offset : UInt8) :
    ofAddress (index + offset.toUInt16) = (ofAddress index + ofByte offset) % 65536 := by
  simp [ofAddress, ofByte]

theorem ofAddress_glyph (number : UInt8) :
    ofAddress (UInt16.ofNat (Font.glyphAddress number.toNat)) =
      0x50 + 5 * (ofByte number % 16) := by
  simp only [ofAddress, ofByte, UInt16.toNat_ofNat', Font.glyphAddress, Font.start, Font.glyphSize]
  omega

theorem advance_view (advance : IndexAdvance) (register : Register) :
    (view machine).advance advance register.val =
      view { machine with
        cpu := machine.cpu.setIndex
          (machine.cpu.index + UInt16.ofNat (advance.distance register.val)) } := by
  have moved (distance : Nat) : ofAddress (machine.cpu.index + UInt16.ofNat distance) =
      (ofAddress machine.cpu.index + distance) % 65536 := by
    simp [ofAddress]
  cases advance with
  | pastLast =>
    simp only [State.advance, IndexAdvance.distance, Processor.setIndex, view, moved]
    simp [Int.add_assoc]
  | ontoLast => simp only [State.advance, IndexAdvance.distance, Processor.setIndex, view, moved]
  | unchanged =>
    have fits : (ofAddress machine.cpu.index + (0 : Nat)) % 65536 =
        ofAddress machine.cpu.index := by
      have bounds := ofAddress_bounds machine.cpu.index
      omega
    simp only [State.advance, IndexAdvance.distance, Processor.setIndex, view, moved, fits]

end Index

theorem cleared_view (machine : Machine) :
    (view machine).screen.map (fun _ => (0 : Int)) = Screen.blank.cells.toList.map ofCell := by
  simp only [view, List.map_const', List.length_map, Vector.length_toList, Screen.blank,
    Vector.toList_replicate, List.map_replicate]
  rfl

section Stack
variable (machine : Machine)

theorem push_view (address : UInt16) :
    (view machine).push (ofAddress address) =
      match machine.cpu.stack.push? address with
      | some stack => .ok (view { machine with cpu := { machine.cpu with stack } })
      | none => .error (viewFault ⟨.overflow, machine.cpu.last.address⟩) := by
  unfold State.push CallStack.push?
  -- The check that overflows is also what keeps the write within the slots.
  by_cases free : machine.cpu.stack.depth.val < 16
  · have replaced := replace_shown machine.cpu.stack.slots ofAddress _ free address
    have room : ¬16 ≤ (view machine).depth := by
      simp only [view]
      omega
    rw [if_neg room, dif_pos free]
    simp only [view] at replaced ⊢
    rw [replaced, ok_bind]
    simp only [Int.natCast_add, Int.natCast_one]
  · have full : 16 ≤ (view machine).depth := by
      simp only [view]
      omega
    rw [if_pos full, dif_neg free]
    rfl

theorem pop_view :
    (view machine).pop =
      match machine.cpu.stack.pop? with
      | some (address, stack) =>
        .ok (ofAddress address, view { machine with cpu := { machine.cpu with stack } })
      | none => .error (viewFault ⟨.underflow, machine.cpu.last.address⟩) := by
  unfold State.pop CallStack.pop?
  -- A stack in use has a slot below its depth; an empty one is never read.
  by_cases used : 0 < machine.cpu.stack.depth.val
  · have found := entry_shown machine.cpu.stack.slots ofAddress (machine.cpu.stack.depth.val - 1)
      (by omega)
    have below : (view machine).depth - 1 = (machine.cpu.stack.depth.val - 1 : Nat) := by
      simp only [view]
      omega
    have filled : (view machine).depth ≠ 0 := by
      simp only [view]
      omega
    rw [if_neg filled, dif_pos used, below]
    simp only [view] at found ⊢
    rw [found, ok_bind]
  · have empty : (view machine).depth = 0 := by
      simp only [view]
      omega
    rw [if_pos empty, dif_neg used]
    rfl

end Stack

end ChipEight.Unbounded
