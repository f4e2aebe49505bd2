import ChipEight.Proofs.MemoryEffects

/-!
# Arithmetic and the flag register

The operations on two registers read both of them, write their result into the first and then a
carry, a borrow, a lost bit or a zero into the flag register, which may be either operand. Main
statement: result and flag come from the old values, the flag wins where both go into one register,
and nothing else changes but the counter and what is known of the last instruction.
-/
namespace ChipEight

/-! ### Bytes as numbers -/

namespace Byte

theorem toNat_add (left right : UInt8) :
    ((left + right).toNat : Int) = (left.toNat + right.toNat : Int) % 256 := by
  rw [UInt8.toNat_add]
  omega

theorem toNat_sub (left right : UInt8) :
    ((left - right).toNat : Int) = (left.toNat - right.toNat : Int) % 256 := by
  have bound := right.toNat_lt
  rw [UInt8.toNat_sub]
  omega

theorem toNat_emod (value : UInt8) : (value.toNat : Int) % 256 = value.toNat := by
  have bound := value.toNat_lt
  omega

theorem toNat_shiftRight (value : UInt8) :
    ((ShiftDirection.right.apply value).toNat : Int) = (value.toNat : Int) / 2 % 256 := by
  have bound := value.toNat_lt
  rw [ShiftDirection.apply, UInt8.toNat_shiftRight, Nat.shiftRight_eq_div_pow]
  change ((value.toNat / 2 : Nat) : Int) = _
  omega

theorem toNat_shiftLeft (value : UInt8) :
    ((ShiftDirection.left.apply value).toNat : Int) = (value.toNat : Int) * 2 % 256 := by
  rw [ShiftDirection.apply, UInt8.toNat_shiftLeft, Nat.shiftLeft_eq]
  change ((value.toNat * 2 % 256 : Nat) : Int) = _
  omega

theorem lostBit_right (value : UInt8) :
    ShiftDirection.right.lostBit value = value.toNat.testBit 0 := by
  rw [ShiftDirection.lostBit, Nat.testBit_zero, Bool.beq_eq_decide_eq, decide_eq_decide,
    ← UInt8.toNat_inj, UInt8.toNat_mod]
  rfl

theorem lostBit_left (value : UInt8) :
    ShiftDirection.left.lostBit value = value.toNat.testBit 7 := by
  have bound := value.toNat_lt
  rw [ShiftDirection.lostBit, Nat.testBit_eq_decide_div_mod_eq, Bool.beq_eq_decide_eq,
    decide_eq_decide, ← UInt8.toNat_inj, UInt8.toNat_div]
  change value.toNat / 128 = 1 ↔ value.toNat / 128 % 2 = 1
  omega

end Byte

namespace Processor

/-- The flag register is written if there is a flag. -/
def withFlag (cpu : Processor) (flag : Option Bool) : Processor := flag.elim cpu cpu.setFlag

theorem get_flag_withFlag (cpu : Processor) (raised : Bool) :
    (cpu.withFlag (some raised)).get .flag = if raised then 1 else 0 := by
  rw [withFlag, Option.elim, setFlag, get_set, if_pos rfl]

theorem get_withFlag_of_ne {cpu : Processor} {register : Register} {flag : Option Bool}
    (spared : register ≠ .flag ∨ flag = none) :
    (cpu.withFlag flag).get register = cpu.get register := by
  cases flag with
  | none => rfl
  | some raised =>
    have other : register ≠ .flag := spared.resolve_right (by simp)
    rw [withFlag, Option.elim, setFlag, get_set, if_neg other]

end Processor

namespace Machine

variable {machine : Machine}

/-- The machine after an instruction that goes on to the next one, with some values in the general
registers and the index register. -/
def goingOn (machine : Machine) (registers : Vector UInt8 16) (index : UInt16) : Machine :=
  { machine with
    cpu := { machine.cpu with
      registers
      index
      pc := Processor.following machine.cpu.pc
      last := ⟨machine.word, machine.cpu.pc⟩
      awaitingKey := false } }

/-- The next step puts a number into `VX`, modulo 256, and after it the flag, if there is one, into
the flag register. -/
structure Computes (machine : Machine) (result : Int) (flag : Option Bool) : Prop where
  unfaulted : machine.step.fault = none
  flag_eq : ∀ raised, flag = some raised →
    machine.step.machine.cpu.get .flag = if raised then 1 else 0
  result_eq : machine.word.x ≠ .flag ∨ flag = none →
    (machine.step.machine.cpu.get machine.word.x).toNat = result % 256
  kept : ∀ register, register ≠ machine.word.x → register ≠ .flag ∨ flag = none →
    machine.step.machine.cpu.get register = machine.cpu.get register
  frame : machine.step.machine =
    machine.goingOn machine.step.machine.cpu.registers machine.cpu.index

/-- The next step adds `VX` to the index register, modulo 65536, and raises the flag if the sum does
not fit into a byte. -/
structure AddsToIndex (machine : Machine) : Prop where
  unfaulted : machine.step.fault = none
  index : machine.step.machine.cpu.index.toNat =
    (machine.cpu.index.toNat + (machine.cpu.get machine.word.x).toNat) % 65536
  flag : machine.step.machine.cpu.get .flag =
    if 255 < machine.cpu.index.toNat + (machine.cpu.get machine.word.x).toNat then 1 else 0
  kept : ∀ register, register ≠ .flag →
    machine.step.machine.cpu.get register = machine.cpu.get register
  frame : machine.step.machine =
    machine.goingOn machine.step.machine.cpu.registers machine.step.machine.cpu.index

theorem computes_of_execute (value : UInt8) {result : Int} {flag : Option Bool}
    (done : machine.upcoming.execute machine.word machine.fetch = .ok { machine.fetch with
      cpu := (machine.fetch.cpu.set machine.word.x value).withFlag flag })
    (named : (value.toNat : Int) = result % 256) : machine.Computes result flag := by
  obtain ⟨stepped, unfaulted⟩ := step_of_ok done
  have get (register : Register) : machine.step.machine.cpu.get register =
      ((machine.fetch.cpu.set machine.word.x value).withFlag flag).get register := by
    rw [stepped]
  refine ⟨unfaulted, ?_, ?_, ?_, ?_⟩
  · rintro raised rfl
    rw [get, Processor.get_flag_withFlag]
  -- Where a flag is written, the flag register shows nothing of the result.
  · intro spared
    rw [get, Processor.get_withFlag_of_ne spared, Processor.get_set, if_pos rfl, named]
  · intro register other spared
    rw [get, Processor.get_withFlag_of_ne spared, Processor.get_set, if_neg other]
    rfl
  · rw [stepped]
    cases flag <;> rfl

theorem computes_logic {op : LogicOp}
    (upcoming : machine.upcoming = .logic op machine.dialect.logicClearsFlag) :
    machine.Computes
      (op.apply (machine.cpu.get machine.word.x) (machine.cpu.get machine.word.y)).toNat
      (if machine.dialect.logicClearsFlag then some false else none) := by
  refine computes_of_execute _ ?_ (Byte.toNat_emod _).symm
  rw [upcoming]
  cases machine.dialect.logicClearsFlag <;> rfl

theorem computes_add (upcoming : machine.upcoming = .add) :
    let vx := (machine.cpu.get machine.word.x).toNat
    let vy := (machine.cpu.get machine.word.y).toNat
    machine.Computes (vx + vy) (some (255 < vx + vy)) := by
  intro vx vy
  refine computes_of_execute (machine.cpu.get machine.word.x + machine.cpu.get machine.word.y) ?_
    (Byte.toNat_add _ _)
  rw [upcoming]
  rfl

theorem computes_subtract (upcoming : machine.upcoming = .subtract) :
    let vx := (machine.cpu.get machine.word.x).toNat
    let vy := (machine.cpu.get machine.word.y).toNat
    machine.Computes (vx - vy) (some (vy ≤ vx)) := by
  intro vx vy
  refine computes_of_execute (machine.cpu.get machine.word.x - machine.cpu.get machine.word.y) ?_
    (Byte.toNat_sub _ _)
  rw [upcoming]
  rfl

theorem computes_subtractFrom (upcoming : machine.upcoming = .subtractFrom) :
    let vx := (machine.cpu.get machine.word.x).toNat
    let vy := (machine.cpu.get machine.word.y).toNat
    machine.Computes (vy - vx) (some (vx ≤ vy)) := by
  intro vx vy
  refine computes_of_execute (machine.cpu.get machine.word.y - machine.cpu.get machine.word.x) ?_
    (Byte.toNat_sub _ _)
  rw [upcoming]
  rfl

theorem computes_shift {direction : ShiftDirection} {source : UInt8} {result : Int}
    (upcoming : machine.upcoming = .shift direction machine.dialect.shiftInPlace)
    (read : source = machine.cpu.get
      (if machine.dialect.shiftInPlace then machine.word.x else machine.word.y))
    (named : ((direction.apply source).toNat : Int) = result % 256) :
    machine.Computes result (some (direction.lostBit source)) := by
  refine computes_of_execute (direction.apply source) ?_ named
  rw [upcoming, read]
  cases machine.dialect.shiftInPlace <;> rfl

theorem addsToIndex (upcoming : machine.upcoming = .addIndex) : machine.AddsToIndex := by
  have done : machine.upcoming.execute machine.word machine.fetch = .ok { machine.fetch with
      cpu := (machine.fetch.cpu.setIndex
        (machine.cpu.index + (machine.cpu.get machine.word.x).toUInt16)).setFlag
        (255 < machine.cpu.index.toNat + (machine.cpu.get machine.word.x).toNat) } := by
    rw [upcoming]
    rfl
  obtain ⟨stepped, unfaulted⟩ := step_of_ok done
  refine ⟨unfaulted, ?_, ?_, ?_, ?_⟩
  · rw [stepped]
    change (machine.cpu.index + (machine.cpu.get machine.word.x).toUInt16).toNat = _
    rw [UInt16.toNat_add, UInt8.toNat_toUInt16]
  · rw [stepped, Processor.setFlag, Processor.get_set, if_pos rfl]
    simp only [decide_eq_true_eq]
  · intro register other
    rw [stepped, Processor.setFlag, Processor.get_set, if_neg other]
    rfl
  · rw [stepped]
    rfl

theorem upcoming_of_nibble (family : machine.word.family.val = 0x8) (nibble : Fin 16)
    (named : machine.word.n.val = nibble.val) :
    machine.upcoming = OpcodeTable.groupEight machine.dialect nibble := by
  have listed : machine.word.family.val = OpcodeGroup.eight.family := family
  rw [machine.upcoming_of_group listed, OpcodeGroup.entry, Fin.ext named]

/-- Operands are read first, the result goes into `VX`, and the flag, written last, is what stays
where both go into the flag register. -/
theorem flag_is_written_last (machine : Machine) :
    let vx := (machine.cpu.get machine.word.x).toNat
    let vy := (machine.cpu.get machine.word.y).toNat
    let source := if machine.dialect.shiftInPlace then vx else vy
    let cleared := if machine.dialect.logicClearsFlag then some false else none
    (machine.word.family.val = 0x8 →
      (machine.word.n.val = 0x1 → machine.Computes (vx ||| vy : Nat) cleared) ∧
      (machine.word.n.val = 0x2 → machine.Computes (vx &&& vy : Nat) cleared) ∧
      (machine.word.n.val = 0x3 → machine.Computes (vx ^^^ vy : Nat) cleared) ∧
      (machine.word.n.val = 0x4 → machine.Computes (vx + vy) (some (255 < vx + vy))) ∧
      (machine.word.n.val = 0x5 → machine.Computes (vx - vy) (some (vy ≤ vx))) ∧
      (machine.word.n.val = 0x6 → machine.Computes (source / 2) (some (source.testBit 0))) ∧
      (machine.word.n.val = 0x7 → machine.Computes (vy - vx) (some (vx ≤ vy))) ∧
      (machine.word.n.val = 0xE → machine.Computes (source * 2) (some (source.testBit 7)))) ∧
    (machine.word.family.val = 0xF ∧ machine.word.nn = 0x1E → machine.AddsToIndex) := by
  intro vx vy source cleared
  -- Both shifts read one register or the other, so that its byte is chosen before they are told
  -- apart.
  obtain ⟨shifted, read⟩ : ∃ shifted, shifted = machine.cpu.get
      (if machine.dialect.shiftInPlace then machine.word.x else machine.word.y) := ⟨_, rfl⟩
  have source_eq : source = shifted.toNat := by
    rw [read]
    simp only [source, vx, vy]
    split <;> rfl
  constructor
  · intro family
    -- One case for each nibble that the group knows, a plain copy apart.
    refine ⟨?_, ?_, ?_, ?_, ?_, ?_, ?_, ?_⟩
    · intro named
      have logic := computes_logic (upcoming_of_nibble family 0x1 named)
      rw [LogicOp.apply, UInt8.toNat_or] at logic
      exact logic
    · intro named
      have logic := computes_logic (upcoming_of_nibble family 0x2 named)
      rw [LogicOp.apply, UInt8.toNat_and] at logic
      exact logic
    · intro named
      have logic := computes_logic (upcoming_of_nibble family 0x3 named)
      rw [LogicOp.apply, UInt8.toNat_xor] at logic
      exact logic
    · intro named
      exact computes_add (upcoming_of_nibble family 0x4 named)
    · intro named
      exact computes_subtract (upcoming_of_nibble family 0x5 named)
    · intro named
      rw [source_eq, ← Byte.lostBit_right]
      exact computes_shift (upcoming_of_nibble family 0x6 named) read
        (Byte.toNat_shiftRight shifted)
    · intro named
      exact computes_subtractFrom (upcoming_of_nibble family 0x7 named)
    · intro named
      rw [source_eq, ← Byte.lostBit_left]
      exact computes_shift (upcoming_of_nibble family 0xE named) read (Byte.toNat_shiftLeft shifted)
  · rintro ⟨family, named⟩
    have listed : machine.word.family.val = OpcodeGroup.f.family := family
    apply addsToIndex
    rw [machine.upcoming_of_group listed, OpcodeGroup.entry, named]
    rfl

/-- Of a sum of `VF` and itself only the carry stays, and an index beyond a byte raises the flag. -/
theorem carries_into_own_operand :
    let sum := beside 0x9F 200 #[0x8F, 0xF4]
    let index := beside 0x9F 200 #[0xFF, 0x1E]
    (sum.word.family.val = 0x8 ∧ sum.word.n.val = 0x4 ∧ sum.step.machine.cpu.get .flag = 1) ∧
    (index.word.family.val = 0xF ∧ index.word.nn = 0x1E) ∧
    index.step.machine.cpu.index.toNat = 0x9F + 200 ∧ index.step.machine.cpu.get .flag = 1 := by
  intro sum index
  have sum_word : sum.word = 0x8FF4 := by
    rw [word_beside, word_holding (by decide) (by decide)]
    decide
  have index_word : index.word = 0xFF1E := by
    rw [word_beside, word_holding (by decide) (by decide)]
    decide
  have sums : sum.word.family.val = 0x8 ∧ sum.word.n.val = 0x4 := by
    rw [sum_word]
    decide
  have adds : index.word.family.val = 0xF ∧ index.word.nn = 0x1E := by
    rw [index_word]
    decide
  obtain ⟨-, -, -, added, -⟩ := (flag_is_written_last sum).1 sums.1
  have carried := (added sums.2).flag_eq _ rfl
  have addition := (flag_is_written_last index).2 adds
  have moved := addition.index
  have raised := addition.flag
  rw [sum_word] at carried
  rw [index_word] at moved raised
  exact ⟨⟨sums.1, sums.2, carried⟩, adds, moved, raised⟩

/-- The machine that waits is left open, so that nothing has to look into its memory. -/
theorem exists_waiting :
    ∃ polled : Machine, (initial {} 0).performAll [] [.load [0xF0, 0x0A], .step] = polled ∧
      polled.cpu.pc = 0x200 ∧ polled.cpu.awaitingKey = true := by
  have polls : (holding #[0xF0, 0x0A]).upcoming = .awaitKey := by
    rw [upcoming_eq_awaitKey_iff, word_holding (by decide) (by decide)]
    decide
  have polled := performAll_load_step [] (show #[0xF0, 0x0A].toList.length ≤ _ by decide)
  exact ⟨_, polled, step_awaitKey_of_released polls rfl⟩

/-- A wait for a key is over when its word has been replaced and the new one is executed. -/
theorem sum_ends_a_wait :
    let waiting := (initial {} 0).performAll [] [.load [0xF0, 0x0A], .step, .load [0x80, 0x14]]
    waiting.word.family.val = 0x8 ∧ waiting.word.n.val = 0x4 ∧
    waiting.cpu.awaitingKey = true ∧ waiting.step.machine.cpu.awaitingKey = false := by
  intro waiting
  obtain ⟨polled, first, pc, awaiting⟩ := exists_waiting
  have loaded : waiting =
      { polled with memory := polled.memory.overlay Memory.imageStart #[0x80, 0x14] } := by
    have replaced := performAll_append (initial {} 0) [] [.load [0xF0, 0x0A], .step]
      [.load [0x80, 0x14]]
    have second := polled.perform_load [] (show [0x80, 0x14].length ≤ _ by decide)
    rw [first] at replaced
    exact replaced.trans second
  have word : waiting.word = 0x8014 := by
    have begins : waiting.cpu.pc = 0x200 := by
      rw [loaded]
      exact pc
    have held : waiting.memory = _ := congrArg Machine.memory loaded
    rw [word_of_overlay begins held (by decide) (by decide)]
    decide
  have sums : waiting.word.family.val = 0x8 ∧ waiting.word.n.val = 0x4 := by
    rw [word]
    decide
  have ended := (computes_add (upcoming_of_nibble sums.1 0x4 sums.2)).frame
  refine ⟨sums.1, sums.2, ?_, ?_⟩
  · rw [loaded]
    exact awaiting
  · rw [ended]
    rfl

end Machine
end ChipEight
