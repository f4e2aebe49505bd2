import ChipEight.Proofs.Disassembly
import ChipEight.Proofs.NextAddress
import ChipEight.Proofs.RandomBytes
import ChipEight.Proofs.Redraw
import ChipEight.Proofs.RegisterBlocks
import ChipEight.Proofs.SelfJumps

/-!
# What a step may touch

A word names the parts of a machine that it works on, and a step leaves the others as they are. The
lemmas on `execute` say which operations write to a part, and the opcode tables say which words have
these operations. Main statement: whatever a step changes is named by its word, in every dialect.
-/
namespace ChipEight

namespace Processor

theorem get_set_of_ne {register other : Register} (apart : register ≠ other) (cpu : Processor)
    (value : UInt8) : (cpu.set other value).get register = cpu.get register := by
  rw [get_set, if_neg apart]

theorem get_setFlag_of_ne {register : Register} (apart : register ≠ .flag) (cpu : Processor)
    (raised : Bool) : (cpu.setFlag raised).get register = cpu.get register :=
  get_set_of_ne apart cpu _

end Processor

namespace Operation

/-- The operation gives `VX` a new value. -/
def WritesNamed : Operation → Prop
  | setByte | addByte | copy | logic _ _ | add | subtract | subtractFrom | shift _ _ | random
  | readDelay | awaitKey => True
  | _ => False

/-- The operation leaves a flag behind. -/
def WritesFlag : Operation → Prop
  | logic _ clearsFlag => clearsFlag = true
  | add | subtract | subtractFrom | shift _ _ | draw | addIndex => True
  | _ => False

/-- The operation moves the index register. -/
def WritesIndex : Operation → Prop
  | setIndex | addIndex | glyph => True
  | store advance | load advance => advance ≠ .unchanged
  | _ => False

variable {operation : Operation} {word : Word} {machine next : Machine}
  (done : operation.execute word machine = .ok next)
include done

theorem execute_get {register : Register} (named : operation.WritesNamed → register ≠ word.x)
    (flag : operation.WritesFlag → register ≠ .flag)
    (loaded : ∀ advance, operation = load advance → ¬register ≤ word.x) :
    next.cpu.get register = machine.cpu.get register := by
  cases operation with
  | setByte | addByte | copy | readDelay =>
    cases done
    exact Processor.get_set_of_ne (named trivial) _ _
  | logic op clearsFlag =>
    cases done
    cases clearsFlag with
    | false => exact Processor.get_set_of_ne (named trivial) _ _
    | true =>
      exact (Processor.get_setFlag_of_ne (flag rfl) _ _).trans
        (Processor.get_set_of_ne (named trivial) _ _)
  | add | subtract | subtractFrom | shift _ _ =>
    -- The result is written before the flag, and neither goes to this register.
    cases done
    exact (Processor.get_setFlag_of_ne (flag trivial) _ _).trans
      (Processor.get_set_of_ne (named trivial) _ _)
  | random =>
    rw [execute_random] at done
    cases done
    exact Processor.get_set_of_ne (named trivial) _ _
  | draw | addIndex =>
    cases done
    exact Processor.get_setFlag_of_ne (flag trivial) _ _
  | awaitKey =>
    simp only [execute] at done
    split at done
    · cases done
      exact Processor.get_set_of_ne (named trivial) _ _
    · cases done
      rfl
  | load advance =>
    cases done
    simp [Processor.get, loadedRegisters, loaded advance rfl]
  | skipByte _ | skipRegister _ | skipKey _ =>
    cases done
    simp only [Processor.skipIf]
    split <;> rfl
  | call | ret =>
    simp only [execute] at done
    split at done
    · cases done
      rfl
    · cases done
  | undefined | clear | jump | jumpOffset _ | setIndex | setDelay | setSound | glyph | decimal
  | store _ =>
    cases done
    rfl

theorem execute_index (spared : ¬operation.WritesIndex) :
    next.cpu.index = machine.cpu.index := by
  cases operation with
  | setIndex | addIndex | glyph => exact absurd trivial spared
  | store advance | load advance =>
    obtain rfl : advance = .unchanged := not_not.mp spared
    cases done
    exact UInt16.add_zero _
  | skipByte _ | skipRegister _ | skipKey _ =>
    cases done
    simp only [Processor.skipIf]
    split <;> rfl
  | logic _ clearsFlag =>
    cases done
    cases clearsFlag <;> rfl
  | random =>
    rw [execute_random] at done
    cases done
    rfl
  | call | ret | awaitKey =>
    simp only [execute] at done
    split at done <;> cases done <;> rfl
  | _ => cases done; rfl

/-- A return leaves the slots alone: the one that it reads stays behind with its value. -/
theorem execute_slots (no_call : operation ≠ .call) :
    next.cpu.stack.slots = machine.cpu.stack.slots := by
  by_cases returns : operation = ret
  · subst returns
    simp only [execute] at done
    split at done
    next address stack popped =>
      cases done
      unfold CallStack.pop? at popped
      split at popped
      · cases popped
        rfl
      · cases popped
    · cases done
  · rw [(execute_spares done).stack no_call returns]

end Operation

namespace Word

variable (dialect : Dialect) (word : Word)

/-- The word gives `VX` a new value. -/
def WritesNamed : Prop :=
  word.family.val = 0x6 ∨ word.family.val = 0x7 ∨ word.family.val = 0xC ∨
  word.family.val = 0x8 ∧ (word.n.val ≤ 0x7 ∨ word.n.val = 0xE) ∨
  word.family.val = 0xF ∧ (word.nn = 0x07 ∨ word.nn = 0x0A ∨ word.nn = 0x65)

/-- The word leaves a flag behind, whichever registers it names. -/
def WritesFlag : Prop :=
  word.family.val = 0x8 ∧
    (0x4 ≤ word.n.val ∧ word.n.val ≤ 0x7 ∨ word.n.val = 0xE ∨
      (1 ≤ word.n.val ∧ word.n.val ≤ 3) ∧ dialect.logicClearsFlag = true) ∨
  word.family.val = 0xD ∨
  word.family.val = 0xF ∧ word.nn = 0x1E

/-- The word moves the index register. -/
def WritesIndex : Prop :=
  word.family.val = 0xA ∨
  word.family.val = 0xF ∧
    (word.nn = 0x1E ∨ word.nn = 0x29 ∨
      (word.nn = 0x55 ∨ word.nn = 0x65) ∧ dialect.indexAdvance ≠ .unchanged)

variable {dialect word} {operation : Operation}
  (found : (OpcodeTable.ofDialect dialect).lookup word = operation)
include found

open OpcodeTable

theorem writesNamed_of_lookup (writes : operation.WritesNamed) : word.WritesNamed := by
  cases operation with
  | setByte => exact .inl (family_of_lookup found rfl)
  | addByte => exact .inr (.inl (family_of_lookup found rfl))
  | random => exact .inr (.inr (.inl (family_of_lookup found rfl)))
  | copy | add | subtract | subtractFrom =>
    have nibble := n_of_lookup found rfl
    exact .inr (.inr (.inr (.inl ⟨family_of_lookup found rfl, .inl (by omega)⟩)))
  | logic op _ =>
    have nibble : word.n.val ≤ 0x7 := by
      cases op <;> exact (n_of_lookup found rfl).trans_le (by decide)
    exact .inr (.inr (.inr (.inl ⟨family_of_lookup found rfl, .inl nibble⟩)))
  | shift direction _ =>
    have nibble : word.n.val ≤ 0x7 ∨ word.n.val = 0xE := by
      cases direction with
      | right => exact .inl ((n_of_lookup found rfl).trans_le (by decide))
      | left => exact .inr (n_of_lookup found rfl)
    exact .inr (.inr (.inr (.inl ⟨family_of_lookup found rfl, nibble⟩)))
  | readDelay =>
    exact .inr (.inr (.inr (.inr ⟨family_of_lookup found rfl, .inl (nn_of_lookup found rfl)⟩)))
  | awaitKey =>
    exact .inr (.inr (.inr (.inr
      ⟨family_of_lookup found rfl, .inr (.inl (nn_of_lookup found rfl))⟩)))
  | _ => exact writes.elim

theorem writesFlag_of_lookup (writes : operation.WritesFlag) : word.WritesFlag dialect := by
  cases operation with
  | logic op clearsFlag =>
    have clears : dialect.logicClearsFlag = true := by
      have chosen := lookup_of dialect word
      rw [found] at chosen
      exact chosen.symm.trans writes
    have nibble : 1 ≤ word.n.val ∧ word.n.val ≤ 3 := by
      cases op <;> simp [n_of_lookup found rfl]
    exact .inl ⟨family_of_lookup found rfl, .inr (.inr ⟨nibble, clears⟩)⟩
  | add | subtract | subtractFrom =>
    have nibble := n_of_lookup found rfl
    exact .inl ⟨family_of_lookup found rfl, .inl (by omega)⟩
  | shift direction _ =>
    have nibble : word.n.val = 0x6 ∨ word.n.val = 0xE := by
      cases direction with
      | right => exact .inl (n_of_lookup found rfl)
      | left => exact .inr (n_of_lookup found rfl)
    exact .inl ⟨family_of_lookup found rfl, by omega⟩
  | draw => exact .inr (.inl (family_of_lookup found rfl))
  | addIndex => exact .inr (.inr ⟨family_of_lookup found rfl, nn_of_lookup found rfl⟩)
  | _ => exact writes.elim

theorem writesIndex_of_lookup (writes : operation.WritesIndex) : word.WritesIndex dialect := by
  have chosen := lookup_of dialect word
  rw [found] at chosen
  cases operation with
  | setIndex => exact .inl (family_of_lookup found rfl)
  | addIndex => exact .inr ⟨family_of_lookup found rfl, .inl (nn_of_lookup found rfl)⟩
  | glyph => exact .inr ⟨family_of_lookup found rfl, .inr (.inl (nn_of_lookup found rfl))⟩
  | store advance =>
    have moves : dialect.indexAdvance ≠ .unchanged := fun stays => writes (chosen.trans stays)
    exact .inr ⟨family_of_lookup found rfl, .inr (.inr ⟨.inl (nn_of_lookup found rfl), moves⟩)⟩
  | load advance =>
    have moves : dialect.indexAdvance ≠ .unchanged := fun stays => writes (chosen.trans stays)
    exact .inr ⟨family_of_lookup found rfl, .inr (.inr ⟨.inr (nn_of_lookup found rfl), moves⟩)⟩
  | _ => exact writes.elim

end Word

namespace Machine

/-- A machine that differs from an earlier one in what a word names, and in nothing else but the
program counter, the record of the last instruction and the hint that a key is awaited. -/
structure ChangesOnlyNamed (word : Word) (before after : Machine) : Prop where
  others : ∀ register, register ≠ word.x → register ≠ .flag →
    after.cpu.get register ≠ before.cpu.get register → word.LoadsBlock ∧ register < word.x
  named : word.x ≠ .flag → after.cpu.get word.x ≠ before.cpu.get word.x → word.WritesNamed
  flag : after.cpu.get .flag ≠ before.cpu.get .flag →
    word.WritesNamed ∧ word.x = .flag ∨ word.WritesFlag before.dialect
  index : after.cpu.index ≠ before.cpu.index → word.WritesIndex before.dialect
  depth : after.cpu.stack.depth ≠ before.cpu.stack.depth →
    word.family.val = 0x2 ∨ word.family.val = 0x0 ∧ word.nn = 0xEE
  slots : after.cpu.stack.slots ≠ before.cpu.stack.slots → word.family.val = 0x2
  delay : after.cpu.delay ≠ before.cpu.delay → word.family.val = 0xF ∧ word.nn = 0x15
  sound : after.cpu.sound ≠ before.cpu.sound → word.family.val = 0xF ∧ word.nn = 0x18
  memory : after.memory ≠ before.memory →
    word.family.val = 0xF ∧ (word.nn = 0x33 ∨ word.nn = 0x55)
  screen : after.screen ≠ before.screen → word.Paints
  keys : after.keys = before.keys
  random : after.random ≠ before.random → word.DrawsByte
  halted : after.cpu.halted ≠ before.cpu.halted →
    after.cpu.halted = true ∧ (word.family.val = 0x1 ∨ word.family.val = 0xB)
  dialect : after.dialect = before.dialect
  undefined : Mnemonic.describe before.dialect word.toNat = "null" →
    after = before.movedTo (Processor.following before.cpu.pc)

variable {machine : Machine}

theorem loadsBlock_of_upcoming {advance : IndexAdvance} (loads : machine.upcoming = .load advance) :
    machine.word.LoadsBlock :=
  ⟨OpcodeTable.family_of_lookup loads rfl, OpcodeTable.nn_of_lookup loads rfl⟩

/-- A block of registers ends with `VX`. -/
theorem writesNamed_of_loadsBlock (loads : machine.word.LoadsBlock) : machine.word.WritesNamed :=
  .inr (.inr (.inr (.inr ⟨loads.1, .inr (.inr loads.2)⟩)))

/-- A part that a step changes is one that its word names. -/
theorem named_of_changed {Part : Type} (part : Machine → Part) {named : Prop}
    (fetched : part machine.fetch = part machine) (recorded : part machine.recorded = part machine)
    (spared : ¬named → ∀ next, machine.upcoming.execute machine.word machine.fetch = .ok next →
      part next = part machine.fetch)
    (changed : part machine.step.machine ≠ part machine) : named := by
  by_contra unnamed
  exact changed (step_part part fetched recorded (spared unnamed))

/-- What can be the reason for a new value in a register. -/
theorem step_get_changed {register : Register}
    (changed : machine.step.machine.cpu.get register ≠ machine.cpu.get register) :
    machine.word.WritesNamed ∧ register = machine.word.x ∨
    machine.word.WritesFlag machine.dialect ∧ register = .flag ∨
    machine.word.LoadsBlock ∧ register ≤ machine.word.x := by
  refine named_of_changed (fun machine => machine.cpu.get register) rfl rfl ?_ changed
  intro unnamed next done
  simp only [not_or, not_and] at unnamed
  obtain ⟨named, flag, loaded⟩ := unnamed
  apply Operation.execute_get done
  · intro writes
    exact named (Word.writesNamed_of_lookup rfl writes)
  · intro writes
    exact flag (Word.writesFlag_of_lookup rfl writes)
  · intro advance loads
    exact loaded (loadsBlock_of_upcoming loads)

theorem step_index_changed (changed : machine.step.machine.cpu.index ≠ machine.cpu.index) :
    machine.word.WritesIndex machine.dialect := by
  refine named_of_changed (fun machine => machine.cpu.index) rfl rfl ?_ changed
  intro unnamed next done
  apply Operation.execute_index done
  intro writes
  exact unnamed (Word.writesIndex_of_lookup rfl writes)

theorem step_depth_changed
    (changed : machine.step.machine.cpu.stack.depth ≠ machine.cpu.stack.depth) :
    machine.word.family.val = 0x2 ∨ machine.word.family.val = 0x0 ∧ machine.word.nn = 0xEE := by
  refine named_of_changed (fun machine => machine.cpu.stack.depth) rfl rfl ?_ changed
  intro unnamed next done
  rw [not_or, ← upcoming_eq_call_iff, ← upcoming_eq_ret_iff] at unnamed
  rw [(Operation.execute_spares done).stack unnamed.1 unnamed.2]

theorem step_slots_changed
    (changed : machine.step.machine.cpu.stack.slots ≠ machine.cpu.stack.slots) :
    machine.word.family.val = 0x2 := by
  refine named_of_changed (fun machine => machine.cpu.stack.slots) rfl rfl ?_ changed
  intro unnamed next done
  rw [← upcoming_eq_call_iff] at unnamed
  exact Operation.execute_slots done unnamed

theorem step_delay_changed (changed : machine.step.machine.cpu.delay ≠ machine.cpu.delay) :
    machine.word.family.val = 0xF ∧ machine.word.nn = 0x15 := by
  refine named_of_changed (fun machine => machine.cpu.delay) rfl rfl ?_ changed
  intro unnamed next done
  apply (Operation.execute_spares done).delay
  intro sets
  exact unnamed ⟨OpcodeTable.family_of_lookup sets rfl, OpcodeTable.nn_of_lookup sets rfl⟩

theorem step_sound_changed (changed : machine.step.machine.cpu.sound ≠ machine.cpu.sound) :
    machine.word.family.val = 0xF ∧ machine.word.nn = 0x18 := by
  refine named_of_changed (fun machine => machine.cpu.sound) rfl rfl ?_ changed
  intro unnamed next done
  apply (Operation.execute_spares done).sound
  intro sets
  exact unnamed ⟨OpcodeTable.family_of_lookup sets rfl, OpcodeTable.nn_of_lookup sets rfl⟩

theorem step_memory_changed (changed : machine.step.machine.memory ≠ machine.memory) :
    machine.word.family.val = 0xF ∧ (machine.word.nn = 0x33 ∨ machine.word.nn = 0x55) := by
  by_contra unnamed
  have decimal : machine.upcoming ≠ .decimal := by
    intro upcoming
    have named := machine.upcoming_eq_decimal_iff.mp upcoming
    exact unnamed ⟨named.1, .inl named.2⟩
  have store (advance : IndexAdvance) : machine.upcoming ≠ .store advance := by
    intro upcoming
    have named := (machine.upcoming_eq_store_iff advance).mp upcoming
    exact unnamed ⟨named.1, .inr named.2.1⟩
  rw [step_memory, writes_of_other decimal store] at changed
  exact changed rfl

/-- The hint that a program has halted is never taken back, and raised by jumps alone. -/
theorem step_halted_changed (changed : machine.step.machine.cpu.halted ≠ machine.cpu.halted) :
    machine.step.machine.cpu.halted = true ∧
      (machine.word.family.val = 0x1 ∨ machine.word.family.val = 0xB) := by
  have raised := step_halted_iff machine
  have was_lowered : machine.cpu.halted = false := by
    by_contra halted
    rw [Bool.not_eq_false] at halted
    exact changed (halted.symm ▸ raised.mpr (.inl halted))
  have halts : machine.step.machine.cpu.halted = true := by
    by_contra lowered
    rw [Bool.not_eq_true] at lowered
    exact changed (lowered.trans was_lowered.symm)
  refine ⟨halts, ?_⟩
  rcases raised.mp halts with earlier | ⟨family, -⟩ | ⟨family, -⟩
  · rw [was_lowered] at earlier
    cases earlier
  · exact .inl family
  · exact .inr family

theorem step_screen_changed (changed : machine.step.machine.screen ≠ machine.screen) :
    machine.word.Paints := by
  by_contra unpainted
  exact changed (step_screen_of_not_paints unpainted)

theorem step_random_changed (changed : machine.step.machine.random ≠ machine.random) :
    machine.word.DrawsByte := by
  by_contra idle
  exact changed (step_random_of_idle idle)

theorem step_keys (machine : Machine) : machine.step.machine.keys = machine.keys := by
  apply step_part Machine.keys rfl rfl
  intro next done
  exact (Operation.execute_spares done).keys

theorem step_of_undefined (undefined : machine.upcoming = .undefined) :
    machine.step.machine = machine.movedTo (Processor.following machine.cpu.pc) := by
  rw [machine.upcoming_eq_undefined_iff.mp undefined]
  rfl

/-- A step changes nothing but what its word names, whether it fails or not. -/
theorem steps_change_only_what_words_name (machine : Machine) :
    ChangesOnlyNamed machine.word machine machine.step.machine where
  others := by
    intro register unnamed no_flag changed
    rcases step_get_changed changed with ⟨-, named⟩ | ⟨-, flag⟩ | ⟨loads, within⟩
    · exact absurd named unnamed
    · exact absurd flag no_flag
    · exact ⟨loads, lt_of_le_of_ne within unnamed⟩
  named := by
    intro no_flag changed
    rcases step_get_changed changed with ⟨writes, -⟩ | ⟨-, flag⟩ | ⟨loads, -⟩
    · exact writes
    · exact absurd flag no_flag
    · exact writesNamed_of_loadsBlock loads
  flag := by
    intro changed
    rcases step_get_changed changed with ⟨writes, named⟩ | ⟨writes, -⟩ | ⟨loads, within⟩
    · exact .inl ⟨writes, named.symm⟩
    · exact .inr writes
    · -- A block that reaches the last register ends there.
      have last : machine.word.x ≤ .flag := Fin.le_last machine.word.x
      exact .inl ⟨writesNamed_of_loadsBlock loads, le_antisymm last within⟩
  index := step_index_changed
  depth := step_depth_changed
  slots := step_slots_changed
  delay := step_delay_changed
  sound := step_sound_changed
  memory := step_memory_changed
  screen := step_screen_changed
  keys := step_keys machine
  random := step_random_changed
  halted := step_halted_changed
  dialect := step_dialect machine
  undefined := by
    intro shown
    rw [Mnemonic.describe_eq_null_iff_undefined] at shown
    exact step_of_undefined shown

end Machine
end ChipEight
