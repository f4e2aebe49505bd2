import ChipEight.Proofs.Addresses
import ChipEight.Proofs.Conditions
import ChipEight.Proofs.OpenCalls

/-!
# Where a program goes on

The counter after a step is told by the word that stood at it, with the registers, the keys and the
latest open call of that moment. Main statement: it is the target of a jump or a call, the address
that a return goes back to, the same address again for a wait without a key, one word further than
usual for a skip that is taken, and else the next word. A skip is taken if the condition that is
printed for it fails, and changes nothing else.
-/
namespace ChipEight

namespace Operation

/-- Operations that can send a program elsewhere than to the next word. -/
def Steers : Operation → Prop
  | ret | call | jump | jumpOffset _ | skipByte _ | skipRegister _ | skipKey _ | awaitKey => True
  | _ => False

theorem execute_pc_of_not_steers {operation : Operation} {word : Word} {machine next : Machine}
    (done : operation.execute word machine = .ok next) (onward : ¬operation.Steers) :
    next.cpu.pc = machine.cpu.pc := by
  cases operation with
  | ret | call | jump | jumpOffset _ | skipByte _ | skipRegister _ | skipKey _ | awaitKey =>
    exact absurd trivial onward
  | logic _ clearsFlag =>
    cases done
    cases clearsFlag <;> rfl
  | _ => cases done; rfl

theorem execute_call_pc {word : Word} {machine next : Machine}
    (done : call.execute word machine = .ok next) : next.cpu.pc = word.nnn := by
  simp only [execute] at done
  split at done
  next => cases done; rfl
  next => cases done

end Operation

theorem Keypad.lowestHeld?_eq_none_iff_notMem (keys : Keypad) :
    keys.lowestHeld? = none ↔ true ∉ keys.toList := by
  rw [lowestHeld?_eq_none_iff, Vector.mem_toList_iff, Vector.mem_iff_getElem]
  constructor
  · rintro released ⟨key, inside, held⟩
    have there := released ⟨key, inside⟩
    simp [isHeld, held] at there
  · intro absent key
    by_contra held
    exact absent ⟨key.val, key.isLt, by simpa [isHeld] using held⟩

/-- Going back undoes the advance, at the end of memory too. -/
theorem Processor.following_sub {address : UInt16} (within : address.toNat < 4096) :
    (following address - 2) % 4096 = address := by
  apply UInt16.toNat_inj.mp
  rw [UInt16.toNat_mod, UInt16.toNat_sub, toNat_following]
  change (65536 - 2 + (address.toNat + 2) % 4096) % 65536 % 4096 = address.toNat
  omega

namespace Machine

variable {machine : Machine}

/-- The machine after an instruction that only moves the counter. -/
def movedTo (machine : Machine) (target : UInt16) : Machine :=
  { machine with
    cpu := { machine.cpu with
      pc := target
      last := ⟨machine.word, machine.cpu.pc⟩
      awaitingKey := false } }

/-- The condition of the word at the counter fails. -/
def skips (machine : Machine) : Bool :=
  machine.word.condition?.any fun condition => !condition.holds machine

/-- Where the program goes on after the word at the counter, if there is a call to return from for a
word that returns. -/
def heading (machine : Machine) : Option Nat :=
  let word := machine.word
  let pc := machine.cpu.pc.toNat
  if word.family.val = 0x1 ∨ word.family.val = 0x2 then some word.nnn.toNat
  else if word.family.val = 0x0 ∧ word.nn = 0xEE then
    machine.cpu.stack.toList.getLast?.map UInt16.toNat
  else if word.family.val = 0xB then
    let offset := machine.cpu.get (if machine.dialect.jumpAddsNamed then word.x else .offset)
    some ((offset.toNat + word.nnn.toNat) % 4096)
  else if (word.family.val = 0xF ∧ word.nn = 0x0A) ∧ true ∉ machine.keys.toList then some pc
  else if machine.skips then some ((pc + 4) % 4096)
  else some ((pc + 2) % 4096)

theorem holds_fetch (machine : Machine) (condition : Condition) :
    condition.holds machine.fetch = condition.holds machine := by
  cases condition with
  | equals left right | differs left right => cases right <;> rfl
  | held named | released named => rfl

theorem skips_eq (machine : Machine) :
    machine.skips =
      (machine.upcoming.condition? machine.word).any fun condition => !condition.holds machine := by
  rw [skips, machine.word.condition?_eq machine.dialect]
  rfl

theorem step_of_condition {condition : Condition}
    (printed : machine.upcoming.condition? machine.word = some condition) :
    machine.step.machine =
      { machine.fetch with cpu := machine.fetch.cpu.skipIf (!condition.holds machine) } ∧
    machine.step.fault = none := by
  have done := Operation.execute_of_condition printed machine.fetch
  rw [holds_fetch] at done
  exact step_of_ok done

theorem step_pc_of_target {target : UInt16}
    (found : machine.upcoming.target? machine.word machine.fetch.cpu = some target) :
    machine.step.machine.cpu.pc = target := by
  rw [(step_of_ok (Operation.execute_of_target found)).1]
  rfl

theorem toNat_offset_target (nnn : UInt16) (offset : UInt8) :
    ((nnn + offset.toUInt16) % 4096).toNat = (offset.toNat + nnn.toNat) % 4096 := by
  rw [UInt16.toNat_mod, UInt16.toNat_add, UInt8.toNat_toUInt16]
  change (nnn.toNat + offset.toNat) % 65536 % 4096 = (offset.toNat + nnn.toNat) % 4096
  omega

theorem step_pc_of_awaitKey (within : machine.cpu.pc.toNat < 4096)
    (waits : machine.upcoming = .awaitKey) :
    machine.step.machine.cpu.pc.toNat =
      if true ∉ machine.keys.toList then machine.cpu.pc.toNat
      else (machine.cpu.pc.toNat + 2) % 4096 := by
  simp only [← Keypad.lowestHeld?_eq_none_iff_notMem]
  cases lowest : machine.keys.lowestHeld? with
  | none =>
    rw [(step_awaitKey_of_released waits lowest).1, Processor.following_sub within, if_pos rfl]
  | some key =>
    have found := @Operation.execute_awaitKey_of_held machine.word machine.fetch key lowest
    rw [← waits] at found
    rw [(step_of_ok found).1, if_neg (by simp)]
    exact Processor.toNat_following machine.cpu.pc

theorem step_pc_of_condition {condition : Condition}
    (printed : machine.upcoming.condition? machine.word = some condition) :
    machine.step.machine.cpu.pc.toNat =
      (machine.cpu.pc.toNat + if condition.holds machine then 2 else 4) % 4096 := by
  rw [(step_of_condition printed).1]
  cases condition.holds machine with
  | true => exact Processor.toNat_following machine.cpu.pc
  | false =>
    change (Processor.following (Processor.following machine.cpu.pc)).toNat = _
    rw [Processor.toNat_following, Processor.toNat_following]
    simp only [Bool.false_eq_true, if_false]
    omega

/-- A skip moves the counter, taken or not. -/
theorem step_eq_movedTo_of_condition {condition : Condition}
    (printed : machine.upcoming.condition? machine.word = some condition) :
    machine.step.machine = machine.movedTo machine.step.machine.cpu.pc := by
  rw [(step_of_condition printed).1]
  cases condition.holds machine <;> rfl

/-- Whatever the operation, the counter after it is where the word sends the program. -/
theorem heading_eq_pc (within : machine.cpu.pc.toNat < 4096)
    (unfaulted : machine.step.fault = none) :
    machine.heading = some machine.step.machine.cpu.pc.toNat := by
  have done := execute_of_unfaulted unfaulted
  have offset := machine.upcoming_eq_jumpOffset_iff machine.dialect.jumpAddsNamed
  rw [and_iff_left rfl] at offset
  unfold heading
  -- Each test of the word is one of the operation, so that the cases are those of the operation.
  simp only [← upcoming_eq_jump_iff, ← upcoming_eq_call_iff, ← upcoming_eq_ret_iff, ← offset,
    ← upcoming_eq_awaitKey_iff, skips_eq]
  cases upcoming : machine.upcoming with
  | jump =>
    have found :
        machine.upcoming.target? machine.word machine.fetch.cpu = some machine.word.nnn := by
      rw [upcoming]
      rfl
    rw [if_pos (.inl rfl), step_pc_of_target found]
  | call =>
    rw [upcoming] at done
    rw [if_pos (.inr rfl), Operation.execute_call_pc done]
  | ret =>
    rw [upcoming] at done
    -- The stack before is the stack after with the new counter on top.
    have popped := Operation.execute_ret_stack done
    change machine.cpu.stack.toList = _ at popped
    rw [if_neg (by simp), if_pos rfl, popped, List.getLast?_concat]
    rfl
  | jumpOffset addsNamed =>
    obtain ⟨-, rfl⟩ := (machine.upcoming_eq_jumpOffset_iff addsNamed).mp upcoming
    have found : machine.upcoming.target? machine.word machine.fetch.cpu = some
        ((machine.word.nnn + (machine.cpu.get
          (if machine.dialect.jumpAddsNamed then machine.word.x else .offset)).toUInt16) %
            4096) := by
      rw [upcoming]
      rfl
    rw [if_neg (by simp), if_neg (by simp), if_pos rfl, step_pc_of_target found,
      toNat_offset_target]
  | awaitKey =>
    have unskipped : (Operation.awaitKey.condition? machine.word) = none := rfl
    rw [step_pc_of_awaitKey within upcoming, unskipped, Option.any_none, if_neg (by simp),
      if_neg (by simp), if_neg (by simp)]
    simp only [true_and, Bool.false_eq_true, if_false, apply_ite some]
  | skipByte whenEqual | skipRegister whenEqual | skipKey whenEqual =>
    obtain ⟨condition, printed⟩ :
        ∃ condition, machine.upcoming.condition? machine.word = some condition := by
      rw [upcoming]
      cases whenEqual <;> exact ⟨_, rfl⟩
    rw [← upcoming, printed, step_pc_of_condition printed, Option.any_some, upcoming,
      if_neg (by simp), if_neg (by simp), if_neg (by simp), if_neg (by simp)]
    cases condition.holds machine <;> rfl
  | _ =>
    have onward : machine.step.machine.cpu.pc = machine.fetch.cpu.pc :=
      Operation.execute_pc_of_not_steers done (by simp [upcoming, Operation.Steers])
    rw [if_neg (by simp), if_neg (by simp), if_neg (by simp), if_neg (by simp),
      if_neg (by simp [Operation.condition?]), onward]
    exact congrArg some (Processor.toNat_following machine.cpu.pc).symm

/-- A word decides where the counter goes, for every dialect. Its text has a condition exactly if
the word is a skip, and then what follows is passed over exactly if the condition fails. -/
theorem counter_follows_the_word (directory : Directory) (dialect : Dialect) (seed : Int)
    (actions : List Action) (listing : Dialect) :
    let machine := (initial dialect seed).performAll directory actions
    let text := Mnemonic.describe listing machine.word.toNat
    (machine.step.fault = none → machine.heading = some machine.step.machine.cpu.pc.toNat) ∧
    ((∃ inner, text = "if " ++ inner ++ " then") ↔ machine.word.Conditional) ∧
    ∀ inner, text = "if " ++ inner ++ " then" →
      ∃ condition, machine.word.condition? = some condition ∧ condition.text = inner ∧
        machine.step.fault = none ∧
        machine.step.machine = machine.movedTo machine.step.machine.cpu.pc ∧
        machine.step.machine.cpu.pc.toNat =
          (machine.cpu.pc.toNat + if condition.holds machine then 2 else 4) % 4096 := by
  intro machine text
  have within : machine.cpu.pc.toNat < 4096 :=
    (performAll_withinMemory directory dialect seed actions).pc
  have listed (inner : String) := machine.word.describe_eq_if_iff listing inner
  refine ⟨heading_eq_pc within, ?_, ?_⟩
  · -- The text has a condition in it exactly if the word has one.
    rw [← Word.exists_condition?_iff]
    constructor
    · rintro ⟨inner, conditional⟩
      obtain ⟨condition, printed, -⟩ := (listed inner).mp conditional
      exact ⟨condition, printed⟩
    · rintro ⟨condition, printed⟩
      exact ⟨condition.text, (listed condition.text).mpr ⟨condition, printed, rfl⟩⟩
  · intro inner conditional
    obtain ⟨condition, printed, shown⟩ := (listed inner).mp conditional
    -- The condition belongs to the operation that the dialect of the machine gives as well.
    have executed : machine.upcoming.condition? machine.word = some condition := by
      rw [upcoming, ← machine.word.condition?_eq machine.dialect, printed]
    exact ⟨condition, printed, shown, (step_of_condition executed).2,
      step_eq_movedTo_of_condition executed, step_pc_of_condition executed⟩

/-- `V0` is zero at first, so that `if v0 != 0 then` passes over what follows. -/
theorem skips_at_first :
    let machine := (initial {} 0).performAll [] [.load #[0x30, 0x00].toList]
    machine.step.fault = none ∧
    Mnemonic.describe {} machine.word.toNat = "if " ++ "v0 != 0" ++ " then" ∧
    machine.step.machine.cpu.pc.toNat = 0x204 ∧ machine.heading = some 0x204 := by
  intro machine
  have start : machine = holding #[0x30, 0x00] := performAll_load [] (by decide)
  have word : machine.word = 0x3000 := by
    rw [start, word_holding (by decide) (by decide)]
    decide
  have conditional : Mnemonic.describe {} machine.word.toNat = "if " ++ "v0 != 0" ++ " then" := by
    rw [word, Word.describe_eq_if_iff]
    exact ⟨.differs 0 (.number 0), rfl, by decide +kernel⟩
  obtain ⟨onward, -, skip⟩ :=
    counter_follows_the_word [] {} 0 [.load #[0x30, 0x00].toList] {}
  obtain ⟨condition, printed, -, unfaulted, -, pc⟩ := skip "v0 != 0" conditional
  obtain rfl : Condition.differs 0 (.number 0) = condition := by
    rw [word] at printed
    exact Option.some.inj printed
  have skipped : machine.step.machine.cpu.pc.toNat = 0x204 := by
    rw [pc]
    change (machine.cpu.pc.toNat + if _ then 2 else 4) % 4096 = 0x204
    rw [start]
    rfl
  refine ⟨unfaulted, conditional, skipped, ?_⟩
  rw [onward unfaulted, skipped]

end Machine
end ChipEight
