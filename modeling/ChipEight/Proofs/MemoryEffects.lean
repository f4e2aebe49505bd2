import ChipEight.Proofs.Step

/-!
# What happens to memory

A running program changes memory by one of two instructions: one stores three decimal digits, the
other a block of registers. Both start at the index register, wrap at 4096 and lose the bytes that
would fall on the font. Loading and unloading write past that guard, and reach only `0x200` and up.
Main statements: the exact change that a step makes, and the font in place after any actions.
-/
namespace ChipEight

namespace Memory

/-- Writes to consecutive addresses. -/
def block (start : Nat) : List UInt8 → List (Address × UInt8)
  | [] => []
  | value :: values => (.ofNat start, value) :: block (start + 1) values

/-- The new memory holds the values from `start` on, the font left out, and is else the old one. -/
structure Stored (old new : Memory) (start : Nat) (values : List UInt8) : Prop where
  written : ∀ offset value, values[offset]? = some value →
    ¬Font.Occupies (Address.ofNat (start + offset)).val →
    new.get (.ofNat (start + offset)) = value
  kept : ∀ address : Address,
    (Font.Occupies address.val ∨ ∀ offset < values.length, address ≠ .ofNat (start + offset)) →
    new.get address = old.get address

theorem get_store_of_occupied (memory : Memory) {address : Address}
    (font : Font.Occupies address.val) (other : Address) (value : UInt8) :
    (memory.store other value).get address = memory.get address := by
  rw [get_store, if_neg]
  rintro ⟨rfl, free⟩
  exact free font

theorem get_store_of_ne (memory : Memory) {address other : Address} (apart : address ≠ other)
    (value : UInt8) : (memory.store other value).get address = memory.get address := by
  rw [get_store, if_neg (fun same => apart same.1)]

theorem storeAll_cons (memory : Memory) (address : Address) (value : UInt8)
    (writes : List (Address × UInt8)) :
    memory.storeAll ((address, value) :: writes) = (memory.store address value).storeAll writes :=
  rfl

theorem get_storeAll_of_occupied {address : Address} (font : Font.Occupies address.val)
    (writes : List (Address × UInt8)) (memory : Memory) :
    (memory.storeAll writes).get address = memory.get address := by
  induction writes generalizing memory with
  | nil => rfl
  | cons write writes ih =>
    rw [storeAll_cons, ih, get_store_of_occupied memory font]

theorem get_storeAll_block_of_ne {address : Address} (values : List UInt8) (start : Nat)
    (memory : Memory) (apart : ∀ offset < values.length, address ≠ .ofNat (start + offset)) :
    (memory.storeAll (block start values)).get address = memory.get address := by
  induction values generalizing start memory with
  | nil => rfl
  | cons value values ih =>
    rw [block, storeAll_cons, ih (start + 1)]
    · exact get_store_of_ne memory (apart 0 (by simp)) value
    · intro offset inside
      have next := apart (offset + 1) (by simpa using inside)
      rwa [show start + 1 + offset = start + (offset + 1) by omega]

/-- A block that is not longer than memory does not overwrite itself, so that each byte stays. -/
theorem get_storeAll_block {values : List UInt8} {offset : Nat} {value : UInt8}
    (found : values[offset]? = some value) (start : Nat) (memory : Memory)
    (short : values.length ≤ 4096)
    (free : ¬Font.Occupies (Address.ofNat (start + offset)).val) :
    (memory.storeAll (block start values)).get (.ofNat (start + offset)) = value := by
  induction values generalizing start offset memory with
  | nil => simp at found
  | cons first values ih =>
    rw [block, storeAll_cons]
    cases offset with
    | zero =>
      have same : first = value := by simpa using found
      -- The later bytes lie at other addresses, since the block does not go once around.
      rw [get_storeAll_block_of_ne]
      · rw [get_store, if_pos ⟨rfl, free⟩, same]
      · intro offset inside equal
        have equal := congrArg Fin.val equal
        simp only [Address.val_ofNat, List.length_cons] at equal short
        omega
    | succ offset =>
      rw [show start + (offset + 1) = start + 1 + offset by omega] at free ⊢
      exact ih (by simpa using found) (start + 1) _ (by simp at short; omega) free

theorem stored_block (memory : Memory) (start : Nat) (values : List UInt8)
    (short : values.length ≤ 4096) :
    Stored memory (memory.storeAll (block start values)) start values where
  written _ _ found free := get_storeAll_block found start memory short free
  kept address spared := by
    rcases spared with font | apart
    · exact get_storeAll_of_occupied font _ memory
    · exact get_storeAll_block_of_ne values start memory apart

theorem getElem?_block (start : Nat) (values : List UInt8) (offset : Nat) :
    (block start values)[offset]? =
      values[offset]?.map fun value => (Address.ofNat (start + offset), value) := by
  induction values generalizing start offset with
  | nil => simp [block]
  | cons first values ih =>
    cases offset with
    | zero => simp [block]
    | succ offset =>
      rw [block, List.getElem?_cons_succ, List.getElem?_cons_succ, ih,
        show start + 1 + offset = start + (offset + 1) by omega]

/-- Every glyph has its own bytes. -/
def FontInPlace (memory : Memory) : Prop :=
  ∀ (address : Address) (font : Font.Occupies address.val),
    memory.get address = Font.byteAt address.val font

theorem fontInPlace_initial : FontInPlace initial := by
  intro address font
  simp [initial, get, font]

theorem FontInPlace.storeAll {memory : Memory} (intact : FontInPlace memory)
    (writes : List (Address × UInt8)) : FontInPlace (memory.storeAll writes) := by
  intro address font
  rw [get_storeAll_of_occupied font writes memory]
  exact intact address font

theorem not_imageStart_le {address : Address} (font : Font.Occupies address.val) :
    ¬imageStart ≤ address.val := by
  simp only [Font.Occupies, Font.start, Font.stop, imageStart] at *
  omega

theorem FontInPlace.overlay {memory : Memory} (intact : FontInPlace memory) (image : Array UInt8) :
    FontInPlace (memory.overlay imageStart image) := by
  intro address font
  rw [get_overlay, if_neg (not_imageStart_le font)]
  exact intact address font

theorem FontInPlace.clearImage {memory : Memory} (intact : FontInPlace memory) :
    FontInPlace memory.clearImage := by
  intro address font
  rw [get_clearImage, if_neg (not_imageStart_le font)]
  exact intact address font

end Memory

namespace Operation

theorem writes_decimal (word : Word) (cpu : Processor) :
    decimal.writes word cpu =
      Memory.block cpu.index.toNat
        [cpu.get word.x / 100, cpu.get word.x / 10 % 10, cpu.get word.x % 10] := by
  simp [writes, Memory.block, Processor.indexed]

theorem writes_store (advance : IndexAdvance) (word : Word) (cpu : Processor) :
    (store advance).writes word cpu =
      Memory.block cpu.index.toNat (cpu.registers.toList.take (word.x.val + 1)) := by
  apply List.ext_getElem?
  intro offset
  rw [Memory.getElem?_block]
  by_cases inside : offset < word.x.val + 1
  · have bound : offset < 16 := by omega
    have register : (List.finRange 16)[offset]? = some ⟨offset, bound⟩ := by
      rw [List.getElem?_eq_getElem (by simpa using bound), List.getElem_finRange]
      rfl
    have value : cpu.registers[offset]? = some cpu.registers[offset] :=
      Vector.getElem?_eq_getElem bound
    rw [writes, List.getElem?_map, List.getElem?_take_of_lt inside,
      List.getElem?_take_of_lt inside, Vector.getElem?_toList, register, value]
    rfl
  · simp [writes, inside]

end Operation

namespace Machine

theorem step_memory (machine : Machine) :
    machine.step.machine.memory =
      machine.memory.storeAll (machine.upcoming.writes machine.word machine.cpu) := by
  cases outcome : machine.upcoming.execute machine.word machine.fetch with
  | ok next =>
    rw [(step_of_ok outcome).1, Operation.execute_memory outcome]
    cases machine.upcoming <;> rfl
  | error fault =>
    -- Calls and returns write nothing, whether they fail or not.
    rw [(step_of_error outcome).1]
    rcases (Operation.execute_error_iff fault).mp outcome with ⟨call, -⟩ | ⟨ret, -⟩
    · rw [call]
      rfl
    · rw [ret]
      rfl

theorem fontInPlace_loading {machine : Machine} (intact : machine.memory.FontInPlace)
    (image : List UInt8) (after : List Diagnostic) :
    (machine.loading image after).machine.memory.FontInPlace := by
  rw [loading_eq]
  split
  · exact intact.overlay image.toArray
  · exact intact

theorem fontInPlace_step {machine : Machine} (intact : machine.memory.FontInPlace) :
    machine.step.machine.memory.FontInPlace := by
  rw [step_memory]
  exact intact.storeAll _

theorem fontInPlace_perform (directory : Directory) (machine : Machine) (action : Action)
    (intact : machine.memory.FontInPlace) :
    (machine.perform directory action).machine.memory.FontInPlace := by
  cases action with
  | load image => exact fontInPlace_loading intact image []
  | loadFile name =>
    simp only [perform]
    split
    · exact fontInPlace_loading intact _ _
    · exact intact
  | unload => exact intact.clearImage
  | step => exact fontInPlace_step intact
  | run count =>
    exact run_keeps (fun machine => machine.memory.FontInPlace) (fun _ => fontInPlace_step) count
      intact
  | reset | tick | setKeys _ | holdKey _ _ | setRedraw _ =>
    -- Unfolded by hand: comparing whole machines would compare their keys.
    simp only [perform, reset, tick, setKeys, holdKey, setRedraw]
    exact intact

theorem fontInPlace_performAll (directory : Directory) (dialect : Dialect) (seed : Int)
    (actions : List Action) :
    ((initial dialect seed).performAll directory actions).memory.FontInPlace :=
  performAll_keeps (fun machine => machine.memory.FontInPlace) directory
    (fontInPlace_perform directory) actions Memory.fontInPlace_initial

theorem writes_of_other {machine : Machine} (decimal : machine.upcoming ≠ .decimal)
    (store : ∀ advance, machine.upcoming ≠ .store advance) :
    machine.upcoming.writes machine.word machine.cpu = [] := by
  cases upcoming : machine.upcoming with
  | decimal => exact absurd upcoming decimal
  | store advance => exact absurd upcoming (store advance)
  | _ => rfl

theorem decimal_digits (value : UInt8) :
    (value / 100).toNat ≤ 9 ∧ (value / 10 % 10).toNat ≤ 9 ∧ (value % 10).toNat ≤ 9 ∧
      100 * (value / 100).toNat + 10 * (value / 10 % 10).toNat + (value % 10).toNat =
        value.toNat := by
  have bound := value.toNat_lt
  simp only [UInt8.toNat_div, UInt8.toNat_mod, UInt8.reduceToNat]
  omega

/-- The font stays whatever a host and its programs do. A step that executes `FX33` stores the
decimal digits of `VX`, one that executes `FX55` stores `V0` to `VX`, and no other step changes
memory. -/
theorem font_stays_and_steps_store_blocks (directory : Directory) (dialect : Dialect) (seed : Int)
    (actions : List Action) (machine : Machine) :
    ((initial dialect seed).performAll directory actions).memory.FontInPlace ∧
    (machine.word.family.val = 0xF ∧ machine.word.nn = 0x33 →
      ∃ hundreds tens ones : UInt8, hundreds.toNat ≤ 9 ∧ tens.toNat ≤ 9 ∧ ones.toNat ≤ 9 ∧
        100 * hundreds.toNat + 10 * tens.toNat + ones.toNat =
          (machine.cpu.get machine.word.x).toNat ∧
        Memory.Stored machine.memory machine.step.machine.memory machine.cpu.index.toNat
          [hundreds, tens, ones]) ∧
    (machine.word.family.val = 0xF ∧ machine.word.nn = 0x55 →
      Memory.Stored machine.memory machine.step.machine.memory machine.cpu.index.toNat
        (machine.cpu.registers.toList.take (machine.word.x.val + 1))) ∧
    (¬(machine.word.family.val = 0xF ∧ (machine.word.nn = 0x33 ∨ machine.word.nn = 0x55)) →
      machine.step.machine.memory = machine.memory) := by
  refine ⟨fontInPlace_performAll directory dialect seed actions, ?_, ?_, ?_⟩
  · intro decimal
    rw [← upcoming_eq_decimal_iff] at decimal
    rw [step_memory, decimal, Operation.writes_decimal]
    obtain ⟨hundreds, tens, ones, sum⟩ := decimal_digits (machine.cpu.get machine.word.x)
    exact ⟨_, _, _, hundreds, tens, ones, sum, Memory.stored_block _ _ _ (by simp)⟩
  · intro store
    have store := (machine.upcoming_eq_store_iff machine.dialect.indexAdvance).mpr
      ⟨store.1, store.2, rfl⟩
    have short : (machine.cpu.registers.toList.take (machine.word.x.val + 1)).length ≤ 4096 := by
      rw [List.length_take, Vector.length_toList]
      omega
    rw [step_memory, store, Operation.writes_store]
    exact Memory.stored_block _ _ _ short
  · intro other
    rw [step_memory, writes_of_other]
    · rfl
    · rw [ne_eq, upcoming_eq_decimal_iff]
      exact fun decimal => other ⟨decimal.1, Or.inl decimal.2⟩
    · intro advance
      rw [ne_eq, upcoming_eq_store_iff]
      exact fun store => other ⟨store.1, Or.inr store.2.1⟩

/-- The index register one before an edge of the font, and the same value in every register. -/
def beside (index : UInt16) (value : UInt8) (image : Array UInt8) : Machine :=
  { holding image with
    cpu := { Processor.initial with index, registers := Vector.replicate 16 value } }

theorem word_beside (index : UInt16) (value : UInt8) (image : Array UInt8) :
    (beside index value image).word = (holding image).word :=
  rfl

/-- Digits `2`, `3` and `4` before the font, and nines behind it; what would fall on it is lost. -/
theorem blocks_across_the_font_edges :
    (beside 0x4F 234 #[0xF0, 0x33]).step.machine.memory.get 0x4F = 2 ∧
    (beside 0x4F 234 #[0xF0, 0x33]).step.machine.memory.get 0x50 =
      (beside 0x4F 234 #[0xF0, 0x33]).memory.get 0x50 ∧
    (beside 0x9F 9 #[0xF1, 0x55]).step.machine.memory.get 0x9F =
      (beside 0x9F 9 #[0xF1, 0x55]).memory.get 0x9F ∧
    (beside 0x9F 9 #[0xF1, 0x55]).step.machine.memory.get 0xA0 = 9 ∧
    (beside 0x9F 9 #[0x61, 0x55]).step.machine.memory = (beside 0x9F 9 #[0x61, 0x55]).memory := by
  obtain ⟨-, digits, -, -⟩ :=
    font_stays_and_steps_store_blocks [] {} 0 [] (beside 0x4F 234 #[0xF0, 0x33])
  obtain ⟨-, -, registers, -⟩ :=
    font_stays_and_steps_store_blocks [] {} 0 [] (beside 0x9F 9 #[0xF1, 0x55])
  obtain ⟨-, -, -, other⟩ :=
    font_stays_and_steps_store_blocks [] {} 0 [] (beside 0x9F 9 #[0x61, 0x55])
  rw [word_beside, word_holding (by decide) (by decide)] at digits registers other
  obtain ⟨hundreds, tens, ones, _, tens_small, ones_small, sum, digits⟩ := digits (by decide)
  have registers := registers (by decide)
  -- Three digits of at most nine each make up 234 in one way only.
  have value : 100 * hundreds.toNat + 10 * tens.toNat + ones.toNat = 234 := sum
  have first : hundreds = 2 := UInt8.toNat_inj.mp (show hundreds.toNat = 2 by omega)
  refine ⟨?_, ?_, ?_, ?_, ?_⟩
  · rw [← first]
    exact digits.written 0 hundreds rfl (by decide)
  · exact digits.kept 0x50 (Or.inl (by decide))
  · exact registers.kept 0x9F (Or.inl (by decide))
  · exact registers.written 1 9 rfl (by decide)
  · exact other (by decide)
end Machine
end ChipEight
