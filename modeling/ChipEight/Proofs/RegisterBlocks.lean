import ChipEight.Proofs.DialectIndependence
import ChipEight.Proofs.MemoryEffects

/-!
# Blocks of registers

Registers `V0` to `VX` go to memory and come back from there in one instruction each. Dialects
disagree on where the index register ends and on nothing else. Main statement: what was stored comes
back unless it would have fallen on the font, where the bytes of the font come instead, whatever the
dialect and wherever the block wraps.
-/
namespace ChipEight

/-- `FX55`. -/
def Word.StoresBlock (word : Word) : Prop := word.family.val = 0xF ∧ word.nn = 0x55

/-- `FX65`. -/
def Word.LoadsBlock (word : Word) : Prop := word.family.val = 0xF ∧ word.nn = 0x65

theorem Address.ofNat_add_of_congruent {left right : Nat} (same : left % 4096 = right % 4096)
    (offset : Nat) : Address.ofNat (left + offset) = Address.ofNat (right + offset) := by
  apply Fin.ext
  simp only [Address.val_ofNat]
  omega

namespace Machine

variable {machine : Machine}

theorem upcoming_of_storesBlock (stores : machine.word.StoresBlock) :
    machine.upcoming = .store machine.dialect.indexAdvance :=
  (machine.upcoming_eq_store_iff _).mpr ⟨stores.1, stores.2, rfl⟩

theorem upcoming_of_loadsBlock (loads : machine.word.LoadsBlock) :
    machine.upcoming = .load machine.dialect.indexAdvance := by
  have listed : machine.word.family.val = OpcodeGroup.f.family := loads.1
  rw [machine.upcoming_of_group listed, OpcodeGroup.entry, loads.2]
  rfl

/-- The machine after a block was copied, with what registers and memory hold then. -/
def afterCopy (machine : Machine) (registers : Vector UInt8 16) (memory : Memory) : Machine :=
  let distance := machine.dialect.indexAdvance.distance machine.word.x.val
  { machine.fetch with
    cpu := { machine.fetch.cpu with
      registers
      index := machine.cpu.index + UInt16.ofNat distance }
    memory }

/-- What memory holds after `V0` to `VX` were stored. -/
def storedBlock (machine : Machine) : Memory :=
  machine.memory.storeAll (Memory.block machine.cpu.index.toNat
    (machine.cpu.registers.toList.take (machine.word.x.val + 1)))

theorem step_of_storesBlock (stores : machine.word.StoresBlock) :
    machine.step.machine = machine.afterCopy machine.cpu.registers machine.storedBlock ∧
    machine.step.fault = none := by
  have written := Operation.writes_store machine.dialect.indexAdvance machine.word machine.fetch.cpu
  have done : machine.upcoming.execute machine.word machine.fetch =
      .ok (machine.afterCopy machine.cpu.registers machine.storedBlock) := by
    rw [upcoming_of_storesBlock stores]
    simp only [Operation.execute, written]
    rfl
  exact step_of_ok done

theorem step_of_loadsBlock (loads : machine.word.LoadsBlock) :
    machine.step.machine = machine.afterCopy
      (Operation.loadedRegisters machine.word machine) machine.memory ∧
    machine.step.fault = none := by
  have done : machine.upcoming.execute machine.word machine.fetch =
      .ok (machine.afterCopy (Operation.loadedRegisters machine.word machine) machine.memory) := by
    rw [upcoming_of_loadsBlock loads]
    rfl
  exact step_of_ok done

/-- The machine with another way of moving the index register, and else of the same dialect. -/
def moving (machine : Machine) (advance : IndexAdvance) : Machine :=
  machine.withDialect { machine.dialect with indexAdvance := advance }

/-- The ways of moving the index register make no difference elsewhere. -/
structure MovesOnlyIndex (machine : Machine) : Prop where
  unfaulted : ∀ advance, (machine.moving advance).step.fault = none
  alike : ∀ advance, ∃ index,
    (machine.moving advance).step.machine =
      { (machine.moving .unchanged).step.machine with
        dialect := { machine.dialect with indexAdvance := advance }
        cpu := { (machine.moving .unchanged).step.machine.cpu with index } }
  past_last : (machine.moving .pastLast).step.machine.cpu.index.toNat =
    (machine.cpu.index.toNat + machine.word.x.val + 1) % 65536
  onto_last : (machine.moving .ontoLast).step.machine.cpu.index.toNat =
    (machine.cpu.index.toNat + machine.word.x.val) % 65536
  unmoved : (machine.moving .unchanged).step.machine.cpu.index = machine.cpu.index

theorem toNat_add_distance (index : UInt16) (advance : IndexAdvance) (register : Register) :
    (index + UInt16.ofNat (advance.distance register.val)).toNat =
      (index.toNat + advance.distance register.val) % 65536 := by
  rw [UInt16.toNat_add, UInt16.toNat_ofNat']
  exact Nat.add_mod_mod ..

theorem movesOnlyIndex_of_copies {registers : Vector UInt8 16} {memory : Memory}
    (copies : ∀ advance,
      (machine.moving advance).step.machine =
        (machine.moving advance).afterCopy registers memory ∧
      (machine.moving advance).step.fault = none) : machine.MovesOnlyIndex where
  unfaulted advance := (copies advance).2
  alike advance := by
    rw [(copies advance).1, (copies .unchanged).1]
    exact ⟨_, rfl⟩
  past_last := by
    rw [(copies .pastLast).1]
    exact toNat_add_distance machine.cpu.index .pastLast machine.word.x
  onto_last := by
    rw [(copies .ontoLast).1]
    exact toNat_add_distance machine.cpu.index .ontoLast machine.word.x
  unmoved := by
    rw [(copies .unchanged).1]
    exact UInt16.add_zero _

theorem get_step_of_loadsBlock (loads : machine.word.LoadsBlock) (register : Register) :
    machine.step.machine.cpu.get register =
      if register ≤ machine.word.x then
        machine.memory.get (.ofNat (machine.cpu.index.toNat + register.val))
      else machine.cpu.get register := by
  rw [(step_of_loadsBlock loads).1]
  simp [afterCopy, Processor.get, Operation.loadedRegisters, Processor.indexed]

/-- A byte of the block after it was stored: one of the font, or what the register held. -/
theorem get_stored (intact : machine.memory.FontInPlace) (stores : machine.word.StoresBlock)
    {register : Register} (inside : register ≤ machine.word.x) :
    let address := Address.ofNat (machine.cpu.index.toNat + register.val)
    machine.step.machine.memory.get address =
      if font : Font.Occupies address.val then Font.byteAt address.val font
      else machine.cpu.get register := by
  intro address
  -- At most sixteen bytes do not go once around memory.
  have short : (machine.cpu.registers.toList.take (machine.word.x.val + 1)).length ≤ 4096 := by
    rw [List.length_take, Vector.length_toList]
    omega
  have stored := machine.memory.stored_block machine.cpu.index.toNat _ short
  split
  next font => exact fontInPlace_step intact address font
  next free =>
    have place : register.val < machine.word.x.val + 1 := Nat.lt_succ_of_le inside
    have found : (machine.cpu.registers.toList.take (machine.word.x.val + 1))[register.val]? =
        some (machine.cpu.get register) := by
      rw [List.getElem?_take_of_lt place]
      simp [Processor.get]
    rw [(step_of_storesBlock stores).1]
    exact stored.written register.val _ found free

theorem movesOnlyIndex (copies : machine.word.StoresBlock ∨ machine.word.LoadsBlock) :
    machine.MovesOnlyIndex := by
  -- The word is read before the dialect is asked for its meaning.
  rcases copies with stores | loads
  · have stored (advance : IndexAdvance) : (machine.moving advance).word.StoresBlock := stores
    exact @movesOnlyIndex_of_copies machine machine.cpu.registers machine.storedBlock
      fun advance => step_of_storesBlock (stored advance)
  · have loaded (advance : IndexAdvance) : (machine.moving advance).word.LoadsBlock := loads
    exact @movesOnlyIndex_of_copies machine (Operation.loadedRegisters machine.word machine)
      machine.memory fun advance => step_of_loadsBlock (loaded advance)

/-- Dialects leave the index register at different places after a block was copied. In each of them
a block that is stored and then loaded to the same registers comes back, as far as it missed the
font, if the index register names the same address again and nothing else has been written there. -/
theorem stored_registers_come_back (directory : Directory) (dialect : Dialect) (seed : Int)
    (actions : List Action) :
    let machine := (initial dialect seed).performAll directory actions
    (machine.word.StoresBlock ∨ machine.word.LoadsBlock → machine.MovesOnlyIndex) ∧
    (machine.word.StoresBlock → ∀ later : Machine,
      later.word.LoadsBlock → later.word.x = machine.word.x →
      later.cpu.index.toNat % 4096 = machine.cpu.index.toNat % 4096 →
      (∀ offset ≤ machine.word.x.val,
        later.memory.get (.ofNat (machine.cpu.index.toNat + offset)) =
          machine.step.machine.memory.get (.ofNat (machine.cpu.index.toNat + offset))) →
      later.step.fault = none ∧ ∀ register : Register,
        let address := Address.ofNat (machine.cpu.index.toNat + register.val)
        later.step.machine.cpu.get register =
          if machine.word.x < register then later.cpu.get register
          else if font : Font.Occupies address.val then Font.byteAt address.val font
          else machine.cpu.get register) := by
  intro machine
  have intact : machine.memory.FontInPlace := fontInPlace_performAll directory dialect seed actions
  refine ⟨movesOnlyIndex, ?_⟩
  intro stores later loads same_x same_index untouched
  refine ⟨(step_of_loadsBlock loads).2, ?_⟩
  intro register address
  rw [get_step_of_loadsBlock loads, same_x]
  by_cases inside : register ≤ machine.word.x
  · rw [if_pos inside, if_neg (not_lt.mpr inside), Address.ofNat_add_of_congruent same_index,
      untouched register.val inside]
    exact get_stored intact stores inside
  · rw [if_neg inside, if_pos (not_le.mp inside)]

theorem get_beside_of_low (index : UInt16) (value : UInt8) (image : Array UInt8) {address : Address}
    (low : address.val < 0x50) : (beside index value image).memory.get address = 0 := by
  have held : (beside index value image).memory =
      Memory.initial.overlay Memory.imageStart image := rfl
  have free : ¬Font.Occupies address.val := fun font => absurd font.1 (not_le.mpr low)
  rw [held, Memory.get_overlay, if_neg (by rw [Memory.imageStart]; omega)]
  simp [Memory.initial, Memory.get, free]

/-- Two zeros come back over nines; the index register has gone once around in between. -/
theorem zeros_come_back :
    let storing := (initial {} 0).performAll [] [.load #[0xF1, 0x55].toList]
    let later := beside 0x1000 9 #[0xF1, 0x65]
    storing.word.StoresBlock ∧ later.word.LoadsBlock ∧ later.step.fault = none ∧
    later.step.machine.cpu.get .offset = 0 ∧ later.step.machine.cpu.get .flag = 9 := by
  have law := stored_registers_come_back [] {} 0 [.load #[0xF1, 0x55].toList]
  rw [performAll_load [] (by decide)] at law ⊢
  dsimp only at law ⊢
  have storing : (holding #[0xF1, 0x55]).word = 0xF155 := by
    rw [word_holding (by decide) (by decide)]
    decide
  have later : (beside 0x1000 9 #[0xF1, 0x65]).word = 0xF165 := by
    rw [word_beside, word_holding (by decide) (by decide)]
    decide
  have stores : (holding #[0xF1, 0x55]).word.StoresBlock := by
    rw [storing]
    exact ⟨rfl, rfl⟩
  have loads : (beside 0x1000 9 #[0xF1, 0x65]).word.LoadsBlock := by
    rw [later]
    exact ⟨rfl, rfl⟩
  have intact : (holding #[0xF1, 0x55]).memory.FontInPlace :=
    Memory.fontInPlace_initial.overlay #[0xF1, 0x55]
  have untouched (offset : Nat) (inside : offset ≤ (holding #[0xF1, 0x55]).word.x.val) :
      (beside 0x1000 9 #[0xF1, 0x65]).memory.get (.ofNat (0 + offset)) =
        (holding #[0xF1, 0x55]).step.machine.memory.get (.ofNat (0 + offset)) := by
    have small : offset ≤ 1 := by
      rw [storing] at inside
      exact inside
    have low : (Address.ofNat (0 + offset)).val < 0x50 := by
      rw [Address.val_ofNat]
      omega
    have stored := @get_stored _ intact stores ⟨offset, by omega⟩ inside
    have zero : (holding #[0xF1, 0x55]).cpu.get ⟨offset, by omega⟩ = 0 :=
      Vector.getElem_replicate (by omega)
    have free : ¬Font.Occupies (Address.ofNat (0 + offset)).val :=
      fun font => absurd font.1 (not_le.mpr low)
    exact (get_beside_of_low _ _ _ low).trans (stored.trans ((dif_neg free).trans zero)).symm
  obtain ⟨unfaulted, back⟩ := law.2 stores (beside 0x1000 9 #[0xF1, 0x65]) loads
    (by rw [storing, later]; rfl) rfl untouched
  refine ⟨stores, loads, unfaulted, ?_, ?_⟩
  · rw [back, if_neg (by rw [storing]; decide), dif_neg (by decide)]
    rfl
  · rw [back, if_pos (by rw [storing]; decide)]
    rfl

end Machine
end ChipEight
