import ChipEight.Proofs.Images
import ChipEight.Proofs.Unbounded.View

/-!
# Memory, keys and tables of a view

A remainder by 4096 names a byte of memory, and a nibble names a key or a table entry, so that no
access of the unbounded machine misses.
-/
namespace ChipEight

theorem Keypad.toList_eq_isHeld (keys : Keypad) :
    keys.toList = (List.finRange 16).map keys.isHeld := by
  apply List.ext_getElem
  · simp
  · intro key _ _
    simp [isHeld]

namespace Unbounded

section Memory
variable (machine : Machine)

theorem ofAddress_indexed (cpu : Processor) (offset : Nat) :
    Address.ofInt (ofAddress cpu.index + offset) = cpu.indexed offset := by
  rw [ofAddress, ← Int.natCast_add, Address.ofInt_natCast, Processor.indexed]

theorem read_view (address : Int) :
    (view machine).read address = .ok (ofByte (machine.memory.read address)) := by
  rw [State.read, ← Address.val_ofInt]
  exact entry_shown machine.memory.bytes ofByte _ (Address.ofInt address).isLt

theorem readBlock_view (address : Int) (count : Nat) :
    (view machine).readBlock address count =
      .ok ((machine.memory.readBlock address count).map ofByte) := by
  induction count with
  | zero => rfl
  | succ count ih =>
    rw [State.readBlock, ih, ok_bind, read_view, ok_bind]
    simp [Memory.readBlock, List.range_succ]

theorem write_shown (memory : Memory) (address : Int) (value : UInt8) :
    write (memory.toList.map ofByte) address (ofByte value) =
      .ok ((memory.store (.ofInt address) value).toList.map ofByte) := by
  have font : Font.Occupies (Address.ofInt address).val ↔
      0x50 ≤ address % 4096 ∧ address % 4096 < 0xA0 := by
    rw [← Address.val_ofInt]
    exact Font.occupies_iff _
  have fits : ofByte value % 256 = ofByte value := by
    have bounds := ofByte_bounds value
    omega
  -- Both sides now ask the same of the same remainder.
  unfold write Memory.store
  simp only [← font, fits]
  by_cases occupied : Font.Occupies (Address.ofInt address).val
  · rw [if_pos occupied, if_pos occupied]
  · rw [if_neg occupied, if_neg occupied, ← Address.val_ofInt]
    exact replace_shown memory.bytes ofByte _ (Address.ofInt address).isLt value

theorem write_view (memory : Memory) (offset : Nat) (value : UInt8) :
    write (memory.toList.map ofByte) ((view machine).index + offset) (ofByte value) =
      .ok ((memory.store (machine.cpu.indexed offset) value).toList.map ofByte) := by
  rw [← ofAddress_indexed]
  exact write_shown memory _ value

/-- The registers that a store of `count` of them copies, with their places. -/
def storedRegisters (cpu : Processor) (count : Nat) : List (Address × UInt8) :=
  ((List.finRange 16).take count).map fun register =>
    (cpu.indexed register.val, cpu.get register)

theorem storedRegisters_succ (cpu : Processor) (register : Register) :
    storedRegisters cpu (register.val + 1) =
      storedRegisters cpu register.val ++ [(cpu.indexed register.val, cpu.get register)] := by
  have inside : register.val < (List.finRange 16).length := by simp
  rw [storedRegisters, storedRegisters, List.take_add_one, List.getElem?_eq_getElem inside]
  simp

theorem storeRegisters_view (count : Nat) (bound : count ≤ 16) :
    (view machine).storeRegisters count =
      .ok ((machine.memory.storeAll (storedRegisters machine.cpu count)).toList.map ofByte) := by
  induction count with
  | zero => rfl
  | succ count ih =>
    have read := get_view machine ⟨count, bound⟩
    rw [State.storeRegisters, ih (by omega), ok_bind, read, ok_bind, write_view,
      storedRegisters_succ machine.cpu ⟨count, bound⟩, Memory.storeAll, Memory.storeAll,
      List.foldl_append]
    rfl

theorem loadRegisters_view (word : Word) :
    assign (fun offset => (view machine).read ((view machine).index + offset)) (word.x.val + 1)
        (view machine).registers =
      .ok ((Operation.loadedRegisters word machine).toList.map ofByte) := by
  have inside := word.x.isLt
  rw [assign_eq (fun offset => ofByte (machine.memory.get (machine.cpu.indexed offset)))]
  · refine congrArg Except.ok (List.ext_getElem ?_ ?_)
    · simp only [view, List.length_append, List.length_map, List.length_range, List.length_drop,
        Vector.length_toList]
      omega
    · intro register _ shown
      have register_lt : register < 16 := by simpa using shown
      -- Up to `VX` the entries are new; those after it are the list's own.
      by_cases loaded : register < word.x.val + 1
      · have named : (⟨register, register_lt⟩ : Register) ≤ word.x := Nat.le_of_lt_succ loaded
        rw [List.getElem_append_left (by simpa using loaded)]
        simp [Operation.loadedRegisters, named]
      · have spared : ¬(⟨register, register_lt⟩ : Register) ≤ word.x := fun named =>
          loaded (Nat.lt_succ_of_le named)
        have place : word.x.val + 1 + (register - (word.x.val + 1)) = register := by omega
        rw [List.getElem_append_right (by simpa using Nat.not_lt.mp loaded)]
        simp [Operation.loadedRegisters, spared, view, place, Processor.get]
  · -- Each read finds its byte, however far the index register points.
    intro offset _
    rw [read_view, Memory.read]
    exact congrArg (fun address => Except.ok (ofByte (machine.memory.get address)))
      (ofAddress_indexed machine.cpu offset)
  · simp only [view, List.length_map, Vector.length_toList]
    omega

end Memory

section Images
variable (memory : Memory)

theorem zeros_shown (count : Nat) :
    List.replicate count (0 : Int) = (List.replicate count 0).map ofByte := by
  rw [List.map_replicate]
  rfl

theorem overlay_shown {image : List UInt8} (fits : image.length ≤ 3584) :
    (memory.toList.map ofByte).take 0x200 ++ image.map ofByte ++
        (memory.toList.map ofByte).drop (0x200 + image.length) =
      (memory.overlay Memory.imageStart image.toArray).toList.map ofByte := by
  rw [← List.map_take, ← List.map_drop, ← List.map_append, ← List.map_append,
    memory.toList_overlay fits]

theorem clearImage_shown :
    (memory.toList.map ofByte).take 0x200 ++ List.replicate 3584 0 =
      memory.clearImage.toList.map ofByte := by
  rw [zeros_shown, ← List.map_take, ← List.map_append, memory.toList_clearImage]

theorem initial_shown :
    List.replicate 0x50 0 ++ Font.bytes.toList.map ofByte ++ List.replicate (4096 - 0xA0) 0 =
      Memory.initial.toList.map ofByte := by
  have glyphs : Font.bytes.toList.length = 80 := Vector.length_toList
  rw [zeros_shown, zeros_shown, ← List.map_append, ← List.map_append, List.append_assoc]
  refine congrArg (List.map ofByte) (List.ext_getElem ?_ ?_)
  · simp only [List.length_append, List.length_replicate, glyphs, Memory.length_toList]
  · intro address _ shown
    have bound : address < 4096 := by rwa [Memory.length_toList] at shown
    rw [Memory.getElem_toList _ bound, Memory.get_initial]
    -- Before the font, within it, and behind it.
    by_cases before : address < 0x50
    · have apart : ¬Font.Occupies address := fun font => Nat.not_le.mpr before font.1
      rw [dif_neg apart, List.getElem_append_left (by simpa using before), List.getElem_replicate]
    · rw [List.getElem_append_right (by simpa using before)]
      simp only [List.length_replicate]
      by_cases inside : address - 0x50 < Font.bytes.toList.length
      · have font : Font.Occupies address := by
          simp only [Font.Occupies, Font.start, Font.stop]
          omega
        rw [dif_pos font, List.getElem_append_left inside, Vector.getElem_toList]
        rfl
      · have apart : ¬Font.Occupies address := by
          simp only [Font.Occupies, Font.start, Font.stop]
          omega
        rw [dif_neg apart, List.getElem_append_right (Nat.le_of_not_lt inside),
          List.getElem_replicate]

end Images

section Keys
variable (machine : Machine)

theorem isHeld_view (key : Fin 16) :
    entry (view machine).keys key.val = .ok (machine.keys.isHeld key) := by
  have inside : key.val < (view machine).keys.length := by simp [view]
  rw [entry_natCast _ _ inside]
  simp [view, Keypad.isHeld]

theorem lowestHeld?_view :
    (view machine).keys.findIdx? id = machine.keys.lowestHeld?.map Fin.val := by
  rw [show (view machine).keys = machine.keys.toList from rfl, Keypad.toList_eq_isHeld,
    List.findIdx?_map, Function.id_comp, Keypad.lowestHeld?,
    List.find?_eq_map_findFinIdx?_getElem, List.findIdx?_eq_map_findFinIdx?_val, Option.map_map]
  congr 1
  funext place
  simp

theorem copy_view (states : List Bool) :
    assign (fun key => entry states key) (min states.length 16) (view machine).keys =
      .ok (machine.keys.copy states).toList := by
  rw [assign_eq (fun key => states.getD key false)]
  · refine congrArg Except.ok (List.ext_getElem ?_ ?_)
    · simp [view]
    · intro key _ inside
      have key_lt : key < 16 := by simpa using inside
      -- Keys past the last state keep theirs.
      by_cases given : key < states.length
      · have counted : key < min states.length 16 := by omega
        rw [List.getElem_append_left (by simpa using counted)]
        simp [Keypad.copy, given]
      · have passed : min states.length 16 ≤ key := by omega
        have place : min states.length 16 + (key - min states.length 16) = key := by omega
        rw [List.getElem_append_right (by rwa [List.length_map, List.length_range])]
        simp [Keypad.copy, given, view, place]
  · intro key below
    have given : key < states.length := by omega
    rw [entry_natCast _ _ given]
    simp [given]
  · simp [view]

theorem hold_view (key : Fin 16) (held : Bool) :
    replace (view machine).keys key.val held = .ok (machine.keys.hold key held).toList := by
  have inside : key.val < (view machine).keys.length := by simp [view]
  rw [replace_natCast _ _ inside, Keypad.hold, Vector.toList_set]
  rfl

end Keys

section Lookup
variable (dialect : Dialect) (word : Word)

theorem entry_nibbles {α : Type} (value : Fin 16 → α) (nibble : Fin 16) :
    entry ((List.finRange 16).map value) nibble.val = .ok (value nibble) := by
  have inside : nibble.val < ((List.finRange 16).map value).length := by simp
  rw [entry_natCast _ _ inside]
  simp

theorem entry_bytes {α : Type} (value : UInt8 → α) (byte : UInt8) :
    entry ((List.range 256).map fun number => value (UInt8.ofNat number)) (ofByte byte) =
      .ok (value byte) := by
  have bound := byte.toNat_lt
  have inside : byte.toNat <
      ((List.range 256).map fun number => value (UInt8.ofNat number)).length := by
    simpa using bound
  rw [ofByte, entry_natCast _ _ inside]
  simp

theorem lookup_ofDialect :
    (Table.ofDialect dialect).lookup (ofAddress word) =
      .ok ((OpcodeTable.ofDialect dialect).lookup word) := by
  have family : ofAddress word / 4096 = (word.family.val : Nat) := by
    simp [ofAddress, Word.family]
  rw [Table.lookup, OpcodeTable.lookup, family, n_ofAddress, nn_ofAddress]
  simp only [Table.ofDialect, OpcodeTable.ofDialect]
  rw [entry_nibbles, ok_bind]
  cases OpcodeTable.families dialect word.family with
  | operation operation => rfl
  | group group =>
    cases group with
    | zero => exact entry_bytes _ _
    | eight => exact entry_nibbles _ _
    | e => exact entry_nibbles _ _
    | f => exact entry_bytes _ _

end Lookup

end Unbounded
end ChipEight
