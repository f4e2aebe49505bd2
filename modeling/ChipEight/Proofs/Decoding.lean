import Mathlib.Data.Fintype.Basic
import Mathlib.Tactic.FinCases
import ChipEight.OpcodeTable

/-!
# Words of an operation

A word reaches its operation through the family alone or through one of the four groups. Each
operation but `undefined` has one such place, so that the place says which bits of a word decide it.
-/
namespace ChipEight

/-- The group that lists an operation; the others are families of their own. -/
def Operation.group? : Operation → Option OpcodeGroup
  | clear | ret => some .zero
  | copy | logic _ _ | add | subtract | subtractFrom | shift _ _ => some .eight
  | skipKey _ => some .e
  | readDelay | awaitKey | setDelay | setSound | addIndex | glyph | decimal | store _ | load _ =>
    some .f
  | _ => none

/-- The low byte that names an operation, in the groups that go by it. -/
def Operation.byte? : Operation → Option UInt8
  | clear => some 0xE0
  | ret => some 0xEE
  | readDelay => some 0x07
  | awaitKey => some 0x0A
  | setDelay => some 0x15
  | setSound => some 0x18
  | addIndex => some 0x1E
  | glyph => some 0x29
  | decimal => some 0x33
  | store _ => some 0x55
  | load _ => some 0x65
  | _ => none

/-- The low nibble that names an operation, in the groups that go by it. -/
def Operation.nibble? : Operation → Option Nat
  | copy => some 0x0
  | logic .or _ => some 0x1
  | logic .and _ => some 0x2
  | logic .xor _ => some 0x3
  | add => some 0x4
  | subtract => some 0x5
  | shift .right _ => some 0x6
  | subtractFrom => some 0x7
  | shift .left _ => some 0xE
  | skipKey whenHeld => some (if whenHeld then 0xE else 0x1)
  | _ => none

def OpcodeGroup.family : OpcodeGroup → Nat
  | zero => 0x0
  | eight => 0x8
  | e => 0xE
  | f => 0xF

/-- The family of an operation, its own or that of its group. Every group leaves words undefined. -/
def Operation.family? : Operation → Option Nat
  | undefined => none
  | jump => some 0x1
  | call => some 0x2
  | skipByte whenEqual => some (if whenEqual then 0x3 else 0x4)
  | skipRegister whenEqual => some (if whenEqual then 0x5 else 0x9)
  | setByte => some 0x6
  | addByte => some 0x7
  | setIndex => some 0xA
  | jumpOffset _ => some 0xB
  | random => some 0xC
  | draw => some 0xD
  | operation => operation.group?.map OpcodeGroup.family

/-- What a group makes of a word of its family. -/
def OpcodeGroup.entry (group : OpcodeGroup) (dialect : Dialect) (word : Word) : Operation :=
  match group with
  | zero => OpcodeTable.groupZero word.nn
  | eight => OpcodeTable.groupEight dialect word.n
  | e => OpcodeTable.groupE word.n
  | f => OpcodeTable.groupF dialect word.nn

namespace OpcodeTable

variable (dialect : Dialect) (word : Word) {operation : Operation} {group : OpcodeGroup}

theorem families_eq_group_iff (family : Fin 16) :
    families dialect family = .group group ↔ family.val = group.family := by
  cases group <;> fin_cases family <;> simp [families, OpcodeGroup.family]

theorem group?_of_families {family : Fin 16}
    (found : families dialect family = .operation operation) : operation.group? = none := by
  unfold families at found
  split at found <;> cases found <;> rfl

theorem group?_entry (defined : group.entry dialect word ≠ .undefined) :
    (group.entry dialect word).group? = some group := by
  cases group with
  | zero =>
    simp only [OpcodeGroup.entry, groupZero] at defined ⊢
    split at defined <;> simp_all [Operation.group?]
  | eight =>
    simp only [OpcodeGroup.entry, groupEight] at defined ⊢
    split at defined <;> simp_all [Operation.group?]
  | e =>
    simp only [OpcodeGroup.entry, groupE] at defined ⊢
    split at defined <;> simp_all [Operation.group?]
  | f =>
    simp only [OpcodeGroup.entry, groupF] at defined ⊢
    split at defined <;> simp_all [Operation.group?]

theorem nn_of_byte?_entry {byte : UInt8}
    (keyed : (group.entry dialect word).byte? = some byte) : word.nn = byte := by
  cases group with
  | zero =>
    simp only [OpcodeGroup.entry, groupZero] at keyed
    split at keyed <;> simp_all [Operation.byte?]
  | eight =>
    simp only [OpcodeGroup.entry, groupEight] at keyed
    split at keyed <;> cases keyed
  | e =>
    simp only [OpcodeGroup.entry, groupE] at keyed
    split at keyed <;> cases keyed
  | f =>
    simp only [OpcodeGroup.entry, groupF] at keyed
    split at keyed <;> simp_all [Operation.byte?]

theorem n_of_nibble?_entry {nibble : Nat}
    (keyed : (group.entry dialect word).nibble? = some nibble) : word.n.val = nibble := by
  cases group with
  | zero =>
    simp only [OpcodeGroup.entry, groupZero] at keyed
    split at keyed <;> cases keyed
  | eight =>
    simp only [OpcodeGroup.entry, groupEight] at keyed
    split at keyed <;> cases keyed <;> simp [*]
  | e =>
    simp only [OpcodeGroup.entry, groupE] at keyed
    split at keyed <;> cases keyed <;> simp [*]
  | f =>
    simp only [OpcodeGroup.entry, groupF] at keyed
    split at keyed <;> cases keyed

/-- Nibbles and bytes name operations within a group only. -/
theorem unkeyed_of_alone (alone : operation.group? = none) :
    operation.nibble? = none ∧ operation.byte? = none := by
  cases operation with
  | undefined | jump | call | skipByte _ | skipRegister _ | setByte | addByte | setIndex
  | jumpOffset _ | random | draw => exact ⟨rfl, rfl⟩
  | _ => cases alone

theorem family?_of_families {family : Fin 16}
    (found : families dialect family = .operation operation) :
    operation.family? = some family.val := by
  unfold families at found
  split at found <;> cases found <;> rfl

theorem family?_of_group? (listed : operation.group? = some group) :
    operation.family? = some group.family := by
  cases operation with
  | undefined | jump | call | skipByte _ | skipRegister _ | setByte | addByte | setIndex
  | jumpOffset _ | random | draw => cases listed
  | _ => cases listed; rfl

theorem lookup_eq_iff :
    (ofDialect dialect).lookup word = operation ↔
      families dialect word.family = .operation operation ∨
      ∃ group : OpcodeGroup, word.family.val = group.family ∧
        group.entry dialect word = operation := by
  simp only [← families_eq_group_iff dialect, lookup, ofDialect]
  cases families dialect word.family with
  | operation found => simp
  | group found => cases found <;> simp [OpcodeGroup.entry]

theorem lookup_of_group (family : word.family.val = group.family) :
    (ofDialect dialect).lookup word = group.entry dialect word :=
  (lookup_eq_iff dialect word).mpr (.inr ⟨group, family, rfl⟩)

theorem lookup_eq_iff_of_alone (alone : operation.group? = none)
    (defined : operation ≠ .undefined) :
    (ofDialect dialect).lookup word = operation ↔
      families dialect word.family = .operation operation := by
  rw [lookup_eq_iff]
  constructor
  · rintro (found | ⟨group, _, rfl⟩)
    · exact found
    · -- An operation that a group gives is listed there, and this one is not.
      have listed := group?_entry dialect word defined
      simp [alone] at listed
  · exact Or.inl

theorem lookup_eq_iff_of_listed (listed : operation.group? = some group) :
    (ofDialect dialect).lookup word = operation ↔
      word.family.val = group.family ∧ group.entry dialect word = operation := by
  have defined : operation ≠ .undefined := by
    rintro rfl
    cases listed
  rw [lookup_eq_iff]
  constructor
  · rintro (found | ⟨other, family, rfl⟩)
    · have alone := group?_of_families dialect found
      simp [listed] at alone
    · -- No operation is listed in two groups.
      have same := (group?_entry dialect word defined).symm.trans listed
      cases same
      exact ⟨family, rfl⟩
  · exact fun found => Or.inr ⟨group, found⟩

/-- An operation with a byte of its own is reached by that byte alone. -/
theorem lookup_eq_iff_of_byte {byte : UInt8} (listed : operation.group? = some group)
    (keyed : operation.byte? = some byte)
    (entered : word.nn = byte → group.entry dialect word = operation) :
    (ofDialect dialect).lookup word = operation ↔
      word.family.val = group.family ∧ word.nn = byte := by
  rw [lookup_eq_iff_of_listed dialect word listed]
  apply and_congr_right
  intro _
  constructor
  · rintro rfl
    exact nn_of_byte?_entry dialect word keyed
  · exact entered

/-! ### The bits of a word that has an operation -/

section Place
variable {dialect word} (found : (ofDialect dialect).lookup word = operation)
include found

theorem family_of_lookup {family : Nat} (named : operation.family? = some family) :
    word.family.val = family := by
  rcases (lookup_eq_iff dialect word).mp found with alone | ⟨group, listed, rfl⟩
  · rw [family?_of_families dialect alone] at named
    exact Option.some.inj named
  · have defined : group.entry dialect word ≠ .undefined := by
      intro undefined
      simp [undefined, Operation.family?] at named
    rw [family?_of_group? (group?_entry dialect word defined)] at named
    exact listed.trans (Option.some.inj named)

theorem n_of_lookup {nibble : Nat} (keyed : operation.nibble? = some nibble) :
    word.n.val = nibble := by
  rcases (lookup_eq_iff dialect word).mp found with alone | ⟨group, -, rfl⟩
  · rw [(unkeyed_of_alone (group?_of_families dialect alone)).1] at keyed
    cases keyed
  · exact n_of_nibble?_entry dialect word keyed

theorem nn_of_lookup {byte : UInt8} (keyed : operation.byte? = some byte) : word.nn = byte := by
  rcases (lookup_eq_iff dialect word).mp found with alone | ⟨group, -, rfl⟩
  · rw [(unkeyed_of_alone (group?_of_families dialect alone)).2] at keyed
    cases keyed
  · exact nn_of_byte?_entry dialect word keyed

end Place

theorem lookup_eq_call_iff : (ofDialect dialect).lookup word = .call ↔ word.family.val = 0x2 := by
  rw [lookup_eq_iff_of_alone dialect word rfl (by simp)]
  generalize word.family = family
  fin_cases family <;> simp [families]

theorem lookup_eq_jump_iff : (ofDialect dialect).lookup word = .jump ↔ word.family.val = 0x1 := by
  rw [lookup_eq_iff_of_alone dialect word rfl (by simp)]
  generalize word.family = family
  fin_cases family <;> simp [families]

theorem lookup_eq_jumpOffset_iff (addsNamed : Bool) :
    (ofDialect dialect).lookup word = .jumpOffset addsNamed ↔
      word.family.val = 0xB ∧ dialect.jumpAddsNamed = addsNamed := by
  rw [lookup_eq_iff_of_alone dialect word rfl (by simp)]
  generalize word.family = family
  fin_cases family <;> simp [families]

theorem lookup_eq_random_iff :
    (ofDialect dialect).lookup word = .random ↔ word.family.val = 0xC := by
  rw [lookup_eq_iff_of_alone dialect word rfl (by simp)]
  generalize word.family = family
  fin_cases family <;> simp [families]

theorem lookup_eq_draw_iff : (ofDialect dialect).lookup word = .draw ↔ word.family.val = 0xD := by
  rw [lookup_eq_iff_of_alone dialect word rfl (by simp)]
  generalize word.family = family
  fin_cases family <;> simp [families]

theorem lookup_eq_clear_iff :
    (ofDialect dialect).lookup word = .clear ↔ word.family.val = 0x0 ∧ word.nn = 0xE0 := by
  have listed : Operation.clear.group? = some .zero := rfl
  apply lookup_eq_iff_of_byte dialect word listed rfl
  intro named
  rw [OpcodeGroup.entry, named]
  rfl

theorem lookup_eq_ret_iff :
    (ofDialect dialect).lookup word = .ret ↔ word.family.val = 0x0 ∧ word.nn = 0xEE := by
  have listed : Operation.ret.group? = some .zero := rfl
  apply lookup_eq_iff_of_byte dialect word listed rfl
  intro named
  rw [OpcodeGroup.entry, named]
  rfl

theorem lookup_eq_readDelay_iff :
    (ofDialect dialect).lookup word = .readDelay ↔ word.family.val = 0xF ∧ word.nn = 0x07 := by
  have listed : Operation.readDelay.group? = some .f := rfl
  apply lookup_eq_iff_of_byte dialect word listed rfl
  intro named
  rw [OpcodeGroup.entry, named]
  rfl

theorem lookup_eq_awaitKey_iff :
    (ofDialect dialect).lookup word = .awaitKey ↔ word.family.val = 0xF ∧ word.nn = 0x0A := by
  have listed : Operation.awaitKey.group? = some .f := rfl
  apply lookup_eq_iff_of_byte dialect word listed rfl
  intro named
  rw [OpcodeGroup.entry, named]
  rfl

theorem lookup_eq_decimal_iff :
    (ofDialect dialect).lookup word = .decimal ↔ word.family.val = 0xF ∧ word.nn = 0x33 := by
  have listed : Operation.decimal.group? = some .f := rfl
  apply lookup_eq_iff_of_byte dialect word listed rfl
  intro named
  rw [OpcodeGroup.entry, named]
  rfl

theorem lookup_eq_store_iff (advance : IndexAdvance) :
    (ofDialect dialect).lookup word = .store advance ↔
      word.family.val = 0xF ∧ word.nn = 0x55 ∧ dialect.indexAdvance = advance := by
  have listed : (Operation.store advance).group? = some .f := rfl
  rw [lookup_eq_iff_of_listed dialect word listed]
  apply and_congr_right
  intro _
  simp only [OpcodeGroup.entry, groupF]
  split <;> simp_all

end OpcodeTable
end ChipEight
