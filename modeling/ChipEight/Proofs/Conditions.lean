import ChipEight.Proofs.Spelling

/-!
# Printed conditions

A skip is printed as a conditional: `if`, a condition, `then`. The condition is the opposite of what
the skip goes by, so that the next instruction is passed over when the condition fails. Which words
are printed like that is told from the text alone, whatever stands between the two keywords.
-/
namespace ChipEight

/-- What a register is compared with. -/
inductive Operand where
  | number (value : UInt8)
  | register (index : Register)
  deriving DecidableEq, Repr

/-- What is printed between `if` and `then`. -/
inductive Condition where
  | equals (left : Register) (right : Operand)
  | differs (left : Register) (right : Operand)
  /-- The key that the low four bits of a register name is held. -/
  | held (named : Register)
  | released (named : Register)
  deriving DecidableEq, Repr

namespace Operand

def text : Operand → String
  | number value => toString value.toNat
  | register index => "v" ++ Text.Hex.ofNat 1 index.val

def value (machine : Machine) : Operand → UInt8
  | number value => value
  | register index => machine.cpu.get index

end Operand

namespace Condition

def text : Condition → String
  | equals left right => (Operand.register left).text ++ " == " ++ right.text
  | differs left right => (Operand.register left).text ++ " != " ++ right.text
  | held named => (Operand.register named).text ++ " key"
  | released named => (Operand.register named).text ++ " -key"

/-- The key that a register names. -/
def key (machine : Machine) (named : Register) : Fin 16 :=
  ⟨(machine.cpu.get named).toNat % 16, Nat.mod_lt _ (Nat.zero_lt_succ 15)⟩

def holds (machine : Machine) : Condition → Bool
  | equals left right => machine.cpu.get left == right.value machine
  | differs left right => machine.cpu.get left != right.value machine
  | held named => machine.keys.isHeld (key machine named)
  | released named => !machine.keys.isHeld (key machine named)

end Condition

/-- Words that are printed with a condition: four families, and two words in sixteen of another. -/
def Word.Conditional (word : Word) : Prop :=
  word.family.val = 0x3 ∨ word.family.val = 0x4 ∨ word.family.val = 0x5 ∨ word.family.val = 0x9 ∨
    (word.family.val = 0xE ∧ (word.n.val = 0x1 ∨ word.n.val = 0xE))

namespace Operation

open Keyword Token

/-- The condition that an operation is printed with. -/
def condition? (operation : Operation) (word : Word) : Option Condition :=
  match operation with
  | skipByte true => some (.differs word.x (.number word.nn))
  | skipByte false => some (.equals word.x (.number word.nn))
  | skipRegister true => some (.differs word.x (.register word.y))
  | skipRegister false => some (.equals word.x (.register word.y))
  | skipKey true => some (.released word.x)
  | skipKey false => some (.held word.x)
  | _ => none

variable {operation : Operation} {word : Word} {condition : Condition}

theorem text_of_condition (printed : operation.condition? word = some condition) :
    Mnemonic.text (operation.spelling word) = "if " ++ condition.text ++ " then" := by
  apply String.toList_inj.mp
  cases operation with
  | skipByte whenEqual | skipRegister whenEqual | skipKey whenEqual =>
    cases whenEqual <;> cases printed <;>
      simp [Mnemonic.text, spelling, Condition.text, Operand.text, Token.text, Keyword.text]
  | _ => cases printed

/-- A text with `if` in front of its first space has that keyword in front. -/
theorem head?_of_if {tokens : List Token} {inner : String} (nonempty : tokens ≠ [])
    (same : Mnemonic.text tokens = "if " ++ inner ++ " then") :
    tokens.head? = some (keyword ifWord) := by
  have begins : (Mnemonic.text tokens).toList.splitOn ' ' =
      (keyword ifWord).text.toList :: (inner ++ " then").toList.splitOn ' ' := by
    have chars : (Mnemonic.text tokens).toList =
        (keyword ifWord).text.toList ++ ' ' :: (inner ++ " then").toList := by
      simp [same, Token.text, Keyword.text]
    rw [chars]
    exact Text.splitOn_append_space (keyword ifWord).space_notMem_text _
  rw [Mnemonic.splitOn_text nonempty] at begins
  cases tokens with
  | nil => exact absurd rfl nonempty
  | cons token tokens =>
    -- A token is read back from its text, so that the first one can only be the keyword.
    have first : token.text.toList = (keyword ifWord).text.toList := (List.cons.inj begins).1
    have read := Token.ofChars?_text token
    rw [first, Token.ofChars?_text] at read
    exact read.symm

theorem exists_condition_of_if {inner : String}
    (same : Mnemonic.text (operation.spelling word) = "if " ++ inner ++ " then") :
    ∃ condition, operation.condition? word = some condition ∧ condition.text = inner := by
  have begins := head?_of_if (operation.spelling_ne_nil word) same
  have found : ∃ condition, operation.condition? word = some condition := by
    cases operation with
    | skipByte whenEqual | skipRegister whenEqual | skipKey whenEqual =>
      cases whenEqual <;> exact ⟨_, rfl⟩
    | jumpOffset addsNamed => cases addsNamed <;> simp [spelling] at begins
    | _ => simp [spelling] at begins
  obtain ⟨condition, printed⟩ := found
  refine ⟨condition, printed, ?_⟩
  rw [text_of_condition printed, ← String.toList_inj] at same
  apply String.toList_inj.mp
  simpa using same

/-- The next instruction is passed over if the printed condition fails. -/
theorem execute_of_condition (printed : operation.condition? word = some condition)
    (machine : Machine) :
    operation.execute word machine =
      .ok { machine with cpu := machine.cpu.skipIf (!condition.holds machine) } := by
  cases operation with
  | skipByte whenEqual | skipRegister whenEqual | skipKey whenEqual =>
    cases whenEqual <;> cases printed <;>
      simp only [execute, Condition.holds, bne, beq_true, beq_false, Bool.not_not] <;> rfl
  | _ => cases printed

/-- Of the four groups, one has skips. -/
theorem condition?_entry {group : OpcodeGroup} (other : group ≠ .e) (dialect : Dialect)
    (word : Word) : (group.entry dialect word).condition? word = none := by
  by_cases defined : group.entry dialect word = .undefined
  · rw [defined]
    rfl
  · have listed := OpcodeTable.group?_entry dialect word defined
    generalize group.entry dialect word = operation at listed
    cases operation with
    | skipByte _ | skipRegister _ => cases listed
    | skipKey _ =>
      cases listed
      exact absurd rfl other
    | _ => rfl

end Operation

namespace Word

variable (word : Word)

/-- The condition of a word, told from its nibbles. -/
def condition? : Option Condition :=
  match word.family.val with
  | 0x3 => some (.differs word.x (.number word.nn))
  | 0x4 => some (.equals word.x (.number word.nn))
  | 0x5 => some (.differs word.x (.register word.y))
  | 0x9 => some (.equals word.x (.register word.y))
  | 0xE =>
    if word.n.val = 0xE then some (.released word.x)
    else if word.n.val = 0x1 then some (.held word.x)
    else none
  | _ => none

theorem condition?_eq (dialect : Dialect) :
    word.condition? = ((OpcodeTable.ofDialect dialect).lookup word).condition? word := by
  have others (group : OpcodeGroup) (other : group ≠ .e) :=
    Operation.condition?_entry other dialect word
  unfold condition? OpcodeTable.lookup OpcodeTable.ofDialect
  generalize word.family = family
  fin_cases family
  case «0» => exact (others .zero (by decide)).symm
  case «8» => exact (others .eight (by decide)).symm
  case «14» =>
    generalize word.n = nibble
    fin_cases nibble <;> rfl
  case «15» => exact (others .f (by decide)).symm
  all_goals rfl

theorem exists_condition?_iff :
    (∃ condition, word.condition? = some condition) ↔ word.Conditional := by
  unfold condition? Conditional
  generalize word.family = family
  fin_cases family
  case «14» =>
    generalize word.n = nibble
    fin_cases nibble <;> simp
  all_goals simp

/-- A word is printed as a conditional exactly if it has a condition, which is what is printed. -/
theorem describe_eq_if_iff (dialect : Dialect) (inner : String) :
    Mnemonic.describe dialect word.toNat = "if " ++ inner ++ " then" ↔
      ∃ condition, word.condition? = some condition ∧ condition.text = inner := by
  rw [Mnemonic.describe_toNat, Mnemonic.tokens_eq_spelling, word.condition?_eq dialect]
  constructor
  · exact Operation.exists_condition_of_if
  · rintro ⟨condition, printed, rfl⟩
    exact Operation.text_of_condition printed

end Word

end ChipEight
