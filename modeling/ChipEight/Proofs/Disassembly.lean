import ChipEight.Proofs.Spelling
import ChipEight.Proofs.Unbounded.Storage

/-!
# Text and effect

Words are decoded twice: the opcode tables say what to execute, and the disassembler says what to
print. Main statements: words with the same text have the same effect, and the text of an undefined
word stands for exactly those numbers that the tables lead nowhere.
-/
namespace ChipEight

open Keyword Token

namespace Mnemonic

variable (dialect : Dialect) (word : Word)

theorem tokens_ne_nil : tokens dialect word ≠ [] := by
  rw [tokens_eq_spelling]
  exact Operation.spelling_ne_nil _ word

theorem text_null : text [keyword null] = "null" := by decide

theorem describe_eq_null_iff_undefined :
    describe dialect word.toNat = "null" ↔
      (OpcodeTable.ofDialect dialect).lookup word = .undefined := by
  rw [describe_toNat, ← text_null, text_inj (tokens_ne_nil dialect word) (by simp),
    tokens_eq_spelling, Operation.spelling_eq_null_iff]

theorem describe_of_outside {opcode : Int} (outside : ¬(0 ≤ opcode ∧ opcode ≤ 0xFFFF)) :
    describe dialect opcode = "null" := by
  rw [describe, tokensUnder_of_outside _ _ (by omega), text_null]

variable {dialect} in
/-- The text of a word gives its operation, and then its operands. -/
theorem execute_eq_of_describe_eq {left right : Word}
    (same : describe dialect left.toNat = describe dialect right.toNat) (machine : Machine) :
    ((OpcodeTable.ofDialect dialect).lookup left).execute left machine =
      ((OpcodeTable.ofDialect dialect).lookup right).execute right machine := by
  rw [describe_toNat, describe_toNat,
    text_inj (tokens_ne_nil dialect left) (tokens_ne_nil dialect right), tokens_eq_spelling,
    tokens_eq_spelling] at same
  have operation := congrArg (Operation.ofTokens dialect) same
  rw [Operation.ofTokens_spelling (OpcodeTable.lookup_of dialect left),
    Operation.ofTokens_spelling (OpcodeTable.lookup_of dialect right)] at operation
  rw [operation] at same ⊢
  exact Operation.execute_eq_of_spelling_eq same machine

end Mnemonic

namespace Unbounded

theorem entry_of_outside {α : Type} {cells : List α} {index : Int}
    (outside : ¬(0 ≤ index ∧ index < cells.length)) : entry cells index = .error .outOfRange := by
  unfold entry
  split
  next positive =>
    rw [List.getElem?_eq_none (by omega)]
  next => rfl

theorem lookup_of_outside (dialect : Dialect) {opcode : Int}
    (outside : ¬(0 ≤ opcode ∧ opcode ≤ 0xFFFF)) :
    (Table.ofDialect dialect).lookup opcode = .error .outOfRange := by
  have missed : entry (Table.ofDialect dialect).family (opcode / 4096) = .error .outOfRange := by
    apply entry_of_outside
    simp only [Table.ofDialect, List.length_map, List.length_finRange]
    omega
  rw [Table.lookup, missed]
  rfl

theorem exists_ofAddress {opcode : Int} (inside : 0 ≤ opcode ∧ opcode ≤ 0xFFFF) :
    ∃ word : Word, opcode = ofAddress word := by
  refine ⟨UInt16.ofNat opcode.toNat, ?_⟩
  rw [ofAddress, UInt16.toNat_ofNat']
  omega

/-- The tables have an entry for every word and for nothing else. -/
theorem lookup_eq_outOfRange_iff (dialect : Dialect) (opcode : Int) :
    (Table.ofDialect dialect).lookup opcode = .error .outOfRange ↔
      ¬(0 ≤ opcode ∧ opcode ≤ 0xFFFF) := by
  constructor
  · intro missed inside
    obtain ⟨word, rfl⟩ := exists_ofAddress inside
    rw [lookup_ofDialect] at missed
    cases missed
  · exact lookup_of_outside dialect

theorem describe_eq_null_iff (dialect : Dialect) (opcode : Int) :
    Mnemonic.describe dialect opcode = "null" ↔
      ¬(0 ≤ opcode ∧ opcode ≤ 0xFFFF) ∨
        (Table.ofDialect dialect).lookup opcode = .ok .undefined := by
  by_cases inside : 0 ≤ opcode ∧ opcode ≤ 0xFFFF
  · obtain ⟨word, rfl⟩ := exists_ofAddress inside
    rw [lookup_ofDialect, or_iff_right (not_not_intro inside), Except.ok.injEq]
    exact Mnemonic.describe_eq_null_iff_undefined dialect word
  · exact iff_of_true (Mnemonic.describe_of_outside dialect inside) (Or.inl inside)

end Unbounded

namespace Operation

/-- Only a word that is no instruction is reported as one. -/
theorem undefinedWord_mem_notes {operation : Operation} {word reported : Word} {cpu : Processor}
    {address : UInt16} (member : .undefinedWord reported address ∈ operation.notes word cpu) :
    operation = undefined := by
  cases operation with
  | undefined => rfl
  | jump | jumpOffset _ =>
    simp only [notes, target?] at member
    split at member <;> simp at member
  | decimal | store _ =>
    obtain ⟨write, _, noted⟩ := List.mem_filterMap.mp member
    unfold Diagnostic.ofWrite? at noted
    split at noted <;> simp at noted
  | _ => simp [notes] at member

end Operation

namespace Machine

variable (machine : Machine)

/-- Execute a word as the one that has just been fetched. -/
def dispatch (word : Word) : Except StackFault Machine :=
  ((OpcodeTable.ofDialect machine.dialect).lookup word).execute word machine

/-- An undefined word is recorded and passed over, and no other word is reported like that. -/
theorem upcoming_eq_undefined_iff :
    machine.upcoming = .undefined ↔
      machine.step = ⟨machine.fetch, none, [.undefinedWord machine.word machine.cpu.pc]⟩ := by
  constructor
  · intro undefined
    have notes := machine.step_notes
    have done : machine.upcoming.execute machine.word machine.fetch = .ok machine.fetch := by
      rw [undefined]
      rfl
    rw [undefined] at notes
    obtain ⟨reached, unfaulted⟩ := step_of_ok done
    rcases outcome : machine.step with ⟨next, fault, lines⟩
    rw [outcome] at reached unfaulted notes
    cases reached
    cases unfaulted
    cases notes
    rfl
  · intro passed
    have notes := machine.step_notes
    rw [passed] at notes
    have member : Diagnostic.undefinedWord machine.word machine.cpu.pc ∈
        machine.upcoming.notes machine.word machine.fetch.cpu := by
      rw [← notes]
      exact List.mem_singleton.mpr rfl
    exact Operation.undefinedWord_mem_notes member

/-- Words with the same text do the same to every machine of the dialect, or fail the same way. -/
theorem same_text_same_effect (machine : Machine) (left right : Word)
    (same : Mnemonic.describe machine.dialect left.toNat =
      Mnemonic.describe machine.dialect right.toNat) :
    machine.dispatch left = machine.dispatch right :=
  Mnemonic.execute_eq_of_describe_eq same machine

/-- Shifts in place that name different second registers. -/
theorem in_place_shifts_agree :
    Mnemonic.describe (initial {} 0).dialect (0x8A16 : Word).toNat =
      Mnemonic.describe (initial {} 0).dialect (0x8AB6 : Word).toNat ∧
    (initial {} 0).dispatch 0x8A16 = (initial {} 0).dispatch 0x8AB6 := by
  have same : Mnemonic.describe (initial {} 0).dialect (0x8A16 : Word).toNat =
      Mnemonic.describe (initial {} 0).dialect (0x8AB6 : Word).toNat := by
    rw [Mnemonic.describe_toNat, Mnemonic.describe_toNat]
    rfl
  exact ⟨same, same_text_same_effect (initial {} 0) 0x8A16 0x8AB6 same⟩

end Machine

namespace Mnemonic

/-- The text of an undefined word stands for the numbers that are no words and for the words that
the tables lead nowhere; a machine that meets such a word reports it and passes on. -/
theorem null_text_iff_ignored (dialect : Dialect) (opcode : Int) :
    (describe dialect opcode = "null" ↔
      ¬(0 ≤ opcode ∧ opcode ≤ 0xFFFF) ∨
        (Unbounded.Table.ofDialect dialect).lookup opcode = .ok .undefined) ∧
    ((Unbounded.Table.ofDialect dialect).lookup opcode = .error .outOfRange ↔
      ¬(0 ≤ opcode ∧ opcode ≤ 0xFFFF)) ∧
    ∀ machine : Machine,
      describe machine.dialect machine.word.toNat = "null" ↔
        machine.step =
          ⟨machine.fetch, none, [.undefinedWord machine.word machine.cpu.pc]⟩ := by
  refine ⟨Unbounded.describe_eq_null_iff dialect opcode,
    Unbounded.lookup_eq_outOfRange_iff dialect opcode, ?_⟩
  intro machine
  rw [describe_eq_null_iff_undefined]
  exact machine.upcoming_eq_undefined_iff

end Mnemonic
end ChipEight
