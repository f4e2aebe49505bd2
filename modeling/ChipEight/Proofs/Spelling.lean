import ChipEight.Proofs.Mnemonics
import ChipEight.Proofs.Step

/-!
# Spelling

Each operation has one spelling, from which it can be read back, and which shows every part of the
word that the operation uses. What the disassembler prints for a word is the spelling of what the
opcode tables make of it.
-/
namespace ChipEight

open Keyword Token

theorem Word.nnn_eq {left right : Word} (first : left.x = right.x) (byte : left.nn = right.nn) :
    left.nnn = right.nnn := by
  have high : left.toNat / 256 % 16 = right.toNat / 256 % 16 := congrArg Fin.val first
  have low : left.toNat % 256 = right.toNat % 256 := by
    rw [← Word.toNat_nn, byte, Word.toNat_nn]
  apply UInt16.toNat_inj.mp
  rw [Word.toNat_nnn, Word.toNat_nnn]
  omega

def LogicOp.sign : LogicOp → Keyword
  | or => orAssign
  | and => andAssign
  | xor => xorAssign

def ShiftDirection.sign : ShiftDirection → Keyword
  | right => shiftRightAssign
  | left => shiftLeftAssign

namespace Operation

/-- The choices in an operation are those of a dialect. -/
def Of (dialect : Dialect) : Operation → Prop
  | logic _ clearsFlag => clearsFlag = dialect.logicClearsFlag
  | shift _ inPlace => inPlace = dialect.shiftInPlace
  | jumpOffset addsNamed => addsNamed = dialect.jumpAddsNamed
  | store advance | load advance => advance = dialect.indexAdvance
  | _ => True

/-- What an advance adds to the text of an operation. -/
def advanceTokens (advance : IndexAdvance) : List Token :=
  if advance = .unchanged then [keyword fixedOpen, keyword fixedClose] else []

/-- The tokens of an operation with the operands of a word. -/
def spelling (operation : Operation) (word : Word) : List Token :=
  let condition (sign : Keyword) (right : Token) :=
    [keyword ifWord, register word.x, keyword sign, right, keyword thenWord]
  let binary (sign : Keyword) := [register word.x, keyword sign, register word.y]
  match operation with
  | undefined => [keyword null]
  | clear => [keyword Keyword.clear]
  | ret => [keyword Keyword.ret]
  | jump => [keyword Keyword.jump, address word.nnn]
  | call => [keyword Keyword.call, address word.nnn]
  | skipByte whenEqual => condition (if whenEqual then notEqual else equal) (number word.nn.toNat)
  | skipRegister whenEqual => condition (if whenEqual then notEqual else equal) (register word.y)
  | setByte => [register word.x, keyword assign, number word.nn.toNat]
  | addByte => [register word.x, keyword addAssign, number word.nn.toNat]
  | copy => binary assign
  | logic op _ => binary op.sign
  | add => binary addAssign
  | subtract => binary subtractAssign
  | subtractFrom => binary subtractFromAssign
  | shift direction inPlace =>
    [register word.x, keyword direction.sign, if inPlace then number 1 else register word.y]
  | setIndex => [keyword Keyword.index, keyword assign, address word.nnn]
  | jumpOffset addsNamed =>
    if addsNamed then
      [keyword Keyword.jumpOffset, byte word.nn, keyword plus, register word.x]
    else [keyword Keyword.jumpOffset, address word.nnn]
  | random => [register word.x, keyword assign, keyword Keyword.random, number word.nn.toNat]
  | draw => [keyword sprite, register word.x, register word.y, number word.n.val]
  | skipKey whenHeld =>
    [keyword ifWord, register word.x, keyword (if whenHeld then released else held),
      keyword thenWord]
  | readDelay => [register word.x, keyword assign, keyword delay]
  | awaitKey => [register word.x, keyword assign, keyword held]
  | setDelay => [keyword delay, keyword assign, register word.x]
  | setSound => [keyword buzzer, keyword assign, register word.x]
  | addIndex => [keyword Keyword.index, keyword addAssign, register word.x]
  | glyph => [keyword Keyword.index, keyword assign, keyword hex, register word.x]
  | decimal => [keyword bcd, register word.x]
  | store advance => [keyword save, register word.x] ++ advanceTokens advance
  | load advance => [keyword Keyword.load, register word.x] ++ advanceTokens advance

/-- The operation that is spelled like this in a dialect. -/
def ofTokens (dialect : Dialect) : List Token → Operation
  | [keyword Keyword.clear] => clear
  | [keyword Keyword.ret] => ret
  | [keyword Keyword.jump, _] => jump
  | [keyword Keyword.call, _] => call
  | [keyword ifWord, _, keyword sign, number _, _] => skipByte (sign = notEqual)
  | [keyword ifWord, _, keyword sign, register _, _] => skipRegister (sign = notEqual)
  | [keyword ifWord, _, keyword sign, _] => skipKey (sign = released)
  | [register _, keyword assign, number _] => setByte
  | [register _, keyword addAssign, number _] => addByte
  | [register _, keyword assign, register _] => copy
  | [register _, keyword orAssign, _] => logic .or dialect.logicClearsFlag
  | [register _, keyword andAssign, _] => logic .and dialect.logicClearsFlag
  | [register _, keyword xorAssign, _] => logic .xor dialect.logicClearsFlag
  | [register _, keyword addAssign, register _] => add
  | [register _, keyword subtractAssign, _] => subtract
  | [register _, keyword subtractFromAssign, _] => subtractFrom
  | [register _, keyword shiftRightAssign, _] => shift .right dialect.shiftInPlace
  | [register _, keyword shiftLeftAssign, _] => shift .left dialect.shiftInPlace
  | [keyword Keyword.index, keyword assign, address _] => setIndex
  | keyword Keyword.jumpOffset :: _ => jumpOffset dialect.jumpAddsNamed
  | [register _, keyword assign, keyword Keyword.random, _] => random
  | keyword sprite :: _ => draw
  | [register _, keyword assign, keyword delay] => readDelay
  | [register _, keyword assign, keyword held] => awaitKey
  | keyword delay :: _ => setDelay
  | keyword buzzer :: _ => setSound
  | [keyword Keyword.index, keyword addAssign, _] => addIndex
  | [keyword Keyword.index, keyword assign, keyword hex, _] => glyph
  | keyword bcd :: _ => decimal
  | keyword save :: _ => store dialect.indexAdvance
  | keyword Keyword.load :: _ => load dialect.indexAdvance
  | _ => undefined

theorem spelling_ne_nil (operation : Operation) (word : Word) : operation.spelling word ≠ [] := by
  cases operation with
  | jumpOffset addsNamed => cases addsNamed <;> simp [spelling]
  | _ => simp [spelling]

theorem ofTokens_spelling {dialect : Dialect} {operation : Operation}
    (chosen : operation.Of dialect) (word : Word) :
    ofTokens dialect (operation.spelling word) = operation := by
  cases operation with
  | skipByte whenEqual | skipRegister whenEqual | skipKey whenEqual => cases whenEqual <;> rfl
  | logic op clearsFlag =>
    cases chosen
    cases op <;> rfl
  | shift direction inPlace =>
    cases chosen
    cases direction <;> rfl
  | jumpOffset addsNamed =>
    cases chosen
    simp only [spelling]
    split <;> rfl
  | store advance | load advance =>
    cases chosen
    rfl
  | _ => rfl

theorem spelling_eq_null_iff (operation : Operation) (word : Word) :
    operation.spelling word = [keyword null] ↔ operation = undefined := by
  cases operation with
  | jumpOffset addsNamed => cases addsNamed <;> simp [spelling]
  | _ => simp [spelling]

/-- The text shows every part of the word that the operation uses. -/
theorem execute_eq_of_spelling_eq {operation : Operation} {left right : Word}
    (same : operation.spelling left = operation.spelling right) (machine : Machine) :
    operation.execute left machine = operation.execute right machine := by
  cases operation with
  | undefined | clear | ret => rfl
  | jump | call | setIndex =>
    have target : left.nnn = right.nnn := by simpa [spelling] using same
    simp only [execute, target?, target]
  | skipByte _ | setByte | addByte | random =>
    obtain ⟨first, byte⟩ : left.x = right.x ∧ left.nn.toNat = right.nn.toNat := by
      simpa [spelling] using same
    simp only [execute, first, UInt8.toNat_inj.mp byte]
  | skipRegister _ | copy | logic _ _ | add | subtract | subtractFrom =>
    obtain ⟨first, second⟩ : left.x = right.x ∧ left.y = right.y := by
      simpa [spelling] using same
    simp only [execute, first, second]
  | shift direction inPlace =>
    cases inPlace with
    | true =>
      -- The second register is neither printed nor used.
      have first : left.x = right.x := by simpa [spelling] using same
      simp only [execute, first, if_true]
    | false =>
      obtain ⟨first, second⟩ : left.x = right.x ∧ left.y = right.y := by
        simpa [spelling] using same
      simp only [execute, first, second]
  | jumpOffset addsNamed =>
    cases addsNamed with
    | true =>
      -- The register is the high digit of the target, of which the text shows the other two.
      obtain ⟨byte, first⟩ : left.nn = right.nn ∧ left.x = right.x := by
        simpa [spelling] using same
      simp only [execute, target?, first, Word.nnn_eq first byte]
    | false =>
      have target : left.nnn = right.nnn := by simpa [spelling] using same
      simp only [execute, target?, target, Bool.false_eq_true, if_false]
  | draw =>
    obtain ⟨first, second, height⟩ :
        left.x = right.x ∧ left.y = right.y ∧ left.n.val = right.n.val := by
      simpa [spelling] using same
    simp only [execute, first, second, height]
  | skipKey _ | readDelay | awaitKey | setDelay | setSound | addIndex | glyph | decimal | store _
  | load _ =>
    have first : left.x = right.x := by simpa [spelling] using same
    simp only [execute, writes, loadedRegisters, first]

end Operation

namespace OpcodeTable

theorem families_of {dialect : Dialect} {family : Fin 16} {operation : Operation}
    (found : families dialect family = .operation operation) : operation.Of dialect := by
  unfold families at found
  split at found <;> cases found <;> trivial

theorem entry_of (group : OpcodeGroup) (dialect : Dialect) (word : Word) :
    (group.entry dialect word).Of dialect := by
  cases group with
  | zero =>
    simp only [OpcodeGroup.entry, groupZero]
    split <;> trivial
  | eight =>
    simp only [OpcodeGroup.entry, groupEight]
    split <;> trivial
  | e =>
    simp only [OpcodeGroup.entry, groupE]
    split <;> trivial
  | f =>
    simp only [OpcodeGroup.entry, groupF]
    split <;> trivial

/-- The tables hold no choice of another dialect. -/
theorem lookup_of (dialect : Dialect) (word : Word) :
    ((ofDialect dialect).lookup word).Of dialect := by
  rcases (lookup_eq_iff dialect word).mp rfl with found | ⟨group, _, listed⟩
  · exact families_of found
  · rw [← listed]
    exact entry_of group dialect word

end OpcodeTable

namespace Mnemonic

variable (dialect : Dialect) (word : Word)

theorem arithmetic_eq_spelling :
    arithmetic dialect word = (OpcodeTable.groupEight dialect word.n).spelling word := by
  unfold arithmetic
  generalize word.n = nibble
  cases inPlace : dialect.shiftInPlace <;> fin_cases nibble <;>
    simp [OpcodeTable.groupEight, Operation.spelling, LogicOp.sign, ShiftDirection.sign, inPlace]

theorem miscellaneous_eq_spelling :
    miscellaneous dialect word = (OpcodeTable.groupF dialect word.nn).spelling word := by
  unfold OpcodeTable.groupF
  generalize named : word.nn = byte
  split
  case h_10 =>
    -- A byte that the table does not list is none of the numbers that have a text.
    simp only [miscellaneous, named]
    split
    case h_10 => rfl
    all_goals simp_all [← UInt8.toNat_inj]
  all_goals
    simp only [miscellaneous, named]
    rfl

theorem zero_eq_spelling :
    (if word.nn = 0xE0 then [keyword Keyword.clear]
      else if word.nn = 0xEE then [keyword Keyword.ret] else [keyword null]) =
      (OpcodeTable.groupZero word.nn).spelling word := by
  unfold OpcodeTable.groupZero
  generalize word.nn = byte
  by_cases clears : byte = 0xE0
  · rw [clears]
    rfl
  · by_cases returns : byte = 0xEE
    · rw [returns]
      rfl
    · rw [if_neg clears, if_neg returns]
      split
      next => exact absurd rfl clears
      next => exact absurd rfl returns
      next => rfl

theorem keys_eq_spelling :
    (if word.n.val = 0xE then
        [keyword ifWord, register word.x, keyword released, keyword thenWord]
      else if word.n.val = 0x1 then
        [keyword ifWord, register word.x, keyword held, keyword thenWord]
      else [keyword null]) =
      (OpcodeTable.groupE word.n).spelling word := by
  generalize word.n = nibble
  fin_cases nibble <;> rfl

/-- Both decoders agree: what is printed is the spelling of what is executed. -/
theorem tokens_eq_spelling :
    tokens dialect word = ((OpcodeTable.ofDialect dialect).lookup word).spelling word := by
  unfold tokens tokensUnder
  simp only [OpcodeTable.lookup, OpcodeTable.ofDialect]
  generalize word.family = family
  fin_cases family
  case «0» => exact zero_eq_spelling word
  case «8» => exact arithmetic_eq_spelling dialect word
  case «14» => exact keys_eq_spelling word
  case «15» => exact miscellaneous_eq_spelling dialect word
  all_goals rfl

theorem describe_toNat : describe dialect word.toNat = text (tokens dialect word) := by
  have bound := word.toNat_lt
  have low : UInt16.ofInt word.toNat = word := by
    rw [UInt16.ofInt, ← UInt16.toNat_inj, UInt16.toNat_ofNat']
    omega
  rw [describe, low]
  rfl

/-- No case is for a number that has more above its low twelve bits than a nibble. -/
theorem tokensUnder_of_outside {top : Int} (outside : ¬(0 ≤ top ∧ top < 16)) :
    tokensUnder dialect top word = [keyword null] := by
  unfold tokensUnder
  split
  case h_17 => rfl
  all_goals omega

end Mnemonic
end ChipEight
