import ChipEight.Dialect
import ChipEight.Text.Hex
import ChipEight.Word

/-!
# Mnemonics

The text of an instruction is a line of tokens with single spaces between them. A skip reads as a
conditional, so it prints the opposite of the condition under which it skips. Numbers are decimal;
addresses have three hexadecimal digits and the byte of an offset jump has two.
-/
namespace ChipEight

inductive Keyword where
  | clear | ret | jump | call | ifWord | thenWord | jumpOffset | random | sprite | held | released
  | delay | buzzer | index | hex | bcd | save | load | fixedOpen | fixedClose | null
  | notEqual | equal | plus
  | assign | addAssign | orAssign | andAssign | xorAssign | subtractAssign | subtractFromAssign
  | shiftRightAssign | shiftLeftAssign
  deriving DecidableEq, Repr

def Keyword.text : Keyword → String
  | clear => "clear"
  | ret => "return"
  | jump => "jump"
  | call => ":call"
  | ifWord => "if"
  | thenWord => "then"
  | jumpOffset => "jump0"
  | random => "random"
  | sprite => "sprite"
  | held => "key"
  | released => "-key"
  | delay => "delay"
  | buzzer => "buzzer"
  | index => "i"
  | hex => "hex"
  | bcd => "bcd"
  | save => "save"
  | load => "load"
  | fixedOpen => "(i"
  | fixedClose => "fixed)"
  | null => "null"
  | notEqual => "!="
  | equal => "=="
  | plus => "+"
  | assign => ":="
  | addAssign => "+="
  | orAssign => "|="
  | andAssign => "&="
  | xorAssign => "^="
  | subtractAssign => "-="
  | subtractFromAssign => "=-"
  | shiftRightAssign => ">>="
  | shiftLeftAssign => "<<="

inductive Token where
  | keyword (keyword : Keyword)
  | register (register : Register)
  | number (number : Nat)
  | address (address : UInt16)
  | byte (byte : UInt8)
  deriving DecidableEq, Repr

def Token.text : Token → String
  | keyword word => word.text
  | register index => "v" ++ Text.Hex.ofNat 1 index.val
  | number value => toString value
  | address value => "0x" ++ Text.Hex.ofNat 3 value.toNat
  | byte value => "0x" ++ Text.Hex.ofNat 2 value.toNat

namespace Mnemonic

open Keyword Token

/-- The tokens of a word whose low nibble names an operation on two registers. -/
def arithmetic (dialect : Dialect) (word : Word) : List Token :=
  let binary (sign : Keyword) := [register word.x, keyword sign, register word.y]
  let shift (sign : Keyword) :=
    if dialect.shiftInPlace then [register word.x, keyword sign, number 1] else binary sign
  match word.n.val with
  | 0x0 => binary assign
  | 0x1 => binary orAssign
  | 0x2 => binary andAssign
  | 0x3 => binary xorAssign
  | 0x4 => binary addAssign
  | 0x5 => binary subtractAssign
  | 0x6 => shift shiftRightAssign
  | 0x7 => binary subtractFromAssign
  | 0xE => shift shiftLeftAssign
  | _ => [keyword null]

/-- The tokens of a word whose low byte names an operation on one register. -/
def miscellaneous (dialect : Dialect) (word : Word) : List Token :=
  let fixed := if dialect.indexAdvance = .unchanged then [keyword fixedOpen, keyword fixedClose]
    else []
  match word.nn.toNat with
  | 0x07 => [register word.x, keyword assign, keyword delay]
  | 0x0A => [register word.x, keyword assign, keyword held]
  | 0x15 => [keyword delay, keyword assign, register word.x]
  | 0x18 => [keyword buzzer, keyword assign, register word.x]
  | 0x1E => [keyword index, keyword addAssign, register word.x]
  | 0x29 => [keyword index, keyword assign, keyword hex, register word.x]
  | 0x33 => [keyword bcd, register word.x]
  | 0x55 => [keyword save, register word.x] ++ fixed
  | 0x65 => [keyword load, register word.x] ++ fixed
  | _ => [keyword null]

/-- The tokens of a number that has `top` above its low twelve bits and ends in the sixteen of
`word`. -/
def tokensUnder (dialect : Dialect) (top : Int) (word : Word) : List Token :=
  let condition (sign : Keyword) (right : Token) :=
    [keyword ifWord, register word.x, keyword sign, right, keyword thenWord]
  match top with
  | 0x0 =>
    if word.nn = 0xE0 then [keyword clear]
    else if word.nn = 0xEE then [keyword ret]
    else [keyword null]
  | 0x1 => [keyword jump, address word.nnn]
  | 0x2 => [keyword call, address word.nnn]
  | 0x3 => condition notEqual (number word.nn.toNat)
  | 0x4 => condition equal (number word.nn.toNat)
  | 0x5 => condition notEqual (register word.y)
  | 0x6 => [register word.x, keyword assign, number word.nn.toNat]
  | 0x7 => [register word.x, keyword addAssign, number word.nn.toNat]
  | 0x8 => arithmetic dialect word
  | 0x9 => condition equal (register word.y)
  | 0xA => [keyword index, keyword assign, address word.nnn]
  | 0xB =>
    if dialect.jumpAddsNamed then
      [keyword jumpOffset, byte word.nn, keyword plus, register word.x]
    else [keyword jumpOffset, address word.nnn]
  | 0xC => [register word.x, keyword assign, keyword random, number word.nn.toNat]
  | 0xD => [keyword sprite, register word.x, register word.y, number word.n.val]
  | 0xE =>
    if word.n.val = 0xE then [keyword ifWord, register word.x, keyword released, keyword thenWord]
    else if word.n.val = 0x1 then [keyword ifWord, register word.x, keyword held, keyword thenWord]
    else [keyword null]
  | 0xF => miscellaneous dialect word
  | _ => [keyword null]

def tokens (dialect : Dialect) (word : Word) : List Token :=
  tokensUnder dialect word.family.val word

def text (tokens : List Token) : String := " ".intercalate (tokens.map Token.text)

/-- Any number has a text, a word or not. -/
def describe (dialect : Dialect) (opcode : Int) : String :=
  text (tokensUnder dialect (opcode / 4096) (UInt16.ofInt opcode))

end Mnemonic
end ChipEight
