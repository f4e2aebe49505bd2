import ChipEight.Operation
import ChipEight.Word

/-!
# Opcode tables

A word is decoded in two steps. Its family selects an operation or one of four groups; the groups
`0` and `F` go on by the low byte, the groups `8` and `E` by the low nibble. A dialect fills the
tables once. Words that no table mentions are undefined.
-/
namespace ChipEight

inductive OpcodeGroup where
  | zero
  | eight
  | e
  | f
  deriving DecidableEq, Repr

/-- What a family stands for. -/
inductive FamilyEntry where
  | operation (operation : Operation)
  | group (group : OpcodeGroup)
  deriving DecidableEq, Repr

structure OpcodeTable where
  family : Fin 16 → FamilyEntry
  zero : UInt8 → Operation
  eight : Fin 16 → Operation
  e : Fin 16 → Operation
  f : UInt8 → Operation

namespace OpcodeTable

def families (dialect : Dialect) : Fin 16 → FamilyEntry
  | 0x0 => .group .zero
  | 0x1 => .operation .jump
  | 0x2 => .operation .call
  | 0x3 => .operation (.skipByte true)
  | 0x4 => .operation (.skipByte false)
  | 0x5 => .operation (.skipRegister true)
  | 0x6 => .operation .setByte
  | 0x7 => .operation .addByte
  | 0x8 => .group .eight
  | 0x9 => .operation (.skipRegister false)
  | 0xA => .operation .setIndex
  | 0xB => .operation (.jumpOffset dialect.jumpAddsNamed)
  | 0xC => .operation .random
  | 0xD => .operation .draw
  | 0xE => .group .e
  | _ => .group .f

def groupZero : UInt8 → Operation
  | 0xE0 => .clear
  | 0xEE => .ret
  | _ => .undefined

def groupEight (dialect : Dialect) : Fin 16 → Operation
  | 0x0 => .copy
  | 0x1 => .logic .or dialect.logicClearsFlag
  | 0x2 => .logic .and dialect.logicClearsFlag
  | 0x3 => .logic .xor dialect.logicClearsFlag
  | 0x4 => .add
  | 0x5 => .subtract
  | 0x6 => .shift .right dialect.shiftInPlace
  | 0x7 => .subtractFrom
  | 0xE => .shift .left dialect.shiftInPlace
  | _ => .undefined

def groupE : Fin 16 → Operation
  | 0x1 => .skipKey false
  | 0xE => .skipKey true
  | _ => .undefined

def groupF (dialect : Dialect) : UInt8 → Operation
  | 0x07 => .readDelay
  | 0x0A => .awaitKey
  | 0x15 => .setDelay
  | 0x18 => .setSound
  | 0x1E => .addIndex
  | 0x29 => .glyph
  | 0x33 => .decimal
  | 0x55 => .store dialect.indexAdvance
  | 0x65 => .load dialect.indexAdvance
  | _ => .undefined

def ofDialect (dialect : Dialect) : OpcodeTable where
  family := families dialect
  zero := groupZero
  eight := groupEight dialect
  e := groupE
  f := groupF dialect

def lookup (table : OpcodeTable) (word : Word) : Operation :=
  match table.family word.family with
  | .operation operation => operation
  | .group .zero => table.zero word.nn
  | .group .eight => table.eight word.n
  | .group .e => table.e word.n
  | .group .f => table.f word.nn

end OpcodeTable
end ChipEight
