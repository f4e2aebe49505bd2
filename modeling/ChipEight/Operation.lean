import ChipEight.Dialect

/-!
# Operations

What an instruction does, apart from its operands, which are read from the word. Where dialects
differ, the choice is part of the operation.
-/
namespace ChipEight

inductive LogicOp where
  | or
  | and
  | xor
  deriving DecidableEq, Repr

inductive ShiftDirection where
  | right
  | left
  deriving DecidableEq, Repr

inductive Operation where
  /-- The word is no instruction and is passed over. -/
  | undefined
  | clear
  | ret
  | jump
  | call
  /-- Skip when `VX` equals `nn`, or when it differs. -/
  | skipByte (whenEqual : Bool)
  /-- Skip when `VX` equals `VY`, or when it differs. -/
  | skipRegister (whenEqual : Bool)
  | setByte
  | addByte
  | copy
  | logic (op : LogicOp) (clearsFlag : Bool)
  | add
  /-- `VX - VY`. -/
  | subtract
  /-- `VY - VX`. -/
  | subtractFrom
  | shift (direction : ShiftDirection) (inPlace : Bool)
  | setIndex
  | jumpOffset (addsNamed : Bool)
  | random
  | draw
  /-- Skip when the key in `VX` is held, or when it is not. -/
  | skipKey (whenHeld : Bool)
  | readDelay
  | awaitKey
  | setDelay
  | setSound
  | addIndex
  | glyph
  | decimal
  | store (advance : IndexAdvance)
  | load (advance : IndexAdvance)
  deriving DecidableEq, Repr

end ChipEight
