/-!
# Amounts

A host gives times and speeds as integers or as binary fractions of double precision.
-/
namespace ChipEight

inductive Amount where
  | whole (value : Int)
  | real (value : Float)

namespace Amount

/-- The nearest double, ties to even. Of a long number 61 leading bits are kept, and the last of
them is set if any bit after them was. -/
def nearestFloat (number : Nat) : Float :=
  if number < 0x4000000000000000 then Float.ofNat number
  else
    let excess := number.log2 - 60
    let leading := number >>> excess
    let rounded := if leading <<< excess = number then leading else leading ||| 1
    (Float.ofNat rounded).scaleB excess

def floatOfInt (number : Int) : Float :=
  if number < 0 then -nearestFloat number.natAbs else nearestFloat number.natAbs

def toFloat : Amount → Float
  | whole value => floatOfInt value
  | real value => value

/-- A finite double without its fraction. Its bits give a sign, a significand of 53 bits and the
power of two it is scaled by. -/
def truncateFloat (value : Float) : Int :=
  let bits := value.toBits.toNat
  let exponent := bits / 0x10000000000000 % 2048
  let fraction := bits % 0x10000000000000
  let significand := if exponent = 0 then fraction else fraction + 0x10000000000000
  let magnitude : Nat := if exponent < 1075 then significand >>> (1075 - exponent)
    else significand <<< (exponent - 1075)
  if bits < 0x8000000000000000 then magnitude else -magnitude

def truncate : Amount → Int
  | whole value => value
  | real value => truncateFloat value

end Amount
end ChipEight
