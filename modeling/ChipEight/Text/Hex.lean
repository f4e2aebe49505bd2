/-!
# Hexadecimal text

Upper-case digits, most significant first. A field width counts the minus sign, and the zeros
that fill it stand between the sign and the digits.
-/
namespace ChipEight.Text.Hex

def digit (value : Fin 16) : Char :=
  if value.val < 10 then Char.ofNat (48 + value.val) else Char.ofNat (55 + value.val)

def digits (number : Nat) : List Char :=
  if number < 16 then [digit ⟨number % 16, by omega⟩]
  else digits (number / 16) ++ [digit ⟨number % 16, by omega⟩]

def paddedDigits (width number : Nat) : List Char :=
  List.replicate (width - (digits number).length) '0' ++ digits number

def ofNat (width number : Nat) : String := String.ofList (paddedDigits width number)

def ofInt (width : Nat) (number : Int) : String :=
  if number < 0 then String.ofList ('-' :: paddedDigits (width - 1) number.natAbs)
  else ofNat width number.natAbs

theorem digits_ne_nil (number : Nat) : digits number ≠ [] := by
  rw [digits]
  split <;> simp

end ChipEight.Text.Hex
