/-!
# Instruction words

An instruction is sixteen bits, stored high byte first. Its four nibbles are named from the
left `family`, `x`, `y` and `n`; `nn` is the low byte and `nnn` the low twelve bits.
-/
namespace ChipEight

abbrev Word := UInt16

/-- One of the sixteen general registers. -/
abbrev Register := Fin 16

/-- The register that receives carries, borrows and collisions. -/
def Register.flag : Register := 15

/-- The register that the offset jump adds unless its word names one. -/
def Register.offset : Register := 0

namespace Word

def ofBytes (high low : UInt8) : Word := UInt16.ofNat (high.toNat * 256 + low.toNat)

def family (word : Word) : Fin 16 :=
  ⟨word.toNat / 4096, by have bound := word.toNat_lt; omega⟩

def x (word : Word) : Register := ⟨word.toNat / 256 % 16, by omega⟩

def y (word : Word) : Register := ⟨word.toNat / 16 % 16, by omega⟩

def n (word : Word) : Fin 16 := ⟨word.toNat % 16, by omega⟩

def nn (word : Word) : UInt8 := UInt8.ofNat (word.toNat % 256)

def nnn (word : Word) : UInt16 := UInt16.ofNat (word.toNat % 4096)

@[simp] theorem toNat_ofBytes (high low : UInt8) :
    (ofBytes high low).toNat = high.toNat * 256 + low.toNat := by
  have high_bound := high.toNat_lt
  have low_bound := low.toNat_lt
  simp only [ofBytes, UInt16.toNat_ofNat']
  omega

@[simp] theorem toNat_nn (word : Word) : word.nn.toNat = word.toNat % 256 := by
  simp only [nn, UInt8.toNat_ofNat']
  omega

@[simp] theorem toNat_nnn (word : Word) : word.nnn.toNat = word.toNat % 4096 := by
  simp only [nnn, UInt16.toNat_ofNat']
  omega

theorem nnn_lt (word : Word) : word.nnn.toNat < 4096 := by
  simp only [toNat_nnn]
  omega

end Word
end ChipEight
