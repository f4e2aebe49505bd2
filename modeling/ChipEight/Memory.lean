import ChipEight.Word
import ChipEight.Memory.Font

/-!
# Memory

A memory holds 4096 bytes. Every integer names a byte, the one at its residue modulo 4096. The
font is written once; program images start at `0x200` and may fill the rest.
-/
namespace ChipEight

abbrev Address := Fin 4096

namespace Address

def ofNat (number : Nat) : Address := ⟨number % 4096, by omega⟩

def ofInt (number : Int) : Address := ⟨(number % 4096).toNat, by omega⟩

@[simp] theorem val_ofNat (number : Nat) : (ofNat number).val = number % 4096 := rfl

theorem val_ofInt (number : Int) : ((ofInt number).val : Int) = number % 4096 := by
  simp only [ofInt]
  omega

@[simp] theorem ofInt_natCast (number : Nat) : ofInt number = ofNat number := by
  apply Fin.ext
  simp only [ofInt, ofNat]
  omega

end Address

/-- A program image that is longer than the memory after `0x200`. -/
structure ImageTooLarge where
  size : Nat
  deriving DecidableEq, Repr

structure Memory where
  bytes : Vector UInt8 4096
  deriving DecidableEq

namespace Memory

def imageStart : Nat := 0x200

def imageCapacity : Nat := 3584

/-- The font in place and every other byte zero. -/
def initial : Memory :=
  ⟨Vector.ofFn fun address =>
    if font : Font.Occupies address.val then Font.byteAt address.val font else 0⟩

def get (memory : Memory) (address : Address) : UInt8 := memory.bytes[address.val]

/-- A program's write: font bytes keep their value. -/
def store (memory : Memory) (address : Address) (value : UInt8) : Memory :=
  if Font.Occupies address.val then memory else ⟨memory.bytes.set address.val value⟩

def storeAll (memory : Memory) (writes : List (Address × UInt8)) : Memory :=
  writes.foldl (fun partway write => partway.store write.1 write.2) memory

def read (memory : Memory) (address : Int) : UInt8 := memory.get (.ofInt address)

def readWord (memory : Memory) (address : Int) : Word :=
  .ofBytes (memory.read address) (memory.read (address + 1))

/-- No bytes for a length that is not positive. -/
def readBlock (memory : Memory) (address length : Int) : List UInt8 :=
  (List.range length.toNat).map fun (offset : Nat) => memory.read (address + offset)

def write (memory : Memory) (address value : Int) : Memory :=
  memory.store (.ofInt address) (UInt8.ofInt value)

/-- Put bytes in from a start address on, font or not; those past the last address are left out. -/
def overlay (memory : Memory) (start : Nat) (image : Array UInt8) : Memory :=
  ⟨Vector.ofFn fun address =>
    if start ≤ address.val then image.getD (address.val - start) memory.bytes[address]
    else memory.bytes[address]⟩

def load (memory : Memory) (image : List UInt8) : Except ImageTooLarge Memory :=
  if image.length ≤ imageCapacity then .ok (memory.overlay imageStart image.toArray)
  else .error ⟨image.length⟩

/-- Zero every byte from `0x200` on. -/
def clearImage (memory : Memory) : Memory :=
  ⟨Vector.ofFn fun address => if imageStart ≤ address.val then 0 else memory.bytes[address]⟩

def toList (memory : Memory) : List UInt8 := memory.bytes.toList

theorem get_store (memory : Memory) (address other : Address) (value : UInt8) :
    (memory.store address value).get other =
      if other = address ∧ ¬Font.Occupies address.val then value else memory.get other := by
  unfold store get
  by_cases font : Font.Occupies address.val
  · simp [font]
  · simp only [font, if_false, not_false_eq_true, and_true]
    rw [Vector.getElem_set]
    simp only [Fin.ext_iff, eq_comm]

theorem get_overlay (memory : Memory) (start : Nat) (image : Array UInt8) (address : Address) :
    (memory.overlay start image).get address =
      if start ≤ address.val then image.getD (address.val - start) (memory.get address)
      else memory.get address := by
  simp [overlay, get]

theorem get_clearImage (memory : Memory) (address : Address) :
    memory.clearImage.get address = if imageStart ≤ address.val then 0 else memory.get address := by
  simp [clearImage, get]

theorem ext_get {left right : Memory} (same : ∀ address, left.get address = right.get address) :
    left = right := by
  cases left with | mk left =>
  cases right with | mk right =>
  congr 1
  apply Vector.ext
  intro index bound
  exact same ⟨index, bound⟩

end Memory
end ChipEight
