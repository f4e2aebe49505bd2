/-!
# The hexadecimal font

Sixteen glyphs of five rows each lie at `0x50` to `0x9F`; the four high bits of a row are its cells.
-/
namespace ChipEight.Font

def start : Nat := 0x50

def stop : Nat := 0xA0

def glyphSize : Nat := 5

def bytes : Vector UInt8 80 :=
  #v[ 0xF0, 0x90, 0x90, 0x90, 0xF0,
      0x20, 0x60, 0x20, 0x20, 0x70,
      0xF0, 0x10, 0xF0, 0x80, 0xF0,
      0xF0, 0x10, 0xF0, 0x10, 0xF0,
      0x90, 0x90, 0xF0, 0x10, 0x10,
      0xF0, 0x80, 0xF0, 0x10, 0xF0,
      0xF0, 0x80, 0xF0, 0x90, 0xF0,
      0xF0, 0x10, 0x20, 0x40, 0x40,
      0xF0, 0x90, 0xF0, 0x90, 0xF0,
      0xF0, 0x90, 0xF0, 0x10, 0xF0,
      0xF0, 0x90, 0xF0, 0x90, 0x90,
      0xE0, 0x90, 0xE0, 0x90, 0xE0,
      0xF0, 0x80, 0x80, 0x80, 0xF0,
      0xE0, 0x90, 0x90, 0x90, 0xE0,
      0xF0, 0x80, 0xF0, 0x80, 0xF0,
      0xF0, 0x80, 0xF0, 0x80, 0x80 ]

/-- The font occupies these addresses, and a running program cannot write to them. -/
def Occupies (address : Nat) : Prop := start ≤ address ∧ address < stop

instance (address : Nat) : Decidable (Occupies address) :=
  inferInstanceAs (Decidable (start ≤ address ∧ address < stop))

theorem occupies_iff (address : Nat) :
    Occupies address ↔ 0x50 ≤ (address : Int) ∧ (address : Int) < 0xA0 := by
  simp only [Occupies, start, stop]
  omega

def byteAt (address : Nat) (occupied : Occupies address) : UInt8 :=
  Font.bytes.get ⟨address - start, by
    simp only [Occupies, start, stop] at occupied ⊢
    omega⟩

/-- Only the low four bits of a number select its glyph. -/
def glyphAddress (number : Int) : Nat := start + glyphSize * (number % 16).toNat

theorem glyphAddress_occupied (number : Int) (row : Nat) (inside : row < glyphSize) :
    Occupies (glyphAddress number + row) := by
  simp only [Occupies, glyphAddress, start, stop, glyphSize] at *
  omega

end ChipEight.Font
