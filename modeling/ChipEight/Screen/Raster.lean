import ChipEight.Screen.Image

/-!
# Rasters

The library of images that screenshots are taken with. An image is a grid of pixels in eight-bit
colours with transparency. Its width has to be an integer of 32 bits, and its pixels must fit in the
memory that this library allows itself.
-/
namespace ChipEight

structure Raster where
  width : Nat
  height : Nat
  /-- Row by row. -/
  pixels : Vector Pixel (width * height)

namespace Pixel

def transparent : Pixel := ⟨0, 0, 0, 0⟩

/-- The quotient by 255, for numbers of at most 24 bits. -/
def div255 (value : Nat) : Nat := (value / 0x100 + value) / 0x100

/-- A rounded mean of two parts. The shares, 255 in all, have seven bits after the point. -/
def mix (share : Nat) (above below : UInt8) : UInt8 :=
  UInt8.ofNat (div255 (above.toNat * share + below.toNat * (0x7F80 - share) + 0x4000) / 0x80)

/-- A pixel seen through another. -/
def under (lower upper : Pixel) : Pixel :=
  if upper.alpha = 0 then lower
  else
    let opacity := upper.alpha.toNat * 255 + lower.alpha.toNat * (255 - upper.alpha.toNat)
    let share := upper.alpha.toNat * (255 * 0x7F80) / opacity
    { red := mix share upper.red lower.red
      green := mix share upper.green lower.green
      blue := mix share upper.blue lower.blue
      alpha := UInt8.ofNat (div255 (opacity + 0x80)) }

theorem under_of_transparent {upper : Pixel} (transparent : upper.alpha = 0) (lower : Pixel) :
    lower.under upper = lower :=
  if_pos transparent

theorem div255_of_full {part : Nat} (bound : part < 256) :
    div255 (part * 0x7F80 + 0x4000) / 0x80 = part := by
  have first : (part * 0x7F80 + 0x4000) / 0x100 = 127 * part + 64 + part / 2 := by omega
  generalize same : part * 0x7F80 + 0x4000 = value at first ⊢
  rw [div255, first]
  omega

theorem mix_full (above below : UInt8) : mix 0x7F80 above below = above := by
  simp [mix, div255_of_full above.toNat_lt]

theorem under_of_opaque {upper : Pixel} (full : upper.alpha = 255) (lower : Pixel) :
    lower.under upper = upper := by
  have same : upper = ⟨upper.red, upper.green, upper.blue, 255⟩ := by rw [← full]
  have alpha : upper.alpha.toNat = 255 := congrArg UInt8.toNat full
  rw [under, alpha, if_neg (by rw [full]; decide), Nat.sub_self, Nat.mul_zero, Nat.add_zero]
  have share : 255 * (255 * 0x7F80) / (255 * 255) = 0x7F80 := by decide
  have solid : UInt8.ofNat (div255 (255 * 255 + 0x80)) = 255 := by decide
  simp only [share, mix_full]
  rw [solid]
  exact same.symm

end Pixel

namespace Raster

inductive Failure where
  | wrongByteCount
  | sizesDiffer
  | noPixels
  /-- The width is no signed integer of 64 bits. -/
  | widthBeyond64Bits
  /-- The width is no signed integer of 32 bits. -/
  | widthBeyond32Bits
  | outOfMemory
  deriving DecidableEq, Repr

def Failure.message : Failure → String
  | wrongByteCount => "wrong number of bytes for an image"
  | sizesDiffer => "images differ in size"
  | noPixels => "image without pixels"
  | widthBeyond64Bits | widthBeyond32Bits => "image is too wide"
  | outOfMemory => "image is too large for memory"

/-- The bytes that one image can have. -/
def memoryLimit : Nat := 0x200000000

/-- Whether an image of this size can be made. A pixel takes four bytes. -/
def checkSize (width height : Nat) : Except Failure Unit :=
  if 0x8000000000000000 ≤ width then .error .widthBeyond64Bits
  else if 0x80000000 ≤ width then .error .widthBeyond32Bits
  else if memoryLimit ≤ 4 * width * height then .error .outOfMemory
  else .ok ()

def pixel? (raster : Raster) (x y : Nat) : Option Pixel :=
  if x < raster.width ∧ y < raster.height then raster.pixels[raster.width * y + x]? else none

def row (raster : Raster) (y : Nat) : List Pixel :=
  (List.range raster.width).filterMap fun x => raster.pixel? x y

def fromBytes (width height : Nat) (bytes : List UInt8) : Except Failure Raster := do
  checkSize width height
  let data := bytes.toArray
  if data.size = 4 * (width * height) then
    let part (place offset : Nat) := data.getD (4 * place + offset) 0
    return { width, height, pixels := Vector.ofFn fun place =>
      ⟨part place.val 0, part place.val 1, part place.val 2, part place.val 3⟩ }
  else throw .wrongByteCount

def filled (width height : Nat) (pixel : Pixel) : Except Failure Raster := do
  checkSize width height
  return { width, height, pixels := Vector.replicate _ pixel }

def layUnder (lower upper : Raster) : Except Failure Raster :=
  if lower.width = upper.width ∧ lower.height = upper.height then
    .ok { lower with pixels := Vector.ofFn fun place =>
      (lower.pixels.get place).under (upper.pixels[place.val]?.getD .transparent) }
  else .error .sizesDiffer

/-- The old coordinate whose pixel has the middle of the new pixel in it. -/
def nearest (old new place : Nat) : Nat := (2 * place + 1) * old / (2 * new)

def stretch (raster : Raster) (width height : Nat) : Raster where
  width := width
  height := height
  pixels := Vector.ofFn fun place =>
    let x := nearest raster.width width (place.val % width)
    let y := nearest raster.height height (place.val / width)
    (raster.pixel? x y).getD .transparent

def resize (raster : Raster) (width height : Int) : Except Failure Raster := do
  if width < 1 ∨ height < 1 then throw .noPixels
  checkSize width.toNat height.toNat
  return raster.stretch width.toNat height.toNat

def library : ImageLibrary where
  Image := Raster
  Failure := Failure
  width := width
  height := height
  pixel? := pixel?
  fromBytes := fromBytes
  filled := filled
  layUnder := layUnder
  resize := resize

end Raster
end ChipEight
