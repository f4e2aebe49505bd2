import Mathlib.Tactic.Ring
import ChipEight.Screen.Raster

/-!
# What libraries of images do

Pictures take for granted that a library reads bytes row by row, that an opaque pixel hides what is
under it and a transparent one does not, and that an image enlarged by a whole number repeats each
pixel. Main statement: rasters do all this, up to the size that they allow.
-/
namespace ChipEight

namespace ImageLibrary

variable (library : ImageLibrary)

structure HasSize (image : library.Image) (width height : Nat) : Prop where
  width : library.width image = width
  height : library.height image = height

/-- Images of one size can be made, and are what their makers say. -/
structure Makes (width height : Nat) : Prop where
  /-- Four bytes to a pixel, row by row. -/
  fromBytes : ∀ bytes, bytes.length = 4 * (width * height) →
    ∃ image, library.fromBytes width height bytes = .ok image ∧ library.HasSize image width height ∧
      ∀ x y pixel, x < width → y < height →
        (∀ part < 4, bytes[4 * (width * y + x) + part]? = pixel.toList[part]?) →
        library.pixel? image x y = some pixel
  filled : ∀ pixel, ∃ image, library.filled width height pixel = .ok image ∧
    library.HasSize image width height ∧
    ∀ x y, x < width → y < height → library.pixel? image x y = some pixel
  layUnder : ∀ lower upper, library.HasSize lower width height →
    library.HasSize upper width height →
    ∃ image, library.layUnder lower upper = .ok image ∧ library.HasSize image width height ∧
      ∀ x y above, x < width → y < height → library.pixel? upper x y = some above →
        (above.alpha = 255 → library.pixel? image x y = some above) ∧
        (above.alpha = 0 → library.pixel? image x y = library.pixel? lower x y)

/-- Images of one size can be made larger by a factor, so that each pixel becomes a square. -/
def Enlarges (width height factor : Nat) : Prop :=
  ∀ image, library.HasSize image width height →
    ∃ larger, library.resize image (width * factor : Nat) (height * factor : Nat) = .ok larger ∧
      library.HasSize larger (width * factor) (height * factor) ∧
      ∀ x y, x < width * factor → y < height * factor →
        library.pixel? larger x y = library.pixel? image (x / factor) (y / factor)

end ImageLibrary

namespace Raster

variable {width height factor : Nat} {raster : Raster}

theorem checkSize_of_fits (narrow : width < 0x80000000)
    (fits : 4 * width * height < memoryLimit) : checkSize width height = .ok () := by
  rw [checkSize, if_neg (by omega), if_neg (by omega), if_neg (by omega)]

theorem place_lt {x y : Nat} (across : x < width) (down : y < height) :
    width * y + x < width * height := by
  have room : width * (y + 1) ≤ width * height := Nat.mul_le_mul_left width down
  rw [Nat.mul_succ] at room
  omega

theorem pixel?_ofFn (colour : Fin (width * height) → Pixel) {x y : Nat} (across : x < width)
    (down : y < height) :
    pixel? ⟨width, height, Vector.ofFn colour⟩ x y =
      some (colour ⟨width * y + x, place_lt across down⟩) := by
  rw [pixel?, if_pos ⟨across, down⟩, Vector.getElem?_eq_getElem (place_lt across down),
    Vector.getElem_ofFn]

theorem fromBytes_rows (room : checkSize width height = .ok ()) {bytes : List UInt8}
    (enough : bytes.length = 4 * (width * height)) :
    ∃ raster, fromBytes width height bytes = .ok raster ∧ library.HasSize raster width height ∧
      ∀ x y pixel, x < width → y < height →
        (∀ part < 4, bytes[4 * (width * y + x) + part]? = pixel.toList[part]?) →
        raster.pixel? x y = some pixel := by
  have size : bytes.toArray.size = 4 * (width * height) := by rw [List.size_toArray, enough]
  simp only [fromBytes, room, size, if_true]
  refine ⟨_, rfl, ⟨rfl, rfl⟩, ?_⟩
  intro x y pixel across down bytes_of
  -- A pixel has its four bytes, so that the default is never read.
  have read (part : Nat) (inside : part < 4) (value : UInt8)
      (listed : pixel.toList[part]? = some value) :
      bytes.toArray.getD (4 * (width * y + x) + part) 0 = value := by
    simp [bytes_of part inside, listed]
  rw [pixel?_ofFn _ across down, read 0 (by decide) _ rfl, read 1 (by decide) _ rfl,
    read 2 (by decide) _ rfl, read 3 (by decide) _ rfl]

theorem filled_everywhere (room : checkSize width height = .ok ()) (pixel : Pixel) :
    ∃ raster, filled width height pixel = .ok raster ∧ library.HasSize raster width height ∧
      ∀ x y, x < width → y < height → raster.pixel? x y = some pixel := by
  simp only [filled, room]
  refine ⟨_, rfl, ⟨rfl, rfl⟩, ?_⟩
  intro x y across down
  rw [pixel?, if_pos ⟨across, down⟩]
  simp [place_lt across down]

theorem pixel?_eq_get (raster : Raster) {x y : Nat} (across : x < raster.width)
    (down : y < raster.height) :
    raster.pixel? x y = some (raster.pixels.get ⟨raster.width * y + x, place_lt across down⟩) := by
  rw [pixel?, if_pos ⟨across, down⟩, Vector.getElem?_eq_getElem (place_lt across down)]
  rfl

theorem layUnder_pixels {lower upper : Raster} (wide : upper.width = lower.width)
    (high : upper.height = lower.height) :
    ∃ raster, layUnder lower upper = .ok raster ∧
      library.HasSize raster lower.width lower.height ∧
      ∀ x y above, x < lower.width → y < lower.height → upper.pixel? x y = some above →
        ∃ below, lower.pixel? x y = some below ∧ raster.pixel? x y = some (below.under above) := by
  refine ⟨_, if_pos ⟨wide.symm, high.symm⟩, ⟨rfl, rfl⟩, ?_⟩
  intro x y above across down shown
  -- Both images are as wide, so that a place has one number in both.
  have held : upper.pixels[lower.width * y + x]? = some above := by
    rw [pixel?, if_pos ⟨wide ▸ across, high ▸ down⟩] at shown
    rw [← wide]
    exact shown
  refine ⟨_, lower.pixel?_eq_get across down, ?_⟩
  rw [pixel?_ofFn _ across down, held]
  rfl

/-- The pixel in the middle of whose copies a place lies, if each is copied `factor` times. -/
theorem nearest_mul (old : Nat) {factor place : Nat} (inside : place < old * factor) :
    nearest old (old * factor) place = place / factor := by
  have positive : 0 < old := Nat.pos_of_ne_zero (by rintro rfl; simp at inside)
  -- The middle of a pixel is half a pixel on, and the quotient loses just that.
  have half : (2 * place + 1) / 2 = place := by omega
  calc nearest old (old * factor) place
      = (2 * place + 1) * old / (2 * factor * old) := by
        rw [nearest, Nat.mul_comm old factor, Nat.mul_assoc]
    _ = (2 * place + 1) / (2 * factor) := Nat.mul_div_mul_right _ _ positive
    _ = place / factor := by rw [← Nat.div_div_eq_div_mul, half]

/-- Rasters are what pictures take for granted, at every size that there is room for. -/
theorem library_makes (room : checkSize width height = .ok ()) : library.Makes width height where
  fromBytes _ enough := fromBytes_rows room enough
  filled := filled_everywhere room
  layUnder lower upper lower_size upper_size := by
    obtain ⟨rfl, rfl⟩ := lower_size
    obtain ⟨raster, laid, size, shown⟩ := layUnder_pixels upper_size.width upper_size.height
    refine ⟨raster, laid, size, ?_⟩
    intro x y above across down here
    obtain ⟨below, lowest, seen⟩ := shown x y above across down here
    constructor
    · intro full
      rw [Pixel.under_of_opaque full] at seen
      exact seen
    · intro clear
      rw [Pixel.under_of_transparent clear, ← lowest] at seen
      exact seen

/-- Every pixel of an image that is made larger by a factor is a copy of an old one. -/
theorem pixel?_stretch (raster : Raster) {x y : Nat} (across : x < raster.width * factor)
    (down : y < raster.height * factor) :
    (raster.stretch (raster.width * factor) (raster.height * factor)).pixel? x y =
      raster.pixel? (x / factor) (y / factor) := by
  have positive : 0 < factor := Nat.pos_of_ne_zero (by rintro rfl; simp at across)
  have row : (raster.width * factor * y + x) / (raster.width * factor) = y := by
    rw [Nat.mul_add_div (Nat.zero_lt_of_lt across), Nat.div_eq_of_lt across, Nat.add_zero]
  have column : (raster.width * factor * y + x) % (raster.width * factor) = x := by
    rw [Nat.mul_add_mod, Nat.mod_eq_of_lt across]
  have inside := raster.pixel?_eq_get ((Nat.div_lt_iff_lt_mul positive).mpr across)
    ((Nat.div_lt_iff_lt_mul positive).mpr down)
  rw [stretch, pixel?_ofFn _ across down]
  dsimp only
  rw [row, column, nearest_mul _ across, nearest_mul _ down, inside, Option.getD_some]

theorem library_enlarges (some_pixels : 0 < width ∧ 0 < height) (positive : 0 < factor)
    (room : checkSize (width * factor) (height * factor) = .ok ()) :
    library.Enlarges width height factor := by
  rintro raster ⟨wide, high⟩
  have wide : raster.width = width := wide
  have high : raster.height = height := high
  subst wide high
  have across : 0 < raster.width * factor := Nat.mul_pos some_pixels.1 positive
  have down : 0 < raster.height * factor := Nat.mul_pos some_pixels.2 positive
  refine ⟨raster.stretch (raster.width * factor) (raster.height * factor), ?_, ⟨rfl, rfl⟩,
    fun x y => raster.pixel?_stretch⟩
  -- A positive factor leaves no image without pixels.
  have pixels : ¬((raster.width * factor : Nat) < (1 : Int) ∨
      (raster.height * factor : Nat) < (1 : Int)) := by
    omega
  change raster.resize (raster.width * factor : Nat) (raster.height * factor : Nat) = _
  simp only [resize, if_neg pixels, Int.toNat_natCast, room]
  rfl

/-- There is room for pictures of a screen at every scale below 1024. -/
theorem library_enlarges_screen (positive : 0 < factor) (small : factor < 1024) :
    library.Enlarges 64 32 factor := by
  refine library_enlarges (by decide) positive (checkSize_of_fits (by omega) ?_)
  have pixels : factor * factor < 1024 * 1024 := Nat.mul_self_lt_mul_self small
  have bytes : 4 * (64 * factor) * (32 * factor) = 8192 * (factor * factor) := by ring
  rw [bytes, memoryLimit]
  omega

end Raster
end ChipEight
