import ChipEight.Directory
import ChipEight.Screen

/-!
# Pictures of the screen

A cell is packed as four bytes, opaque white when lit and fully transparent otherwise. Images are
the matter of a library, which is a parameter: it makes an image of the cells, lays that over opaque
black, and enlarges the result when the scale is above one. The name of a screenshot decides its
format.
-/
namespace ChipEight

structure Pixel where
  red : UInt8
  green : UInt8
  blue : UInt8
  alpha : UInt8
  deriving DecidableEq, Repr

namespace Pixel

def black : Pixel := ⟨0, 0, 0, 255⟩

def white : Pixel := ⟨255, 255, 255, 255⟩

def toList (pixel : Pixel) : List UInt8 := [pixel.red, pixel.green, pixel.blue, pixel.alpha]

end Pixel

/-- What a picture needs of a library of images. It is the library that decides which images can
be made. -/
structure ImageLibrary where
  Image : Type
  Failure : Type
  width : Image → Nat
  height : Image → Nat
  pixel? : Image → (x y : Nat) → Option Pixel
  /-- An image with these bytes for its pixels. -/
  fromBytes : (width height : Nat) → List UInt8 → Except Failure Image
  /-- An image in one colour. -/
  filled : (width height : Nat) → Pixel → Except Failure Image
  /-- The first image under the second. -/
  layUnder : Image → Image → Except Failure Image
  /-- An image of another size, each pixel a copy of the nearest one. -/
  resize : Image → (width height : Int) → Except Failure Image

inductive ImageFormat where
  | png
  | jpeg
  deriving DecidableEq, Repr

structure Screenshot (Image : Type) where
  name : FileName
  format : ImageFormat
  image : Image

inductive ScreenshotError (Failure : Type) where
  | image (failure : Failure)
  | file (error : FileError)

namespace Screenshot

/-- Whether a name ends in these small letters, written small or not. -/
def endsIn (name : FileName) (ending : String) : Bool :=
  (ending.toList.map some).isSuffixOf
    (name.points.map fun point => point.char?.map Char.toLower)

/-- The name that is written to, with the format that its ending selects. -/
def target (name : FileName) : FileName × ImageFormat :=
  if endsIn name ".jpg" || endsIn name ".jpeg" then (name, .jpeg)
  else if endsIn name ".png" then (name, .png)
  else (name.append ".png", .png)

end Screenshot

namespace Screen

def toRgba (screen : Screen) : List UInt8 :=
  screen.cells.toList.flatMap fun lit => List.replicate 4 (if lit then 0xFF else 0)

/-- The picture of a screen, if the library can make it. -/
def toImage (library : ImageLibrary) (screen : Screen) (scale : Int) :
    Except library.Failure library.Image := do
  let cells ← library.fromBytes 64 32 screen.toRgba
  let backdrop ← library.filled 64 32 .black
  let image ← library.layUnder backdrop cells
  if scale > 1 then library.resize image (64 * scale) (32 * scale) else return image

/-- The picture is made before its name is looked at. -/
def screenshot (library : ImageLibrary) (screen : Screen) (directory : Directory) (name : FileName)
    (scale : Int) :
    Except (ScreenshotError library.Failure) (Screenshot library.Image) := do
  let image ← (screen.toImage library scale).mapError .image
  let (written, format) := Screenshot.target name
  (directory.accepts written).mapError .file
  return ⟨written, format, image⟩

end Screen
end ChipEight
