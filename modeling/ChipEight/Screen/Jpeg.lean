import ChipEight.Screen.Raster

/-!
# Image files without transparency

A picture as a baseline JPEG file of quality 95. Brightness and two differences of colour are cut
into blocks of eight by eight, each transformed, rounded and coded on its own. All three go by one
table of divisors. The symbols of a kind have codes of one length, which number them.
-/
namespace ChipEight.Jpeg

/-- The bits of a file, the earliest first. -/
structure BitWriter where
  bytes : ByteArray
  pending : UInt8
  /-- The number of pending bits, less than eight. -/
  waiting : Nat

namespace BitWriter

/-- A byte of ones is followed by a zero, so that it begins no marker. -/
def pushBit (writer : BitWriter) (bit : Bool) : BitWriter :=
  let pending := 2 * writer.pending + if bit then 1 else 0
  if writer.waiting < 7 then { writer with pending, waiting := writer.waiting + 1 }
  else
    let bytes := writer.bytes.push pending
    ⟨if pending = 0xFF then bytes.push 0 else bytes, 0, 0⟩

/-- The lowest bits of a number, the highest of them first. -/
def push (value : Nat) : Nat → BitWriter → BitWriter
  | 0, writer => writer
  | width + 1, writer => push value width (writer.pushBit (value.testBit width))

/-- All bytes, the last filled up with ones. -/
def finish (writer : BitWriter) : ByteArray :=
  (writer.push 0x7F ((8 - writer.waiting) % 8)).bytes

end BitWriter

/-- The places of a block along its diagonals, to and fro. -/
def zigzag : List Nat :=
  (List.range 15).flatMap fun diagonal =>
    (List.range (diagonal + 1)).filterMap fun step =>
      let y := if diagonal % 2 = 1 then step else diagonal - step
      let x := diagonal - y
      if x < 8 ∧ y < 8 then some (8 * y + x) else none

/-- The usual divisors, row by row. -/
def usualDivisors : Array Nat :=
  #[16, 11, 10, 16, 24, 40, 51, 61, 12, 12, 14, 19, 26, 58, 60, 55,
    14, 13, 16, 24, 40, 57, 69, 56, 14, 17, 22, 29, 51, 87, 80, 62,
    18, 22, 37, 56, 68, 109, 103, 77, 24, 35, 55, 64, 81, 104, 113, 92,
    49, 64, 78, 87, 103, 121, 120, 101, 72, 92, 95, 98, 112, 100, 103, 99]

/-- A tenth of the usual one, which is what the quality means. -/
def divisor (place : Nat) : Nat := (usualDivisors.getD place 0 * 10 + 50) / 100

/-- Cosines of the multiples of 11.25 degrees up to a right angle, times `0x4000`. -/
def quarterCosines : Array Int := #[16384, 16069, 15137, 13623, 11585, 9102, 6270, 3196, 0]

def cosine (multiple : Nat) : Int :=
  let folded := if multiple % 32 ≤ 16 then multiple % 32 else 32 - multiple % 32
  if folded ≤ 8 then quarterCosines.getD folded 0 else -quarterCosines.getD (16 - folded) 0

/-- The constant wave is scaled down, so that all have the same weight. -/
def wave (frequency place : Nat) : Int :=
  if frequency = 0 then cosine 4 else cosine ((2 * place + 1) * frequency)

/-- The nearest integer, halves away from zero. -/
def divideRounded (value : Int) (divisor : Nat) : Int :=
  value.sign * ((2 * value.natAbs + divisor) / (2 * divisor) : Nat)

def transform (samples : Nat → Int) (frequency : Nat) : Int :=
  (List.range 8).foldl (fun sum place => sum + samples place * wave frequency place) 0

/-- The rounded coefficients of a block, row by row. The sums are `0x40000000` times too big. -/
def coefficients (samples : Array Int) : Array Int :=
  let rows := ((List.range 64).map fun place =>
    transform (fun x => samples.getD (place / 8 * 8 + x) 0) (place % 8)).toArray
  ((List.range 64).map fun place =>
    let sum := transform (fun y => rows.getD (8 * y + place % 8) 0) (place / 8)
    divideRounded sum (0x40000000 * divisor place)).toArray

/-- The bits that a value has without its sign. -/
def width (value : Int) : Nat := if value = 0 then 0 else value.natAbs.log2 + 1

/-- Negative values are counted from below. -/
def pushValue (value : Int) (writer : BitWriter) : BitWriter :=
  let magnitude := if value < 0 then (1 <<< width value) - 1 - value.natAbs else value.natAbs
  writer.push magnitude (width value)

/-- How much a block differs from the last one on the whole. -/
def pushDifference (difference : Int) (writer : BitWriter) : BitWriter :=
  pushValue difference (writer.push (width difference) 4)

/-- The details of a block: each value with the number of zeros before it, sixteen zeros at a time
if there are more, and a mark if the rest are zeros. -/
def pushDetails : List Int → Nat → BitWriter → BitWriter
  | [], zeros, writer => if zeros = 0 then writer else writer.push 0 8
  | value :: later, zeros, writer =>
    if value = 0 then pushDetails later (zeros + 1) writer
    else
      let writer := (List.replicate (zeros / 16) 1).foldl (fun writer long => writer.push long 8)
        writer
      let symbol := 2 + 10 * (zeros % 16) + (width value - 1)
      pushDetails later 0 (pushValue value (writer.push symbol 8))

/-- The symbols of details, in the order of their codes. -/
def detailSymbols : List UInt8 :=
  [0x00, 0xF0] ++ (List.range 160).map fun index => UInt8.ofNat (16 * (index / 10) + index % 10 + 1)

/-- What is coded of a pixel: brightness, blueness and redness, all between -128 and 128. -/
def parts : List (Pixel → Int) :=
  let weighted (red green blue : Int) (pixel : Pixel) :=
    divideRounded (red * pixel.red.toNat + green * pixel.green.toNat + blue * pixel.blue.toNat)
      1000000
  [ fun pixel => weighted 299000 587000 114000 pixel - 128,
    weighted (-168736) (-331264) 500000,
    weighted 500000 (-418688) (-81312) ]

/-- One part of a block. Past the edges of a picture its last pixels go on. -/
def samples (raster : Raster) (part : Pixel → Int) (column row : Nat) : Array Int :=
  ((List.range 64).map fun place =>
    let x := min (8 * column + place % 8) (raster.width - 1)
    let y := min (8 * row + place / 8) (raster.height - 1)
    part ((raster.pixel? x y).getD .black)).toArray

/-- The parts of one block, after the means of the last. -/
def pushBlock (raster : Raster) (column row : Nat) (state : BitWriter × List Int) :
    BitWriter × List Int :=
  (parts.zip state.2).foldl
    (fun (writer, means) (part, last) =>
      let block := coefficients (samples raster part column row)
      let mean := block.getD 0 0
      let details := zigzag.tail.map fun place => block.getD place 0
      (pushDetails details 0 (pushDifference (mean - last) writer), means ++ [mean]))
    (state.1, [])

def scan (raster : Raster) : ByteArray :=
  let columns := (raster.width + 7) / 8
  let rows := (raster.height + 7) / 8
  let start : BitWriter × List Int := (⟨ByteArray.empty, 0, 0⟩, [0, 0, 0])
  ((List.range (columns * rows)).foldl
    (fun state index => pushBlock raster (index % columns) (index / columns) state) start).1.finish

def bigEndian (value : Nat) : List UInt8 := [UInt8.ofNat (value / 256), UInt8.ofNat value]

/-- A marker, and a length that counts itself. -/
def segment (marker : UInt8) (content : List UInt8) : ByteArray :=
  ⟨([0xFF, marker] ++ bigEndian (content.length + 2) ++ content).toArray⟩

/-- Codes of one length for all symbols. -/
def codeTable (kind : UInt8) (length : Nat) (symbols : List UInt8) : ByteArray :=
  let counts := (List.range 16).map fun index =>
    if index + 1 = length then UInt8.ofNat symbols.length else 0
  segment 0xC4 (kind :: counts ++ symbols)

def encode (raster : Raster) : ByteArray :=
  let colours := (List.range 3).flatMap fun index => [UInt8.ofNat (index + 1), 0x11, 0]
  let frame := 8 :: bigEndian raster.height ++ bigEndian raster.width ++ 3 :: colours
  ⟨#[0xFF, 0xD8]⟩ ++
    segment 0xE0 ("JFIF".toList.map (UInt8.ofNat ·.toNat) ++ [0, 1, 1, 0, 0, 1, 0, 1, 0, 0]) ++
    segment 0xDB (0 :: zigzag.map fun place => UInt8.ofNat (divisor place)) ++
    segment 0xC0 frame ++
    codeTable 0x00 4 ((List.range 12).map UInt8.ofNat) ++
    codeTable 0x10 8 detailSymbols ++
    segment 0xDA [3, 1, 0, 2, 0, 3, 0, 0, 63, 0] ++
    scan raster ++
    ⟨#[0xFF, 0xD9]⟩

end ChipEight.Jpeg
