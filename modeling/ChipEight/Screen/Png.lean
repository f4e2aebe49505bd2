import ChipEight.Screen.Raster

/-!
# Image files

A picture as a PNG file of eight-bit colours with transparency. Rows are not filtered and the data
are stored without compression.
-/
namespace ChipEight.Png

def crcStep (crc : UInt32) (byte : UInt8) : UInt32 :=
  (List.range 8).foldl
    (fun crc _ => if crc &&& 1 = 1 then (crc >>> 1) ^^^ 0xEDB88320 else crc >>> 1)
    (crc ^^^ byte.toUInt32)

def crc (bytes : ByteArray) : UInt32 := bytes.foldl crcStep 0xFFFFFFFF ^^^ 0xFFFFFFFF

/-- Two sums modulo 65521: of the bytes, and of the first sum after each byte. -/
def adler (bytes : ByteArray) : UInt32 :=
  let (first, second) := bytes.foldl
    (fun (first, second) byte =>
      let first := (first + byte.toNat) % 65521
      (first, (second + first) % 65521))
    (1, 0)
  UInt32.ofNat (second * 65536 + first)

def bigEndian (value : UInt32) : ByteArray :=
  ⟨#[(value >>> 24).toUInt8, (value >>> 16).toUInt8, (value >>> 8).toUInt8, value.toUInt8]⟩

def littleEndian (value : UInt16) : ByteArray := ⟨#[value.toUInt8, (value >>> 8).toUInt8]⟩

/-- Length, name, content, and a checksum of the last two. -/
def chunk (name : String) (content : ByteArray) : ByteArray :=
  let named := name.toUTF8 ++ content
  bigEndian (UInt32.ofNat content.size) ++ named ++ bigEndian (crc named)

/-- Blocks of at most 65535 bytes, each with its length and the complement of it. -/
def storedBlocks (data : ByteArray) (start : Nat) : ByteArray :=
  let stop := min data.size (start + 65535)
  let length := UInt16.ofNat (stop - start)
  let last : UInt8 := if data.size ≤ start + 65535 then 1 else 0
  let block := ⟨#[last]⟩ ++ littleEndian length ++ littleEndian (0xFFFF - length) ++
    data.extract start stop
  if start + 65535 < data.size then block ++ storedBlocks data (start + 65535) else block
termination_by data.size - start
decreasing_by omega

def deflate (data : ByteArray) : ByteArray :=
  ⟨#[0x78, 0x01]⟩ ++ storedBlocks data 0 ++ bigEndian (adler data)

def rowBytes (row : List Pixel) : ByteArray :=
  row.foldl (fun bytes pixel => pixel.toList.foldl ByteArray.push bytes) ⟨#[0]⟩

def encode (raster : Raster) : ByteArray :=
  let header := bigEndian (UInt32.ofNat raster.width) ++ bigEndian (UInt32.ofNat raster.height) ++
    ⟨#[8, 6, 0, 0, 0]⟩
  let data := (List.range raster.height).foldl (fun bytes y => bytes ++ rowBytes (raster.row y))
    ByteArray.empty
  ⟨#[0x89, 0x50, 0x4E, 0x47, 0x0D, 0x0A, 0x1A, 0x0A]⟩ ++ chunk "IHDR" header ++
    chunk "IDAT" (deflate data) ++ chunk "IEND" ByteArray.empty

end ChipEight.Png
