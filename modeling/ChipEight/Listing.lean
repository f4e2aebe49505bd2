import ChipEight.Mnemonic

/-!
# Listings

A program image is listed word by word: address, digits and text of each, and a byte that is left
over at the end as data.
-/
namespace ChipEight.Listing

/-- One instruction with the address it stands at. -/
def instruction (dialect : Dialect) (opcode address : Int) : String :=
  "0x" ++ Text.Hex.ofInt 1 address ++ " - " ++ Text.Hex.ofInt 4 opcode ++ " -> " ++
    Mnemonic.describe dialect opcode

def dataByte (byte : UInt8) (address : Int) : String :=
  "0x" ++ Text.Hex.ofInt 1 address ++ " - " ++ Text.Hex.ofNat 2 byte.toNat ++
    "   -> .byte 0x" ++ Text.Hex.ofNat 2 byte.toNat

def lines (dialect : Dialect) (address : Int) : List UInt8 → List String
  | high :: low :: rest =>
    ("  " ++ instruction dialect (Word.ofBytes high low).toNat address) ::
      lines dialect (address + 2) rest
  | [byte] => ["  " ++ dataByte byte address]
  | [] => []

/-- At most `limit` lines, none for a limit below one. The listing stops there, whatever follows
in the image. -/
def limitedLines (dialect : Dialect) (address : Int) (limit : Int) : List UInt8 → List String
  | high :: low :: rest =>
    if limit ≤ 0 then []
    else ("  " ++ instruction dialect (Word.ofBytes high low).toNat address) ::
      limitedLines dialect (address + 2) (limit - 1) rest
  | [byte] => if limit ≤ 0 then [] else ["  " ++ dataByte byte address]
  | [] => []

def ofImage (dialect : Dialect) (image : List UInt8) (start : Int) (limit : Option Int) :
    List String :=
  match limit with
  | none => lines dialect start image
  | some limit => limitedLines dialect start limit image

end ChipEight.Listing
