import ChipEight.Text.Quoted

/-!
# File names

A name is text in which surrogates may stand alone. The system is asked for a file by bytes: a
character has those of UTF-8, and the surrogates `U+DC80` to `U+DCFF` stand for one byte each, so
that every sequence of bytes can be named. No other surrogate has bytes.
-/
namespace ChipEight

inductive NamePoint where
  | char (char : Char)
  /-- The surrogate that lies `offset` after `U+D800`. -/
  | surrogate (offset : Fin 2048)
  deriving DecidableEq, Repr

namespace NamePoint

def code : NamePoint → Nat
  | char c => c.toNat
  | surrogate offset => 0xD800 + offset.val

def char? : NamePoint → Option Char
  | char c => some c
  | surrogate _ => none

def isSurrogate : NamePoint → Bool
  | char _ => false
  | surrogate _ => true

def bytes? : NamePoint → Option (List UInt8)
  | char c => some (String.utf8EncodeChar c)
  | surrogate offset =>
    if 0x480 ≤ offset.val ∧ offset.val < 0x500 then some [UInt8.ofNat (offset.val - 0x400)]
    else none

def escape (quote : Char) : NamePoint → List Char
  | char c => Text.escape quote c
  | surrogate offset => Text.codeEscape (0xD800 + offset.val)

end NamePoint

structure FileName where
  points : List NamePoint
  deriving DecidableEq, Repr

/-- The first surrogate without bytes is at `start`, and those that follow it end before `stop`. -/
structure EncodingError where
  point : NamePoint
  start : Nat
  stop : Nat
  deriving DecidableEq, Repr

def EncodingError.message (error : EncodingError) : String :=
  let place :=
    if error.stop = error.start + 1 then
      " '" ++ String.ofList (Text.codeEscape error.point.code) ++ "' in position " ++
        toString error.start
    else "s in position " ++ toString error.start ++ "-" ++ toString (error.stop - 1)
  "'utf-8' codec can't encode character" ++ place ++ ": surrogates not allowed"

namespace FileName

def ofString (text : String) : FileName := ⟨text.toList.map .char⟩

instance : Coe String FileName := ⟨ofString⟩

def append (name ending : FileName) : FileName := ⟨name.points ++ ending.points⟩

def encodePoints (start : Nat) : List NamePoint → Except EncodingError (List UInt8)
  | [] => .ok []
  | point :: later =>
    match point.bytes? with
    | some bytes => do return bytes ++ (← encodePoints (start + 1) later)
    | none => .error ⟨point, start, start + 1 + (later.takeWhile NamePoint.isSurrogate).length⟩

/-- The bytes of all points. -/
def encode (name : FileName) : Except EncodingError (List UInt8) := encodePoints 0 name.points

def quoted (name : FileName) : String :=
  let quote := Text.enclosingQuote (name.points.filterMap NamePoint.char?)
  String.ofList (quote :: name.points.flatMap (NamePoint.escape quote) ++ [quote])

/-- The name as it is printed, with a replacement for each surrogate. -/
def text (name : FileName) : String :=
  String.ofList (name.points.map fun point => point.char?.getD (Char.ofNat 0xFFFD))

end FileName
end ChipEight
