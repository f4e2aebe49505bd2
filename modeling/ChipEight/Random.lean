/-!
# Random bytes

The generator is the 32-bit Mersenne Twister of period `2 ^ 19937 - 1`, seeded by an array of
words. Each word of the state is renewed just before it is used, which gives the same stream as
renewing all 624 at a time: no word is needed in its old value after its own renewal.
-/
namespace ChipEight.Random

structure Generator where
  words : Vector UInt32 624
  position : Fin 624
  deriving DecidableEq

/-- The 32-bit words of a number, least significant first; zero has one word. -/
def keyWords (number : Nat) : List UInt32 :=
  if number < 0x100000000 then [UInt32.ofNat number]
  else UInt32.ofNat (number % 0x100000000) :: keyWords (number / 0x100000000)

def spread (word : UInt32) : UInt32 := word ^^^ (word >>> 30)

def baseWords (first : UInt32) : Vector UInt32 624 :=
  (List.finRange 623).foldl
    (fun words index =>
      words.set (index.val + 1)
        ((1812433253 : UInt32) * spread words[index.val] + UInt32.ofNat (index.val + 1)))
    (Vector.replicate 624 first)

/-- A state that is being mixed; `before` is the word ahead of the one whose turn it is. -/
structure Mixing where
  words : Vector UInt32 624
  before : Fin 623

/-- After the last word its value is copied to the first, and the second has its turn. -/
def Mixing.next (mixing : Mixing) (factor addend : UInt32) : Mixing :=
  let index := mixing.before.val + 1
  let mixed :=
    (mixing.words[index] ^^^ (spread mixing.words[mixing.before.val] * factor)) + addend
  if inside : index < 623 then ⟨mixing.words.set index mixed, ⟨index, inside⟩⟩
  else ⟨(mixing.words.set index mixed).set 0 mixed, 0⟩

/-- The sign of a seed plays no part. -/
def Generator.ofSeed (seed : Int) : Generator :=
  let key := (keyWords seed.natAbs).toArray
  let start : Mixing := ⟨baseWords 19650218, 0⟩
  let keyed := (List.range (max 624 key.size)).foldl
    (fun (mixing : Mixing) round =>
      let index := round % key.size
      mixing.next 1664525 (key.getD index 0 + UInt32.ofNat index)) start
  let mixed := (List.range 623).foldl
    (fun (mixing : Mixing) _ =>
      mixing.next 1566083941 (0 - UInt32.ofNat (mixing.before.val + 1))) keyed
  ⟨mixed.words.set 0 0x80000000, 0⟩

def temper (word : UInt32) : UInt32 :=
  let word := word ^^^ (word >>> 11)
  let word := word ^^^ ((word <<< 7) &&& 0x9D2C5680)
  let word := word ^^^ ((word <<< 15) &&& 0xEFC60000)
  word ^^^ (word >>> 18)

def Generator.nextWord (generator : Generator) : UInt32 × Generator :=
  let index := generator.position
  let after : Fin 624 := ⟨(index.val + 1) % 624, by omega⟩
  let far : Fin 624 := ⟨(index.val + 397) % 624, by omega⟩
  let joined := (generator.words[index] &&& 0x80000000) ||| (generator.words[after] &&& 0x7FFFFFFF)
  let twist : UInt32 := if joined &&& 1 = 1 then 0x9908B0DF else 0
  let renewed := generator.words[far] ^^^ (joined >>> 1) ^^^ twist
  (temper renewed, ⟨generator.words.set index.val renewed, after⟩)

/-- Nine high bits are drawn until they are below 256. -/
def Generator.nextByteWithin : Nat → Generator → UInt8 × Generator
  | 0, generator => (0, generator)
  | draws + 1, generator =>
    let (word, rest) := generator.nextWord
    let bits := word >>> 23
    if bits < 256 then (bits.toUInt8, rest) else nextByteWithin draws rest

/-- The top bits of successive words obey an irreducible linear recurrence of degree 19937, which
the constant sequence of ones does not, so that they cannot be ones 19938 times in a row. -/
def Generator.nextByte (generator : Generator) : UInt8 × Generator :=
  nextByteWithin 19938 generator

end ChipEight.Random
