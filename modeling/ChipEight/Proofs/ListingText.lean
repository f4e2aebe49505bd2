import ChipEight.Listing
import ChipEight.Proofs.Mnemonics
import Mathlib.Data.List.Basic

/-!
# Reading listings

A listing shows every byte of an image: two digits for each, between the address and the text. Main
statement: the lines are those of the words in order and, behind an odd number of bytes, that of the
last one; addresses and bytes can be read back from them, whatever the texts are; and a limit keeps
the first lines.
-/
namespace ChipEight

namespace Text.Hex

/-- The number that a text shows, with a minus sign in front of a negative one. -/
def intValue : List Char → Int
  | '-' :: chars => -value chars
  | chars => value chars

theorem minus_notMem_paddedDigits (width number : Nat) : '-' ∉ paddedDigits width number := by
  intro member
  obtain ⟨value, same⟩ := exists_digit_of_mem_paddedDigits width number member
  revert value
  decide

theorem intValue_paddedDigits (width number : Nat) :
    intValue (paddedDigits width number) = number := by
  unfold intValue
  split
  next chars shown =>
    have minus := minus_notMem_paddedDigits width number
    rw [shown] at minus
    exact absurd List.mem_cons_self minus
  next => rw [value_paddedDigits]

theorem intValue_ofInt (width : Nat) (number : Int) :
    intValue (ofInt width number).toList = number := by
  unfold ofInt ofNat
  split
  next negative =>
    rw [String.toList_ofList, intValue, value_paddedDigits]
    omega
  next positive =>
    rw [String.toList_ofList, intValue_paddedDigits]
    omega

theorem space_notMem_ofInt (width : Nat) (number : Int) : ' ' ∉ (ofInt width number).toList := by
  unfold ofInt ofNat
  split
  · simp [space_notMem_paddedDigits]
  · simp [space_notMem_paddedDigits]

theorem paddedDigits_one (number : Nat) : paddedDigits 1 number = digits number := by
  have shown : 0 < (digits number).length := List.length_pos_iff.mpr (digits_ne_nil number)
  have full : 1 - (digits number).length = 0 := by omega
  rw [paddedDigits, full]
  rfl

/-- The last digit of a field stands behind a field of the others. -/
theorem paddedDigits_succ {width : Nat} (positive : 0 < width) (number : Nat) :
    paddedDigits (width + 1) number = paddedDigits width (number / 16) ++ digits (number % 16) := by
  have last : digits (number % 16) = [digit ⟨number % 16, by omega⟩] := by
    rw [digits, if_pos (by omega)]
    simp
  unfold paddedDigits
  rw [last, digits]
  split
  next small =>
    -- The only digit left in front is a zero, of which there are enough already.
    have none_left : number / 16 = 0 := by omega
    have zero : digits 0 = ['0'] := by
      rw [digits]
      rfl
    have counted : width = width - 1 + 1 := by omega
    rw [none_left, zero, List.length_singleton, List.length_singleton, Nat.add_sub_cancel,
      ← List.replicate_succ', ← counted]
  next large =>
    rw [List.length_append, List.length_singleton, Nat.add_sub_add_right, List.append_assoc]

theorem paddedDigits_of_bytes (high : Nat) {low : Nat} (small : low < 256) :
    paddedDigits 4 (high * 256 + low) = paddedDigits 2 high ++ paddedDigits 2 low := by
  have last : (high * 256 + low) % 16 = low % 16 := by omega
  have third : (high * 256 + low) / 16 % 16 = low / 16 := by omega
  have front : (high * 256 + low) / 16 / 16 = high := by omega
  rw [paddedDigits_succ (by decide), paddedDigits_succ (by decide), last, third, front,
    paddedDigits_succ Nat.one_pos low, paddedDigits_one, List.append_assoc]

end Text.Hex

namespace Listing

open Text

/-- The line of a word, with the digits of either byte. -/
def wordLine (dialect : Dialect) (address : Int) (high low : UInt8) : String :=
  "  0x" ++ Hex.ofInt 1 address ++ " - " ++ Hex.ofNat 2 high.toNat ++ Hex.ofNat 2 low.toNat ++
    " -> " ++ Mnemonic.describe dialect (256 * high.toNat + low.toNat)

def byteLine (address : Int) (byte : UInt8) : String :=
  "  0x" ++ Hex.ofInt 1 address ++ " - " ++ Hex.ofNat 2 byte.toNat ++ "   -> .byte 0x" ++
    Hex.ofNat 2 byte.toNat

/-! ### Reading a line -/

/-- One byte for every two digits. -/
def readBytes : List Char → List UInt8
  | high :: low :: rest => UInt8.ofNat (Hex.value [high, low]) :: readBytes rest
  | _ => []

/-- A line shows the address in its third part between spaces, behind `0x`, and the bytes in its
fifth. -/
def readLine? (line : String) : Option (Int × List UInt8) :=
  match line.toList.splitOn ' ' with
  | _ :: _ :: address :: _ :: digits :: _ =>
    some (Hex.intValue (address.drop 2), readBytes digits)
  | _ => none

/-- The bytes of all lines that can be read. -/
def readImage (lines : List String) : List UInt8 :=
  lines.flatMap fun line => (readLine? line).elim [] Prod.snd

theorem readBytes_append (byte : UInt8) (rest : List Char) :
    readBytes (Hex.paddedDigits 2 byte.toNat ++ rest) = byte :: readBytes rest := by
  have few := Hex.length_digits_of_lt byte.toNat_lt
  have two : (Hex.paddedDigits 2 byte.toNat).length = 2 := by
    rw [Hex.length_paddedDigits]
    omega
  have shown := Hex.value_paddedDigits 2 byte.toNat
  obtain ⟨high, low, digits⟩ := List.length_eq_two.mp two
  rw [digits] at shown ⊢
  rw [List.cons_append, List.cons_append, List.nil_append, readBytes, shown, UInt8.ofNat_toNat]

theorem readBytes_paddedDigits (byte : UInt8) :
    readBytes (Hex.paddedDigits 2 byte.toNat) = [byte] := by
  have alone := readBytes_append byte []
  rw [List.append_nil] at alone
  exact alone

theorem readLine?_of_parts {line : String} {address digits rest : List Char}
    (parts : line.toList = "  0x".toList ++ address ++ " - ".toList ++ digits ++ ' ' :: rest)
    (address_unbroken : ' ' ∉ address) (digits_unbroken : ' ' ∉ digits) :
    readLine? line = some (Hex.intValue address, readBytes digits) := by
  have prefixed : ' ' ∉ '0' :: 'x' :: address := by simp [address_unbroken]
  have chars : line.toList =
      [] ++ ' ' :: ([] ++ ' ' :: ('0' :: 'x' :: address ++ ' ' ::
        (['-'] ++ ' ' :: (digits ++ ' ' :: rest)))) := by
    simp [parts]
  unfold readLine?
  -- Each part ends at the next space; what stands behind the digits may have spaces of its own.
  rw [chars, splitOn_append_space (by simp), splitOn_append_space (by simp),
    splitOn_append_space prefixed, splitOn_append_space (by simp),
    splitOn_append_space digits_unbroken]
  rfl

theorem readLine?_wordLine (dialect : Dialect) (address : Int) (high low : UInt8) :
    readLine? (wordLine dialect address high low) = some (address, [high, low]) := by
  have digits_unbroken :
      ' ' ∉ Hex.paddedDigits 2 high.toNat ++ Hex.paddedDigits 2 low.toNat := by
    simp [Hex.space_notMem_paddedDigits]
  have parts : (wordLine dialect address high low).toList =
      "  0x".toList ++ (Hex.ofInt 1 address).toList ++ " - ".toList ++
        (Hex.paddedDigits 2 high.toNat ++ Hex.paddedDigits 2 low.toNat) ++
        ' ' :: ("-> " ++ Mnemonic.describe dialect (256 * high.toNat + low.toNat)).toList := by
    simp [wordLine, Hex.ofNat]
  rw [readLine?_of_parts parts (Hex.space_notMem_ofInt 1 address) digits_unbroken,
    Hex.intValue_ofInt, readBytes_append, readBytes_paddedDigits]

theorem readLine?_byteLine (address : Int) (byte : UInt8) :
    readLine? (byteLine address byte) = some (address, [byte]) := by
  have parts : (byteLine address byte).toList =
      "  0x".toList ++ (Hex.ofInt 1 address).toList ++ " - ".toList ++
        Hex.paddedDigits 2 byte.toNat ++
        ' ' :: ("  -> .byte 0x" ++ Hex.ofNat 2 byte.toNat).toList := by
    simp [byteLine, Hex.ofNat]
  rw [readLine?_of_parts parts (Hex.space_notMem_ofInt 1 address)
    (Hex.space_notMem_paddedDigits 2 byte.toNat), Hex.intValue_ofInt, readBytes_paddedDigits]

/-! ### Lines in order -/

theorem instruction_eq_wordLine (dialect : Dialect) (address : Int) (high low : UInt8) :
    "  " ++ instruction dialect (Word.ofBytes high low).toNat address =
      wordLine dialect address high low := by
  have number : ((Word.ofBytes high low).toNat : Int) = 256 * high.toNat + low.toNat := by
    rw [Word.toNat_ofBytes]
    omega
  have digits : Hex.ofInt 4 (Word.ofBytes high low).toNat =
      Hex.ofNat 2 high.toNat ++ Hex.ofNat 2 low.toNat := by
    have natural : ¬((Word.ofBytes high low).toNat : Int) < 0 := by omega
    rw [Hex.ofInt, if_neg natural, Int.natAbs_natCast, Word.toNat_ofBytes, Hex.ofNat,
      Hex.paddedDigits_of_bytes _ low.toNat_lt, String.ofList_append, Hex.ofNat, Hex.ofNat]
  apply String.toList_inj.mp
  rw [instruction, wordLine, digits, number]
  simp

theorem dataByte_eq_byteLine (address : Int) (byte : UInt8) :
    "  " ++ dataByte byte address = byteLine address byte := by
  apply String.toList_inj.mp
  simp [dataByte, byteLine]

variable (dialect : Dialect) (start : Int) (image : List UInt8)

theorem length_lines : (lines dialect start image).length = (image.length + 1) / 2 := by
  fun_induction lines dialect start image with
  | case1 start high low rest ih =>
    simp only [List.length_cons, ih]
    omega
  | case2 start byte => simp
  | case3 => rfl

variable {dialect start image}

theorem getElem?_lines_of_word {line : Nat} {high low : UInt8}
    (first : image[2 * line]? = some high) (second : image[2 * line + 1]? = some low) :
    (lines dialect start image)[line]? =
      some (wordLine dialect (start + 2 * line) high low) := by
  fun_induction lines dialect start image generalizing line with
  | case1 start upper lower rest ih =>
    rw [instruction_eq_wordLine]
    cases line with
    | zero =>
      cases first
      cases second
      simp
    | succ line =>
      have address : start + 2 * (line + 1 : Nat) = start + 2 + 2 * line := by omega
      rw [List.getElem?_cons_succ, address]
      exact ih first second
  -- One byte alone, or none, is no word.
  | case2 start byte => cases second
  | case3 => cases first

theorem getElem?_lines_of_byte {line : Nat} {byte : UInt8} (odd : image.length = 2 * line + 1)
    (last : image[2 * line]? = some byte) :
    (lines dialect start image)[line]? = some (byteLine (start + 2 * line) byte) := by
  fun_induction lines dialect start image generalizing line with
  | case1 start upper lower rest ih =>
    cases line with
    | zero => simp at odd
    | succ line =>
      have address : start + 2 * (line + 1 : Nat) = start + 2 + 2 * line := by omega
      have shorter : rest.length = 2 * line + 1 := by
        simp only [List.length_cons] at odd
        omega
      rw [List.getElem?_cons_succ, address]
      exact ih shorter last
  | case2 start only =>
    obtain rfl : line = 0 := by
      rw [List.length_singleton] at odd
      omega
    cases last
    rw [dataByte_eq_byteLine]
    simp
  | case3 => cases last

theorem readImage_lines : readImage (lines dialect start image) = image := by
  fun_induction lines dialect start image with
  | case1 start high low rest ih =>
    rw [instruction_eq_wordLine, readImage, List.flatMap_cons, readLine?_wordLine, ← readImage, ih]
    rfl
  | case2 start byte =>
    rw [dataByte_eq_byteLine, readImage, List.flatMap_cons, readLine?_byteLine]
    rfl
  | case3 => rfl

/-- The address and the bytes of each line can be told from it. -/
theorem readLine?_lines (line : Nat) :
    (lines dialect start image)[line]?.bind readLine? =
      if 2 * line < image.length then some (start + 2 * line, (image.drop (2 * line)).take 2)
      else none := by
  by_cases inside : 2 * line < image.length
  · have first := List.getElem?_eq_getElem inside
    rw [if_pos inside, List.drop_eq_getElem_cons inside]
    by_cases full : 2 * line + 1 < image.length
    · have second := List.getElem?_eq_getElem full
      rw [getElem?_lines_of_word first second, Option.bind_some, readLine?_wordLine,
        List.drop_eq_getElem_cons full]
      rfl
    · have odd : image.length = 2 * line + 1 := by omega
      rw [getElem?_lines_of_byte odd first, Option.bind_some, readLine?_byteLine,
        List.drop_of_length_le (by omega)]
      rfl
  · have beyond : (lines dialect start image)[line]? = none := by
      rw [List.getElem?_eq_none_iff, length_lines]
      omega
    rw [if_neg inside, beyond, Option.bind_none]

/-- The limit is asked for at each line, the last byte's too, and it comes out as a prefix. -/
theorem limitedLines_eq_take (limit : Int) :
    limitedLines dialect start limit image = (lines dialect start image).take limit.toNat := by
  fun_induction limitedLines dialect start limit image with
  | case1 start limit high low rest stopped | case3 start limit byte stopped =>
    rw [Int.toNat_of_nonpos stopped, List.take_zero]
  | case2 start limit high low rest goes_on ih =>
    have counted : limit.toNat = (limit - 1).toNat + 1 := by omega
    rw [ih, lines, counted, List.take_succ_cons]
  | case4 start limit byte goes_on =>
    have counted : limit.toNat = (limit - 1).toNat + 1 := by omega
    rw [lines, counted, List.take_succ_cons, List.take_nil]
  | case5 => rw [lines, List.take_nil]

/-- What a listing of an image shows. -/
structure Lists (dialect : Dialect) (start : Int) (image : List UInt8) (lines : List String) :
    Prop where
  length : lines.length = (image.length + 1) / 2
  word : ∀ line high low, image[2 * line]? = some high → image[2 * line + 1]? = some low →
    lines[line]? = some (wordLine dialect (start + 2 * (line : Nat)) high low)
  /-- The last byte of an odd number of them. -/
  byte : ∀ line byte, image.length = 2 * line + 1 → image[2 * line]? = some byte →
    lines[line]? = some (byteLine (start + 2 * (line : Nat)) byte)
  read : ∀ line : Nat, lines[line]?.bind readLine? =
    if 2 * line < image.length then some (start + 2 * line, (image.drop (2 * line)).take 2)
    else none
  readAll : readImage lines = image

theorem lists_lines (dialect : Dialect) (start : Int) (image : List UInt8) :
    Lists dialect start image (lines dialect start image) where
  length := length_lines dialect start image
  word _ _ _ := getElem?_lines_of_word
  byte _ _ := getElem?_lines_of_byte
  read := readLine?_lines
  readAll := readImage_lines

/-- A listing loses nothing: its image is the only one that has it, whatever the dialect and the
start of another. A limit of any size keeps the first lines. -/
theorem listing_shows_its_image (dialect : Dialect) (image : List UInt8) (start : Int) :
    Lists dialect start image (ofImage dialect image start none) ∧
    (∀ otherDialect other otherStart,
      ofImage otherDialect other otherStart none = ofImage dialect image start none →
        other = image) ∧
    ∀ limit : Int, ofImage dialect image start (some limit) =
      (ofImage dialect image start none).take (max limit 0).toNat := by
  refine ⟨lists_lines dialect start image, ?_, ?_⟩
  · intro otherDialect other otherStart same
    have read : readImage (lines otherDialect otherStart other) =
        readImage (lines dialect start image) := congrArg readImage same
    rw [readImage_lines, readImage_lines] at read
    exact read
  · intro limit
    have counted : (max limit 0).toNat = limit.toNat := by omega
    rw [counted]
    exact limitedLines_eq_take limit

/-- The last byte has a line of its own, which counts for the limit as any other does. No other
image has these two lines. -/
theorem listing_of_three_bytes :
    let image : List UInt8 := [0x00, 0xE0, 0x12]
    let listing := ["  0x-2 - 00E0 -> clear", "  0x0 - 12   -> .byte 0x12"]
    ofImage {} image (-2) none = listing ∧
    ofImage {} image (-2) (some 1) = ["  0x-2 - 00E0 -> clear"] ∧
    ∀ dialect other start, ofImage dialect other start none = listing → other = image := by
  intro image listing
  have shown : ofImage {} image (-2) none = listing := by decide +kernel
  obtain ⟨-, only, limited⟩ := listing_shows_its_image {} image (-2)
  refine ⟨shown, ?_, ?_⟩
  · rw [limited, shown]
    rfl
  · intro dialect other start same
    exact only dialect other start (same.trans shown.symm)

end Listing
end ChipEight
