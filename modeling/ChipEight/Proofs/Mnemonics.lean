import ChipEight.Mnemonic

/-!
# Reading mnemonics

The text of a mnemonic can be read back. Its spaces separate the tokens, since no token has one,
and the first characters of a token tell its kind: a register starts with `v`, an address and a byte
with `0x`, a number is all digits. Two mnemonics with the same text are therefore the same.
-/
namespace ChipEight

/-- A text is cut at its first space. -/
theorem Text.splitOn_append_space {before : List Char} (unbroken : ' ' ∉ before)
    (rest : List Char) : (before ++ ' ' :: rest).splitOn ' ' = before :: rest.splitOn ' ' := by
  have differs : ∀ char ∈ before, (char == ' ') = false := by
    intro char member
    rw [beq_eq_false_iff_ne]
    rintro rfl
    exact unbroken member
  rw [List.splitOn_eq_splitOnP, List.splitOn_eq_splitOnP]
  exact List.splitOnP_append_cons_of_forall_mem differs ' ' (by simp) rest

namespace Text.Hex

def digitValue (c : Char) : Nat := if c.toNat < 58 then c.toNat - 48 else c.toNat - 55

theorem digitValue_digit (value : Fin 16) : digitValue (digit value) = value.val := by
  revert value
  decide

def valueFrom (start : Nat) (chars : List Char) : Nat :=
  chars.foldl (fun number c => number * 16 + digitValue c) start

def value (chars : List Char) : Nat := valueFrom 0 chars

theorem value_digits (number : Nat) : value (digits number) = number := by
  fun_induction digits number with
  | case1 number small =>
    simp only [value, valueFrom, List.foldl_cons, List.foldl_nil, digitValue_digit]
    omega
  | case2 number large ih =>
    rw [value, valueFrom] at ih ⊢
    rw [List.foldl_append, ih]
    simp only [List.foldl_cons, List.foldl_nil, digitValue_digit]
    omega

theorem value_zeros (count : Nat) (chars : List Char) :
    value (List.replicate count '0' ++ chars) = value chars := by
  induction count with
  | zero => rfl
  | succ count ih => exact ih

theorem value_paddedDigits (width number : Nat) : value (paddedDigits width number) = number := by
  rw [paddedDigits, value_zeros, value_digits]

theorem length_digits_of_lt {number : Nat} (small : number < 256) : (digits number).length ≤ 2 := by
  have high : number / 16 < 16 := by omega
  rw [digits]
  split
  · simp
  · rw [digits, if_pos high]
    simp

theorem exists_digit_of_mem_digits {c : Char} (number : Nat) (member : c ∈ digits number) :
    ∃ value, c = digit value := by
  fun_induction digits number with
  | case1 number small => exact ⟨_, List.mem_singleton.mp member⟩
  | case2 number large ih =>
    rcases List.mem_append.mp member with before | last
    · exact ih before
    · exact ⟨_, List.mem_singleton.mp last⟩

theorem exists_digit_of_mem_paddedDigits {c : Char} (width number : Nat)
    (member : c ∈ paddedDigits width number) : ∃ value, c = digit value := by
  rcases List.mem_append.mp member with zero | digit
  · exact ⟨0, List.eq_of_mem_replicate zero⟩
  · exact exists_digit_of_mem_digits number digit

theorem length_paddedDigits (width number : Nat) :
    (paddedDigits width number).length = max width (digits number).length := by
  simp only [paddedDigits, List.length_append, List.length_replicate]
  omega

theorem space_notMem_paddedDigits (width number : Nat) : ' ' ∉ paddedDigits width number := by
  intro member
  obtain ⟨value, same⟩ := exists_digit_of_mem_paddedDigits width number member
  revert value
  decide

end Text.Hex

namespace Keyword

def all : List Keyword :=
  [ clear, ret, jump, call, ifWord, thenWord, jumpOffset, random, sprite, held, released, delay,
    buzzer, index, hex, bcd, save, load, fixedOpen, fixedClose, null, notEqual, equal, plus,
    assign, addAssign, orAssign, andAssign, xorAssign, subtractAssign, subtractFromAssign,
    shiftRightAssign, shiftLeftAssign ]

def ofText? (text : String) : Option Keyword := all.find? (·.text == text)

end Keyword

namespace Token

/-- The token with this text, if there is one. -/
def ofChars? : List Char → Option Token
  | 'v' :: digits =>
    some (register ⟨Text.Hex.value digits % 16, Nat.mod_lt _ (Nat.zero_lt_succ 15)⟩)
  | '0' :: 'x' :: digits =>
    if digits.length = 2 then some (byte (UInt8.ofNat (Text.Hex.value digits)))
    else some (address (UInt16.ofNat (Text.Hex.value digits)))
  | chars =>
    if chars.all Char.isDigit then some (number (Nat.ofDigitChars 10 chars 0))
    else (Keyword.ofText? (String.ofList chars)).map keyword

theorem ofChars?_of_digits {chars : List Char} (decimal : ∀ c ∈ chars, c.isDigit = true) :
    ofChars? chars = some (number (Nat.ofDigitChars 10 chars 0)) := by
  unfold ofChars?
  split
  next => exact absurd (decimal 'v' (by simp)) (by decide)
  next => exact absurd (decimal 'x' (by simp)) (by decide)
  next => rw [if_pos (List.all_eq_true.mpr decimal)]

theorem isDigit_of_mem_number (value : Nat) :
    ∀ c ∈ (number value).text.toList, c.isDigit = true := by
  intro c member
  have member : c ∈ Nat.toDigits 10 value := by
    rw [← Nat.toList_repr]
    exact member
  exact Nat.isDigit_of_mem_toDigits (by decide) (by decide) member

theorem toList_register (index : Register) :
    (register index).text.toList = 'v' :: Text.Hex.paddedDigits 1 index.val := by
  simp [text, Text.Hex.ofNat]

theorem toList_address (value : UInt16) :
    (address value).text.toList = '0' :: 'x' :: Text.Hex.paddedDigits 3 value.toNat := by
  simp [text, Text.Hex.ofNat]

theorem toList_byte (value : UInt8) :
    (byte value).text.toList = '0' :: 'x' :: Text.Hex.paddedDigits 2 value.toNat := by
  simp [text, Text.Hex.ofNat]

theorem ofChars?_text (token : Token) : ofChars? token.text.toList = some token := by
  cases token with
  | keyword word => cases word <;> decide
  | register index =>
    rw [toList_register, ofChars?]
    simp only [Text.Hex.value_paddedDigits, Nat.mod_eq_of_lt index.isLt]
  | number value =>
    have read : Nat.ofDigitChars 10 (number value).text.toList 0 = value := by
      rw [show (number value).text = value.repr from rfl, Nat.toList_repr,
        Nat.ofDigitChars_toDigits (by decide) (by decide)]
    rw [ofChars?_of_digits (isDigit_of_mem_number value), read]
  | address value =>
    have long : ¬(Text.Hex.paddedDigits 3 value.toNat).length = 2 := by
      rw [Text.Hex.length_paddedDigits]
      omega
    rw [toList_address, ofChars?, if_neg long, Text.Hex.value_paddedDigits]
    simp
  | byte value =>
    -- A byte has exactly two digits, which no address has.
    have short : (Text.Hex.paddedDigits 2 value.toNat).length = 2 := by
      have bound := Text.Hex.length_digits_of_lt value.toNat_lt
      rw [Text.Hex.length_paddedDigits]
      omega
    rw [toList_byte, ofChars?, if_pos short, Text.Hex.value_paddedDigits]
    simp

theorem space_notMem_text (token : Token) : ' ' ∉ token.text.toList := by
  cases token with
  | keyword word => cases word <;> decide
  | number value =>
    intro member
    have digit := isDigit_of_mem_number value ' ' member
    exact absurd digit (by decide)
  | register index =>
    rw [toList_register]
    simpa using Text.Hex.space_notMem_paddedDigits _ _
  | address value =>
    rw [toList_address]
    simpa using Text.Hex.space_notMem_paddedDigits _ _
  | byte value =>
    rw [toList_byte]
    simpa using Text.Hex.space_notMem_paddedDigits _ _

end Token

namespace Mnemonic

/-- The tokens of a text, if each of its parts between spaces is one. -/
def ofText? (text : String) : Option (List Token) := (text.toList.splitOn ' ').mapM Token.ofChars?

theorem mapM_ofChars?_text (tokens : List Token) :
    (tokens.map fun token => token.text.toList).mapM Token.ofChars? = some tokens := by
  induction tokens with
  | nil => rfl
  | cons token tokens ih => simp [List.mapM_cons, Token.ofChars?_text, ih]

/-- The spaces of a text stand between its tokens. -/
theorem splitOn_text {tokens : List Token} (nonempty : tokens ≠ []) :
    (text tokens).toList.splitOn ' ' = tokens.map fun token => token.text.toList := by
  rw [text, String.toList_intercalate, List.map_map]
  refine List.splitOn_intercalate ' ' ?_ (by simpa using nonempty)
  intro part member
  obtain ⟨token, _, rfl⟩ := List.mem_map.mp member
  exact token.space_notMem_text

theorem ofText?_text {tokens : List Token} (nonempty : tokens ≠ []) :
    ofText? (text tokens) = some tokens := by
  rw [ofText?, splitOn_text nonempty, mapM_ofChars?_text]

theorem text_inj {left right : List Token} (left_nonempty : left ≠ [])
    (right_nonempty : right ≠ []) : text left = text right ↔ left = right := by
  constructor
  · intro same
    have read := ofText?_text left_nonempty
    rw [same, ofText?_text right_nonempty] at read
    exact (Option.some.inj read).symm
  · rintro rfl
    rfl

end Mnemonic
end ChipEight
