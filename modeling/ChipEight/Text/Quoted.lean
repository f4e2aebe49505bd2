import ChipEight.Text.Hex
import ChipEight.Text.Invisible

/-!
# Quoted text

Text in messages stands between single quotes, or between double quotes when it holds a single
quote and no double one. A backslash is doubled, the enclosing quote is preceded by a backslash,
and a character without a visible form is written by its code.
-/
namespace ChipEight.Text

/-- The code of an invisible character: two, four or eight digits, whichever is first enough. -/
def codeEscape (code : Nat) : List Char :=
  let lower (width : Nat) := (Hex.paddedDigits width code).map Char.toLower
  if code < 0x100 then '\\' :: 'x' :: lower 2
  else if code < 0x10000 then '\\' :: 'u' :: lower 4
  else '\\' :: 'U' :: lower 8

def escape (quote c : Char) : List Char :=
  if c = quote ∨ c = '\\' then ['\\', c]
  else if c = '\n' then ['\\', 'n']
  else if c = '\r' then ['\\', 'r']
  else if c = '\t' then ['\\', 't']
  else if isInvisible c then codeEscape c.toNat
  else [c]

def singleQuote : Char := Char.ofNat 39

def doubleQuote : Char := Char.ofNat 34

def enclosingQuote (text : List Char) : Char :=
  if singleQuote ∈ text ∧ doubleQuote ∉ text then doubleQuote else singleQuote

def quoted (text : String) : String :=
  let quote := enclosingQuote text.toList
  String.ofList (quote :: text.toList.flatMap (escape quote) ++ [quote])

end ChipEight.Text
