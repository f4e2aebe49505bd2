import ChipEight.FileName
import ChipEight.Memory

/-!
# Diagnostics

What operations report to a host that asked for it. Nothing else depends on a diagnostic. Printing
one is taken never to fail, so that a name is printed even where its surrogates have no bytes.
-/
namespace ChipEight

inductive Diagnostic where
  | undefinedWord (word : Word) (address : UInt16)
  | selfJump (address : UInt16)
  | droppedWrite (value : UInt8) (address : Address)
  | imageCopied (size : Nat)
  | imageLoaded (size : Nat)
  | fileLoaded (name : FileName)
  | resetComplete
  | screenshotSaved (name : FileName)
  | instanceCreated (id : Nat)
  | instanceDeleted (id : Nat)
  | instanceLoaded (id : Nat) (name : FileName)
  | instanceEmpty (id : Nat)
  deriving DecidableEq, Repr

namespace Diagnostic

def text : Diagnostic → String
  | undefinedWord word address =>
    "CPU: undefined opcode 0x" ++ Text.Hex.ofNat 4 word.toNat ++ " at 0x" ++
      Text.Hex.ofNat 3 address.toNat ++ ", ignored"
  | selfJump address =>
    "CPU: self-jump at 0x" ++ Text.Hex.ofNat 3 address.toNat ++ ", program has halted"
  | droppedWrite value address =>
    "Memory: dropped write of 0x" ++ Text.Hex.ofNat 2 value.toNat ++ " to font byte 0x" ++
      Text.Hex.ofNat 3 address.val
  | imageCopied size => "Memory: loaded " ++ toString size ++ " ROM bytes at 0x200"
  | imageLoaded size => "CHIP-8: ROM loaded (" ++ toString size ++ " bytes)"
  | fileLoaded name => "CHIP-8: ROM '" ++ name.text ++ "' loaded"
  | resetComplete => "CHIP-8: Reset complete, PC=0x200"
  | screenshotSaved name => "Display: screenshot saved as " ++ name.text
  | instanceCreated id => "InstanceManager: created instance " ++ toString id
  | instanceDeleted id => "InstanceManager: deleted instance " ++ toString id
  | instanceLoaded id name => "Instance " ++ toString id ++ ": loaded '" ++ name.text ++ "'"
  | instanceEmpty id => "Instance " ++ toString id ++ ": nothing loaded, not starting"

/-- The diagnostic of a single write, if memory keeps its old value. -/
def ofWrite? (write : Address × UInt8) : Option Diagnostic :=
  if Font.Occupies write.1.val then some (droppedWrite write.2 write.1) else none

/-- The lines that a host sees. -/
def shown (debug : Bool) (notes : List Diagnostic) : List String :=
  if debug then notes.map text else []

end Diagnostic
end ChipEight
