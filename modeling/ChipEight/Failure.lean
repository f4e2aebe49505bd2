import ChipEight.Directory
import ChipEight.Memory

/-!
# Failures

A running program can fail only by leaving the call stack. A host can also ask for an image that
does not fit, or for a file that cannot be read.
-/
namespace ChipEight

inductive StackFault.Kind where
  /-- A call with all sixteen slots in use. -/
  | overflow
  /-- A return with none in use. -/
  | underflow
  deriving DecidableEq, Repr

/-- The address is that of the faulting instruction. -/
structure StackFault where
  kind : StackFault.Kind
  address : UInt16
  deriving DecidableEq, Repr

/-- Errors as they are reported to a host, with any integers for their addresses and sizes. -/
inductive MachineError where
  | general (text : String)
  /-- An empty text stands for the usual one. -/
  | stackFault (address : Int) (text : String)
  | stackOverflow (address : Int)
  | stackUnderflow (address : Int)
  | imageTooLarge (size capacity : Int)
  deriving DecidableEq, Repr

namespace MachineError

def located (address : Int) : String := "0x" ++ Text.Hex.ofInt 3 address

def message : MachineError → String
  | general text => text
  | stackFault address text => if text.isEmpty then "Stack fault at " ++ located address else text
  | stackOverflow address =>
    "Stack overflow: call at " ++ located address ++ " with 16 return addresses pushed"
  | stackUnderflow address =>
    "Stack underflow: return at " ++ located address ++ " with an empty stack"
  | imageTooLarge size capacity =>
    "ROM is " ++ toString size ++ " bytes but only " ++ toString capacity ++
      " bytes fit in memory"

end MachineError

def StackFault.error (fault : StackFault) : MachineError :=
  match fault.kind with
  | .overflow => .stackOverflow fault.address.toNat
  | .underflow => .stackUnderflow fault.address.toNat

def StackFault.message (fault : StackFault) : String := fault.error.message

def ImageTooLarge.error (rejected : ImageTooLarge) : MachineError :=
  .imageTooLarge rejected.size Memory.imageCapacity

inductive Failure where
  | stack (fault : StackFault)
  | image (rejected : ImageTooLarge)
  | file (error : FileError)
  deriving DecidableEq, Repr

def Failure.message : Failure → String
  | stack fault => fault.message
  | image rejected => rejected.error.message
  | file error => error.message

end ChipEight
