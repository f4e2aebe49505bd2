/-!
# Dialects

Machines of different makers disagree on eight opcodes. A dialect settles each disagreement
once, when a machine is built; four historical combinations have names.
-/
namespace ChipEight

/-- How far the index register moves when registers `V0` to `VX` are stored or loaded. -/
inductive IndexAdvance where
  /-- The index ends one past the last byte. -/
  | pastLast
  /-- The index ends on the last byte. -/
  | ontoLast
  | unchanged
  deriving DecidableEq, Repr

namespace IndexAdvance

def label : IndexAdvance → String
  | pastLast => "CHIP8"
  | ontoLast => "CHIP48"
  | unchanged => "SUPER-CHIP 1.1"

/-- The distance moved after registers up to `VX` were copied. -/
def distance (advance : IndexAdvance) (x : Nat) : Nat :=
  match advance with
  | pastLast => x + 1
  | ontoLast => x
  | unchanged => 0

end IndexAdvance

structure Dialect where
  /-- The bitwise operations leave zero in the flag register. -/
  logicClearsFlag : Bool := false
  /-- The offset jump adds register `VX` instead of `V0`. -/
  jumpAddsNamed : Bool := false
  /-- Shifts work on `VX` in place and ignore `VY`. -/
  shiftInPlace : Bool := true
  indexAdvance : IndexAdvance := .ontoLast
  deriving DecidableEq, Repr

/-- There is no dialect of this name. -/
structure UnknownPreset where
  name : String
  deriving DecidableEq, Repr

namespace Dialect

/-- The named dialects, in alphabetical order. -/
def presets : List (String × Dialect) :=
  [ ("chip48", { jumpAddsNamed := true }),
    ("chip8", { shiftInPlace := false, indexAdvance := .pastLast }),
    ("schip11", { jumpAddsNamed := true, indexAdvance := .unchanged }),
    ("vip", { logicClearsFlag := true, shiftInPlace := false, indexAdvance := .pastLast }) ]

def presetNames : List String := presets.map Prod.fst

/-- Names are matched without regard to the case of their ASCII letters; no other letter has one
of the names' letters as its lower case. -/
def preset (name : String) : Except UnknownPreset Dialect :=
  match presets.lookup (name.map Char.toLower) with
  | some dialect => .ok dialect
  | none => .error ⟨name⟩

def yesNo (answer : Bool) : String := if answer then "Yes" else "No"

/-- One row of label and value for each axis of disagreement. -/
def describe (dialect : Dialect) : List (String × String) :=
  [ ("COSMAC VIP Logic", yesNo dialect.logicClearsFlag),
    ("CHIP48 Jump", yesNo dialect.jumpAddsNamed),
    ("CHIP48 Shift", yesNo dialect.shiftInPlace),
    ("L/S Mode", dialect.indexAdvance.label) ]

end Dialect

def UnknownPreset.message (unknown : UnknownPreset) : String :=
  "Unknown quirk preset '" ++ unknown.name ++ "' (known: " ++
    ", ".intercalate Dialect.presetNames ++ ")"

end ChipEight
