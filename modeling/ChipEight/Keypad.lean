/-!
# The keypad

Sixteen keys, each held or not.
-/
namespace ChipEight

abbrev Keypad := Vector Bool 16

namespace Keypad

def released : Keypad := Vector.replicate 16 false

/-- Copy states in from key 0 on. Keys past the last state keep theirs, states past the last key
are ignored. -/
def copy (keys : Keypad) (states : List Bool) : Keypad :=
  Vector.ofFn fun key => states.getD key.val keys[key]

def hold (keys : Keypad) (key : Fin 16) (held : Bool) : Keypad := keys.set key.val held

def isHeld (keys : Keypad) (key : Fin 16) : Bool := keys[key]

def lowestHeld? (keys : Keypad) : Option (Fin 16) :=
  (List.finRange 16).find? keys.isHeld

theorem isHeld_copy (keys : Keypad) (states : List Bool) (key : Fin 16) :
    (keys.copy states).isHeld key = states.getD key.val (keys.isHeld key) := by
  simp [copy, isHeld]

theorem isHeld_hold (keys : Keypad) (key other : Fin 16) (held : Bool) :
    (keys.hold key held).isHeld other = if other = key then held else keys.isHeld other := by
  simp only [hold, isHeld, Fin.getElem_fin, Vector.getElem_set, Fin.ext_iff, eq_comm]

theorem lowestHeld?_eq_none_iff (keys : Keypad) :
    keys.lowestHeld? = none ↔ ∀ key, keys.isHeld key = false := by
  simp [lowestHeld?]

end Keypad
end ChipEight
