/-!
# The call stack

Sixteen slots hold return addresses; `depth` counts those in use. A popped slot keeps its value, so
two stacks may show the same addresses and differ above their depth. The view `toList`, oldest
address first, is what calls and returns depend on.
-/
namespace ChipEight

structure CallStack where
  slots : Vector UInt16 16
  depth : Fin 17
  deriving DecidableEq

namespace CallStack

def empty : CallStack := ⟨Vector.replicate 16 0, 0⟩

/-- No result when all slots are in use. -/
def push? (stack : CallStack) (address : UInt16) : Option CallStack :=
  if free : stack.depth.val < 16 then
    some ⟨stack.slots.set stack.depth.val address, ⟨stack.depth.val + 1, by omega⟩⟩
  else none

/-- No result when no slot is in use. -/
def pop? (stack : CallStack) : Option (UInt16 × CallStack) :=
  if used : 0 < stack.depth.val then
    some (stack.slots[stack.depth.val - 1], ⟨stack.slots, ⟨stack.depth.val - 1, by omega⟩⟩)
  else none

def toList (stack : CallStack) : List UInt16 := stack.slots.toList.take stack.depth.val

@[simp] theorem toList_empty : empty.toList = [] := rfl

@[simp] theorem length_toList (stack : CallStack) : stack.toList.length = stack.depth.val := by
  simp only [toList, List.length_take, Vector.length_toList]
  omega

theorem toList_push {stack next : CallStack} {address : UInt16}
    (pushed : stack.push? address = some next) : next.toList = stack.toList ++ [address] := by
  unfold push? at pushed
  split at pushed
  next free =>
    cases pushed
    simp only [toList, Vector.toList_set, List.take_add_one, List.take_set_of_le (Nat.le_refl _)]
    simp [free]
  · simp at pushed

theorem toList_pop {stack next : CallStack} {address : UInt16}
    (popped : stack.pop? = some (address, next)) : stack.toList = next.toList ++ [address] := by
  unfold pop? at popped
  split at popped
  next used =>
    cases popped
    obtain ⟨depth, depth_eq⟩ : ∃ depth, stack.depth.val = depth + 1 :=
      ⟨stack.depth.val - 1, by omega⟩
    have inside : depth < 16 := by omega
    simp [toList, depth_eq, List.take_add_one, inside]
  · simp at popped

theorem push?_eq_none_iff (stack : CallStack) (address : UInt16) :
    stack.push? address = none ↔ stack.toList.length = 16 := by
  unfold push?
  split <;> simp <;> omega

theorem pop?_eq_none_iff (stack : CallStack) : stack.pop? = none ↔ stack.toList = [] := by
  rw [← List.length_eq_zero_iff]
  unfold pop?
  split <;> simp <;> omega

end CallStack
end ChipEight
