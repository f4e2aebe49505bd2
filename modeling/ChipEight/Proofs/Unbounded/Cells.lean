import ChipEight.Failure

/-!
# Checked lists

Lists of any length, addressed by integers of any size. A number that names no entry is an error of
its own. A vector shown as a list never gives that error for a number below its length.
-/
namespace ChipEight.Unbounded

inductive Fault where
  | stack (kind : StackFault.Kind) (address : Int)
  /-- A number that names no entry of the list it was used on. -/
  | outOfRange
  deriving DecidableEq, Repr

variable {α β : Type}

def entry (cells : List α) (index : Int) : Except Fault α :=
  if 0 ≤ index then
    match cells[index.toNat]? with
    | some cell => .ok cell
    | none => .error .outOfRange
  else .error .outOfRange

def replace (cells : List α) (index : Int) (cell : α) : Except Fault (List α) :=
  if 0 ≤ index ∧ index < cells.length then .ok (cells.set index.toNat cell)
  else .error .outOfRange

/-- Give the entries below `count` new values, in order. -/
def assign (value : Nat → Except Fault α) : Nat → List α → Except Fault (List α)
  | 0, cells => .ok cells
  | count + 1, cells => do
    let cells ← assign value count cells
    let cell ← value count
    replace cells count cell

theorem ok_bind (value : α) (rest : α → Except Fault β) : (Except.ok value >>= rest) = rest value :=
  rfl

theorem entry_natCast (cells : List α) (index : Nat) (inside : index < cells.length) :
    entry cells index = .ok cells[index] := by
  simp [entry, inside]

theorem replace_natCast (cells : List α) (index : Nat) (inside : index < cells.length) (cell : α) :
    replace cells index cell = .ok (cells.set index cell) := by
  simp [replace, inside]

theorem entry_shown {size : Nat} (cells : Vector α size) (shown : α → β) (index : Nat)
    (inside : index < size) :
    entry (cells.toList.map shown) index = .ok (shown cells[index]) := by
  rw [entry_natCast _ index (by simpa using inside)]
  simp

theorem replace_shown {size : Nat} (cells : Vector α size) (shown : α → β) (index : Nat)
    (inside : index < size) (cell : α) :
    replace (cells.toList.map shown) index (shown cell) =
      .ok ((cells.set index cell inside).toList.map shown) := by
  rw [replace_natCast _ index (by simpa using inside), Vector.toList_set, List.map_set]

theorem assign_eq {value : Nat → Except Fault α} (given : Nat → α) (cells : List α) (count : Nat)
    (found : ∀ index < count, value index = .ok (given index)) (bound : count ≤ cells.length) :
    assign value count cells = .ok ((List.range count).map given ++ cells.drop count) := by
  induction count with
  | zero => rfl
  | succ count ih =>
    -- The entries below `count` are done, and the next one is the first of the rest.
    have before := ih (fun index below => found index (by omega)) (by omega)
    have inside : count < ((List.range count).map given ++ cells.drop count).length := by
      simp only [List.length_append, List.length_map, List.length_range, List.length_drop]
      omega
    rw [assign, before, ok_bind, found count (by omega), ok_bind, replace_natCast _ count inside,
      List.set_append_right _ _ (by simp), List.drop_eq_getElem_cons bound, List.range_succ]
    simp only [List.length_map, List.length_range, Nat.sub_self, List.set_cons_zero,
      List.map_append, List.map_cons, List.map_nil, List.append_assoc, List.cons_append,
      List.nil_append]

/-- Every entry can be given one value. -/
theorem assign_all (cell : α) (cells : List α) {count : Nat} (full : cells.length = count) :
    assign (fun _ => .ok cell) count cells = .ok (List.replicate count cell) := by
  rw [assign_eq (fun _ => cell) cells count (fun _ _ => rfl) (Nat.le_of_eq full.symm),
    List.drop_of_length_le (Nat.le_of_eq full), List.append_nil, List.map_const', List.length_range]

end ChipEight.Unbounded
