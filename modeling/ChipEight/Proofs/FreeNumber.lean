import Mathlib.Logic.Function.Iterate
import ChipEight.Roster

/-!
# The least free number

In a list of numbers in order, each different from the next, a number equals its position up to the
first free one and nowhere behind it. Hence halving a window of positions finds the least free
number: the window always lies within the list and is used up at that number.
-/
namespace ChipEight.Roster

variable {ids : List Nat}

/-- One pass of the search for a free number, on a window of positions. -/
def narrow (ids : List Nat) (window : Nat × Nat) : Nat × Nat :=
  let middle := window.1 + (window.2 - window.1) / 2
  if window.1 < window.2 then
    if ids[middle]? = some middle then (middle + 1, window.2) else (window.1, middle)
  else window

/-- The search stays within the list, so that it never asks for a number that is not there, and
comes to an end at the number it has found. -/
structure SearchEnds (ids : List Nat) (found : Nat) : Prop where
  inside : ∀ passes, ((narrow ids)^[passes] (0, ids.length)).1 ≤
      ((narrow ids)^[passes] (0, ids.length)).2 ∧
    ((narrow ids)^[passes] (0, ids.length)).2 ≤ ids.length
  ends : ∃ passes ≤ ids.length, (narrow ids)^[passes] (0, ids.length) = (found, found)

theorem narrow_inside {window : Nat × Nat} {bound : Nat} (ordered : window.1 ≤ window.2)
    (inside : window.2 ≤ bound) :
    (narrow ids window).1 ≤ (narrow ids window).2 ∧ (narrow ids window).2 ≤ bound := by
  unfold narrow
  dsimp only
  split
  · split
    · dsimp only
      omega
    · dsimp only
      omega
  · exact ⟨ordered, inside⟩

/-- Every pass that has something left to look at makes the window smaller. -/
theorem narrow_ends (ids : List Nat) (low high : Nat) (ordered : low ≤ high) :
    ∃ passes ≤ high - low,
      (narrow ids)^[passes] (low, high) =
        (freeIdBetween ids low high, freeIdBetween ids low high) := by
  fun_induction freeIdBetween ids low high with
  | case1 low high open_window middle equal ih =>
    obtain ⟨passes, few, ended⟩ := ih (by omega)
    refine ⟨passes + 1, by omega, ?_⟩
    rw [Function.iterate_succ_apply, ← ended]
    simp only [narrow, open_window, if_true]
    rw [if_pos equal]
  | case2 low high open_window middle different ih =>
    obtain ⟨passes, few, ended⟩ := ih (by omega)
    refine ⟨passes + 1, by omega, ?_⟩
    rw [Function.iterate_succ_apply, ← ended]
    simp only [narrow, open_window, if_true]
    rw [if_neg different]
  | case3 low high closed =>
    have same : low = high := by omega
    subst same
    exact ⟨0, Nat.zero_le _, rfl⟩

theorem searchEnds (ids : List Nat) : SearchEnds ids (freeIdBetween ids 0 ids.length) where
  inside passes := by
    induction passes with
    | zero => exact ⟨Nat.zero_le _, Nat.le_refl _⟩
    | succ passes ih =>
      rw [Function.iterate_succ_apply']
      exact narrow_inside ih.1 ih.2
  ends := narrow_ends ids 0 ids.length (Nat.zero_le _)

theorem getElem_add_le (increasing : ids.Pairwise (· < ·)) (first count : Nat)
    (inside : first + count < ids.length) : ids[first] + count ≤ ids[first + count] := by
  induction count with
  | zero => exact Nat.le_refl _
  | succ count ih =>
    have next : ids[first + count] < ids[first + (count + 1)] :=
      List.pairwise_iff_getElem.mp increasing _ _ (by omega) inside (by omega)
    have before := ih (by omega)
    omega

/-- No number is smaller than its position, and if one equals it, so do those before. -/
theorem getElem?_eq_of_le (increasing : ids.Pairwise (· < ·)) {place position : Nat}
    (equal : ids[position]? = some position) (before : place ≤ position) :
    ids[place]? = some place := by
  obtain ⟨inside, equal⟩ := List.getElem?_eq_some_iff.mp equal
  obtain ⟨gap, rfl⟩ := Nat.exists_eq_add_of_le before
  have above := getElem_add_le increasing 0 place (by omega)
  have below := getElem_add_le increasing place gap inside
  simp only [Nat.zero_add] at above
  exact List.getElem?_eq_some_iff.mpr ⟨by omega, by omega⟩

theorem le_of_getElem? (increasing : ids.Pairwise (· < ·)) {place number : Nat}
    (found : ids[place]? = some number) : place ≤ number := by
  obtain ⟨inside, rfl⟩ := List.getElem?_eq_some_iff.mp found
  have above := getElem_add_le increasing 0 place (by omega)
  simp only [Nat.zero_add] at above
  omega

/-- Up to some position the numbers equal their positions, and the position itself is free. -/
structure FirstGap (ids : List Nat) (gap : Nat) : Prop where
  inside : gap ≤ ids.length
  filled : ∀ place < gap, ids[place]? = some place
  free : ids[gap]? ≠ some gap

theorem freeIdBetween_firstGap (increasing : ids.Pairwise (· < ·)) (low high : Nat)
    (ordered : low ≤ high) (inside : high ≤ ids.length)
    (filled : ∀ place < low, ids[place]? = some place) (free : ids[high]? ≠ some high) :
    FirstGap ids (freeIdBetween ids low high) := by
  fun_induction freeIdBetween ids low high with
  | case1 low high open_window middle equal ih =>
    apply ih (by omega) inside _ free
    intro place before
    exact getElem?_eq_of_le increasing equal (by omega)
  | case2 low high open_window middle different ih =>
    exact ih (by omega) (by omega) filled different
  | case3 low high closed =>
    have same : low = high := by omega
    subst same
    exact ⟨inside, filled, free⟩

theorem FirstGap.notMem {gap : Nat} (first : FirstGap ids gap)
    (increasing : ids.Pairwise (· < ·)) : gap ∉ ids := by
  intro member
  obtain ⟨place, found⟩ := List.mem_iff_getElem?.mp member
  rcases Nat.lt_or_eq_of_le (le_of_getElem? increasing found) with before | same
  · -- An earlier place holds its own position, which is another number.
    rw [first.filled place before] at found
    have same := Option.some.inj found
    omega
  · subst same
    exact first.free found

theorem FirstGap.mem {gap smaller : Nat} (first : FirstGap ids gap) (less : smaller < gap) :
    smaller ∈ ids :=
  List.mem_of_getElem? (first.filled smaller less)

end ChipEight.Roster
