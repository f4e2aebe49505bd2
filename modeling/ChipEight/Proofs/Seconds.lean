import Mathlib.Algebra.Order.Field.Power
import Mathlib.Data.Rat.Cast.Order
import Mathlib.Tactic.Linarith
import Mathlib.Tactic.Positivity
import Mathlib.Tactic.Ring
import ChipEight.Instance

/-!
# Exact seconds

A time is a double, and a finite double stands for one rational number. Comparing two doubles is
comparing those numbers, so that an interval between two calls is judged exactly if it is itself
computed exactly.
-/
namespace ChipEight.Seconds

open Float.Model Float.Model.UnpackedFloat

def magnitude (significand : Nat) (exponent : Int) : ℚ := significand * (2 : ℚ) ^ exponent

def ofUnpacked? : UnpackedFloat → Option ℚ
  | .zero _ => some 0
  | .finite .positive significand exponent _ => some (magnitude significand exponent)
  | .finite .negative significand exponent _ => some (-magnitude significand exponent)
  | .infinity _ | .notANumber => none

/-- The number that a double stands for; infinities and NaN stand for none. -/
def of? (time : Float) : Option ℚ := ofUnpacked? time.toModel.unpack

/-- Significands have 53 bits, the leading one set unless the exponent is the least. -/
structure Normalized (significand : Nat) (exponent : Int) : Prop where
  short : significand < 0x20000000000000
  least : -1074 ≤ exponent
  full : exponent ≠ -1074 → 0x10000000000000 ≤ significand

theorem normalized_of_unpack {bits : BitVec Format.binary64.numBits} {sign : Sign}
    {significand : Nat} {exponent : Int} {positive : 0 < significand}
    (unpacked : UnpackedFloat.unpack .binary64 bits = .finite sign significand exponent positive) :
    Normalized significand exponent := by
  have fraction_lt : (unpackMantissa bits).toNat < 0x10000000000000 := (unpackMantissa bits).isLt
  have bias : (Format.binary64.exponentBias : Int) = 1023 := rfl
  unfold UnpackedFloat.unpack at unpacked
  dsimp only at unpacked
  by_cases special : unpackExponent bits = -1#11
  -- The greatest exponent is that of infinities and NaN.
  · rw [if_pos special] at unpacked
    by_cases infinite : unpackMantissa bits = 0#52
    · rw [if_pos infinite] at unpacked
      cases unpacked
    · rw [if_neg infinite] at unpacked
      cases unpacked
  rw [if_neg special] at unpacked
  by_cases least : unpackExponent bits = 0#11
  -- Subnormal numbers share the least exponent and have no leading bit.
  · rw [if_pos least] at unpacked
    by_cases zero : unpackMantissa bits = 0#52
    · rw [dif_pos zero] at unpacked
      cases unpacked
    · rw [dif_neg zero] at unpacked
      cases unpacked
      have exponent_zero : (unpackExponent bits).toNat = 0 := by
        rw [least]
        rfl
      constructor <;> omega
  · rw [if_neg least] at unpacked
    cases unpacked
    have exponent_pos : (unpackExponent bits).toNat ≠ 0 :=
      fun zero => least (BitVec.eq_of_toNat_eq zero)
    have leading : (1#1 ++ unpackMantissa bits).toNat =
        0x10000000000000 + (unpackMantissa bits).toNat := by
      rw [BitVec.toNat_append, ← Nat.shiftLeft_add_eq_or_of_lt fraction_lt]
      rfl
    constructor <;> omega

theorem magnitude_lt {left right : Nat} {low high : Int} (normalized : Normalized left low)
    (full : Normalized right high) (less : low < high) :
    magnitude left low < magnitude right high := by
  have short : (left : ℚ) < 0x20000000000000 := by exact_mod_cast normalized.short
  have leading : (0x10000000000000 : ℚ) ≤ right := by
    have not_least : high ≠ -1074 := by
      have least := normalized.least
      omega
    exact_mod_cast full.full not_least
  have unit : (0 : ℚ) < 2 ^ low := by positivity
  calc magnitude left low < 0x20000000000000 * 2 ^ low := by
        exact mul_lt_mul_of_pos_right short unit
    _ = 0x10000000000000 * 2 ^ (low + 1) := by
        rw [zpow_add_one₀ (by norm_num)]
        ring
    _ ≤ 0x10000000000000 * 2 ^ high := by
        gcongr
        · norm_num
        · omega
    _ ≤ magnitude right high := by
        unfold magnitude
        gcongr

theorem magnitude_le_iff {left right : Nat} (exponent : Int) :
    magnitude left exponent ≤ magnitude right exponent ↔ left ≤ right := by
  have unit : (0 : ℚ) < 2 ^ exponent := by positivity
  rw [magnitude, magnitude, mul_le_mul_iff_left₀ unit, Nat.cast_le]

/-- Exponents are compared first; they decide because significands are normalized. -/
theorem compare_isLE_iff {left right : Nat} {low high : Int} (left_normalized : Normalized left low)
    (right_normalized : Normalized right high) :
    ((compare low high).then (compare left right)).isLE = true ↔
      magnitude left low ≤ magnitude right high := by
  rcases Int.lt_trichotomy low high with less | rfl | greater
  · rw [Int.compare_eq_lt.mpr less]
    exact iff_of_true rfl (magnitude_lt left_normalized right_normalized less).le
  · rw [Int.compare_eq_eq.mpr rfl, magnitude_le_iff]
    exact Nat.isLE_compare
  · rw [Int.compare_eq_gt.mpr greater]
    refine iff_of_false (by simp) ?_
    exact not_le.mpr (magnitude_lt right_normalized left_normalized greater)

theorem compare_swap_isLE_iff {left right : Nat} {low high : Int}
    (left_normalized : Normalized left low) (right_normalized : Normalized right high) :
    ((compare low high).then (compare left right)).swap.isLE = true ↔
      magnitude right high ≤ magnitude left low := by
  rw [Ordering.swap_then, ← Std.OrientedCmp.eq_swap, ← Std.OrientedCmp.eq_swap]
  exact compare_isLE_iff right_normalized left_normalized

theorem magnitude_pos {significand : Nat} (positive : 0 < significand) (exponent : Int) :
    0 < magnitude significand exponent := by
  unfold magnitude
  positivity

/-- Signs are compared first, and a zero has none that counts. -/
theorem le_iff_of_unpacked {left right : UnpackedFloat} {x y : ℚ}
    (left_normalized : ∀ sign significand exponent positive,
      left = .finite sign significand exponent positive → Normalized significand exponent)
    (right_normalized : ∀ sign significand exponent positive,
      right = .finite sign significand exponent positive → Normalized significand exponent)
    (left_is : ofUnpacked? left = some x) (right_is : ofUnpacked? right = some y) :
    left.le right = true ↔ x ≤ y := by
  cases left with
  | infinity _ | notANumber => cases left_is
  | zero _ =>
    cases left_is
    cases right with
    | infinity _ | notANumber => cases right_is
    | zero _ =>
      cases right_is
      exact iff_of_true rfl le_rfl
    | finite sign significand exponent positive =>
      have above := magnitude_pos positive exponent
      cases sign <;> cases right_is
      · exact iff_of_false Bool.false_ne_true (by linarith)
      · exact iff_of_true rfl above.le
  | finite sign significand exponent positive =>
    have normalized := left_normalized _ _ _ _ rfl
    have above := magnitude_pos positive exponent
    cases right with
    | infinity _ | notANumber => cases right_is
    | zero _ =>
      cases right_is
      cases sign <;> cases left_is
      · exact iff_of_true rfl (by linarith)
      · exact iff_of_false Bool.false_ne_true (by linarith)
    | finite other significand' exponent' positive' =>
      have normalized' := right_normalized _ _ _ _ rfl
      have above' := magnitude_pos positive' exponent'
      -- Two negative numbers are compared the other way round.
      cases sign <;> cases other <;> cases left_is <;> cases right_is
      · rw [neg_le_neg_iff]
        exact compare_swap_isLE_iff normalized normalized'
      · exact iff_of_true rfl (by linarith)
      · exact iff_of_false Bool.false_ne_true (by linarith)
      · exact compare_isLE_iff normalized normalized'

/-- Comparing doubles is comparing the numbers that they stand for. -/
theorem le_iff {left right : Float} {x y : ℚ} (left_is : of? left = some x)
    (right_is : of? right = some y) : left ≤ right ↔ x ≤ y := by
  have unfolded : left ≤ right ↔ left.toModel.unpack.le right.toModel.unpack = true := by
    change decide (left.toModel ≤ right.toModel) = true ↔ _
    rw [decide_eq_true_iff]
    rfl
  rw [unfolded]
  exact le_iff_of_unpacked (fun _ _ _ _ => normalized_of_unpack)
    (fun _ _ _ _ => normalized_of_unpack) left_is right_is

/-- The number that a time stands for, and zero for infinities and NaN. -/
def value (time : Float) : ℚ := (of? time).getD 0

/-- Both times are numbers, and their difference is not rounded. -/
def ExactGap (earlier later : Float) : Prop :=
  of? earlier = some (value earlier) ∧ of? later = some (value later) ∧
    of? (later - earlier) = some (value later - value earlier)

instance : DecidableRel ExactGap := fun _ _ => inferInstanceAs (Decidable (_ ∧ _))

end ChipEight.Seconds
