import Mathlib.Data.Int.Log
import Mathlib.Algebra.Order.Floor.Ring
import Mathlib.Data.Rat.Floor
import Mathlib.Tactic

/-!
# Rounding to doubles

The binary64 number nearest to a rational, ties to even, with its error bound. The
exponent is not bounded above: a result of `2 ^ 1024` or more overflows.
-/

namespace Flexi.Library

/-- The nearest integer, ties to even. -/
def roundHalfEven (x : ℚ) : ℤ :=
  if Int.fract x < 1 / 2 then ⌊x⌋
  else if 1 / 2 < Int.fract x then ⌊x⌋ + 1
  else if ⌊x⌋ % 2 = 0 then ⌊x⌋ else ⌊x⌋ + 1

/-- The nearest integer, ties away from zero. -/
def roundHalfAway (x : ℚ) : ℤ := if 0 ≤ x then ⌊x + 1 / 2⌋ else -⌊-x + 1 / 2⌋

theorem abs_roundHalfEven_sub (x : ℚ) : |(roundHalfEven x : ℚ) - x| ≤ 1 / 2 := by
  have hx : (⌊x⌋ : ℚ) + Int.fract x = x := Int.floor_add_fract x
  have hlow := Int.fract_nonneg x
  have hhigh := Int.fract_lt_one x
  rw [abs_le]
  unfold roundHalfEven
  split_ifs <;> push_cast <;> constructor <;> linarith

theorem roundHalfAway_eq {x : ℚ} {c : ℤ} (h : |x - c| < 1 / 2) : roundHalfAway x = c := by
  obtain ⟨hlow, hhigh⟩ := abs_lt.mp h
  unfold roundHalfAway
  split
  · rw [Int.floor_eq_iff]
    constructor <;> linarith
  · have hneg : ⌊-x + 1 / 2⌋ = -c := by
      rw [Int.floor_eq_iff]
      push_cast
      constructor <;> linarith
    omega

/-! ### Binary64 -/

/-- The exponent of the last place of a double near `x`. -/
def ulpExponent (x : ℚ) : ℤ := max (Int.log 2 |x| - 52) (-1074)

/-- The double nearest to `x`. -/
def binary64 (x : ℚ) : ℚ := roundHalfEven (x / 2 ^ ulpExponent x) * 2 ^ ulpExponent x

theorem two_zpow_ulpExponent_le (x : ℚ) : (2 : ℚ) ^ ulpExponent x ≤ (|x| + 1) / 2 ^ 52 := by
  have hnonneg := abs_nonneg x
  have hsub : ∀ {e : ℤ}, (2 : ℚ) ^ e ≤ |x| + 1 → (2 : ℚ) ^ (e - 52) ≤ (|x| + 1) / 2 ^ 52 := by
    intro e he
    rw [zpow_sub₀ (by norm_num)]
    exact div_le_div_of_nonneg_right he (by positivity)
  rcases le_total (Int.log 2 |x| - 52) (-1074) with h | h
  · -- below the normal range the last place is the smallest double
    have hzero : (2 : ℚ) ^ (0 : ℤ) ≤ |x| + 1 := by
      rw [zpow_zero]
      linarith
    have hmono : (2 : ℚ) ^ (-1074 : ℤ) ≤ 2 ^ (0 - 52 : ℤ) :=
      zpow_le_zpow_right₀ (by norm_num) (by norm_num)
    rw [ulpExponent, max_eq_right h]
    exact hmono.trans (hsub hzero)
  · rw [ulpExponent, max_eq_left h]
    apply hsub
    rcases hnonneg.eq_or_lt with hx | hx
    · rw [← hx, Int.log_zero_right, zpow_zero]
      linarith
    · have hlog : (2 : ℚ) ^ Int.log 2 |x| ≤ |x| := by
        exact_mod_cast Int.zpow_log_le_self (b := 2) (by norm_num) hx
      linarith

/-- Half a unit in the last place. -/
theorem abs_binary64_sub (x : ℚ) : |binary64 x - x| ≤ (|x| + 1) / 2 ^ 53 := by
  have hpos : (0 : ℚ) < 2 ^ ulpExponent x := by positivity
  have hround := abs_roundHalfEven_sub (x / 2 ^ ulpExponent x)
  have heq : binary64 x - x =
      ((roundHalfEven (x / 2 ^ ulpExponent x) : ℚ) - x / 2 ^ ulpExponent x) * 2 ^ ulpExponent x := by
    rw [binary64, sub_mul, div_mul_cancel₀ x hpos.ne']
  calc |binary64 x - x|
      = |(roundHalfEven (x / 2 ^ ulpExponent x) : ℚ) - x / 2 ^ ulpExponent x| *
          2 ^ ulpExponent x := by rw [heq, abs_mul, abs_of_pos hpos]
    _ ≤ 1 / 2 * 2 ^ ulpExponent x := mul_le_mul_of_nonneg_right hround hpos.le
    _ ≤ 1 / 2 * ((|x| + 1) / 2 ^ 52) :=
        mul_le_mul_of_nonneg_left (two_zpow_ulpExponent_le x) (by norm_num)
    _ = (|x| + 1) / 2 ^ 53 := by ring

theorem abs_sub_le_of_binary64_eq {x y : ℚ} (h : binary64 x = binary64 y) (hy : |y| ≤ 2 ^ 20) :
    |x - y| ≤ 1 / 2 ^ 30 := by
  have hx := abs_binary64_sub x
  have hy' := abs_binary64_sub y
  rw [h] at hx
  have hxy : |x - y| ≤ |binary64 y - y| + |binary64 y - x| := by
    have heq : x - y = binary64 y - y - (binary64 y - x) := by ring
    rw [heq]
    exact abs_sub _ _
  have hxabs : |x| ≤ |y| + |x - y| := by
    have htri := abs_add_le y (x - y)
    rwa [add_sub_cancel] at htri
  norm_num at hx hy' hy ⊢
  linarith

end Flexi.Library
