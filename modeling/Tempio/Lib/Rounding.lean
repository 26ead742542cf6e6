import Mathlib.Data.Int.Log
import Mathlib.Data.Rat.Floor
import Mathlib.Tactic.Linarith
import Mathlib.Tactic.Positivity

namespace Tempio.Lib.Rounding

/-- The nearest integer, and of two the even one. -/
def roundEven (q : ℚ) : ℤ :=
  if Int.fract q < 1 / 2 ∨ Int.fract q = 1 / 2 ∧ Even ⌊q⌋ then ⌊q⌋ else ⌊q⌋ + 1

/-- `q` to `p` binary digits, but to no finer unit than `2 ^ emin`. -/
def roundTo (p : ℕ) (emin : ℤ) (q : ℚ) : ℚ :=
  let unit : ℚ := 2 ^ max (Int.log 2 |q| + 1 - p) emin
  roundEven (q / unit) * unit

theorem abs_roundEven_sub_le (q : ℚ) : |(roundEven q : ℚ) - q| ≤ 1 / 2 := by
  have hsum := Int.floor_add_fract q
  have hnonneg := Int.fract_nonneg q
  have hlt := Int.fract_lt_one q
  unfold roundEven
  rw [abs_le]
  split_ifs with h
  · have hhalf : Int.fract q ≤ 1 / 2 := h.elim le_of_lt fun h => h.1.le
    constructor <;> linarith
  · rw [not_or, not_lt] at h
    push_cast
    constructor <;> linarith [h.1]

theorem roundEven_zero : roundEven 0 = 0 := by simp [roundEven]

theorem abs_roundEven_mul_sub_le {unit : ℚ} (h : 0 < unit) (q : ℚ) :
    |roundEven (q / unit) * unit - q| ≤ unit / 2 := by
  have hq : roundEven (q / unit) * unit - q = (roundEven (q / unit) - q / unit) * unit := by
    rw [sub_mul, div_mul_cancel₀ q h.ne']
  rw [hq, abs_mul, abs_of_pos h]
  calc |(roundEven (q / unit) : ℚ) - q / unit| * unit ≤ 1 / 2 * unit :=
        mul_le_mul_of_nonneg_right (abs_roundEven_sub_le _) h.le
    _ = unit / 2 := by ring

theorem abs_roundTo_sub_le (p : ℕ) (emin : ℤ) (q : ℚ) :
    |roundTo p emin q - q| ≤ |q| / 2 ^ p + 2 ^ emin / 2 := by
  have hmin : (0 : ℚ) < 2 ^ emin := zpow_pos two_pos emin
  rcases eq_or_ne q 0 with rfl | hq
  · rw [roundTo, zero_div, roundEven_zero]
    simpa using (half_pos hmin).le
  · have hlog : (2 : ℚ) ^ Int.log 2 |q| ≤ |q| := Int.zpow_log_le_self (by decide) (abs_pos.mpr hq)
    have hdigits : (2 : ℚ) ^ (Int.log 2 |q| + 1 - p) = 2 * (2 ^ Int.log 2 |q| / 2 ^ p) := by
      rw [zpow_sub₀ two_ne_zero, zpow_add_one₀ two_ne_zero, zpow_natCast]
      ring
    have hle : (2 : ℚ) ^ Int.log 2 |q| / 2 ^ p ≤ |q| / 2 ^ p :=
      div_le_div_of_nonneg_right hlog (by positivity)
    have hnonneg : (0 : ℚ) ≤ |q| / 2 ^ p := by positivity
    refine (abs_roundEven_mul_sub_le (zpow_pos two_pos _) q).trans ?_
    rcases max_choice (Int.log 2 |q| + 1 - p) emin with h | h
    · rw [h, hdigits]
      linarith
    · rw [h]
      linarith

/-- Numbers that are rounded to one are near each other. -/
theorem abs_sub_le_of_roundTo_eq {p : ℕ} {emin : ℤ} {x y : ℚ} (h : roundTo p emin x = roundTo p emin y) :
    |x - y| ≤ (|x| + |y|) / 2 ^ p + 2 ^ emin := by
  have hx := abs_roundTo_sub_le p emin x
  have hy := abs_roundTo_sub_le p emin y
  rw [abs_sub_comm] at hx
  calc |x - y| ≤ |x - roundTo p emin x| + |roundTo p emin x - y| := abs_sub_le _ _ _
    _ ≤ (|x| / 2 ^ p + 2 ^ emin / 2) + (|y| / 2 ^ p + 2 ^ emin / 2) := add_le_add hx (h ▸ hy)
    _ = (|x| + |y|) / 2 ^ p + 2 ^ emin := by ring

end Tempio.Lib.Rounding
