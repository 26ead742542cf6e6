import Tempio.Lib.JsonNumber
import Tempio.Lib.Rounding

namespace Tempio.Server

open Tempio.Lib Tempio.Lib.Json Tempio.Lib.Rounding

/-- A float of Python; zero has a sign. -/
inductive PyFloat
  | nan
  | inf (neg : Bool)
  | num (neg : Bool) (q : ℚ)
deriving DecidableEq

namespace PyFloat

/-- The float nearest to a number, given by its sign and size. -/
def nearest (neg : Bool) (q : ℚ) : PyFloat :=
  if roundTo 53 (-1074) q < 2 ^ 1024 then .num neg (roundTo 53 (-1074) q) else .inf neg

def ofInt (n : Int) : PyFloat := nearest (n < 0) n.natAbs

/-- What `json.loads` makes of a number that is not an integer. -/
def ofText (text : List Char) : PyFloat :=
  if text = "NaN".toList then .nan
  else if text = "Infinity".toList then .inf false
  else if text = "-Infinity".toList then .inf true
  else nearest (minusText text ≠ []) (magnitude text)

def isZero : PyFloat → Bool
  | .num _ q => q = 0
  | _ => false

variable {neg : Bool} {x y : ℚ}

theorem unit_le : (2 : ℚ) ^ (-1074 : ℤ) ≤ 1 / 1000 :=
  calc (2 : ℚ) ^ (-1074 : ℤ) ≤ 2 ^ (-10 : ℤ) := zpow_le_zpow_right₀ one_le_two (by decide)
    _ ≤ 1 / 1000 := by norm_num

theorem roundTo_lt (h : |x| ≤ 10 ^ 7) : roundTo 53 (-1074) x < 2 ^ 1024 := by
  have hround := abs_roundTo_sub_le 53 (-1074) x
  have hunit := unit_le
  have hdigits : |x| / 2 ^ 53 ≤ |x| := div_le_self (abs_nonneg x) (by norm_num)
  have hx := le_abs_self x
  calc roundTo 53 (-1074) x ≤ x + (|x| / 2 ^ 53 + 2 ^ (-1074 : ℤ) / 2) := by
        linarith [(abs_le.mp hround).2]
    _ ≤ 10 ^ 7 + (10 ^ 7 + 1) := by linarith
    _ < 2 ^ 30 := by norm_num
    _ ≤ 2 ^ 1024 := pow_le_pow_right₀ one_le_two (by decide)

/-- Floats tell numbers of at most seven digits from all that are a tenth away. -/
theorem nearest_ne (hx : 0 ≤ x) (hle : x ≤ 10 ^ 7) (h : x + 1 / 10 ≤ y) :
    nearest neg x ≠ nearest neg y := by
  intro heq
  have hy : 0 ≤ y := by linarith
  have hfinite := roundTo_lt (x := x) (by rwa [abs_of_nonneg hx])
  have hround : roundTo 53 (-1074) x = roundTo 53 (-1074) y := by
    unfold nearest at heq
    rw [if_pos hfinite] at heq
    split_ifs at heq
    exact (PyFloat.num.inj heq).2
  have hnear := abs_sub_le_of_roundTo_eq hround
  have hunit := unit_le
  rw [abs_sub_comm, abs_of_nonneg (by linarith : 0 ≤ y - x), abs_of_nonneg hx, abs_of_nonneg hy] at hnear
  have hdiv : (x + y) / 2 ^ 53 ≤ (x + y) / 10 ^ 10 :=
    div_le_div_of_nonneg_left (by linarith) (by norm_num) (by norm_num)
  linarith

theorem ofText_tenthsText {n : Nat} (t : Fin 10) :
    ofText (tenthsText neg n t) = nearest neg (n + (t.val : ℚ) / 10) := by
  have hne {text : List Char} {c : Char} (hc : text.getLast? = some c) (hd : c.isDigit = false) :
      tenthsText neg n t ≠ text := by
    rintro rfl
    have hlast : (tenthsText neg n t).getLast? = some t.val.digitChar := by simp [tenthsText]
    rw [hlast] at hc
    cases hc
    rw [isDigit_digitChar] at hd
    cases hd
  have hneg : decide (minusText (tenthsText neg n t) ≠ []) = neg := by
    rw [minusText_tenthsText]
    cases neg <;> decide
  rw [ofText, if_neg (hne (c := 'N') (by decide) rfl), if_neg (hne (c := 'y') (by decide) rfl),
    if_neg (hne (c := 'y') (by decide) rfl), hneg, magnitude_tenthsText]

end PyFloat

end Tempio.Server
