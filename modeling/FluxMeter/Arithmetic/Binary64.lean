import Mathlib.Data.Int.Log
import Mathlib.Data.Rat.Floor
import Mathlib.Algebra.Order.Field.Basic
import Mathlib.Tactic.Linarith

/-! Arithmetic on doubles over the rationals: the exact result, rounded to 53 bits. Overflow is left
out. -/
namespace Binary64

/-- The nearest integer, and of two the even one. -/
def nearestEven (x : ℚ) : ℤ :=
  if x - ⌊x⌋ = 1 / 2 then ⌊x⌋ + ⌊x⌋ % 2 else ⌊x + 1 / 2⌋

theorem nearestEven_nonneg {x : ℚ} (hx : 0 ≤ x) : 0 ≤ nearestEven x := by
  have hfloor : 0 ≤ ⌊x⌋ := Int.floor_nonneg.mpr hx
  have hhalf : 0 ≤ ⌊x + 1 / 2⌋ := Int.floor_nonneg.mpr (by linarith)
  unfold nearestEven
  split_ifs <;> omega

/-- The distance between doubles around `x`, which below the normal range does not shrink further. -/
def ulp (x : ℚ) : ℚ := 2 ^ max (Int.log 2 |x| - 52) (-1074)

/-- The double nearest to `x`. -/
def round (x : ℚ) : ℚ := nearestEven (x / ulp x) * ulp x

def mul (x y : ℚ) : ℚ := round (x * y)

def sub (x y : ℚ) : ℚ := round (x - y)

def div (x y : ℚ) : ℚ := round (x / y)

private theorem ulp_pos (x : ℚ) : 0 < ulp x := zpow_pos (by norm_num) _

theorem round_nonneg {x : ℚ} (hx : 0 ≤ x) : 0 ≤ round x := by
  have hulp := (ulp_pos x).le
  have hscaled : (0 : ℚ) ≤ nearestEven (x / ulp x) :=
    Int.cast_nonneg (nearestEven_nonneg (div_nonneg hx hulp))
  exact mul_nonneg hscaled hulp

theorem mul_nonneg {x y : ℚ} (hx : 0 ≤ x) (hy : 0 ≤ y) : 0 ≤ mul x y :=
  round_nonneg (Rat.mul_nonneg hx hy)

example : sub 1 (div 90 100) = 900719925474099 / 2 ^ 53 := by decide +kernel

end Binary64
