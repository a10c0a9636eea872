import Mathlib.Algebra.Order.Field.Rat
import Mathlib.Data.Rat.Floor
import Mathlib.Tactic.Linarith
import Mathlib.Tactic.Positivity

/-! # Rounding of exact numbers

A number in the middle between two is rounded to the even one. -/

namespace Python

def roundHalfEven (q : ℚ) : ℤ :=
  if q - ⌊q⌋ < 1 / 2 then ⌊q⌋
  else if 1 / 2 < q - ⌊q⌋ then ⌊q⌋ + 1
  else if ⌊q⌋ % 2 = 0 then ⌊q⌋ else ⌊q⌋ + 1

/-- `round` to a number of decimals. -/
def round (q : ℚ) (decimals : ℕ) : ℚ := roundHalfEven (q * 10 ^ decimals) / 10 ^ decimals

/-- The text of `.1f`. -/
def fixed1 (q : ℚ) : String :=
  let tenths := (roundHalfEven (q * 10)).natAbs
  (if q < 0 then "-" else "") ++ toString (tenths / 10) ++ "." ++ toString (tenths % 10)

section Rounding

variable {p q : ℚ}

theorem floor_le_roundHalfEven (q : ℚ) : ⌊q⌋ ≤ roundHalfEven q := by
  unfold roundHalfEven
  split_ifs <;> omega

theorem roundHalfEven_le (q : ℚ) : roundHalfEven q ≤ ⌊q⌋ + 1 := by
  unfold roundHalfEven
  split_ifs <;> omega

theorem roundHalfEven_mono (h : p ≤ q) : roundHalfEven p ≤ roundHalfEven q := by
  rcases (Int.floor_mono h).eq_or_lt with heq | hlt
  · -- in the same unit, what is above the middle stays above it
    unfold roundHalfEven
    rw [heq]
    split_ifs <;> first
      | omega
      | exact absurd h (by linarith)
  · have hp := roundHalfEven_le p
    have hq := floor_le_roundHalfEven q
    omega

theorem round_mono (h : p ≤ q) (decimals : ℕ) : round p decimals ≤ round q decimals := by
  have hpow : (0 : ℚ) ≤ 10 ^ decimals := by positivity
  have hscaled := roundHalfEven_mono (mul_le_mul_of_nonneg_right h hpow)
  exact div_le_div_of_nonneg_right (Int.cast_le.mpr hscaled) hpow

end Rounding

end Python
