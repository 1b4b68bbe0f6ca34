import Mathlib.Data.Nat.Basic

/-!
# Division to the nearest quotient

`(x + d / 2) / d` is the quotient rounded to the nearest one. For an odd divisor there are no
ties, so the rounded quotient is the only one that is off by less than half
(`roundDiv_eq_iff`).
-/

set_option autoImplicit false

namespace SleepBlocker.Computation

/-- Integer division that rounds to nearest, by adding half the divisor first. -/
def roundDiv (x d : ℕ) : ℕ := (x + d / 2) / d

/-- The quotient `q` is off by less than half. -/
def NearestQuotient (x d q : ℕ) : Prop := 2 * x < 2 * (d * q) + d ∧ 2 * (d * q) < 2 * x + d

variable {x y d q : ℕ}

/-- For an odd divisor the result is the nearest quotient and no other number is. -/
theorem roundDiv_eq_iff (hd : d % 2 = 1) : roundDiv x d = q ↔ NearestQuotient x d q := by
  have hpos : 0 < d := by omega
  rw [roundDiv, NearestQuotient, Nat.div_eq_iff hpos, Nat.mul_comm q d]
  omega

/-- Rounding keeps the order. -/
theorem roundDiv_le_roundDiv (h : x ≤ y) : roundDiv x d ≤ roundDiv y d :=
  Nat.div_le_div_right (Nat.add_le_add_right h _)

/-- What is a multiple is divided exactly. -/
theorem roundDiv_mul (hd : d % 2 = 1) (q : ℕ) : roundDiv (d * q) d = q := by
  rw [roundDiv_eq_iff hd, NearestQuotient]
  omega

/-- Rounding does not exceed a whole number of divisors. -/
theorem roundDiv_le (hd : d % 2 = 1) (h : x ≤ d * q) : roundDiv x d ≤ q :=
  calc roundDiv x d ≤ roundDiv (d * q) d := roundDiv_le_roundDiv h
    _ = q := roundDiv_mul hd q

end SleepBlocker.Computation
