import Mathlib.Algebra.Order.Field.Basic
import Mathlib.Tactic.Linarith
import Mathlib.Tactic.Ring

/-! # Ratios along a segment

Between two points with positive second coordinates, the ratio of the coordinates moves
monotonically from the ratio at one end to the ratio at the other.
-/

namespace Dexa.Lib

variable {K : Type*} [Field K] [LinearOrder K] [IsStrictOrderedRing K] {a b c d f g : K}

/-- The point at `f` on the way from `b` to `d`. -/
theorem segment_pos (left : 0 < b) (right : 0 < d) (low : 0 ≤ f) (high : f ≤ 1) :
    0 < b + f * (d - b) := by
  have split : b + f * (d - b) = (1 - f) * b + f * d := by ring
  rw [split]
  cases low.lt_or_eq with
  | inl inside =>
    have end_ : 0 < f * d := mul_pos inside right
    have start : 0 ≤ (1 - f) * b := mul_nonneg (by linarith) left.le
    linarith
  | inr zero =>
    rw [← zero]
    linarith

theorem segment_ratio_mono (left : 0 < b) (right : 0 < d) (rises : a / b ≤ c / d) (low : 0 ≤ f)
    (le : f ≤ g) (high : g ≤ 1) :
    (a + f * (c - a)) / (b + f * (d - b)) ≤ (a + g * (c - a)) / (b + g * (d - b)) := by
  have cross : a * d ≤ c * b := (div_le_div_iff₀ left right).1 rises
  have here := segment_pos left right low (le.trans high)
  have there := segment_pos left right (low.trans le) high
  rw [div_le_div_iff₀ here there]
  have gap : (a + g * (c - a)) * (b + f * (d - b)) - (a + f * (c - a)) * (b + g * (d - b)) =
    (g - f) * (c * b - a * d) := by
    ring
  have nonneg : 0 ≤ (g - f) * (c * b - a * d) := mul_nonneg (by linarith) (by linarith)
  linarith

end Dexa.Lib
