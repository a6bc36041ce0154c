import Nrtb.Lib.Numerals
import Mathlib.Algebra.Order.Field.Basic
import Mathlib.Tactic.Linarith
import Mathlib.Tactic.Positivity
import Mathlib.Tactic.Ring

/-!
# Convex quadratics on the unit interval

The squared distance of two uniformly moving points is a quadratic in time,
`quad c b a t = c + 2 b t + a t²` with `0 ≤ a`. This module collects where such a quadratic is
smallest on `[0, 1]` when its slope keeps one sign there: a rising start (`0 ≤ b`) puts the minimum
at `0` (`quad_ge_start`), a falling end (`b + a ≤ 0`) puts it at `1` (`quad_ge_end`). Everything is
stated without division, so that the lemmas also hold when the two points do not move against each
other and `a` is zero.
-/

namespace Nrtb.Quadratic

open scoped Numerals

section Value

variable {K : Type*} [Field K]

/-- The quadratic with value `c` and half-slope `b` at `0` and leading coefficient `a`. -/
def quad (c b a t : K) : K := c + 2 * b * t + a * t ^ 2

@[simp] theorem quad_zero (c b a : K) : quad c b a 0 = c := by
  simp [quad]

@[simp] theorem quad_one (c b a : K) : quad c b a 1 = c + 2 * b + a := by
  simp [quad]

end Value

section Minimum

variable {K : Type*} [Field K] [LinearOrder K] [IsStrictOrderedRing K]

/-- With a rising start the quadratic never drops below its starting value. -/
theorem quad_ge_start {c b a t : K} (ha : 0 ≤ a) (hb : 0 ≤ b) (ht : 0 ≤ t) :
    c ≤ quad c b a t := by
  have hlin : 0 ≤ 2 * b * t := by positivity
  have hsq : 0 ≤ a * t ^ 2 := by positivity
  unfold quad
  linarith

/-- With a falling end the quadratic stays above its final value on the way there. -/
theorem quad_ge_end {c b a t : K} (ha : 0 ≤ a) (hend : b + a ≤ 0) (ht1 : t ≤ 1) :
    quad c b a 1 ≤ quad c b a t := by
  -- the difference factors through the remaining time `1 - t`
  have hdiff : quad c b a t - quad c b a 1 = (1 - t) * (-2 * (b + a) + a * (1 - t)) := by
    unfold quad; ring
  have hrem : 0 ≤ 1 - t := by linarith
  have hfac : 0 ≤ -2 * (b + a) + a * (1 - t) := by
    have := mul_nonneg ha hrem
    linarith
  have := mul_nonneg hrem hfac
  linarith

end Minimum

end Nrtb.Quadratic
