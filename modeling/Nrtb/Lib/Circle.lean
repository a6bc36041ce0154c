import Nrtb.Lib.Numerals
import Mathlib.Algebra.Order.Field.Basic
import Mathlib.Algebra.Order.Group.Abs
import Mathlib.Tactic.LinearCombination
import Mathlib.Tactic.Linarith
import Mathlib.Tactic.Ring

/-!
# Angles as numbers

Angles that are equal up to whole turns are compared as numbers, which are brought into range by the
remainder of a truncated division: it has the sign of what is divided. So an angle has two numbers,
one of either sign, and the difference of two angles may be anywhere within two turns, where a
comparison with a fixed range sees a part of the circle only.

* `remainder_mem_iff`: when such a remainder is not negative.
* `not_mem_of_ahead`, `behind_iff`: where the difference of two such remainders lies when the one
  angle is ahead of the other or behind it. The number of whole turns between them is bounded first,
  and each of the few that are left gives an interval.
-/

namespace Nrtb.Circle

open scoped Numerals

variable {K : Type*} [Field K] [LinearOrder K]

/-- `r` is what is left of `a` after whole turns, with the sign of `a`. -/
structure Remainder (turn a r : K) : Prop where
  whole : ∃ n : ℤ, a = r + n * turn
  bound : |r| < turn
  nonneg : 0 ≤ a → 0 ≤ r
  nonpos : a ≤ 0 → r ≤ 0

variable [IsStrictOrderedRing K] {turn a b r : K}

theorem Remainder.turn_pos (h : Remainder turn a r) : 0 < turn := (abs_nonneg r).trans_lt h.bound

/-- No whole turn is shorter than one. -/
theorem eq_zero_of_abs_lt {n : ℤ} (hturn : 0 < turn) (h : |n * turn| < turn) : n = 0 := by
  rw [abs_mul, abs_of_pos hturn] at h
  have hone : (|n| : K) < 1 := by
    by_contra hle
    have := mul_le_mul_of_nonneg_right (not_lt.mp hle) hturn.le
    rw [one_mul] at this
    exact absurd h this.not_gt
  have habs : |n| < 1 := by exact_mod_cast hone
  exact Int.abs_lt_one_iff.mp habs

/-- What is divided is not negative, or nothing is left of it. -/
theorem remainder_mem_iff (h : Remainder turn a r) :
    0 ≤ r ∧ r < turn ↔ 0 ≤ a ∨ ∃ n : ℤ, a = n * turn := by
  obtain ⟨n, hn⟩ := h.whole
  have hlt : r < turn := (abs_lt.mp h.bound).2
  rw [and_iff_left hlt]
  constructor
  · intro hr
    rcases le_total 0 a with ha | ha
    · exact Or.inl ha
    · right
      have hzero : r = 0 := le_antisymm (h.nonpos ha) hr
      exact ⟨n, by rw [hn, hzero, zero_add]⟩
  · rintro (ha | ⟨m, hm⟩)
    · exact h.nonneg ha
    · have hr : r = (m - n : ℤ) * turn := by
        push_cast
        linear_combination hm - hn
      have hzero : m - n = 0 := by
        refine eq_zero_of_abs_lt h.turn_pos ?_
        rw [← hr]
        exact h.bound
      rw [hr, hzero, Int.cast_zero, zero_mul]

/-! ## Ahead and behind -/

/-- From `a` to `b` it is less than half a turn upwards. -/
def Ahead (half a b : K) : Prop :=
  ∃ n : ℤ, 0 < b - a + n * (2 * half) ∧ b - a + n * (2 * half) < half

/-- From `a` to `b` it is less than half a turn downwards. -/
def Behind (half a b : K) : Prop :=
  ∃ n : ℤ, -half < b - a + n * (2 * half) ∧ b - a + n * (2 * half) < 0

variable {half : K}

/-- Nothing ahead is less than half a turn below. -/
theorem not_mem_of_ahead (h : Ahead half a b) : ¬ (0 ≤ a - b ∧ a - b ≤ half) := by
  rintro ⟨hlow, hhigh⟩
  obtain ⟨n, hpos, hlt⟩ := h
  have hhalf : 0 < half := by linarith
  have hn : 0 < n := by
    by_contra hle
    have hle' : (n : K) ≤ 0 := by exact_mod_cast not_lt.mp hle
    have := mul_nonpos_of_nonpos_of_nonneg hle' hhalf.le
    linarith
  have hone : (1 : K) ≤ n := by exact_mod_cast (show (1 : ℤ) ≤ n by omega)
  have := mul_le_mul_of_nonneg_right hone hhalf.le
  linarith

/-- Two turns apart there are four places for what is behind. -/
theorem behind_iff (hhalf : 0 < half) (h : |a - b| < 4 * half) :
    Behind half a b ↔ a - b < -(3 * half) ∨ (-(2 * half) < a - b ∧ a - b < -half)
      ∨ (0 < a - b ∧ a - b < half) ∨ (2 * half < a - b ∧ a - b < 3 * half) := by
  obtain ⟨hlow, hhigh⟩ := abs_lt.mp h
  constructor
  · rintro ⟨n, hgt, hneg⟩
    have hn : n < 2 := by
      by_contra hle
      have htwo : (2 : K) ≤ n := by exact_mod_cast not_lt.mp hle
      have := mul_le_mul_of_nonneg_right htwo hhalf.le
      linarith
    have hn' : -3 < n := by
      by_contra hle
      have hthree : (n : K) ≤ -3 := by exact_mod_cast not_lt.mp hle
      have := mul_le_mul_of_nonneg_right hthree hhalf.le
      linarith
    obtain rfl | rfl | rfl | rfl : n = -2 ∨ n = -1 ∨ n = 0 ∨ n = 1 := by omega
    · left
      push_cast at hgt hneg
      linarith
    · right; left
      push_cast at hgt hneg
      exact ⟨by linarith, by linarith⟩
    · right; right; left
      push_cast at hgt hneg
      exact ⟨by linarith, by linarith⟩
    · right; right; right
      push_cast at hgt hneg
      exact ⟨by linarith, by linarith⟩
  · rintro (h | h | h | h)
    · exact ⟨-2, by push_cast; linarith, by push_cast; linarith⟩
    · exact ⟨-1, by push_cast; linarith, by push_cast; linarith⟩
    · exact ⟨0, by push_cast; linarith, by push_cast; linarith⟩
    · exact ⟨1, by push_cast; linarith, by push_cast; linarith⟩

end Nrtb.Circle
