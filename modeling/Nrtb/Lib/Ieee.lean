import Mathlib.Algebra.Order.Field.Basic
import Mathlib.Order.Monotone.Basic

/-!
# Floating-point values over an ordered field

The values of a floating-point type: numbers of a field, the two infinities and NaN, with the
comparisons of IEEE 754, which NaN always fails. The format comes in through its rounding only.

What a program does with values that nobody meant it to get is decided by its comparisons. A range
check that is written as a comparison accepts numbers only, and the same check written as the
negation of one lets NaN through. The field is arbitrary, so that the lemmas need no bits.

* `abs_le_fin_iff`, `fin_le_iff`: what a comparison with a number says.
* `Rounding.round_nonneg`, `Rounding.round_le_one`, `Rounding.neg_one_le_round`: rounding is
  monotone and keeps the numbers of the format, and so does not leave the unit interval.
-/

namespace Nrtb

/-- A floating-point value; both zeros are the number zero. -/
inductive Ieee (K : Type*) where
  | nan
  | inf (negative : Bool)
  | fin (x : K)
deriving DecidableEq, Repr

namespace Ieee

variable {K : Type*}

instance [Zero K] : Zero (Ieee K) := ⟨fin 0⟩

instance [One K] : One (Ieee K) := ⟨fin 1⟩

/-- `fabsf` -/
def abs [Lattice K] [AddGroup K] : Ieee K → Ieee K
  | nan => nan
  | inf _ => inf false
  | fin x => fin |x|

/-- `<=` -/
def Le [LE K] : Ieee K → Ieee K → Prop
  | nan, _ => False
  | _, nan => False
  | inf true, _ => True
  | _, inf false => True
  | fin x, fin y => x ≤ y
  | _, _ => False

instance [LE K] : LE (Ieee K) := ⟨Le⟩

instance [LE K] [DecidableLE K] : DecidableLE (Ieee K)
  | nan, _ => .isFalse id
  | inf _, nan => .isFalse id
  | fin _, nan => .isFalse id
  | inf true, inf _ => .isTrue trivial
  | inf true, fin _ => .isTrue trivial
  | inf false, inf false => .isTrue trivial
  | fin _, inf false => .isTrue trivial
  | fin x, fin y => inferInstanceAs (Decidable (x ≤ y))
  | inf false, inf true => .isFalse id
  | inf false, fin _ => .isFalse id
  | fin _, inf true => .isFalse id

/-- The number that a value is. -/
def number : (x : Ieee K) → (∃ a, x = fin a) → K
  | fin a, _ => a
  | nan, h => absurd h (by simp)
  | inf _, h => absurd h (by simp)

theorem eq_fin_number {x : Ieee K} (h : ∃ a, x = fin a) : x = fin (x.number h) := by
  obtain ⟨a, rfl⟩ := h
  rfl

/-- Only numbers have a bounded absolute value. -/
theorem abs_le_fin_iff [Lattice K] [AddGroup K] {x : Ieee K} {b : K} :
    x.abs ≤ fin b ↔ ∃ a, x = fin a ∧ |a| ≤ b := by
  cases x with
  | nan => exact iff_of_false id (by simp)
  | inf negative => exact iff_of_false id (by simp)
  | fin a =>
    show |a| ≤ b ↔ _
    simp

theorem fin_le_iff [LE K] {x : Ieee K} {a : K} :
    fin a ≤ x ↔ x = inf false ∨ ∃ b, x = fin b ∧ a ≤ b := by
  cases x with
  | nan => exact iff_of_false id (by simp)
  | inf negative =>
    cases negative with
    | false => exact iff_of_true trivial (Or.inl rfl)
    | true => exact iff_of_false id (by simp)
  | fin b =>
    show a ≤ b ↔ _
    simp

end Ieee

/-! ## Rounding -/

/-- Rounding to a format in which `-1`, `0` and `1` are numbers. -/
structure Rounding (K : Type*) [Field K] [LinearOrder K] where
  round : K → K
  monotone : Monotone round
  round_zero : round 0 = 0
  round_one : round 1 = 1
  round_neg_one : round (-1) = -1

namespace Rounding

variable {K : Type*} [Field K] [LinearOrder K]

/-- No rounding. -/
def exact : Rounding K where
  round := id
  monotone := monotone_id
  round_zero := rfl
  round_one := rfl
  round_neg_one := rfl

theorem round_nonneg (fmt : Rounding K) {x : K} (h : 0 ≤ x) : 0 ≤ fmt.round x := by
  rw [← fmt.round_zero]
  exact fmt.monotone h

theorem round_le_one (fmt : Rounding K) {x : K} (h : x ≤ 1) : fmt.round x ≤ 1 := by
  rw [← fmt.round_one]
  exact fmt.monotone h

theorem neg_one_le_round (fmt : Rounding K) {x : K} (h : -1 ≤ x) : -1 ≤ fmt.round x := by
  rw [← fmt.round_neg_one]
  exact fmt.monotone h

end Rounding

end Nrtb
