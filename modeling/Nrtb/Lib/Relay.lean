import Mathlib.Algebra.Order.Field.Basic
import Mathlib.Tactic.LinearCombination
import Mathlib.Tactic.Linarith
import Mathlib.Tactic.Ring

/-!
# A relay with damping

A point on a line is pushed towards zero by a thrust of constant size, whose sign flips where the
point changes sides; its speed is damped in every step. The thrust never rests, so that the point
does not settle but swings around zero, and the question is how far.

`(1 - r) * x + r * y` moves by the thrust in every step, whatever the damping. It stays on three
levels as long as each side is left in one step: up or down from the middle one, and back. On each
level the speed is bounded from both sides, which is what makes the point change sides in time.

* `Phase`: the three levels, with the speeds that occur on each.
* `Phase.step`: a step leads from the middle level to one of the others, and back.
* `Phase.distance_le`: how far the point is from zero.
-/

namespace Nrtb.Relay

variable {K : Type*} [Field K] [LinearOrder K]

/-- The thrust is away from the side that the point is on. -/
def thrust (c x : K) : K := if x < 0 then c else -c

/-- The speed is damped and pushed, then the point moves. -/
def step (r c : K) (p : K × K) : K × K :=
  (p.1 + (r * p.2 + thrust c p.1), r * p.2 + thrust c p.1)

/-- A point that started at rest from `x₀`. -/
inductive Phase (r c x₀ : K) (p : K × K) : Prop
  | home (level : (1 - r) * p.1 + r * p.2 = (1 - r) * x₀)
    (low : r * ((1 - r) * x₀) - (1 - r) * c ≤ p.2)
    (high : p.2 ≤ r * ((1 - r) * x₀) + (1 - r) * c)
  -- pushed up from the middle level
  | up (level : (1 - r) * p.1 + r * p.2 = (1 - r) * x₀ + c)
    (low : (1 - r) * x₀ + c ≤ p.2)
    (high : p.2 ≤ r * (r * ((1 - r) * x₀) + (1 - r) * c) + c)
  | down (level : (1 - r) * p.1 + r * p.2 = (1 - r) * x₀ - c)
    (low : r * (r * ((1 - r) * x₀) - (1 - r) * c) - c ≤ p.2)
    (high : p.2 ≤ (1 - r) * x₀ - c)

section Bounds

variable [IsStrictOrderedRing K] {r c x₀ : K} (hr : 0 < r) (hr1 : r < 1)
  (hx : (1 - r ^ 3) * |x₀| < (1 - r ^ 2) * c)

include hr hr1 hx

/-- The point does not start farther away than one thrust takes it. -/
theorem abs_start_le : |x₀| ≤ c := by
  have hcube : 0 < 1 - r ^ 3 := by
    have := pow_lt_one₀ hr.le hr1 (n := 3) (by omega)
    linarith
  have hle : 1 - r ^ 2 ≤ 1 - r ^ 3 := by
    have := pow_le_pow_of_le_one hr.le hr1.le (show 2 ≤ 3 by omega)
    linarith
  have hsq : 0 < 1 - r ^ 2 := by
    have := pow_lt_one₀ hr.le hr1 (n := 2) (by omega)
    linarith
  have hc : 0 ≤ c := by
    by_contra hneg
    have hpos := mul_nonneg hcube.le (abs_nonneg x₀)
    have := mul_neg_of_pos_of_neg hsq (not_le.mp hneg)
    linarith
  have hmul : (1 - r ^ 3) * |x₀| ≤ (1 - r ^ 3) * c :=
    hx.le.trans (mul_le_mul_of_nonneg_right hle hc)
  exact le_of_mul_le_mul_left hmul hcube

/-- A point on the upper level is on the positive side. -/
theorem up_nonneg {p : K × K} (level : (1 - r) * p.1 + r * p.2 = (1 - r) * x₀ + c)
    (high : p.2 ≤ r * (r * ((1 - r) * x₀) + (1 - r) * c) + c) : 0 ≤ p.1 := by
  have hpos : 0 < 1 - r := by linarith
  have hlow := neg_abs_le x₀
  have hcube : 0 ≤ 1 - r ^ 3 := by
    have := pow_le_one₀ hr.le hr1.le (n := 3)
    linarith
  have hstart := mul_le_mul_of_nonneg_left hlow hcube
  have hspeed := mul_le_mul_of_nonneg_left high hr.le
  refine nonneg_of_mul_nonneg_right (a := 1 - r) ?_ hpos
  have hkey : 0 ≤ (1 - r) * ((1 - r ^ 3) * x₀ + (1 - r ^ 2) * c) :=
    mul_nonneg hpos.le (by linarith)
  have hsplit : (1 - r) * ((1 - r ^ 3) * x₀ + (1 - r ^ 2) * c)
      = (1 - r) * x₀ + c - r * (r * (r * ((1 - r) * x₀) + (1 - r) * c) + c) := by ring
  linarith

/-- A point on the lower level is on the negative side. -/
theorem down_neg {p : K × K} (level : (1 - r) * p.1 + r * p.2 = (1 - r) * x₀ - c)
    (low : r * (r * ((1 - r) * x₀) - (1 - r) * c) - c ≤ p.2) : p.1 < 0 := by
  have hpos : 0 < 1 - r := by linarith
  have hhigh := le_abs_self x₀
  have hcube : 0 ≤ 1 - r ^ 3 := by
    have := pow_le_one₀ hr.le hr1.le (n := 3)
    linarith
  have hstart := mul_le_mul_of_nonneg_left hhigh hcube
  have hspeed := mul_le_mul_of_nonneg_left low hr.le
  have hkey : (1 - r) * ((1 - r ^ 3) * x₀ - (1 - r ^ 2) * c) < 0 :=
    mul_neg_of_pos_of_neg hpos (by linarith)
  have hsplit : (1 - r) * ((1 - r ^ 3) * x₀ - (1 - r ^ 2) * c)
      = (1 - r) * x₀ - c - r * (r * (r * ((1 - r) * x₀) - (1 - r) * c) - c) := by ring
  have hneg : (1 - r) * p.1 < 0 := by linarith
  by_contra hnot
  have := mul_nonneg hpos.le (not_lt.mp hnot)
  linarith

/-- On its way back to the middle level a point does not become too fast. -/
theorem back_nonneg {y : K} (hy : 0 ≤ y + c) :
    0 ≤ r * (1 - r ^ 2) * y + (2 - r ^ 2) * c := by
  have hc : 0 ≤ c := (abs_nonneg x₀).trans (abs_start_le hr hr1 hx)
  have hsq : 0 ≤ 1 - r ^ 2 := by
    have := pow_le_one₀ hr.le hr1.le (n := 2)
    linarith
  have hslow : r * (1 - r ^ 2) ≤ 1 - r ^ 2 := by
    simpa using mul_le_mul_of_nonneg_right hr1.le hsq
  calc 0 ≤ r * (1 - r ^ 2) * (y + c) + (2 - r ^ 2 - r * (1 - r ^ 2)) * c :=
        add_nonneg (mul_nonneg (mul_nonneg hr.le hsq) hy) (mul_nonneg (by linarith) hc)
    _ = r * (1 - r ^ 2) * y + (2 - r ^ 2) * c := by ring

/-- A point at rest is on the middle level. -/
theorem Phase.start : Phase r c x₀ (x₀, 0) := by
  have hpos : 0 < 1 - r := by linarith
  have habs := abs_start_le hr hr1 hx
  have hbound : |r * ((1 - r) * x₀)| ≤ (1 - r) * c := by
    rw [show r * ((1 - r) * x₀) = (1 - r) * (r * x₀) from by ring, abs_mul, abs_of_pos hpos,
      abs_mul, abs_of_pos hr]
    refine mul_le_mul_of_nonneg_left ?_ hpos.le
    calc r * |x₀| ≤ 1 * |x₀| := mul_le_mul_of_nonneg_right hr1.le (abs_nonneg x₀)
      _ ≤ c := by rwa [one_mul]
  obtain ⟨hlow, hhigh⟩ := abs_le.mp hbound
  exact .home (by simp) (by linarith) (by linarith)

/-- The middle level is left, to the other side or back, and come back to in the next step. -/
theorem Phase.step {p : K × K} (h : Phase r c x₀ p) : Phase r c x₀ (step r c p) := by
  have hpos : 0 < 1 - r := by linarith
  have habs := abs_start_le hr hr1 hx
  unfold Relay.step thrust
  cases h with
  | home level low high =>
    have hlow := mul_le_mul_of_nonneg_left low hr.le
    have hhigh := mul_le_mul_of_nonneg_left high hr.le
    split
    · next hneg =>
      have hside := mul_neg_of_pos_of_neg hpos hneg
      refine .up ?_ ?_ ?_
      · dsimp only
        linear_combination level
      · dsimp only
        linarith
      · dsimp only
        linarith
    · next hnonneg =>
      have hside := mul_nonneg hpos.le (not_lt.mp hnonneg)
      refine .down ?_ ?_ ?_
      · dsimp only
        linear_combination level
      · dsimp only
        linarith
      · dsimp only
        linarith
  | up level low high =>
    have hside := up_nonneg hr hr1 hx level high
    rw [if_neg hside.not_gt]
    have hlow := mul_le_mul_of_nonneg_left low hr.le
    have hhigh := mul_le_mul_of_nonneg_left high hr.le
    refine .home ?_ ?_ ?_
    · dsimp only
      linear_combination level
    · dsimp only
      linarith
    · have hback := mul_nonneg hpos.le (back_nonneg hr hr1 hx (by linarith [neg_abs_le x₀]))
      dsimp only
      linarith
  | down level low high =>
    have hside := down_neg hr hr1 hx level low
    rw [if_pos hside]
    have hlow := mul_le_mul_of_nonneg_left low hr.le
    have hhigh := mul_le_mul_of_nonneg_left high hr.le
    refine .home ?_ ?_ ?_
    · dsimp only
      linear_combination level
    · have hback := mul_nonneg hpos.le
        (back_nonneg (y := -x₀) hr hr1 hx (by linarith [le_abs_self x₀]))
      dsimp only
      linarith
    · dsimp only
      linarith

/-- The distance from zero: no more than at the start, and one thrust. -/
theorem Phase.distance_le {p : K × K} (h : Phase r c x₀ p) : |p.1| ≤ |x₀| + c := by
  have hpos : 0 < 1 - r := by linarith
  have hc : 0 ≤ c := (abs_nonneg x₀).trans (abs_start_le hr hr1 hx)
  have hscale : ∀ t, 0 ≤ t → t ≤ 1 → |t * x₀| ≤ |x₀| := fun t ht ht1 => by
    rw [abs_mul, abs_of_nonneg ht]
    exact mul_le_of_le_one_left (abs_nonneg x₀) ht1
  have hsq : r ^ 2 ≤ 1 := pow_le_one₀ hr.le hr1.le
  have hrc : r * c ≤ c := mul_le_of_le_one_left hc hr1.le
  obtain ⟨hlow1, hhigh1⟩ := abs_le.mp (hscale (1 - r ^ 2) (by linarith) (by linarith [sq_nonneg r]))
  obtain ⟨hlow2, hhigh2⟩ := abs_le.mp (hscale (1 - r) hpos.le (by linarith))
  rw [abs_le]
  cases h with
  | home level low high =>
    have hlow := mul_le_mul_of_nonneg_left low hr.le
    have hhigh := mul_le_mul_of_nonneg_left high hr.le
    have hleft : (1 - r) * ((1 - r ^ 2) * x₀ - r * c) ≤ (1 - r) * p.1 := by linarith
    have hright : (1 - r) * p.1 ≤ (1 - r) * ((1 - r ^ 2) * x₀ + r * c) := by linarith
    have hleft' := le_of_mul_le_mul_left hleft hpos
    have hright' := le_of_mul_le_mul_left hright hpos
    constructor <;> linarith
  | up level low high =>
    have hside := up_nonneg hr hr1 hx level high
    have hlow := mul_le_mul_of_nonneg_left low hr.le
    have hright : (1 - r) * p.1 ≤ (1 - r) * ((1 - r) * x₀ + c) := by linarith
    have hright' := le_of_mul_le_mul_left hright hpos
    have habs := abs_nonneg x₀
    constructor <;> linarith
  | down level low high =>
    have hside := down_neg hr hr1 hx level low
    have hhigh := mul_le_mul_of_nonneg_left high hr.le
    have hleft : (1 - r) * ((1 - r) * x₀ - c) ≤ (1 - r) * p.1 := by linarith
    have hleft' := le_of_mul_le_mul_left hleft hpos
    have habs := abs_nonneg x₀
    constructor <;> linarith

end Bounds

end Nrtb.Relay
