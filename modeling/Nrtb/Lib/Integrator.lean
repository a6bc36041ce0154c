import Mathlib.Algebra.Field.Basic
import Mathlib.Algebra.Module.Basic
import Mathlib.Tactic.Module

/-!
# Semi-implicit steps

Velocity and location under a constant acceleration, where every step advances the velocity first
and then the location by the new velocity. Over a module, so that the same lemma serves points of a
line and of space.

* `velocity_eq`, `location_eq`: both after `n` steps, by induction on them. The velocity is exact.
  The location has a term too many, half of the acceleration by the square of a step for every step,
  since each of them moves with the velocity that is only reached at its end.
* `location_law_iff`: when the location is the one of the uniformly accelerated motion.
-/

namespace Nrtb.Integrator

variable {K V : Type*} [Field K] [AddCommGroup V] [Module K V] {a : V} {q : K} {v p : ℕ → V}
  {n : ℕ}

theorem velocity_eq (hv : ∀ k < n, v (k + 1) = v k + q • a) : v n = v 0 + (n * q) • a := by
  induction n with
  | zero => simp
  | succ n ih =>
    rw [hv n (Nat.lt_succ_self n), ih fun k hk => hv k (Nat.lt_succ_of_lt hk)]
    push_cast
    module

theorem location_eq [CharZero K] (hv : ∀ k < n, v (k + 1) = v k + q • a)
    (hp : ∀ k < n, p (k + 1) = p k + q • v (k + 1)) :
    p n = p 0 + (n * q) • v 0 + ((n * q) ^ 2 / 2) • a + (n * q ^ 2 / 2) • a := by
  induction n with
  | zero => simp
  | succ n ih =>
    have hlast : v (n + 1) = v 0 + ((n + 1 : ℕ) * q) • a := velocity_eq hv
    have hbefore := ih (fun k hk => hv k (Nat.lt_succ_of_lt hk))
      fun k hk => hp k (Nat.lt_succ_of_lt hk)
    rw [hp n (Nat.lt_succ_self n), hlast, hbefore]
    push_cast
    module

/-- The location is off by `n q² a / 2`. -/
theorem location_law_iff [CharZero K] (hq : q ≠ 0) (hv : ∀ k < n, v (k + 1) = v k + q • a)
    (hp : ∀ k < n, p (k + 1) = p k + q • v (k + 1)) :
    p n = p 0 + (n * q) • v 0 + ((n * q) ^ 2 / 2) • a ↔ n = 0 ∨ a = 0 := by
  have hfactor : (n * q ^ 2 / 2 : K) = 0 ↔ n = 0 := by
    simp [hq]
  rw [location_eq hv hp, add_eq_left, smul_eq_zero, hfactor]

end Nrtb.Integrator
