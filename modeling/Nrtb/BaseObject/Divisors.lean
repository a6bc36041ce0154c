import Nrtb.BaseObject.Motion
import Nrtb.Lib.Ieee
import Mathlib.Tactic.NormNum

/-!
# What `base_object::tick` divides by

`cpp/sim_engine/base_object/base_object.cpp`, lines 45–53 and 157–203. Behind the guard for the mass
`tick` divides by the mass, by two, and in `rotatable::apply_force` by a moment of inertia that is
put together from the mass and the radius of the bounding sphere. The products are rounded.

The values are finite: what a `float` makes of an exact result is any monotone function that leaves
zero and one alone (`Rounding`), and the infinities and NaN of `Lib.Ieee` do not occur here. A
product that is not zero may be rounded to zero, so that a radius other than zero is not enough for
a moment of inertia.

* `inertia_ne_zero_iff`: what it takes for a moment of inertia, product by product.
* `tick_eq_of_divisors`: when no divisor is zero, what division by zero gives does not matter, so
  that the exact `tick` of `Motion` may have any value there.
* `divisors_nonzero_iff`: when no divisor is zero.
-/

namespace Nrtb

open scoped Numerals

namespace Rounding

variable {K : Type*} [Field K] [LinearOrder K] (fl : Rounding K)

/-- A number that is not zero is rounded to zero. -/
def Underflows (x : K) : Prop := x ≠ 0 ∧ fl.round x = 0

theorem round_ne_zero_iff (x : K) : fl.round x ≠ 0 ↔ x ≠ 0 ∧ ¬ fl.Underflows x := by
  unfold Underflows
  constructor
  · refine fun h => ⟨fun hx => h ?_, fun hunder => h hunder.2⟩
    rw [hx, fl.round_zero]
  · exact fun h hzero => h.2 ⟨h.1, hzero⟩

end Rounding

namespace Body

variable {σ K : Type*} [Field K] [LinearOrder K] (fl : Rounding K)

/-- `((arm*arm) * mass)/2` -/
def inertia (mass arm : K) : K := fl.round (fl.round (fl.round (arm * arm) * mass) / 2)

/-- What `tick` divides by, from the state that the pre-effectors leave. -/
def divisors (o : Body K) : List K :=
  let mass := fl.round (o.mass + o.mass_mod)
  if mass ≤ 0 then [] else [mass, 2, inertia fl mass o.boundingSphere.radius, 2]

/-- What a whole `tick` divides by. -/
def tickDivisors (effects : Effects σ K) (quanta : K) (s : σ) (o : Body K) : List K :=
  divisors fl (runPre effects quanta s o).2.1

/-- The radius is not zero, and none of the products of the moment of inertia underflows. -/
structure HasInertia (mass radius : K) : Prop where
  radius_ne : radius ≠ 0
  square : ¬ fl.Underflows (radius * radius)
  product : ¬ fl.Underflows (fl.round (radius * radius) * mass)
  half : ¬ fl.Underflows (fl.round (fl.round (radius * radius) * mass) / 2)

variable {fl}

theorem inertia_ne_zero_iff [CharZero K] {mass : K} (hmass : mass ≠ 0) (arm : K) :
    inertia fl mass arm ≠ 0 ↔ HasInertia fl mass arm := by
  have hsquare : fl.round (arm * arm) ≠ 0 ↔ arm ≠ 0 ∧ ¬ fl.Underflows (arm * arm) := by
    rw [fl.round_ne_zero_iff, mul_self_ne_zero]
  have hproduct : fl.round (fl.round (arm * arm) * mass) ≠ 0 ↔ fl.round (arm * arm) ≠ 0
      ∧ ¬ fl.Underflows (fl.round (arm * arm) * mass) := by
    rw [fl.round_ne_zero_iff, mul_ne_zero_iff_right hmass]
  have hhalf : inertia fl mass arm ≠ 0 ↔ fl.round (fl.round (arm * arm) * mass) ≠ 0
      ∧ ¬ fl.Underflows (fl.round (fl.round (arm * arm) * mass) / 2) := by
    unfold inertia
    rw [fl.round_ne_zero_iff, div_ne_zero_iff, and_iff_left (two_ne_zero)]
  rw [hhalf, hproduct, hsquare]
  exact ⟨fun ⟨⟨⟨h1, h2⟩, h3⟩, h4⟩ => ⟨h1, h2, h3, h4⟩, fun h =>
    ⟨⟨⟨h.radius_ne, h.square⟩, h.product⟩, h.half⟩⟩

variable (fl) in
/-- Of finite values: the guard covers the mass alone, and a tick that goes on divides by zero
unless there is a moment of inertia. The mass and the radius are those that the pre-effectors leave.
-/
theorem divisors_nonzero_iff [CharZero K] (effects : Effects σ K) (quanta : K) (s : σ)
    (o : Body K) :
    (∀ d ∈ tickDivisors fl effects quanta s o, d ≠ 0) ↔
      let o' := (runPre effects quanta s o).2.1
      fl.round (o'.mass + o'.mass_mod) ≤ 0
        ∨ HasInertia fl (fl.round (o'.mass + o'.mass_mod)) o'.boundingSphere.radius := by
  unfold tickDivisors divisors
  dsimp only
  split
  · next hmass => exact iff_of_true (by simp) (Or.inl hmass)
  · next hmass =>
    have hne : fl.round ((runPre effects quanta s o).2.1.mass
        + (runPre effects quanta s o).2.1.mass_mod) ≠ 0 := (not_le.mp hmass).ne'
    rw [or_iff_right hmass, ← inertia_ne_zero_iff hne]
    simp [hne]

/-- With exact products the radius decides. -/
theorem hasInertia_exact_iff (mass radius : K) :
    HasInertia Rounding.exact mass radius ↔ radius ≠ 0 :=
  ⟨fun h => h.radius_ne, fun h => ⟨h, fun hu => hu.1 hu.2, fun hu => hu.1 hu.2,
    fun hu => hu.1 hu.2⟩⟩

omit [LinearOrder K] in
theorem divTriad_congr (ar ar' : Arith K) (p : Triad K) {k : K} (hk : k ≠ 0) :
    ar.divTriad p k = ar'.divTriad p k := by
  rw [ar.divTriad_eq p hk, ar'.divTriad_eq p hk]

theorem applyForce_congr (ar ar' : Arith K) (axis : Triad K) {mass arm : K} (vec : Triad K) (t : K)
    (h : inertia Rounding.exact mass arm ≠ 0) :
    applyForce ar axis mass arm vec t = applyForce ar' axis mass arm vec t := by
  have hne : arm * arm * mass / 2 ≠ 0 := h
  have hdiv : ∀ x, ar.div x (arm * arm * mass / 2) = ar'.div x (arm * arm * mass / 2) := fun x => by
    rw [ar.div_eq x _ hne, ar'.div_eq x _ hne]
  unfold applyForce
  simp only [hdiv]

/-- A tick that divides by nothing that is zero does not depend on what such a division gives. -/
theorem tick_eq_of_divisors (ar ar' : Arith K) {effects : Effects σ K} {quanta : K} {s : σ}
    {o : Body K} (h : ∀ d ∈ tickDivisors Rounding.exact effects quanta s o, d ≠ 0) :
    tick ar effects quanta s o = tick ar' effects quanta s o := by
  unfold tickDivisors divisors at h
  unfold tick
  generalize runPre effects quanta s o = r at *
  obtain ⟨s', o', killme⟩ := r
  dsimp only at h ⊢
  by_cases hmass : o'.mass + o'.mass_mod ≤ 0
  · rw [if_pos hmass, if_pos hmass]
  · rw [if_neg hmass, if_neg hmass]
    have hguard : ¬ (Rounding.exact : Rounding K).round (o'.mass + o'.mass_mod) ≤ 0 := hmass
    rw [if_neg hguard] at h
    have hmass' : o'.mass + o'.mass_mod ≠ 0 := h _ (by simp [Rounding.exact])
    have htwo : (2 : K) ≠ 0 := h _ (by simp)
    have hinertia : inertia Rounding.exact (o'.mass + o'.mass_mod) o'.boundingSphere.radius ≠ 0 :=
      h _ (by simp [Rounding.exact])
    unfold accelerate
    simp only [divTriad_congr ar ar' _ hmass', divTriad_congr ar ar' _ htwo,
      applyForce_congr ar ar' _ _ _ hinertia]

/-! ## A point -/

/-- A ball without an extent. -/
def point : Body ℚ := { ball with boundingSphere := ⟨0⟩ }

/-- `tick` divides by the moment of inertia of a point, with no torque applied. -/
theorem point_divides_by_zero :
    (0 : ℚ) ∈ tickDivisors Rounding.exact pushing 1 () point
      ∧ ¬ ∀ d ∈ tickDivisors Rounding.exact pushing 1 () point, d ≠ 0 := by
  have hmem : (0 : ℚ) ∈ tickDivisors Rounding.exact pushing 1 () point := by
    decide +kernel
  exact ⟨hmem, fun h => h 0 hmem rfl⟩

theorem divisors_nonzero_iff_ball : inertia (Rounding.exact : Rounding ℚ) 1 1 ≠ 0 :=
  (divisors_nonzero_iff Rounding.exact pushing 1 () ball).mpr
    (Or.inr ((hasInertia_exact_iff _ _).mpr (by decide +kernel))) _ (by decide +kernel)

end Body

end Nrtb
