import Nrtb.Triad
import Nrtb.Lib.Quadratic

/-!
# `base_object::check_collision` — swept-sphere contact

`cpp/sim_engine/base_object/base_object.cpp`, lines 221–252. Two bounding spheres move uniformly for
one quanta; the function decides from the quadratic

  `d(t)² - r² = pp + 2 pv t + vv t²`

whether they touch. The geometric side is `centreDist`, the distance of the centres at a fraction
`t` of the quanta. The source takes three early exits, for spheres that touch at the start, that do
not approach, and that approach for the whole quanta and are apart at its end, and then looks at the
closest approach. What such a test should do is known without it: answer `true` when the quadratic
is negative somewhere in the quanta, and `false` when it is positive throughout; a touch in one
point may be answered either way.

* `centreAt_gap_eq_quad`: the squared distance of the code's relative motion is that quadratic.
* `checkCollision_of_contact`: a contact within the quanta is always reported.
* `checkCollision_ne_none`: the closest-approach division is never by zero, because objects that
  approach have a relative velocity.
* `checkCollision_exact_iff`: a miss is reported as a miss exactly when the objects are not flying
  past each other within the quanta. The last return of the source takes the closest approach as
  `+pv/vv` and compares the wrong way round, so it always answers `true`.
-/

namespace Nrtb

open Quadratic

open scoped Numerals

/-- `struct sphere`, with the part that collision detection reads. -/
structure Sphere (K : Type*) where
  radius : K
deriving DecidableEq, Repr

/-- The fields of `struct base_object` that take part in collision detection. -/
structure BaseObject (K : Type*) where
  location : Triad K
  velocity : Triad K
  boundingSphere : Sphere K
deriving DecidableEq, Repr

namespace BaseObject

/-- Division as the code performs it: `none` stands for a division by zero. -/
def fdiv {K : Type*} [Field K] [DecidableEq K] (a b : K) : Option K :=
  if b = 0 then none else some (a / b)

section Coefficients

variable {K : Type*} [Field K]

/-- `rel_pos`: the other centre seen from this one. -/
def relPos (self o : BaseObject K) : Triad K := o.location - self.location

/-- `rel_vel` after `rel_vel *= quanta`: the relative displacement over the quanta. -/
def relVel (self o : BaseObject K) (quanta : K) : Triad K :=
  (o.velocity - self.velocity) * quanta

/-- `r`: the distance of the centres at contact. -/
def contactDist (self o : BaseObject K) : K :=
  self.boundingSphere.radius + o.boundingSphere.radius

/-- `dP^2-r^2`: the squared gap at the start of the quanta. -/
def pp (self o : BaseObject K) : K :=
  (relPos self o).dotProduct (relPos self o) - contactDist self o * contactDist self o

/-- `DP*dV`: negative while the centres approach. -/
def pv (self o : BaseObject K) (quanta : K) : K :=
  (relPos self o).dotProduct (relVel self o quanta)

/-- `dv ^2`: the squared relative displacement. -/
def vv (self o : BaseObject K) (quanta : K) : K :=
  (relVel self o quanta).dotProduct (relVel self o quanta)

end Coefficients

section Model

variable {K : Type*} [Field K] [LinearOrder K]

/-- `base_object::check_collision`; `none` is a division by zero. -/
def checkCollision (self o : BaseObject K) (quanta : K) : Option Bool :=
  let rel_vel := relVel self o quanta
  let rel_pos := relPos self o
  let r := contactDist self o
  -- dP^2-r^2
  let pp := rel_pos.x * rel_pos.x + rel_pos.y * rel_pos.y + rel_pos.z * rel_pos.z - r * r
  if pp ≤ 0 then some true else
  -- DP*dV
  let pv := rel_pos.x * rel_vel.x + rel_pos.y * rel_vel.y + rel_pos.z * rel_vel.z
  if 0 ≤ pv then some false else
  -- dv ^2
  let vv := rel_vel.x * rel_vel.x + rel_vel.y * rel_vel.y + rel_vel.z * rel_vel.z
  if pv + vv ≤ 0 ∧ 0 ≤ vv + 2 * pv + pp then some false else
  (fdiv pv vv).map fun min_time => decide (0 < pp + pv * min_time)

/-- `check_collision` over its three coefficients. -/
theorem checkCollision_eq (self o : BaseObject K) (quanta : K) :
    checkCollision self o quanta =
      if pp self o ≤ 0 then some true
      else if 0 ≤ pv self o quanta then some false
      else if pv self o quanta + vv self o quanta ≤ 0
          ∧ 0 ≤ vv self o quanta + 2 * pv self o quanta + pp self o then some false
      else (fdiv (pv self o quanta) (vv self o quanta)).map
        fun min_time => decide (0 < pp self o + pv self o quanta * min_time) := rfl

end Model

section Motion

variable {K : Type*} [Field K]

/-- Where the centre is after the fraction `t` of the quanta, moving linearly. -/
def centreAt (o : BaseObject K) (quanta t : K) : Triad K :=
  o.location + o.velocity * (quanta * t)

/-- The squared distance of the moving centres, less the squared contact distance, is the
quadratic whose coefficients the code computes. -/
theorem centreAt_gap_eq_quad (self o : BaseObject K) (quanta t : K) :
    (centreAt self quanta t - centreAt o quanta t).dotProduct
        (centreAt self quanta t - centreAt o quanta t)
      - contactDist self o * contactDist self o
      = quad (pp self o) (pv self o quanta) (vv self o quanta) t := by
  simp only [centreAt, pp, pv, vv, relPos, relVel, quad, Triad.dotProduct, Triad.sub_x,
    Triad.sub_y, Triad.sub_z, Triad.add_x, Triad.add_y, Triad.add_z, Triad.scale_x,
    Triad.scale_y, Triad.scale_z]
  ring

end Motion

section Division

variable {K : Type*} [Field K] [LinearOrder K] [IsStrictOrderedRing K]

/-- While the centres approach, the relative displacement is not zero. -/
theorem vv_pos_of_pv_neg {self o : BaseObject K} {quanta : K} (h : pv self o quanta < 0) :
    0 < vv self o quanta :=
  Triad.dotProduct_self_pos_of_ne (ne_of_lt h)

/-- The last exit of the source: with an open gap and approaching centres the comparison
`pp + pv * (pv/vv) > 0.0` holds, whatever the closest approach is. -/
theorem closestApproach_true {self o : BaseObject K} {quanta : K} (hpp : 0 < pp self o)
    (hpv : pv self o quanta < 0) :
    (fdiv (pv self o quanta) (vv self o quanta)).map
      (fun min_time => decide (0 < pp self o + pv self o quanta * min_time)) = some true := by
  have hvv := vv_pos_of_pv_neg hpv
  have hsq : 0 ≤ pv self o quanta * (pv self o quanta / vv self o quanta) := by
    rw [← mul_div_assoc]
    exact div_nonneg (mul_self_nonneg _) hvv.le
  have hpos : 0 < pp self o + pv self o quanta * (pv self o quanta / vv self o quanta) := by
    linarith
  simp [fdiv, hvv.ne', hpos]

/-- The four exits of `check_collision` without its division: touching at the start, moving
apart, still approaching and still apart at the end, and everything else. -/
theorem checkCollision_cases (self o : BaseObject K) (quanta : K) :
    (pp self o ≤ 0 ∧ checkCollision self o quanta = some true)
    ∨ (0 < pp self o ∧ 0 ≤ pv self o quanta ∧ checkCollision self o quanta = some false)
    ∨ (0 < pp self o ∧ pv self o quanta < 0 ∧ pv self o quanta + vv self o quanta ≤ 0
        ∧ 0 ≤ vv self o quanta + 2 * pv self o quanta + pp self o
        ∧ checkCollision self o quanta = some false)
    ∨ (0 < pp self o ∧ pv self o quanta < 0
        ∧ ¬ (pv self o quanta + vv self o quanta ≤ 0
          ∧ 0 ≤ vv self o quanta + 2 * pv self o quanta + pp self o)
        ∧ checkCollision self o quanta = some true) := by
  rw [checkCollision_eq]
  rcases le_or_gt (pp self o) 0 with hpp | hpp
  · exact .inl ⟨hpp, if_pos hpp⟩
  rw [if_neg (not_le.mpr hpp)]
  rcases le_or_gt 0 (pv self o quanta) with hpv | hpv
  · exact .inr (.inl ⟨hpp, hpv, if_pos hpv⟩)
  rw [if_neg (not_le.mpr hpv)]
  by_cases hend : pv self o quanta + vv self o quanta ≤ 0
      ∧ 0 ≤ vv self o quanta + 2 * pv self o quanta + pp self o
  · exact .inr (.inr (.inl ⟨hpp, hpv, hend.1, hend.2, if_pos hend⟩))
  · rw [if_neg hend]
    exact .inr (.inr (.inr ⟨hpp, hpv, hend, closestApproach_true hpp hpv⟩))

/-- `check_collision` never divides by zero. -/
theorem checkCollision_ne_none (self o : BaseObject K) (quanta : K) :
    checkCollision self o quanta ≠ none := by
  rcases checkCollision_cases self o quanta with h | h | h | h <;> simp [h]

end Division

/-! ## The geometric meaning, over the reals -/

section Geometry

/-- The distance of the centres at the fraction `t` of the quanta. -/
noncomputable def centreDist (self o : BaseObject ℝ) (quanta t : ℝ) : ℝ :=
  (centreAt self quanta t).range (centreAt o quanta t)

variable {self o : BaseObject ℝ} {quanta : ℝ}

theorem centreDist_lt_iff (hr : 0 ≤ contactDist self o) (t : ℝ) :
    centreDist self o quanta t < contactDist self o
      ↔ quad (pp self o) (pv self o quanta) (vv self o quanta) t < 0 := by
  rw [centreDist, Triad.range_lt_iff _ _ hr, ← centreAt_gap_eq_quad, sub_neg]

theorem lt_centreDist_iff (hr : 0 ≤ contactDist self o) (t : ℝ) :
    contactDist self o < centreDist self o quanta t
      ↔ 0 < quad (pp self o) (pv self o quanta) (vv self o quanta) t := by
  rw [centreDist, Triad.lt_range_iff _ _ hr, ← centreAt_gap_eq_quad, sub_pos]

/-- The objects fly past each other: they approach at the start of the quanta, separate at its
end and stay further apart than the contact distance all along. -/
def FlyBy (self o : BaseObject ℝ) (quanta : ℝ) : Prop :=
  pv self o quanta < 0 ∧ 0 < pv self o quanta + vv self o quanta
    ∧ ∀ t, 0 ≤ t → t ≤ 1 → contactDist self o < centreDist self o quanta t

/-- A contact inside the quanta is always reported. -/
theorem checkCollision_of_contact (hr : 0 ≤ contactDist self o) {t : ℝ} (ht0 : 0 ≤ t)
    (ht1 : t ≤ 1) (hhit : centreDist self o quanta t < contactDist self o) :
    checkCollision self o quanta = some true := by
  rw [centreDist_lt_iff hr] at hhit
  have hvv : 0 ≤ vv self o quanta := Triad.dotProduct_self_nonneg _
  rcases checkCollision_cases self o quanta with h | ⟨hpp, hpv, _⟩ | ⟨_, _, hend, hone, _⟩ | h
  · exact h.2
  · -- moving apart: the quadratic only rises from a positive start
    have := quad_ge_start (c := pp self o) hvv hpv ht0
    linarith
  · -- still approaching at the end, where the gap is still open
    have hge := quad_ge_end (c := pp self o) hvv hend ht1
    rw [quad_one] at hge
    linarith
  · exact h.2.2.2

/-- Exactness of `check_collision`, with its exact exception: both directions of the
swept-sphere test hold if and only if the objects do not fly past each other within the
quanta. Contacts are always found and no division is by zero in either case. -/
theorem checkCollision_exact_iff (self o : BaseObject ℝ) (quanta : ℝ)
    (hself : 0 ≤ self.boundingSphere.radius) (ho : 0 ≤ o.boundingSphere.radius) :
    (∃ hit, checkCollision self o quanta = some hit
      ∧ ((∃ t, 0 ≤ t ∧ t ≤ 1 ∧ centreDist self o quanta t < contactDist self o) → hit = true)
      ∧ ((∀ t, 0 ≤ t → t ≤ 1 → contactDist self o < centreDist self o quanta t) → hit = false))
      ↔ ¬ FlyBy self o quanta := by
  have hr : 0 ≤ contactDist self o := add_nonneg hself ho
  have hcontact : ∀ hit, checkCollision self o quanta = some hit →
      (∃ t, 0 ≤ t ∧ t ≤ 1 ∧ centreDist self o quanta t < contactDist self o) → hit = true := by
    rintro hit hres ⟨t, ht0, ht1, hlt⟩
    rw [checkCollision_of_contact hr ht0 ht1 hlt] at hres
    exact (Option.some.inj hres).symm
  rcases checkCollision_cases self o quanta with
    ⟨hpp, hres⟩ | ⟨hpp, hpv, hres⟩ | ⟨hpp, hpv, hend, hone, hres⟩ | ⟨hpp, hpv, hend, hres⟩
  · -- touching at the start: there is no miss to report
    have hstart : ¬ contactDist self o < centreDist self o quanta 0 := by
      rw [lt_centreDist_iff hr, quad_zero]
      exact not_lt.mpr hpp
    refine ⟨fun _ hfly => hstart (hfly.2.2 0 le_rfl zero_le_one), fun _ => ?_⟩
    exact ⟨true, hres, fun _ => rfl, fun hmiss => absurd (hmiss 0 le_rfl zero_le_one) hstart⟩
  · refine ⟨fun _ hfly => absurd hfly.1 (not_lt.mpr hpv), fun _ => ?_⟩
    exact ⟨false, hres, hcontact false hres, fun _ => rfl⟩
  · refine ⟨fun _ hfly => absurd hfly.2.1 (not_lt.mpr hend), fun _ => ?_⟩
    exact ⟨false, hres, hcontact false hres, fun _ => rfl⟩
  · -- the closest-approach branch answers `true`, which is wrong exactly on a miss
    constructor
    · rintro ⟨hit, hres', _, hmiss⟩ hfly
      rw [hres] at hres'
      have htrue : hit = true := (Option.some.inj hres').symm
      rw [hmiss hfly.2.2] at htrue
      exact Bool.false_ne_true htrue
    · intro hfly
      refine ⟨true, hres, fun _ => rfl, fun hmiss => absurd ⟨hpv, ?_, hmiss⟩ hfly⟩
      have hlast := hmiss 1 zero_le_one le_rfl
      rw [lt_centreDist_iff hr, quad_one] at hlast
      by_contra hle
      exact hend ⟨not_lt.mp hle, by linarith⟩

/-- `checkCollision_exact_iff` at the third position of the unit test: the balls meet. -/
theorem checkCollision_exact_unitTest :
    ∃ hit, checkCollision (⟨⟨1, 0, 0⟩, ⟨-50, 0, 0⟩, ⟨1 / 2⟩⟩ : BaseObject ℝ)
        ⟨⟨0, 1, 0⟩, ⟨0, -2, 0⟩, ⟨1 / 2⟩⟩ (1 / 50) = some hit
      ∧ ((∃ t, 0 ≤ t ∧ t ≤ 1
          ∧ centreDist ⟨⟨1, 0, 0⟩, ⟨-50, 0, 0⟩, ⟨1 / 2⟩⟩ ⟨⟨0, 1, 0⟩, ⟨0, -2, 0⟩, ⟨1 / 2⟩⟩ (1 / 50) t
            < contactDist ⟨⟨1, 0, 0⟩, ⟨-50, 0, 0⟩, ⟨1 / 2⟩⟩ ⟨⟨0, 1, 0⟩, ⟨0, -2, 0⟩, ⟨1 / 2⟩⟩)
          → hit = true)
      ∧ ((∀ t, 0 ≤ t → t ≤ 1
          → contactDist ⟨⟨1, 0, 0⟩, ⟨-50, 0, 0⟩, ⟨1 / 2⟩⟩ ⟨⟨0, 1, 0⟩, ⟨0, -2, 0⟩, ⟨1 / 2⟩⟩
            < centreDist ⟨⟨1, 0, 0⟩, ⟨-50, 0, 0⟩, ⟨1 / 2⟩⟩ ⟨⟨0, 1, 0⟩, ⟨0, -2, 0⟩, ⟨1 / 2⟩⟩
                (1 / 50) t)
          → hit = false) := by
  refine (checkCollision_exact_iff _ _ _ (by norm_num) (by norm_num)).mpr fun hfly => ?_
  have hend := hfly.2.1
  norm_num [pv, vv, relPos, relVel, Triad.dotProduct] at hend

/-- Two unit-diameter balls that pass three units apart within one 50 Hz quanta: they never
come within contact distance, and the code reports a collision. -/
theorem checkCollision_flyBy_reported :
    (∀ t, 0 ≤ t → t ≤ 1 →
      contactDist ⟨⟨0, 0, 0⟩, ⟨0, 0, 0⟩, ⟨1 / 2⟩⟩ ⟨⟨-5, 3, 0⟩, ⟨500, 0, 0⟩, ⟨1 / 2⟩⟩
        < centreDist ⟨⟨0, 0, 0⟩, ⟨0, 0, 0⟩, ⟨1 / 2⟩⟩ ⟨⟨-5, 3, 0⟩, ⟨500, 0, 0⟩, ⟨1 / 2⟩⟩ (1 / 50) t)
    ∧ checkCollision (⟨⟨0, 0, 0⟩, ⟨0, 0, 0⟩, ⟨1 / 2⟩⟩ : BaseObject ℝ)
        ⟨⟨-5, 3, 0⟩, ⟨500, 0, 0⟩, ⟨1 / 2⟩⟩ (1 / 50) = some true := by
  constructor
  · intro t _ _
    rw [lt_centreDist_iff (by norm_num [contactDist])]
    norm_num [pp, pv, vv, relPos, relVel, contactDist, quad, Triad.dotProduct]
    -- the squared gap is 100 (t - 1/2)² + 8
    nlinarith [sq_nonneg (t - 1 / 2)]
  · norm_num [checkCollision, relPos, relVel, contactDist, fdiv]

end Geometry

end BaseObject

end Nrtb
