import Nrtb.BaseObject.Motion
import Nrtb.Lib.Circle
import Mathlib.Tactic.NormNum

/-!
# The attitude that a turn leaves

`cpp/sim_engine/base_object/base_object.cpp`, lines 37–65 and 205–219. `base_object.h` promises of
`rotatable::trim` that it brings all values to `0 <= n < period`; `fmodf` keeps the sign of the
angle.

`apply` turns the attitude and trims it, in every turn, and no effector of the repository sets it
otherwise (`KeepsAttitude`). So an attitude is in range exactly when the angle in front of the trim
has a remainder that is not negative, for which it must not be negative itself, or be a number of
whole circles. The state before the turn and what the effectors make of the rotation determine it.

* `normalised_trim_iff`: when the remainders are in range.
* `apply_normalised_iff`: when one `apply` leaves the attitude in range.
* `attitude_normalised_iff`: when every turn of a run does.
-/

namespace Nrtb

/-- Exact arithmetic with `fmodf`. -/
structure TrimArith (K : Type*) [Field K] [LinearOrder K] extends Arith K where
  fmod_remainder : ∀ a, Circle.Remainder period a (fmod a period)

namespace Body

variable {σ K : Type*} [Field K] [LinearOrder K]

/-- `0 <= n < period`, on all three axes. -/
def Normalised (period : K) (axis : Triad K) : Prop :=
  (0 ≤ axis.x ∧ axis.x < period) ∧ (0 ≤ axis.y ∧ axis.y < period) ∧ (0 ≤ axis.z ∧ axis.z < period)

/-- The angle is not negative, or a number of whole circles. -/
def Reaches (period angle : K) : Prop := 0 ≤ angle ∨ ∃ n : ℤ, angle = n * period

/-- Where `rotation_mod` takes the attitude, on all three axes. -/
def RotatesWithin (period quanta : K) (o : Body K) : Prop :=
  Reaches period (o.attitude.x + o.rotation_mod.x * quanta)
    ∧ Reaches period (o.attitude.y + o.rotation_mod.y * quanta)
    ∧ Reaches period (o.attitude.z + o.rotation_mod.z * quanta)

/-- Effectors set force, torque and rotation, and leave the attitude to `apply`. -/
def KeepsAttitude (effects : Effects σ K) (quanta : K) : Prop :=
  ∀ e s o, (effects e s o quanta).2.1.attitude = o.attitude

section Attitude

variable {ta : TrimArith K} {effects : Effects σ K} {quanta : K}

omit [Field K] [LinearOrder K] in
theorem runEffectors_attitude (hkeeps : KeepsAttitude effects quanta) (l : List Nat) (s : σ)
    (o : Body K) (killme : Bool) :
    (runEffectors effects quanta l s o killme).2.1.attitude = o.attitude := by
  induction l generalizing s o killme with
  | nil => rfl
  | cons e rest ih =>
    unfold runEffectors
    exact (ih _ _ _).trans (hkeeps e s o)

variable [IsStrictOrderedRing K]

theorem normalised_trim_iff (axis : Triad K) :
    Normalised ta.period (trim ta.toArith axis) ↔
      Reaches ta.period axis.x ∧ Reaches ta.period axis.y ∧ Reaches ta.period axis.z := by
  unfold Normalised trim Reaches
  rw [Circle.remainder_mem_iff (ta.fmod_remainder axis.x),
    Circle.remainder_mem_iff (ta.fmod_remainder axis.y),
    Circle.remainder_mem_iff (ta.fmod_remainder axis.z)]

theorem apply_normalised_iff (hkeeps : KeepsAttitude effects quanta) (s : σ) (o : Body K) :
    Normalised ta.period (apply ta.toArith effects quanta s o).2.1.attitude ↔
      RotatesWithin ta.period quanta o := by
  unfold apply
  rw [runEffectors_attitude hkeeps]
  exact normalised_trim_iff (o.attitude + o.rotation_mod * quanta)

variable (ta) in
/-- The attitude is in range after every `apply` exactly when no turn takes an angle below zero,
unless to whole circles: a negative angle stays negative. The condition is on the angle that the
rotation comes to, before it is trimmed. -/
theorem attitude_normalised_iff (hkeeps : KeepsAttitude effects quanta) (w : σ × Body K) (n : ℕ) :
    (∀ k < n, Normalised ta.period
        (turns ta.toArith effects quanta (k + 1) w).2.attitude) ↔
      ∀ k < n, RotatesWithin ta.period quanta
        (tick ta.toArith effects quanta (turns ta.toArith effects quanta k w).1
          (turns ta.toArith effects quanta k w).2).2.1 := by
  refine forall₂_congr fun k _ => ?_
  unfold turns
  rw [Function.iterate_succ_apply']
  exact apply_normalised_iff hkeeps _ _

end Attitude

/-! ## A ball that spins -/

theorem truncate_remainder {a b : ℚ} (hb : 0 < b) :
    Circle.Remainder b a (a - truncate (a / b) * b) := by
  have hcut : a - truncate (a / b) * b = (a / b - truncate (a / b)) * b := by
    field_simp
  have hpos : 0 ≤ a / b ↔ 0 ≤ a := by rw [le_div_iff₀ hb, zero_mul]
  by_cases ha : 0 ≤ a
  · have htrunc : truncate (a / b) = ⌊a / b⌋ := if_pos (hpos.mpr ha)
    have hlow : 0 ≤ a / b - ⌊a / b⌋ := sub_nonneg.mpr (Int.floor_le _)
    have hhigh : a / b - ⌊a / b⌋ < 1 := by linarith [Int.lt_floor_add_one (a / b)]
    rw [← htrunc] at hlow hhigh
    have hr : 0 ≤ a - truncate (a / b) * b := hcut ▸ mul_nonneg hlow hb.le
    refine ⟨⟨truncate (a / b), by ring⟩, ?_, fun _ => hr, fun ha' => ?_⟩
    · rw [abs_of_nonneg hr, hcut]
      exact mul_lt_of_lt_one_left hb hhigh
    · rw [le_antisymm ha' ha, zero_div]
      simp [truncate]
  · have htrunc : truncate (a / b) = ⌈a / b⌉ := if_neg fun h => ha (hpos.mp h)
    have hhigh : a / b - ⌈a / b⌉ ≤ 0 := sub_nonpos.mpr (Int.le_ceil _)
    have hlow : -1 < a / b - ⌈a / b⌉ := by linarith [Int.ceil_lt_add_one (a / b)]
    rw [← htrunc] at hlow hhigh
    have hr : a - truncate (a / b) * b ≤ 0 := hcut ▸ mul_nonpos_of_nonpos_of_nonneg hhigh hb.le
    refine ⟨⟨truncate (a / b), by ring⟩, ?_, fun ha' => absurd ha' ha, fun _ => hr⟩
    rw [abs_of_nonpos hr, hcut, ← neg_mul]
    exact mul_lt_of_lt_one_left hb (by linarith)

/-- Exact arithmetic on the rationals. -/
def exactTrim : TrimArith ℚ where
  toArith := exactArith
  fmod_remainder _ := truncate_remainder (by norm_num [exactArith])

/-- A ball that spins about the vertical. -/
def spinning (rate : ℚ) : Body ℚ := { ball with rotation := ⟨0, 0, rate⟩, pre_attribs := [] }

/-- No effector does anything. -/
def resting : Effects Unit ℚ := fun _ s o _ => (s, o, false)

/-- A turn to the right by one radian leaves the angle of minus one. -/
theorem spin_negative :
    (turns exactTrim.toArith resting 1 1 ((), spinning (-1))).2.attitude.z = -1
      ∧ ¬ Normalised exactTrim.period
        (turns exactTrim.toArith resting 1 1 ((), spinning (-1))).2.attitude := by
  have hz : (turns exactTrim.toArith resting 1 1 ((), spinning (-1))).2.attitude.z = -1 := by
    decide +kernel
  refine ⟨hz, fun hnorm => ?_⟩
  have := hnorm.2.2.1
  rw [hz] at this
  norm_num at this

/-- Every effector turns the object to the left, by four radians in a turn. -/
def steered : Effects Unit ℚ := fun _ s o _ => (s, { o with rotation := ⟨0, 0, 4⟩ }, false)

/-- The second turn goes past a whole circle. -/
theorem attitude_normalised_iff_circle :
    (turns exactTrim.toArith steered 1 2 ((), ball)).2.attitude.z = 8 - exactTrim.period
      ∧ ∀ k < 3, Normalised exactTrim.period
        (turns exactTrim.toArith steered 1 (k + 1) ((), ball)).2.attitude := by
  have hkeeps : KeepsAttitude steered 1 := fun _ _ _ => rfl
  refine ⟨by decide +kernel, ?_⟩
  refine (attitude_normalised_iff exactTrim hkeeps ((), ball) 3).mpr fun k hk => ?_
  have hturn : k = 0 ∨ k = 1 ∨ k = 2 := by omega
  rcases hturn with rfl | rfl | rfl <;>
    exact ⟨.inl (by decide +kernel), .inl (by decide +kernel), .inl (by decide +kernel)⟩

end Body

end Nrtb
