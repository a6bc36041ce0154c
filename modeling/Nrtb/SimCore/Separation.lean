import Nrtb.BaseObject

/-!
# Pushing objects apart

`sim_core::resolve_collisions` (`cpp/sim_engine/sim_core/sim_core.cpp`, lines 286–319) for one
record, in exact arithmetic: the verdicts of the two objects, and, when both of them live on, the
displacement that takes them out of each other.

The displacement is along the line of the centres, by half of the overlap to either side. So the
centre between the two stays where it is, and their distance becomes the sum of the radii. The line
is the difference of the centres divided by its length, and that is zero for objects in one place,
where `bcp_listener` may put two new bots.

* `pushApart_cases`: what the displacement comes to.
* `separates_iff`: when it separates the two, with the verdicts as they are.
-/

namespace Nrtb.SimCore

open BaseObject

open scoped Numerals

/-! ## The record -/

/-- `apply_collision`: whether the object dies of the collision, and what becomes of it and of the
other one, which it has a pointer to. -/
abbrev ApplyCollision := BaseObject ℝ → BaseObject ℝ → ℝ → Bool × BaseObject ℝ × BaseObject ℝ

/-- `bot_mk1::apply_collision` -/
def botApplyCollision : ApplyCollision := fun self o _ => (false, self, o)

/-- The displacement along the line of the centres; `none` is a division by zero. -/
noncomputable def pushApart (a b : BaseObject ℝ) : Option (BaseObject ℝ × BaseObject ℝ) :=
  let min_dist := a.boundingSphere.radius + b.boundingSphere.radius
  let adj := min_dist - a.location.range b.location
  if 0 < adj then
    let adj := adj / 2
    (a.location - b.location).normalize.map fun (vec : Triad ℝ) =>
      ({ a with location := a.location + vec * adj }, { b with location := b.location - vec * adj })
  else some (a, b)

/-- What a record comes to: the objects, and those that `remove_obj` is called for. -/
structure Resolved where
  a : BaseObject ℝ
  b : BaseObject ℝ
  killa : Bool
  killb : Bool

/-- One round of the loop, for a record of `a` and `b`. -/
noncomputable def resolveRecord (applyA applyB : ApplyCollision) (quanta : ℝ)
    (a b : BaseObject ℝ) : Option Resolved :=
  let (killa, a, b) := applyA a b quanta
  let (killb, b, a) := applyB b a quanta
  let moved := if !(killa || killb) then pushApart a b else some (a, b)
  moved.map fun (a, b) => ⟨a, b, killa, killb⟩

/-! ## The displacement -/

variable {a b : BaseObject ℝ}

/-- Two points moved apart along the line through them. -/
theorem range_pushed {p q : Triad ℝ} (hne : p.range q ≠ 0) (adj : ℝ) (hadj : 0 ≤ adj) :
    (p + (p - q) / p.range q * (adj / 2)).range (q - (p - q) / p.range q * (adj / 2))
      = p.range q + adj := by
  have hpos : 0 < p.range q := lt_of_le_of_ne (Triad.magnatude_nonneg _) hne.symm
  have hoffset : (p + (p - q) / p.range q * (adj / 2)) - (q - (p - q) / p.range q * (adj / 2))
      = (p - q) * (1 + adj / p.range q) := by
    generalize p.range q = m at hpos
    have hcoord : ∀ x y : ℝ, x + (x - y) / m * (adj / 2) - (y - (x - y) / m * (adj / 2))
        = (x - y) * (1 + adj / m) := fun x y => by ring
    show (⟨_, _, _⟩ : Triad ℝ) = ⟨_, _, _⟩
    congr 1 <;> exact hcoord _ _
  rw [Triad.range_eq_magnatude, hoffset, Triad.magnatude_scale, ← Triad.range_eq_magnatude,
    abs_of_nonneg (by positivity)]
  field_simp

/-- Objects that do not overlap stay where they are; of those that do, the ones with one centre
have no line to be moved along; and the others come to touch. -/
theorem pushApart_cases (a b : BaseObject ℝ) :
    (contactDist a b ≤ a.location.range b.location ∧ pushApart a b = some (a, b))
      ∨ (a.location.range b.location < contactDist a b ∧ a.location = b.location
        ∧ pushApart a b = none)
      ∨ (a.location.range b.location < contactDist a b ∧ a.location ≠ b.location
        ∧ ∃ d, pushApart a b
            = some ({ a with location := a.location + d }, { b with location := b.location - d })
          ∧ (a.location + d).range (b.location - d) = contactDist a b) := by
  have hdist : a.boundingSphere.radius + b.boundingSphere.radius = contactDist a b := rfl
  rcases le_or_gt (contactDist a b) (a.location.range b.location) with hclear | hoverlap
  · refine .inl ⟨hclear, ?_⟩
    rw [pushApart, hdist, if_neg (by linarith)]
  · have hadj : 0 < contactDist a b - a.location.range b.location := sub_pos.mpr hoverlap
    by_cases hcentre : a.location = b.location
    · have hzero : (a.location - b.location).magnatude = 0 := by
        rw [Triad.magnatude_eq_zero_iff, hcentre, sub_self]
      refine .inr (.inl ⟨hoverlap, hcentre, ?_⟩)
      rw [pushApart, hdist, if_pos hadj, Triad.normalize, if_pos hzero]
      rfl
    · have hne : a.location.range b.location ≠ 0 := by
        rw [Triad.range_eq_magnatude, ne_eq, Triad.magnatude_eq_zero_iff, sub_eq_zero]
        exact hcentre
      refine .inr (.inr ⟨hoverlap, hcentre, (a.location - b.location) / a.location.range b.location
        * ((contactDist a b - a.location.range b.location) / 2), ?_, ?_⟩)
      · rw [pushApart, hdist, if_pos hadj, Triad.normalize, ← Triad.range_eq_magnatude, if_neg hne]
        rfl
      · rw [range_pushed hne _ hadj.le]
        ring

/-- The spheres no longer overlap, the centre between the two stays, and objects that did not
overlap are not moved. -/
structure Separates (a b : BaseObject ℝ) (r : Resolved) : Prop where
  apart : contactDist a b ≤ r.a.location.range r.b.location
  centre : r.a.location + r.b.location = a.location + b.location
  still : contactDist a b ≤ a.location.range b.location →
    r.a.location = a.location ∧ r.b.location = b.location

/-- The record of two objects that both live on, `a'` and `b'` after their `apply_collision`,
divides by nothing zero and separates them exactly when they have different centres or no extent. -/
theorem separates_iff (applyA applyB : ApplyCollision) (quanta : ℝ)
    (a b a₁ b₁ a' b' : BaseObject ℝ)
    (hlivesA : applyA a b quanta = (false, a₁, b₁))
    (hlivesB : applyB b₁ a₁ quanta = (false, b', a'))
    (hradiusA : 0 ≤ a'.boundingSphere.radius) (hradiusB : 0 ≤ b'.boundingSphere.radius) :
    (∃ r, resolveRecord applyA applyB quanta a b = some r ∧ Separates a' b' r)
      ↔ a'.location ≠ b'.location
        ∨ (a'.boundingSphere.radius = 0 ∧ b'.boundingSphere.radius = 0) := by
  have hrecord : resolveRecord applyA applyB quanta a b
      = (pushApart a' b').map fun p => ⟨p.1, p.2, false, false⟩ := by
    rw [resolveRecord, hlivesA]
    simp only [hlivesB]
    rfl
  have hdist : contactDist a' b' = a'.boundingSphere.radius + b'.boundingSphere.radius := rfl
  -- two objects with one centre overlap as soon as one of them has an extent
  have hzero : a'.location = b'.location → a'.location.range b'.location = 0 := fun h => by
    rw [Triad.range_eq_magnatude, Triad.magnatude_eq_zero_iff, h, sub_self]
  rw [hrecord]
  rcases pushApart_cases a' b' with
    ⟨hclear, hpush⟩ | ⟨hoverlap, hcentre, hpush⟩ | ⟨hoverlap, hcentre, d, hpush, hrange⟩
  · rw [hpush]
    refine iff_of_true ⟨_, rfl, hclear, rfl, fun _ => ⟨rfl, rfl⟩⟩ ?_
    by_cases hcentre : a'.location = b'.location
    · rw [hzero hcentre, hdist] at hclear
      exact .inr ⟨by linarith, by linarith⟩
    · exact .inl hcentre
  · rw [hpush]
    refine iff_of_false ?_ ?_
    · rintro ⟨r, hnone, _⟩
      cases hnone
    · rintro (hne | ⟨hpointA, hpointB⟩)
      · exact hne hcentre
      · rw [hzero hcentre, hdist, hpointA, hpointB, add_zero] at hoverlap
        exact lt_irrefl 0 hoverlap
  · rw [hpush]
    refine iff_of_true ⟨_, rfl, hrange.ge, ?_, fun hclear => absurd hoverlap hclear.not_gt⟩
      (.inl hcentre)
    exact add_add_sub_cancel _ _ _

/-- Two bots, one a unit away from the other. -/
theorem separates_bots :
    ∃ r, resolveRecord botApplyCollision botApplyCollision 1 ⟨0, 0, ⟨1⟩⟩ ⟨⟨1, 0, 0⟩, 0, ⟨1⟩⟩
        = some r
      ∧ Separates ⟨0, 0, ⟨1⟩⟩ ⟨⟨1, 0, 0⟩, 0, ⟨1⟩⟩ r := by
  refine (separates_iff botApplyCollision botApplyCollision 1 _ _ _ _ _ _ rfl rfl zero_le_one
    zero_le_one).mpr (.inl fun h => ?_)
  exact zero_ne_one (congrArg Triad.x h)

/-- Two bots on one spot are not separated: the division is one by zero. -/
theorem coincident_divides_by_zero :
    resolveRecord botApplyCollision botApplyCollision 1 ⟨0, 0, ⟨1⟩⟩ ⟨0, 0, ⟨1⟩⟩ = none
      ∧ ¬ ∃ r, resolveRecord botApplyCollision botApplyCollision 1 ⟨0, 0, ⟨1⟩⟩ ⟨0, 0, ⟨1⟩⟩ = some r
        ∧ Separates ⟨0, 0, ⟨1⟩⟩ ⟨0, 0, ⟨1⟩⟩ r := by
  have hrange : (0 : Triad ℝ).range 0 = 0 := by
    rw [Triad.range_eq_magnatude, Triad.magnatude_eq_zero_iff, sub_self]
  have hnone : resolveRecord botApplyCollision botApplyCollision 1 ⟨0, 0, ⟨1⟩⟩ ⟨0, 0, ⟨1⟩⟩
      = none := by
    show (pushApart ⟨0, 0, ⟨1⟩⟩ ⟨0, 0, ⟨1⟩⟩).map _ = none
    rcases pushApart_cases ⟨0, 0, ⟨1⟩⟩ ⟨0, 0, ⟨1⟩⟩ with ⟨hclear, _⟩ | ⟨_, _, hpush⟩ | ⟨_, hne, _⟩
    · have hradii : (1 : ℝ) + 1 ≤ (0 : Triad ℝ).range 0 := hclear
      rw [hrange] at hradii
      norm_num at hradii
    · rw [hpush]
      rfl
    · exact absurd rfl hne
  refine ⟨hnone, ?_⟩
  rw [hnone]
  rintro ⟨r, hsome, _⟩
  cases hsome

end Nrtb.SimCore
