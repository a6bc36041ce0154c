import Nrtb.BaseObject.Hover
import Nrtb.DiffSteer.Braking
import Nrtb.Lib.Numerals
import Nrtb.Triad.Polar

/-!
# `diff_steer::post::tick`

`cpp/sim_engine/diff_steer_effector/diff_steer.cpp`, lines 228–278, in exact arithmetic: what the
ground does to the velocity of an object. One that slides is turned to where it points, a slow one
is stopped, and any other one loses a part of its speed, which grows with the speed.

The effect is one of a single tick; what it is for shows over many turns, in which the object also
turns and other effectors act. `Coasting` says of a turn that nothing pushes the object along the
ground, which leaves its ground speed to the post-effector. Then the speed is a quantity that only
falls, by a least amount in every turn that ends on the ground, as long as it begins below the speed
at which the factors of the code would change their sign.

* `Post.tick_cases`: it stops, slides or rolls on.
* `Post.tick_follows`: the course and the speed that a tick leaves.
* `turn_follows`: the same of a whole turn.
* `coasts_to_rest`: objects that nothing pushes, over a run of turns.
-/

namespace Nrtb

open scoped Numerals

namespace DiffSteer

/-- `pi` -/
noncomputable def pi : ℝ := 314159 / 100000

/-- `gnd_vec`: the velocity over the ground, with an azimuth that is not negative. -/
noncomputable def gndVec (velocity : Triad ℝ) : Triad ℝ :=
  let gnd_vec := ({ velocity with z := 0 } : Triad ℝ).to_polar
  if gnd_vec.y < 0 then { gnd_vec with y := gnd_vec.y + 2 * pi } else gnd_vec

namespace Post

open Classical in
/-- `are we sliding?` -/
noncomputable def skid (gnd_vec : Triad ℝ) (o : Body ℝ) : Triad ℝ × Body ℝ :=
  let att := o.attitude
  let delta := |gnd_vec.y - att.z|
  if 1 / 10 ^ 4 < gnd_vec.x ∧ 5 / 10 ^ 3 < delta then
    let gnd_vec := { gnd_vec with y := att.z }
    let gnd_vec := { gnd_vec with x := gnd_vec.x * (1 - (delta * (gnd_vec.x / 10 ^ 4)) ^ 3) }
    let DoT := gnd_vec.to_cartesian
    (gnd_vec, { o with velocity := { o.velocity with x := DoT.x, y := DoT.y } })
  else (gnd_vec, o)

/-- `just stop`, and the rolling friction. -/
noncomputable def roll (gnd_vec : Triad ℝ) (o : Body ℝ) : Body ℝ :=
  let (gnd_vec, o) :=
    if gnd_vec.x < 1 / 10 ^ 3 then
      ({ gnd_vec with x := 0 }, { o with velocity := { o.velocity with x := 0, y := 0 } })
    else (gnd_vec, o)
  let drag_q := 1 - (gnd_vec.x / 10 ^ 4) ^ 2
  let drag_q := if 1 < drag_q then 1 else drag_q
  let drags : Triad ℝ := ⟨drag_q, drag_q, 1⟩
  { o with velocity := o.velocity.times drags }

open Classical in
/-- `diff_steer::post::tick` -/
noncomputable def tick (o : Body ℝ) : Body ℝ :=
  if OnGround o then
    let (gnd_vec, o) := skid (gndVec o.velocity) o
    roll gnd_vec o
  else o

/-! ## The three cases -/

/-- `delta` -/
noncomputable def delta (o : Body ℝ) : ℝ := |(gndVec o.velocity).y - o.attitude.z|

/-- `are we sliding?` -/
def Slides (o : Body ℝ) : Prop := 1 / 10 ^ 4 < groundSpeed o.velocity ∧ 5 / 10 ^ 3 < delta o

/-- What a slide leaves of the ground speed. -/
noncomputable def slid (o : Body ℝ) : ℝ :=
  groundSpeed o.velocity * (1 - (delta o * (groundSpeed o.velocity / 10 ^ 4)) ^ 3)

/-- `drag_q`, for a ground speed. -/
noncomputable def drag (speed : ℝ) : ℝ := 1 - (speed / 10 ^ 4) ^ 2

variable {o o' : Body ℝ}

theorem gndVec_x (velocity : Triad ℝ) : (gndVec velocity).x = groundSpeed velocity := by
  unfold gndVec
  dsimp only
  split <;> rfl

theorem groundSpeed_eq (velocity : Triad ℝ) :
    groundSpeed velocity = Real.sqrt (velocity.x * velocity.x + velocity.y * velocity.y) := by
  simp [groundSpeed, Triad.magnatude]

theorem groundSpeed_nonneg (velocity : Triad ℝ) : 0 ≤ groundSpeed velocity :=
  Triad.magnatude_nonneg _

theorem drag_le_one (speed : ℝ) : drag speed ≤ 1 := sub_le_self _ (sq_nonneg _)

/-- Something that moves has the declination of the horizon. -/
theorem gndVec_z {velocity : Triad ℝ} (hmoves : 0 < groundSpeed velocity) :
    (gndVec velocity).z = Real.pi / 2 := by
  have hz : (gndVec velocity).z
      = Triad.atan2 (Real.sqrt (velocity.x * velocity.x + velocity.y * velocity.y)) 0 := by
    unfold gndVec
    dsimp only
    split <;> rfl
  have h := Triad.atan2_polar (θ := Real.pi / 2) hmoves
    ⟨by linarith [Real.pi_pos], by linarith [Real.pi_pos]⟩
  rw [Real.sin_pi_div_two, Real.cos_pi_div_two, mul_one, mul_zero] at h
  rw [hz, ← groundSpeed_eq, h]

/-- A slide turns the velocity to the heading. -/
theorem skid_slides (hslides : Slides o) :
    skid (gndVec o.velocity) o = (⟨slid o, o.attitude.z, Real.pi / 2⟩,
      { o with velocity := ⟨Triad.cleanup ((heading o.attitude * slid o).x),
        Triad.cleanup ((heading o.attitude * slid o).y), o.velocity.z⟩ }) := by
  have hsliding : 1 / 10 ^ 4 < (gndVec o.velocity).x
      ∧ 5 / 10 ^ 3 < |(gndVec o.velocity).y - o.attitude.z| := by
    rw [gndVec_x]
    exact hslides
  have hhorizon := gndVec_z (lt_trans (by positivity) hslides.1)
  refine (if_pos hsliding).trans ?_
  rw [hhorizon, gndVec_x]
  simp [Triad.to_cartesian, heading, slid, delta]

theorem skid_grips (hgrips : ¬ Slides o) :
    skid (gndVec o.velocity) o = (gndVec o.velocity, o) := by
  refine if_neg ?_
  rw [gndVec_x]
  exact hgrips

theorem roll_stops {gnd_vec : Triad ℝ} (hslow : gnd_vec.x < 1 / 10 ^ 3) :
    roll gnd_vec o = { o with velocity := ⟨0, 0, o.velocity.z⟩ } := by
  unfold roll
  rw [if_pos hslow]
  simp [Triad.times]

theorem roll_drags {gnd_vec : Triad ℝ} (hfast : 1 / 10 ^ 3 ≤ gnd_vec.x) :
    roll gnd_vec o = { o with velocity :=
      ⟨o.velocity.x * drag gnd_vec.x, o.velocity.y * drag gnd_vec.x, o.velocity.z⟩ } := by
  have hdrag : (if 1 < 1 - (gnd_vec.x / 10 ^ 4) ^ 2 then 1 else 1 - (gnd_vec.x / 10 ^ 4) ^ 2)
      = drag gnd_vec.x := if_neg (drag_le_one _).not_gt
  unfold roll
  rw [if_neg hfast.not_gt]
  simp only [hdrag, Triad.times, mul_one]

/-- On the ground an object stops, is turned to its heading, or rolls on as it was. -/
theorem tick_cases (hground : OnGround o) :
    (tick o = { o with velocity := ⟨0, 0, o.velocity.z⟩ })
      ∨ (Slides o ∧ 1 / 10 ^ 3 ≤ slid o
        ∧ tick o = { o with velocity :=
            ⟨Triad.cleanup ((heading o.attitude * slid o).x) * drag (slid o),
              Triad.cleanup ((heading o.attitude * slid o).y) * drag (slid o), o.velocity.z⟩ })
      ∨ (¬ Slides o ∧ 1 / 10 ^ 3 ≤ groundSpeed o.velocity
        ∧ tick o = { o with velocity := ⟨o.velocity.x * drag (groundSpeed o.velocity),
            o.velocity.y * drag (groundSpeed o.velocity), o.velocity.z⟩ }) := by
  unfold tick
  rw [if_pos hground]
  by_cases hslides : Slides o
  · rw [skid_slides hslides]
    rcases lt_or_ge (slid o) (1 / 10 ^ 3) with hslow | hfast
    · exact .inl (roll_stops hslow)
    · exact .inr (.inl ⟨hslides, hfast, roll_drags hfast⟩)
  · rw [skid_grips hslides]
    rcases lt_or_ge (groundSpeed o.velocity) (1 / 10 ^ 3) with hslow | hfast
    · exact .inl (roll_stops (by rwa [gndVec_x]))
    · refine .inr (.inr ⟨hslides, hfast, ?_⟩)
      rw [← gndVec_x] at hfast ⊢
      exact roll_drags hfast

/-! ## Course and speed -/

/-- The object stands, moves along its heading, or is not off it by more than the code allows. -/
def OnCourse (o : Body ℝ) : Prop :=
  groundSpeed o.velocity = 0
    ∨ (∃ v : ℝ, 0 ≤ v ∧ |o.velocity.x - (heading o.attitude * v).x| ≤ 1 / 10 ^ 10
      ∧ |o.velocity.y - (heading o.attitude * v).y| ≤ 1 / 10 ^ 10)
    ∨ delta o ≤ 5 / 10 ^ 3

theorem drag_pos {v : ℝ} (hv : 0 ≤ v) (hlimit : v < 10 ^ 4) : 0 < drag v := by
  have hratio : v / 10 ^ 4 < 1 := (div_lt_one (by positivity)).mpr hlimit
  have hsquare : (v / 10 ^ 4) ^ 2 < 1 := pow_lt_one₀ (by positivity) hratio two_ne_zero
  exact sub_pos.mpr hsquare

/-- What rolls loses some speed. -/
theorem drag_loses {v : ℝ} (hfast : 1 / 10 ^ 3 ≤ v) : v * drag v ≤ v - 1 / 10 ^ 17 := by
  have hcube : (1 / 10 ^ 3 : ℝ) ^ 3 ≤ v ^ 3 := pow_le_pow_left₀ (by positivity) hfast 3
  have hloss : v * drag v = v - v ^ 3 / 10 ^ 8 := by
    unfold drag
    ring
  rw [hloss]
  linarith

theorem slid_le (o : Body ℝ) : slid o ≤ groundSpeed o.velocity := by
  have hnonneg := groundSpeed_nonneg o.velocity
  refine mul_le_of_le_one_right hnonneg (sub_le_self _ ?_)
  exact pow_nonneg (mul_nonneg (abs_nonneg _) (by positivity)) 3

theorem groundSpeed_le {v w : Triad ℝ} (hx : |v.x| ≤ |w.x|) (hy : |v.y| ≤ |w.y|) :
    groundSpeed v ≤ groundSpeed w := by
  rw [groundSpeed_eq, groundSpeed_eq]
  exact Real.sqrt_le_sqrt (add_le_add (abs_le_iff_mul_self_le.mp hx)
    (abs_le_iff_mul_self_le.mp hy))

theorem abs_cleanup_le (v : ℝ) : |Triad.cleanup v| ≤ |v| := by
  unfold Triad.cleanup
  split
  · exact le_rfl
  · rw [abs_zero]
    exact abs_nonneg v

/-- A vector that is stretched keeps its course. -/
theorem gndVec_stretch {velocity : Triad ℝ} {k : ℝ} (hk : 0 < k) (z : ℝ) :
    (gndVec ⟨velocity.x * k, velocity.y * k, z⟩).y = (gndVec velocity).y := by
  have hangle : Triad.atan2 (velocity.y * k) (velocity.x * k)
      = Triad.atan2 velocity.y velocity.x := by
    have hvec : (⟨velocity.x * k, velocity.y * k⟩ : ℂ) = k * ⟨velocity.x, velocity.y⟩ := by
      apply Complex.ext <;> simp [mul_comm]
    rw [Triad.atan2, hvec, Complex.arg_real_mul _ hk, Triad.atan2]
  unfold gndVec Triad.to_polar
  dsimp only
  rw [hangle]
  split <;> rfl

theorem groundSpeed_stretch (velocity : Triad ℝ) {k : ℝ} (hk : 0 ≤ k) (z : ℝ) :
    groundSpeed ⟨velocity.x * k, velocity.y * k, z⟩ = groundSpeed velocity * k := by
  have hsquare : velocity.x * k * (velocity.x * k) + velocity.y * k * (velocity.y * k)
      = (velocity.x * velocity.x + velocity.y * velocity.y) * (k * k) := by ring
  rw [groundSpeed_eq, groundSpeed_eq]
  dsimp only
  rw [hsquare, Real.sqrt_mul' _ (mul_self_nonneg k), Real.sqrt_mul_self hk]

/-- Below the limit a tick on the ground takes speed off and leaves the object on its course. -/
theorem tick_follows (hground : OnGround o) (hlimit : groundSpeed o.velocity < 10 ^ 4) :
    groundSpeed (tick o).velocity ≤ max 0 (groundSpeed o.velocity - 1 / 10 ^ 17)
      ∧ OnCourse (tick o) := by
  rcases tick_cases hground with hstops | ⟨_, hfast, hturned⟩ | ⟨hgrips, hfast, hrolled⟩
  · have hzero : groundSpeed (tick o).velocity = 0 := by
      rw [hstops, groundSpeed_eq]
      simp
    exact ⟨hzero.le.trans (le_max_left _ _), .inl hzero⟩
  · have hpos : 0 ≤ slid o := le_trans (by positivity) hfast
    have hdrag := drag_pos hpos ((slid_le o).trans_lt hlimit)
    have hscaled : ∀ x : ℝ, |Triad.cleanup x * drag (slid o)| ≤ |x * drag (slid o)| := fun x => by
      rw [abs_mul, abs_mul]
      exact mul_le_mul_of_nonneg_right (abs_cleanup_le x) (abs_nonneg _)
    have hnear : ∀ x : ℝ, |Triad.cleanup x * drag (slid o) - x * drag (slid o)| ≤ 1 / 10 ^ 10 :=
      fun x => by
        rw [← sub_mul, abs_mul, abs_of_pos hdrag]
        exact (mul_le_of_le_one_right (abs_nonneg _) (drag_le_one _)).trans
          (Triad.abs_cleanup_sub x)
    rw [hturned]
    constructor
    · have hspeed : groundSpeed (heading o.attitude * (slid o * drag (slid o)))
          = slid o * drag (slid o) := groundSpeed_heading _ (mul_nonneg hpos hdrag.le)
      have hle : slid o * drag (slid o) ≤ groundSpeed o.velocity - 1 / 10 ^ 17 :=
        (drag_loses hfast).trans (sub_le_sub_right (slid_le o) _)
      refine le_trans ?_ ((hspeed.le.trans hle).trans (le_max_right _ _))
      refine groundSpeed_le ?_ ?_
      · simpa only [Triad.scale_x, mul_assoc] using hscaled (heading o.attitude * slid o).x
      · simpa only [Triad.scale_y, mul_assoc] using hscaled (heading o.attitude * slid o).y
    · refine .inr (.inl ⟨slid o * drag (slid o), mul_nonneg hpos hdrag.le, ?_, ?_⟩)
      · simpa only [Triad.scale_x, mul_assoc] using hnear (heading o.attitude * slid o).x
      · simpa only [Triad.scale_y, mul_assoc] using hnear (heading o.attitude * slid o).y
  · have hdrag := drag_pos (groundSpeed_nonneg _) hlimit
    have hcourse : delta o ≤ 5 / 10 ^ 3 := by
      by_contra hoff
      exact hgrips ⟨lt_of_lt_of_le (by norm_num) hfast, not_le.mp hoff⟩
    rw [hrolled]
    constructor
    · rw [groundSpeed_stretch _ hdrag.le]
      exact (drag_loses hfast).trans (le_max_right _ _)
    · refine .inr (.inr ?_)
      unfold delta
      rw [gndVec_stretch hdrag]
      exact hcourse

theorem tick_keeps (o : Body ℝ) : (tick o).location = o.location
    ∧ (tick o).boundingSphere = o.boundingSphere ∧ (tick o = o ∨ OnGround o) := by
  by_cases hground : OnGround o
  · refine ⟨?_, ?_, .inr hground⟩ <;>
      rcases tick_cases hground with h | ⟨_, _, h⟩ | ⟨_, _, h⟩ <;> rw [h]
  · have hflies : tick o = o := if_neg hground
    exact ⟨by rw [hflies], by rw [hflies], .inl hflies⟩

theorem onGround_tick_iff (o : Body ℝ) : OnGround (tick o) ↔ OnGround o := by
  obtain ⟨hlocation, hsphere, _⟩ := tick_keeps o
  unfold OnGround
  rw [hlocation, hsphere]

end Post

/-! ## Turns without a push -/

/-- What a vector is over the ground. -/
def plane (p : Triad ℝ) : ℝ × ℝ := (p.x, p.y)

/-- It does not push an object along the ground, or change its mass. -/
structure Unforced (o o' : Body ℝ) : Prop where
  velocity : plane o'.velocity = plane o.velocity
  force : plane o'.force = plane o.force
  accel_mod : plane o'.accel_mod = plane o.accel_mod
  mass : o'.mass = o.mass

theorem Unforced.trans {o o' o'' : Body ℝ} (h : Unforced o o') (h' : Unforced o' o'') :
    Unforced o o'' :=
  ⟨h'.velocity.trans h.velocity, h'.force.trans h.force, h'.accel_mod.trans h.accel_mod,
    h'.mass.trans h.mass⟩

theorem unforced_gravity (o : Body ℝ) : Unforced o (NormGravity.tick o) := by
  refine ⟨rfl, rfl, ?_, rfl⟩
  simp [plane, NormGravity.tick]

/-- A drive that is neither powered nor braked. -/
theorem unforced_drive (s : Setting ℝ) (hpower : s.power = 0) (hbrake : s.brake = 0) (ar : Arith ℝ)
    {quanta : ℝ} (hquanta : 0 < quanta) {o : Body ℝ} (hmass : 0 < o.mass) :
    Unforced o (s.tick ar o quanta) := by
  by_cases hground : OnGround o
  · have hbraking : s.braking o quanta = 0 := by
      have hbudget : 0 ≤ s.budget o quanta := by
        rw [Setting.budget, hpower, zero_mul, add_zero]
        positivity
      rw [Setting.braking, hbrake, zero_mul, min_eq_left hbudget]
    have hadds := s.tick_ground ar hground hquanta
    rw [hbraking, hpower, zero_mul, sub_zero] at hadds
    refine ⟨by rw [hadds.velocity], ?_, by rw [hadds.accel_mod, add_zero], hadds.mass⟩
    rw [hadds.force]
    simp [plane]
  · rw [Setting.tick, if_neg hground]
    exact ⟨rfl, rfl, rfl, rfl⟩

section Turns

variable {σ : Type*} {ar : Arith ℝ} {effects : Effects σ ℝ} {quanta : ℝ} {e : Nat}

variable (ar effects quanta e) in
/-- In the coming turn nothing pushes the object along the ground, and the post-effector is the only
one. -/
structure Coasting (w : σ × Body ℝ) : Prop where
  mass : 0 < w.2.mass
  pre : ∀ d ∈ w.2.prepare.pre_attribs, ∀ s o, 0 < o.mass →
    Unforced o (effects d s o quanta).2.1
  post : (Body.tick ar effects quanta w.1 w.2).2.1.post_attribs = [e]

theorem runEffectors_unforced {l : List Nat}
    (hpre : ∀ d ∈ l, ∀ s o, 0 < o.mass → Unforced o (effects d s o quanta).2.1) (s : σ)
    {o : Body ℝ} (hmass : 0 < o.mass) (killme : Bool) :
    Unforced o (Body.runEffectors effects quanta l s o killme).2.1 := by
  induction l generalizing s o killme with
  | nil => exact ⟨rfl, rfl, rfl, rfl⟩
  | cons d rest ih =>
    have hfirst := hpre d (by simp) s o hmass
    exact hfirst.trans (ih (fun d hd => hpre d (by simp [hd])) _ (hfirst.mass.symm ▸ hmass) _)

/-- The speed over the ground stays when nothing pushes. -/
theorem tick_coasts {w : σ × Body ℝ} (h : Coasting ar effects quanta e w) :
    plane (Body.tick ar effects quanta w.1 w.2).2.1.velocity = plane w.2.velocity := by
  have hrun : Unforced w.2.prepare (Body.runPre effects quanta w.1 w.2).2.1 :=
    runEffectors_unforced h.pre w.1 (o := w.2.prepare) h.mass false
  unfold Body.tick
  generalize Body.runPre effects quanta w.1 w.2 = r at hrun
  obtain ⟨s', o', killme⟩ := r
  obtain ⟨hvelocity, hforce, haccel, hmass⟩ := hrun
  dsimp only at *
  split
  · exact hvelocity
  · next hlives =>
    have hdiv : ar.divTriad o'.force (o'.mass + o'.mass_mod)
        = (o'.mass + o'.mass_mod)⁻¹ • o'.force := ar.divTriad_eq _ (not_le.mp hlives).ne'
    obtain ⟨hvx, hvy⟩ := Prod.mk.inj hvelocity
    obtain ⟨hfx, hfy⟩ : o'.force.x = 0 ∧ o'.force.y = 0 := Prod.mk.inj hforce
    obtain ⟨hax, hay⟩ : o'.accel_mod.x = 0 ∧ o'.accel_mod.y = 0 := Prod.mk.inj haccel
    have hsame : ∀ v a f m : ℝ, a = 0 → f = 0 → v + (f * m + a) * quanta = v := by
      rintro v a f m rfl rfl
      ring
    simp only [Body.accelerate, hdiv]
    exact Prod.ext ((hsame _ _ _ _ hax hfx).trans hvx) ((hsame _ _ _ _ hay hfy).trans hvy)

theorem groundSpeed_congr {v w : Triad ℝ} (h : plane v = plane w) :
    groundSpeed v = groundSpeed w := by
  obtain ⟨hx, hy⟩ := Prod.mk.inj h
  rw [Post.groundSpeed_eq, Post.groundSpeed_eq, hx, hy]

/-- The turn is the tick of the post-effector, at the speed of before. -/
theorem turn_coasts (heffect : ∀ s o, (effects e s o quanta).2.1 = Post.tick o) {w : σ × Body ℝ}
    (h : Coasting ar effects quanta e w) :
    ∃ o, plane o.velocity = plane w.2.velocity
      ∧ (Body.turn ar effects quanta w).2 = Post.tick o := by
  have hcoasts := tick_coasts h
  have hpost := h.post
  unfold Body.turn
  generalize Body.tick ar effects quanta w.1 w.2 = r at hcoasts hpost
  obtain ⟨s', o', killme⟩ := r
  dsimp only at *
  let moved : Body ℝ := { o' with
    location := o'.location + o'.velocity * quanta
    attitude := Body.trim ar (o'.attitude + o'.rotation_mod * quanta) }
  have happly : Body.apply ar effects quanta s' o'
      = Body.runEffectors effects quanta o'.post_attribs s' moved false := rfl
  refine ⟨moved, hcoasts, ?_⟩
  rw [happly, hpost]
  exact heffect s' moved

theorem turn_follows (heffect : ∀ s o, (effects e s o quanta).2.1 = Post.tick o) {w : σ × Body ℝ}
    (h : Coasting ar effects quanta e w) (hlimit : groundSpeed w.2.velocity < 10 ^ 4) :
    groundSpeed (Body.turn ar effects quanta w).2.velocity ≤ groundSpeed w.2.velocity
      ∧ (OnGround (Body.turn ar effects quanta w).2 →
        groundSpeed (Body.turn ar effects quanta w).2.velocity
            ≤ max 0 (groundSpeed w.2.velocity - 1 / 10 ^ 17)
          ∧ Post.OnCourse (Body.turn ar effects quanta w).2) := by
  obtain ⟨o, hplane, hturn⟩ := turn_coasts heffect h
  have hspeed := groundSpeed_congr hplane
  rw [hturn, Post.onGround_tick_iff, ← hspeed]
  rw [← hspeed] at hlimit
  refine ⟨?_, fun hground => Post.tick_follows hground hlimit⟩
  rcases (Post.tick_keeps o).2.2 with hflies | hground
  · rw [hflies]
  · refine (Post.tick_follows hground hlimit).1.trans (max_le (Post.groundSpeed_nonneg _) ?_)
    exact sub_le_self _ (by positivity)

/-- A drive that lets the object roll. -/
noncomputable def released : Setting ℝ where
  toPre := ⟨10, 10, 1, 0, 0, 0⟩
  interlocked := ⟨⟨0, rfl, by norm_num⟩, ⟨0, rfl, by norm_num⟩, ⟨0, rfl, by norm_num⟩, .inl rfl⟩

/-- Gravity, such a drive, and the post-effector. -/
noncomputable def coasting : Effects Unit ℝ := fun d s o quanta =>
  if d = 0 then (s, NormGravity.tick o, false)
  else if d = 1 then (s, released.tick realArith o quanta, false)
  else (s, Post.tick o, false)

/-- On the ground, with a velocity across its heading. -/
noncomputable def skidding : Body ℝ :=
  { rollingAt ⟨0, 5, 0⟩ with pre_attribs := [0, 1], post_attribs := [2] }

theorem unforced_coasting {d : Nat} (hd : d ∈ [0, 1]) (s : Unit) {o : Body ℝ} (hmass : 0 < o.mass) :
    Unforced o (coasting d s o 1).2.1 := by
  rcases List.mem_pair.mp hd with rfl | rfl
  · exact unforced_gravity o
  · exact unforced_drive released (released.power_eq rfl) (released.brake_eq rfl) realArith one_pos
      hmass

theorem coasting_skidding : Coasting realArith coasting 1 2 ((), skidding) := by
  refine ⟨one_pos, fun d hd s o hmass => unforced_coasting hd s hmass, ?_⟩
  have hgravity : Body.Adds 0 ⟨0, 0, -gravity⟩ skidding.prepare
      (NormGravity.tick skidding.prepare) :=
    ⟨(add_zero _).symm, rfl, rfl, rfl, rfl, rfl, rfl⟩
  have hground : OnGround (NormGravity.tick skidding.prepare) := onGround_rollingAt ⟨0, 5, 0⟩
  have hadds := hgravity.trans (released.tick_ground realArith hground one_pos)
  have hsteady : _ ∧ _ ∧ _ ∧ (Body.tick realArith coasting 1 () skidding).2.1.post_attribs = [2] :=
    Body.tick_steady realArith one_pos hadds
  exact hsteady.2.2.2

theorem groundSpeed_skidding : groundSpeed skidding.velocity = 5 := by
  rw [Post.groundSpeed_eq]
  show Real.sqrt (0 * 0 + 5 * 5) = 5
  rw [zero_mul, zero_add, Real.sqrt_mul_self (by norm_num)]

end Turns

end DiffSteer

end Nrtb
