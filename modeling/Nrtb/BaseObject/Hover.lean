import Nrtb.BaseObject.Motion
import Nrtb.Lib.Relay
import Mathlib.Tactic.NormNum

/-!
# An object that hovers

`cpp/sim_engine/hover_effector/hover.cpp`, lines 44–56, and
`cpp/sim_engine/gravity_effector/gravity.cpp`, lines 38–42, over the turns of `base_object`. Near
its altitude the effector flips the acceleration at the set point and damps the vertical velocity to
nine tenths: a relay with damping.

Such a relay does not come to rest, it goes up and down around the set point for ever, and what can
be said of it is how far. The invariant is a set of pairs of altitude and velocity that one step
does not leave (`Lib.Relay`): three levels, with the speeds that occur on each, as long as each side
of the set point is left within one step. The constants of the code and turns of a fiftieth of a
second see to that.

* `turn_vertical`: what a turn does to altitude and vertical velocity.
* `hover_step`: near the set altitude a turn is a step of the relay, for an object that is equipped
  with the two effectors and nothing else that acts vertically.
* `hover_holds`: the altitude is held for any number of turns.
-/

namespace Nrtb

open scoped Numerals

/-- Exact arithmetic with `powf`, of which the square is used. -/
structure PowArith (K : Type*) [Field K] extends Arith K where
  powf : K → K → K
  powf_two : ∀ x, powf x 2 = x ^ 2

variable {σ K : Type*} [Field K] [LinearOrder K]

/-! ## The effectors -/

/-- `9.80665` -/
def gravity : K := 980665 / 100000

omit [LinearOrder K] in
/-- `norm_gravity::tick` -/
def NormGravity.tick (o : Body K) : Body K :=
  { o with accel_mod := o.accel_mod + ⟨0, 0, -gravity⟩ }

/-- `hover` -/
structure Hover (K : Type*) where
  set_altitude : K
  range : K
  curve : K

namespace Hover

variable (pa : PowArith K) (h : Hover K)

/-- What overrides the assumed gravity below the setting. -/
def lift (z : K) : K := if z < h.set_altitude then gravity * 2 else 0

/-- The factor that damps the vertical velocity. -/
def damping (z : K) : K :=
  let deviation := |h.set_altitude - z|
  let damp := pa.powf (1 - pa.div deviation h.range) h.curve
  if 9 / 10 < damp then 9 / 10 else damp

/-- `hover::tick` -/
def tick (o : Body K) : Body K :=
  let o := if o.location.z < h.set_altitude then
      { o with accel_mod := { o.accel_mod with z := o.accel_mod.z + gravity * 2 } }
    else o
  { o with velocity := { o.velocity with z := o.velocity.z * h.damping pa o.location.z } }

theorem tick_vertical (o : Body K) :
    (h.tick pa o).location = o.location ∧ (h.tick pa o).force = o.force
      ∧ (h.tick pa o).accel_mod.z = o.accel_mod.z + h.lift o.location.z
      ∧ (h.tick pa o).velocity.z = o.velocity.z * h.damping pa o.location.z := by
  unfold tick lift
  split
  · exact ⟨rfl, rfl, rfl, rfl⟩
  · exact ⟨rfl, rfl, (add_zero _).symm, rfl⟩

end Hover

namespace Body

/-! ## A turn, seen from the side -/

/-- The effector does not act vertically. -/
structure Level (effects : Effects σ K) (quanta : K) (e : Nat) : Prop where
  location : ∀ s o, (effects e s o quanta).2.1.location.z = o.location.z
  velocity : ∀ s o, (effects e s o quanta).2.1.velocity.z = o.velocity.z
  force : ∀ s o, (effects e s o quanta).2.1.force.z = o.force.z
  accel_mod : ∀ s o, (effects e s o quanta).2.1.accel_mod.z = o.accel_mod.z

/-- Two ids stand for `norm_gravity` and a `hover`. -/
structure Hovering (pa : PowArith K) (effects : Effects σ K) (quanta : K) (h : Hover K)
    (grav hov : Nat) : Prop where
  ne : grav ≠ hov
  gravity : ∀ s o, (effects grav s o quanta).2.1 = NormGravity.tick o
  hover : ∀ s o, (effects hov s o quanta).2.1 = h.tick pa o

/-- In the coming turn these two are run once, no other effector acts vertically, and the mass is
not used up. -/
structure Equipped (pa : PowArith K) (effects : Effects σ K) (quanta : K) (grav hov : Nat)
    (w : σ × Body K) : Prop where
  gravity_once : w.2.prepare.pre_attribs.count grav = 1
  hover_once : w.2.prepare.pre_attribs.count hov = 1
  pre : ∀ e ∈ w.2.prepare.pre_attribs, e ≠ grav → e ≠ hov → Level effects quanta e
  post : ∀ e ∈ (tick pa.toArith effects quanta w.1 w.2).2.1.post_attribs, Level effects quanta e
  mass : 0 < (runPre effects quanta w.1 w.2).2.1.mass + (runPre effects quanta w.1 w.2).2.1.mass_mod

section Turn

variable {pa : PowArith K} {effects : Effects σ K} {quanta : K} {h : Hover K} {grav hov : Nat}

/-- The vertical part of a run of effectors. -/
theorem runEffectors_vertical (hh : Hovering pa effects quanta h grav hov) {l : List Nat}
    (hlevel : ∀ e ∈ l, e ≠ grav → e ≠ hov → Level effects quanta e) (s : σ) (o : Body K)
    (killme : Bool) :
    let o' := (runEffectors effects quanta l s o killme).2.1
    o'.location.z = o.location.z ∧ o'.force.z = o.force.z
      ∧ o'.accel_mod.z = o.accel_mod.z + l.count grav * -gravity
          + l.count hov * h.lift o.location.z
      ∧ o'.velocity.z = o.velocity.z * h.damping pa o.location.z ^ l.count hov := by
  induction l generalizing s o killme with
  | nil => simp [runEffectors]
  | cons e rest ih =>
    have hrest : ∀ e ∈ rest, e ≠ grav → e ≠ hov → Level effects quanta e := fun d hd =>
      hlevel d (by simp [hd])
    obtain ⟨hlocation, hforce, haccel, hvelocity⟩ := ih hrest (effects e s o quanta).1
      (effects e s o quanta).2.1 (killme || (effects e s o quanta).2.2)
    simp only [runEffectors]
    rw [hlocation, hforce, haccel, hvelocity]
    by_cases hgrav : e = grav
    · subst hgrav
      rw [hh.gravity, List.count_cons_self, List.count_cons_of_ne hh.ne]
      refine ⟨rfl, rfl, ?_, rfl⟩
      simp only [NormGravity.tick, Triad.add_z]
      push_cast
      ring
    by_cases hhov : e = hov
    · subst hhov
      obtain ⟨hl, hf, ha, hv⟩ := h.tick_vertical pa o
      rw [hh.hover, List.count_cons_self, List.count_cons_of_ne (Ne.symm hh.ne), hl, hf, ha, hv]
      refine ⟨rfl, rfl, ?_, ?_⟩
      · push_cast
        ring
      · ring
    · have hlev := hlevel e (by simp) hgrav hhov
      rw [List.count_cons_of_ne hgrav, List.count_cons_of_ne hhov, hlev.location, hlev.force,
        hlev.accel_mod, hlev.velocity]
      exact ⟨rfl, rfl, rfl, rfl⟩

omit [Field K] [LinearOrder K] in
/-- Post-effectors that do not act vertically. -/
theorem runEffectors_level {l : List Nat} (hlevel : ∀ e ∈ l, Level effects quanta e) (s : σ)
    (o : Body K) (killme : Bool) :
    (runEffectors effects quanta l s o killme).2.1.location.z = o.location.z
      ∧ (runEffectors effects quanta l s o killme).2.1.velocity.z = o.velocity.z := by
  induction l generalizing s o killme with
  | nil => exact ⟨rfl, rfl⟩
  | cons e rest ih =>
    obtain ⟨hlocation, hvelocity⟩ := ih (fun d hd => hlevel d (by simp [hd]))
      (effects e s o quanta).1 (effects e s o quanta).2.1 (killme || (effects e s o quanta).2.2)
    have hlev := hlevel e (by simp)
    simp only [runEffectors]
    exact ⟨hlocation.trans (hlev.location s o), hvelocity.trans (hlev.velocity s o)⟩

/-- `tick`: gravity, the lift, and the damped velocity. -/
theorem tick_vertical (hh : Hovering pa effects quanta h grav hov) {w : σ × Body K}
    (heq : Equipped pa effects quanta grav hov w) :
    (tick pa.toArith effects quanta w.1 w.2).2.1.location.z = w.2.location.z
      ∧ (tick pa.toArith effects quanta w.1 w.2).2.1.velocity.z
        = w.2.velocity.z * h.damping pa w.2.location.z
          + (h.lift w.2.location.z - gravity) * quanta := by
  obtain ⟨hlocation, hforce, haccel, hvelocity⟩ :=
    runEffectors_vertical hh heq.pre w.1 w.2.prepare false
  have hmass := heq.mass
  have haccel0 : w.2.prepare.accel_mod = 0 := rfl
  have hforce0 : w.2.prepare.force = 0 := rfl
  have hsame : w.2.prepare.location = w.2.location := rfl
  have hsame' : w.2.prepare.velocity = w.2.velocity := rfl
  rw [heq.gravity_once, heq.hover_once, haccel0, hsame, Triad.zero_z, zero_add, Nat.cast_one,
    one_mul, one_mul] at haccel
  rw [heq.hover_once, hsame, hsame', pow_one] at hvelocity
  rw [hforce0, Triad.zero_z] at hforce
  rw [tick]
  rw [runPre] at hmass ⊢
  generalize runEffectors effects quanta w.2.prepare.pre_attribs w.1 w.2.prepare false = r at *
  obtain ⟨s', o', killme⟩ := r
  dsimp only at *
  have hstill : pa.div o'.force.z (o'.mass + o'.mass_mod) = 0 := by
    rw [pa.div_eq _ _ hmass.ne', hforce, zero_div]
  simp only [if_neg hmass.not_ge]
  refine ⟨hlocation, ?_⟩
  simp only [accelerate, Triad.add_z, Triad.scale_z, Arith.divTriad, hstill, haccel, hvelocity]
  ring

/-- A turn moves the altitude by the velocity that it ends with. -/
theorem turn_vertical (hh : Hovering pa effects quanta h grav hov) {w : σ × Body K}
    (heq : Equipped pa effects quanta grav hov w) :
    (turn pa.toArith effects quanta w).2.velocity.z
        = w.2.velocity.z * h.damping pa w.2.location.z
          + (h.lift w.2.location.z - gravity) * quanta
      ∧ (turn pa.toArith effects quanta w).2.location.z
        = w.2.location.z + (turn pa.toArith effects quanta w).2.velocity.z * quanta := by
  obtain ⟨hlocation, hvelocity⟩ := tick_vertical hh heq
  have hpost := heq.post
  rw [turn]
  generalize tick pa.toArith effects quanta w.1 w.2 = r at *
  obtain ⟨s', o', killme⟩ := r
  dsimp only at *
  rw [apply]
  obtain ⟨hl, hv⟩ := runEffectors_level hpost s' { o' with
    location := o'.location + o'.velocity * quanta
    attitude := trim pa.toArith (o'.attitude + o'.rotation_mod * quanta) } false
  refine ⟨hv.trans hvelocity, ?_⟩
  rw [hl, hv, Triad.add_z, Triad.scale_z, hlocation]

end Turn

/-! ## Near the set altitude -/

section Near

variable [IsStrictOrderedRing K] {pa : PowArith K} {effects : Effects σ K} {set : K}
  {grav hov : Nat}

/-- How far the object is from its set altitude, and how far its velocity takes it in a turn. -/
def deviation (set : K) (w : σ × Body K) : K × K :=
  (w.2.location.z - set, w.2.velocity.z * (1 / 50))

/-- The acceleration of a turn flips at the set altitude. -/
theorem lift_eq (z : K) :
    ((⟨set, 1 / 2, 2⟩ : Hover K).lift z - gravity) * (1 / 50) * (1 / 50)
      = Relay.thrust (gravity / 2500) (z - set) := by
  unfold Hover.lift Relay.thrust
  by_cases hbelow : z < set
  · rw [if_pos hbelow, if_pos (sub_neg.mpr hbelow)]
    ring
  · rw [if_neg hbelow, if_neg (fun h => hbelow (sub_neg.mp h))]
    ring

/-- Within a fiftieth of the set altitude the damping is cut down to nine tenths. -/
theorem damping_eq {z : K} (hz : |z - set| ≤ 1 / 50) :
    (⟨set, 1 / 2, 2⟩ : Hover K).damping pa z = 9 / 10 := by
  have hhalf : pa.div |set - z| (1 / 2) = 2 * |z - set| := by
    rw [pa.div_eq _ _ (by norm_num), abs_sub_comm]
    ring
  have hbase : 24 / 25 ≤ 1 - 2 * |z - set| := by linarith
  have hsq : (24 / 25 : K) ^ 2 ≤ (1 - 2 * |z - set|) ^ 2 :=
    pow_le_pow_left₀ (by norm_num) hbase 2
  have hcap : (9 / 10 : K) < (1 - 2 * |z - set|) ^ 2 := lt_of_lt_of_le (by norm_num) hsq
  simp only [Hover.damping]
  rw [hhalf, pa.powf_two, if_pos hcap]

/-- A turn is a step of the relay. -/
theorem hover_step (hh : Hovering pa effects (1 / 50) ⟨set, 1 / 2, 2⟩ grav hov) {w : σ × Body K}
    (heq : Equipped pa effects (1 / 50) grav hov w) (hnear : |w.2.location.z - set| ≤ 1 / 50) :
    deviation set (turn pa.toArith effects (1 / 50) w)
      = Relay.step (9 / 10) (gravity / 2500) (deviation set w) := by
  obtain ⟨hvelocity, hlocation⟩ := turn_vertical hh heq
  rw [damping_eq hnear] at hvelocity
  have hspeed : (turn pa.toArith effects (1 / 50) w).2.velocity.z * (1 / 50)
      = 9 / 10 * (w.2.velocity.z * (1 / 50))
        + Relay.thrust (gravity / 2500) (w.2.location.z - set) := by
    rw [hvelocity, ← lift_eq]
    ring
  unfold deviation Relay.step
  rw [hlocation, hspeed]
  congr 1
  ring

/-- Gravity and the hover effector hold an altitude near the set one for any number of turns. An
object that is at rest within two thousandths of it stays within two hundredths, as every turn is a
step of the relay, and none leads off its three levels. -/
theorem hover_holds (hh : Hovering pa effects (1 / 50) ⟨set, 1 / 2, 2⟩ grav hov) {w : σ × Body K}
    (n : ℕ) (heq : ∀ k < n, Equipped pa effects (1 / 50) grav hov
      (turns pa.toArith effects (1 / 50) k w))
    (hrest : w.2.velocity.z = 0) (hnear : |w.2.location.z - set| ≤ 1 / 500) :
    |(turns pa.toArith effects (1 / 50) n w).2.location.z - set| ≤ 1 / 50 := by
  have hr : (0 : K) < 9 / 10 := by norm_num
  have hr1 : (9 / 10 : K) < 1 := by norm_num
  have hc : (gravity / 2500 : K) = 980665 / 250000000 := by norm_num [gravity]
  have hstart : (1 - (9 / 10) ^ 3) * |w.2.location.z - set|
      < (1 - (9 / 10) ^ 2) * (gravity / 2500) := by
    rw [hc]
    linarith
  have hphase : Relay.Phase (9 / 10) (gravity / 2500) (w.2.location.z - set)
      (deviation set (turns pa.toArith effects (1 / 50) n w)) := by
    induction n with
    | zero =>
      have hzero : deviation set w = (w.2.location.z - set, 0) := by
        rw [deviation, hrest, zero_mul]
      rw [turns, Function.iterate_zero_apply, hzero]
      exact Relay.Phase.start hr hr1 hstart
    | succ n ih =>
      have hbefore := ih fun k hk => heq k (Nat.lt_succ_of_lt hk)
      have hdistance := hbefore.distance_le hr hr1 hstart
      have hin : |(turns pa.toArith effects (1 / 50) n w).2.location.z - set| ≤ 1 / 50 := by
        refine hdistance.trans ?_
        rw [hc]
        linarith
      rw [turns, Function.iterate_succ_apply', ← turns,
        hover_step hh (heq n n.lt_succ_self) hin]
      exact hbefore.step hr hr1 hstart
  refine (hphase.distance_le hr hr1 hstart).trans ?_
  rw [hc]
  linarith

end Near

/-! ## An object at rest at its altitude -/

/-- Exact arithmetic with powers to natural numbers. -/
def exactPow : PowArith ℚ where
  toArith := exactArith
  powf x y := x ^ ⌊y⌋₊
  powf_two x := by norm_num

/-- `norm_gravity` and a `hover` at altitude one. -/
def floating : Effects Unit ℚ := fun e s o _ =>
  if e = 1 then (s, NormGravity.tick o, false)
  else if e = 2 then (s, Hover.tick exactPow ⟨1, 1 / 2, 2⟩ o, false)
  else (s, o, false)

def floater : Body ℚ := { ball with location := ⟨0, 0, 1⟩, pre_attribs := [1, 2] }

theorem hovering_floating : Hovering exactPow floating (1 / 50) ⟨1, 1 / 2, 2⟩ 1 2 :=
  ⟨by decide, fun _ _ => rfl, fun _ _ => rfl⟩

/-- What the turns of the object leave as it is. -/
structure Floats (o : Body ℚ) : Prop where
  pre_attribs : o.pre_attribs = [1, 2]
  post_attribs : o.post_attribs = []
  dropped_attribs : o.dropped_attribs = []
  mass : o.mass = 1

theorem floats_runPre {o : Body ℚ} (h : Floats o) :
    runPre floating (1 / 50) () o
      = ((), Hover.tick exactPow ⟨1, 1 / 2, 2⟩ (NormGravity.tick o.prepare), false) := by
  have hpre : o.prepare.pre_attribs = [1, 2] := by
    simp [prepare, h.pre_attribs, h.dropped_attribs]
  rw [runPre, hpre]
  rfl

theorem hover_tick_keeps (pa : PowArith ℚ) (h : Hover ℚ) (o : Body ℚ) :
    (h.tick pa o).mass = o.mass ∧ (h.tick pa o).mass_mod = o.mass_mod
      ∧ (h.tick pa o).pre_attribs = o.pre_attribs ∧ (h.tick pa o).post_attribs = o.post_attribs
      ∧ (h.tick pa o).dropped_attribs = o.dropped_attribs := by
  unfold Hover.tick
  split <;> exact ⟨rfl, rfl, rfl, rfl, rfl⟩

theorem floats_tick {o : Body ℚ} (h : Floats o) :
    Floats (tick exactPow.toArith floating (1 / 50) () o).2.1 := by
  obtain ⟨hmass, hmod, hpre, hpost, hdropped⟩ :=
    hover_tick_keeps exactPow ⟨1, 1 / 2, 2⟩ (NormGravity.tick o.prepare)
  have hone : (Hover.tick exactPow ⟨1, 1 / 2, 2⟩ (NormGravity.tick o.prepare)).mass
      + (Hover.tick exactPow ⟨1, 1 / 2, 2⟩ (NormGravity.tick o.prepare)).mass_mod = 1 := by
    rw [hmass, hmod]
    show o.mass + 0 = 1
    rw [h.mass, add_zero]
  have hlist : o.prepare.pre_attribs = [1, 2] := by
    simp [prepare, h.pre_attribs, h.dropped_attribs]
  have hempty : o.prepare.post_attribs = [] := by simp [prepare, h.post_attribs]
  simp only [tick, floats_runPre h, hone]
  exact ⟨hpre.trans hlist, hpost.trans hempty, hdropped, rfl⟩

theorem floats_turn {w : Unit × Body ℚ} (h : Floats w.2) :
    Floats (turn exactPow.toArith floating (1 / 50) w).2 := by
  have htick := floats_tick h
  rw [turn]
  generalize tick exactPow.toArith floating (1 / 50) w.1 w.2 = r at htick ⊢
  obtain ⟨s', o', killme⟩ := r
  dsimp only at htick ⊢
  rw [apply, htick.post_attribs]
  exact ⟨htick.pre_attribs, rfl, htick.dropped_attribs, htick.mass⟩

theorem floats_equipped {w : Unit × Body ℚ} (h : Floats w.2) :
    Equipped exactPow floating (1 / 50) 1 2 w := by
  have hlist : w.2.prepare.pre_attribs = [1, 2] := by
    simp [prepare, h.pre_attribs, h.dropped_attribs]
  obtain ⟨hmass, hmod, -, -, -⟩ :=
    hover_tick_keeps exactPow ⟨1, 1 / 2, 2⟩ (NormGravity.tick w.2.prepare)
  refine ⟨by rw [hlist]; rfl, by rw [hlist]; rfl, fun e he h1 h2 => ?_, fun e he => ?_, ?_⟩
  · rw [hlist] at he
    simp [h1, h2] at he
  · rw [(floats_tick h).post_attribs] at he
    cases he
  · rw [show w.1 = () from rfl, floats_runPre h, hmass, hmod]
    show 0 < w.2.mass + 0
    rw [h.mass]
    norm_num

/-- Ten seconds at the set altitude. -/
theorem hover_holds_floater :
    |(turns exactPow.toArith floating (1 / 50) 500 ((), floater)).2.location.z - 1| ≤ 1 / 50 := by
  have hfloats : ∀ k, Floats (turns exactPow.toArith floating (1 / 50) k ((), floater)).2 := by
    intro k
    induction k with
    | zero => exact ⟨rfl, rfl, rfl, rfl⟩
    | succ k ih =>
      rw [turns, Function.iterate_succ_apply']
      exact floats_turn ih
  have hholds : ∀ n, |(turns exactPow.toArith floating (1 / 50) n ((), floater)).2.location.z - 1|
      ≤ 1 / 50 := fun n =>
    hover_holds hovering_floating n (fun k _ => floats_equipped (hfloats k)) rfl
      (by norm_num [floater])
  exact hholds 500

end Body

end Nrtb
