import Nrtb.BaseObject.Motion
import Nrtb.DiffSteer.Settings
import Mathlib.Analysis.SpecialFunctions.Trigonometric.Basic

/-!
# `diff_steer::pre::tick`

`cpp/sim_engine/diff_steer_effector/diff_steer.cpp`, lines 170–202, in exact arithmetic: the force
that the drive adds to an object on the ground. The brake is held within a budget that is computed
like an energy, from the square of the speed per quanta and the power, and is taken off the power as
a force.

A brake should push against the motion, no harder than it is set to, and not beyond a standstill.
The budget is there for that. As it grows with the square of the speed, it is too large for a fast
object, which the brake then turns round within one tick; and as the power counts in it with its
sign, it is below zero for one that is told to go backwards, which the brake then pushes forward.
The settings that occur are those which commands can leave, with the interlock that they keep.

* `tick_ground`: the force that is added.
* `reachable_brakeBounded_iff`: when the brake pushes no more than it is set to.
* `tick_brakes`: the velocity after a tick of the object, whatever other effectors there are that
  exert no force.
* `tick_forward_iff`: when braking does not reverse the motion.
-/

namespace Nrtb

open scoped Numerals

namespace DiffSteer

/-! ## The settings as numbers -/

/-- The settings with their interlock. -/
structure Setting (K : Type*) [Field K] [LinearOrder K] extends Pre K where
  interlocked : toPre.Interlocked

namespace Setting

variable {K : Type*} [Field K] [LinearOrder K] (s : Setting K)

/-- `set_p.load()` -/
def power : K := s.set_p.number (s.interlocked.power.imp fun _ h => h.1)

/-- `set_b.load()` -/
def brake : K := s.set_b.number (s.interlocked.brake.imp fun _ h => h.1)

/-- `set_t.load()` -/
def turn : K := s.set_t.number (s.interlocked.turn.imp fun _ h => h.1)

theorem power_eq {p : K} (h : s.set_p = .fin p) : s.power = p :=
  Ieee.fin.inj ((Ieee.eq_fin_number _).symm.trans h)

theorem brake_eq {b : K} (h : s.set_b = .fin b) : s.brake = b :=
  Ieee.fin.inj ((Ieee.eq_fin_number _).symm.trans h)

theorem brake_nonneg : 0 ≤ s.brake := by
  obtain ⟨b, hb, h0, _⟩ := s.interlocked.brake
  rw [s.brake_eq hb]
  exact h0

end Setting

/-! ## One tick of the drive -/

/-- `vec`, the direction of the thrust. -/
noncomputable def heading (attitude : Triad ℝ) : Triad ℝ :=
  ⟨Real.cos attitude.z, Real.sin attitude.z, 0⟩

/-- `speed`, over the ground. -/
noncomputable def groundSpeed (velocity : Triad ℝ) : ℝ := Triad.magnatude { velocity with z := 0 }

/-- `gl < 0.5` -/
def OnGround (o : Body ℝ) : Prop := o.location.z - o.boundingSphere.radius < 1 / 2

open Classical in
/-- `diff_steer::pre::tick` -/
noncomputable def Setting.tick (s : Setting ℝ) (ar : Arith ℝ) (o : Body ℝ) (quanta : ℝ) : Body ℝ :=
  if OnGround o then
    let p := s.power * s.max_p
    let b := s.brake * s.max_b
    let t := s.turn * s.max_t
    let o := { o with rotation := { o.rotation with z := t } }
    let vec := heading o.attitude
    let o := { o with force := o.force + vec * p }
    let speed := groundSpeed o.velocity
    let bspeed := speed * ar.div 1 quanta
    let KE := o.mass * bspeed * bspeed
    let KE := KE + p
    let b := if KE < b then KE else b
    { o with force := o.force - vec * b }
  else o

theorem heading_unit (attitude : Triad ℝ) :
    (heading attitude).dotProduct (heading attitude) = 1 := by
  have hunit := Real.cos_sq_add_sin_sq attitude.z
  simp only [heading, Triad.dotProduct]
  linarith

/-- Along a heading the ground speed is the speed. -/
theorem groundSpeed_heading (attitude : Triad ℝ) {v : ℝ} (hv : 0 ≤ v) :
    groundSpeed (heading attitude * v) = v := by
  have hplane : ({ heading attitude * v with z := 0 } : Triad ℝ) = heading attitude * v := by
    show (⟨_, _, 0⟩ : Triad ℝ) = ⟨_, _, 0 * v⟩
    rw [zero_mul]
    rfl
  have hone : (heading attitude).magnatude = 1 := by
    show Real.sqrt ((heading attitude).dotProduct (heading attitude)) = 1
    rw [heading_unit, Real.sqrt_one]
  rw [groundSpeed, hplane, Triad.magnatude_scale, hone, abs_of_nonneg hv, mul_one]

namespace Setting

variable (s : Setting ℝ) {ar : Arith ℝ} {o : Body ℝ} {quanta : ℝ}

/-- What the brake is held within. -/
noncomputable def budget (o : Body ℝ) (quanta : ℝ) : ℝ :=
  o.mass * (groundSpeed o.velocity / quanta) ^ 2 + s.power * s.max_p

/-- The force of the brake. -/
noncomputable def braking (o : Body ℝ) (quanta : ℝ) : ℝ :=
  min (s.brake * s.max_b) (s.budget o quanta)

variable (ar) in
/-- On the ground power and brake act along the heading. -/
theorem tick_ground (hground : OnGround o) (hquanta : 0 < quanta) :
    Body.Adds (heading o.attitude * (s.power * s.max_p - s.braking o quanta)) 0 o
      (s.tick ar o quanta) := by
  have hbudget : o.mass * (groundSpeed o.velocity * ar.div 1 quanta)
        * (groundSpeed o.velocity * ar.div 1 quanta) + s.power * s.max_p = s.budget o quanta := by
    rw [ar.div_eq 1 quanta hquanta.ne', budget]
    ring
  have hbraking : (if s.budget o quanta < s.brake * s.max_b then s.budget o quanta
      else s.brake * s.max_b) = s.braking o quanta := by
    unfold braking
    split
    · next hlt => rw [min_eq_right hlt.le]
    · next hle => rw [min_eq_left (not_lt.mp hle)]
  unfold tick
  rw [if_pos hground]
  dsimp only
  rw [hbudget, hbraking]
  refine ⟨?_, (add_zero _).symm, rfl, rfl, rfl, rfl, rfl⟩
  simp only [Triad.scale_eq_smul]
  module

/-! ## The brake and its setting -/

/-- Between `o` and `o'` the force has grown by the power less a part of the brake, and by the power
alone when the brake is off. -/
def BrakeBounded (o o' : Body ℝ) : Prop :=
  (∃ b, 0 ≤ b ∧ b ≤ s.brake * s.max_b
      ∧ o'.force = o.force + heading o.attitude * (s.power * s.max_p - b))
    ∧ (s.brake = 0 → o'.force = o.force + heading o.attitude * (s.power * s.max_p))

/-- A force along a heading has one size. -/
theorem heading_mul_inj {attitude : Triad ℝ} {x y : ℝ}
    (h : heading attitude * x = heading attitude * y) : x = y := by
  have hsize : ∀ z : ℝ, (heading attitude * z).dotProduct (heading attitude) = z := fun z => by
    have hunit := heading_unit attitude
    simp only [Triad.dotProduct, Triad.scale_x, Triad.scale_y, Triad.scale_z] at hunit ⊢
    linear_combination z * hunit
  rw [← hsize x, h, hsize y]

theorem brakeBounded_iff (ar : Arith ℝ) (hmax : 0 ≤ s.max_b) (hground : OnGround o)
    (hquanta : 0 < quanta) :
    s.BrakeBounded o (s.tick ar o quanta) ↔ 0 ≤ s.budget o quanta := by
  have hforce := (s.tick_ground ar hground hquanta).force
  have hset : 0 ≤ s.brake * s.max_b := mul_nonneg s.brake_nonneg hmax
  have hle : s.braking o quanta ≤ s.brake * s.max_b := min_le_left _ _
  have hnonneg : 0 ≤ s.braking o quanta ↔ 0 ≤ s.budget o quanta :=
    le_min_iff.trans (and_iff_right hset)
  unfold BrakeBounded
  rw [hforce, ← hnonneg]
  constructor
  · rintro ⟨⟨b, h0, _, heq⟩, _⟩
    have hb : s.braking o quanta = b := by
      have := heading_mul_inj (add_left_cancel heq)
      linarith
    rwa [hb]
  · refine fun h0 => ⟨⟨_, h0, hle, rfl⟩, fun hoff => ?_⟩
    rw [hoff, zero_mul] at hle
    rw [le_antisymm hle h0, sub_zero]

end Setting

section Reachable

variable {fmt : Formats ℝ} {print : Ieee ℝ → Str} {scan : Str → Istream.Scan (Ieee ℝ)}

/-- The settings that some calls leave, of a new drive or of a copy of one. -/
inductive Reachable (fmt : Formats ℝ) (print : Ieee ℝ → Str)
    (scan : Str → Istream.Scan (Ieee ℝ)) : Pre ℝ → Prop
  | construct (mp mb mt : ℝ) (calls : List (Pre.Call ℝ)) :
      Reachable fmt print scan ((Pre.construct mp mb mt).run fmt print scan calls)
  | clone (t : Pre ℝ) (calls : List (Pre.Call ℝ)) :
      Reachable fmt print scan (t.clone.run fmt print scan calls)

theorem Reachable.interlocked {s : Pre ℝ} (h : Reachable fmt print scan s) : s.Interlocked := by
  cases h with
  | construct mp mb mt calls =>
    exact Pre.interlocked_run (Pre.interlocked_lockdown (Pre.construct mp mb mt)) calls
  | clone t calls => exact Pre.interlocked_run (Pre.interlocked_lockdown _) calls

/-- Reachable settings, with the interlock that the calls have kept. -/
def Reachable.setting {s : Pre ℝ} (h : Reachable fmt print scan s) : Setting ℝ := ⟨s, h.interlocked⟩

/-- The brake is between zero and its setting exactly when reverse power, if any, is within the
part of the budget that comes from the speed. Otherwise the budget is below zero, and the brake
pushes forward. -/
theorem reachable_brakeBounded_iff {s : Pre ℝ} (hreach : Reachable fmt print scan s) (ar : Arith ℝ)
    (hmax : 0 ≤ s.max_b) {o : Body ℝ} (hground : OnGround o) {quanta : ℝ} (hquanta : 0 < quanta) :
    hreach.setting.BrakeBounded o (hreach.setting.tick ar o quanta) ↔
      -(hreach.setting.power * s.max_p) ≤ o.mass * (groundSpeed o.velocity / quanta) ^ 2 := by
  rw [Setting.brakeBounded_iff hreach.setting ar hmax hground hquanta]
  show 0 ≤ _ + hreach.setting.power * s.max_p ↔ _
  rw [neg_le_iff_add_nonneg]

/-! ## A command for power, to an object at rest -/

/-- Exact arithmetic on the reals. -/
noncomputable def realArith : Arith ℝ where
  div a b := a / b
  fmod a b := a - (if 0 ≤ a / b then ⌊a / b⌋ else ⌈a / b⌉) * b
  period := 314159 / 50000
  div_eq _ _ _ := rfl

/-- A sphere of mass one that lies on the ground. -/
noncomputable def rollingAt (velocity : Triad ℝ) : Body ℝ where
  location := ⟨0, 0, 1⟩
  velocity := velocity
  boundingSphere := ⟨1⟩
  attitude := 0
  rotation := 0
  mass := 1
  force := 0
  torque := 0
  accel_mod := 0
  rotation_mod := 0
  mass_mod := 0
  pre_attribs := [1]
  post_attribs := []
  cmd_attribs := []
  dropped_attribs := []

theorem onGround_rollingAt (velocity : Triad ℝ) : OnGround (rollingAt velocity) := by
  show (1 : ℝ) - 1 < 1 / 2
  norm_num

theorem heading_zero : heading 0 = ⟨1, 0, 0⟩ := by
  simp [heading]

theorem groundSpeed_zero : groundSpeed 0 = 0 := (Triad.magnatude_eq_zero_iff 0).mpr rfl

/-- A drive of ten newtons that has been told its power. -/
noncomputable def told (cmd : Str) : Pre ℝ :=
  (Pre.construct 10 10 1).run Pre.exactFormats (fun _ => []) Pre.scanInteger [.command .nan cmd]

theorem told_power {cmd : Str} (hsys : (BotMk1.extract cmd).1 = str "drive")
    (hverb : Pre.verbOf cmd = str "power") {x : ℝ}
    (hnumeral : Istream.numeral isspace Pre.scanInteger (Pre.argsOf cmd) = some (.fin x))
    (hx : |x| ≤ 100) (hne : x ≠ 0) : told cmd = ⟨10, 10, 1, .fin (x / 100), 0, 0⟩ := by
  have hset : Pre.setter (Pre.exactFormats : Formats ℝ) (Pre.verbOf cmd)
      = some (Pre.drive Pre.exactFormats) := by
    rw [hverb]
    rfl
  show ((Pre.construct 10 10 1).command _ _ _ _ cmd).2.2 = _
  rw [(Pre.command_setter _ _ _ hsys hset hnumeral).2]
  unfold Pre.drive
  have hpower : (Ieee.fin x : Ieee ℝ) ≠ 0 := fun heq => hne (Ieee.fin.inj heq)
  rw [if_pos (Ieee.abs_le_fin_iff.mpr ⟨x, rfl, hx⟩), if_pos hpower]
  rfl

theorem told_reachable (cmd : Str) :
    Reachable Pre.exactFormats (fun _ => []) Pre.scanInteger (told cmd) :=
  .construct 10 10 1 [.command .nan cmd]

theorem told_reverse : told (str "drive power -100") = ⟨10, 10, 1, .fin (-100 / 100), 0, 0⟩ := by
  refine told_power (by decide) (by decide) ?_ (by norm_num) (by norm_num)
  show some (Ieee.fin (-((100 : ℤ) : ℝ))) = some (Ieee.fin (-100))
  norm_num

theorem told_forward : told (str "drive power 50") = ⟨10, 10, 1, .fin (50 / 100), 0, 0⟩ := by
  refine told_power (by decide) (by decide) ?_ (by norm_num) (by norm_num)
  show some (Ieee.fin ((50 : ℤ) : ℝ)) = some (Ieee.fin 50)
  norm_num

/-- Reverse power moves nothing that is at rest: the brake, which is off, pushes back. -/
theorem reverse_is_held :
    (told_reachable (str "drive power -100")).setting.brake = 0
      ∧ ((told_reachable (str "drive power -100")).setting.tick realArith (rollingAt 0) 1).force = 0
      ∧ ¬ (told_reachable (str "drive power -100")).setting.BrakeBounded (rollingAt 0)
        ((told_reachable (str "drive power -100")).setting.tick realArith (rollingAt 0) 1) := by
  generalize hsetting : (told_reachable (str "drive power -100")).setting = s
  have hpre : s.toPre = ⟨10, 10, 1, .fin (-100 / 100), 0, 0⟩ := by
    rw [← hsetting, ← told_reverse]
    rfl
  have hpower : s.power = -1 := by
    rw [s.power_eq (by rw [hpre])]
    norm_num
  have hbrake : s.brake = 0 := s.brake_eq (by rw [hpre]; rfl)
  have hmax : s.max_p = 10 := by rw [hpre]
  have hbudget : s.budget (rollingAt 0) 1 = -10 := by
    unfold Setting.budget
    show 1 * (groundSpeed 0 / 1) ^ 2 + s.power * s.max_p = -10
    rw [groundSpeed_zero, hpower, hmax]
    norm_num
  have hforce := (s.tick_ground realArith (onGround_rollingAt 0) one_pos).force
  have hzero : s.power * s.max_p - s.braking (rollingAt 0) 1 = 0 := by
    unfold Setting.braking
    rw [hbudget, hbrake, hpower, hmax]
    norm_num
  refine ⟨hbrake, ?_, fun hbounded => ?_⟩
  · rw [hforce, hzero]
    show (⟨_, _, _⟩ : Triad ℝ) = ⟨0, 0, 0⟩
    simp [rollingAt]
  · have := (s.brakeBounded_iff realArith (by rw [hpre]; norm_num) (onGround_rollingAt 0)
      one_pos).mp hbounded
    rw [hbudget] at this
    norm_num at this

theorem reachable_brakeBounded_iff_forward :
    (told_reachable (str "drive power 50")).setting.BrakeBounded (rollingAt 0)
      ((told_reachable (str "drive power 50")).setting.tick realArith (rollingAt 0) 1) := by
  have hset : (told_reachable (str "drive power 50")).setting.set_p = .fin (50 / 100) :=
    congrArg Pre.set_p told_forward
  have hmax : (told (str "drive power 50")).max_p = 10 := congrArg Pre.max_p told_forward
  have hmax' : (told (str "drive power 50")).max_b = 10 := congrArg Pre.max_b told_forward
  refine (reachable_brakeBounded_iff (told_reachable (str "drive power 50")) realArith ?_
    (onGround_rollingAt 0) one_pos).mpr ?_
  · rw [hmax']
    norm_num
  · rw [Setting.power_eq _ hset, hmax]
    show -_ ≤ (1 : ℝ) * (groundSpeed 0 / 1) ^ 2
    rw [groundSpeed_zero]
    norm_num

end Reachable

/-! ## A tick of the object -/

section Tick

variable {σ : Type*} {ar : Arith ℝ} {effects : Effects σ ℝ} {quanta : ℝ} {drive : σ → Setting ℝ}
  {e : Nat}

/-- The effector is a `diff_steer::pre`; `drive` gives its settings. -/
def Steers (ar : Arith ℝ) (effects : Effects σ ℝ) (quanta : ℝ) (drive : σ → Setting ℝ) (e : Nat) :
    Prop :=
  ∀ s o, effects e s o quanta = (s, (drive s).tick ar o quanta, false)

/-- What the drive reads, and what moves the object, is as it was. -/
structure Same (drive : σ → Setting ℝ) (w w' : σ × Body ℝ) : Prop where
  motion : Body.Adds 0 0 w.2 w'.2
  attitude : w'.2.attitude = w.2.attitude
  boundingSphere : w'.2.boundingSphere = w.2.boundingSphere
  drive : drive w'.1 = drive w.1

/-- The effector exerts no force and leaves the drive alone. -/
def Idle (effects : Effects σ ℝ) (quanta : ℝ) (drive : σ → Setting ℝ) (d : Nat) : Prop :=
  ∀ s o, Same drive (s, o) ((effects d s o quanta).1, (effects d s o quanta).2.1)

theorem Same.trans {w w' w'' : σ × Body ℝ} (h : Same drive w w') (h' : Same drive w' w'') :
    Same drive w w'' where
  motion := by simpa only [add_zero] using h.motion.trans h'.motion
  attitude := h'.attitude.trans h.attitude
  boundingSphere := h'.boundingSphere.trans h.boundingSphere
  drive := h'.drive.trans h.drive

theorem runEffectors_idle {l : List Nat} (hidle : ∀ d ∈ l, Idle effects quanta drive d) (s : σ)
    (o : Body ℝ) (killme : Bool) :
    Same drive (s, o) ((Body.runEffectors effects quanta l s o killme).1,
      (Body.runEffectors effects quanta l s o killme).2.1) := by
  induction l generalizing s o killme with
  | nil => exact ⟨Body.Adds.refl o, rfl, rfl, rfl⟩
  | cons d rest ih =>
    exact (hidle d (by simp) s o).trans (ih (fun d hd => hidle d (by simp [hd])) _ _ _)

/-- What the drive adds depends on nothing that idle effectors change. -/
theorem braking_same {w w' : σ × Body ℝ} (h : Same drive w w') :
    (drive w'.1).braking w'.2 quanta = (drive w.1).braking w.2 quanta := by
  unfold Setting.braking Setting.budget
  rw [h.drive, h.motion.mass, h.motion.velocity]

/-- The drive among idle effectors. -/
theorem runEffectors_steers (hsteers : Steers ar effects quanta drive e) {l : List Nat}
    (honce : l.count e = 1) (hidle : ∀ d ∈ l, d ≠ e → Idle effects quanta drive d)
    (hquanta : 0 < quanta) (s : σ) {o : Body ℝ} (hground : OnGround o) (killme : Bool) :
    Body.Adds (heading o.attitude
        * ((drive s).power * (drive s).max_p - (drive s).braking o quanta)) 0 o
      (Body.runEffectors effects quanta l s o killme).2.1 := by
  induction l generalizing s o killme with
  | nil => cases honce
  | cons d rest ih =>
    by_cases hd : d = e
    · -- the others come behind it
      subst hd
      have hrest : ∀ c ∈ rest, Idle effects quanta drive c := fun c hc => by
        refine hidle c (by simp [hc]) fun heq => ?_
        rw [List.count_cons_self, ← heq] at honce
        have := List.count_pos_iff.mpr hc
        omega
      have hadds := (drive s).tick_ground ar hground hquanta
      have hkeep :=
        (runEffectors_idle hrest s ((drive s).tick ar o quanta) (killme || false)).motion
      simp only [Body.runEffectors, hsteers s o]
      simpa only [add_zero] using hadds.trans hkeep
    · have hsame := hidle d (by simp) hd s o
      have hground' : OnGround (effects d s o quanta).2.1 := by
        unfold OnGround
        rw [hsame.motion.location, hsame.boundingSphere]
        exact hground
      rw [List.count_cons_of_ne hd] at honce
      have hadds := ih honce (fun c hc => hidle c (by simp [hc])) (effects d s o quanta).1 hground'
        (killme || (effects d s o quanta).2.2)
      rw [braking_same hsame, hsame.attitude, hsame.drive] at hadds
      rw [Body.runEffectors]
      simpa only [zero_add] using hsame.motion.trans hadds

/-- Without power a tick takes the braking off the speed along the heading. -/
theorem tick_brakes (hsteers : Steers ar effects quanta drive e) {s : σ} {o : Body ℝ}
    (honce : o.prepare.pre_attribs.count e = 1)
    (hidle : ∀ d ∈ o.prepare.pre_attribs, d ≠ e → Idle effects quanta drive d)
    (hground : OnGround o) (hmass : 0 < o.mass) (hquanta : 0 < quanta)
    (hpower : (drive s).power = 0) {v : ℝ} (hvelocity : o.velocity = heading o.attitude * v) :
    (Body.tick ar effects quanta s o).2.1.velocity.dotProduct (heading o.attitude)
      = v - quanta * (drive s).braking o quanta / o.mass := by
  have hadds : Body.Adds _ 0 o.prepare (Body.runPre effects quanta s o).2.1 :=
    runEffectors_steers hsteers honce hidle hquanta s (o := o.prepare) hground false
  have hunit := heading_unit o.attitude
  have hsame : (drive s).braking o.prepare quanta = (drive s).braking o quanta := rfl
  rw [(Body.tick_steady ar hmass hadds).1, hvelocity, hpower, hsame, zero_mul, zero_sub]
  show (heading o.attitude * v + (heading o.attitude * -(drive s).braking o quanta * o.mass⁻¹ + 0)
    * quanta).dotProduct (heading o.attitude) = _
  simp only [Triad.dotProduct, Triad.add_x, Triad.add_y, Triad.add_z, Triad.scale_x, Triad.scale_y,
    Triad.scale_z, Triad.zero_x, Triad.zero_y, Triad.zero_z] at hunit ⊢
  rw [div_eq_mul_inv]
  linear_combination (v - quanta * (drive s).braking o quanta * o.mass⁻¹) * hunit

/-- The budget takes off more than the whole momentum when the speed is above the quanta. -/
theorem budget_le_momentum_iff {m v q b : ℝ} (hm : 0 < m) (hv : 0 ≤ v) (hq : 0 < q) :
    q * min b (m * (v / q) ^ 2) ≤ m * v ↔ b * q ≤ m * v ∨ v ≤ q := by
  have hbudget : q * (m * (v / q) ^ 2) ≤ m * v ↔ v ≤ q := by
    have heq : q * (m * (v / q) ^ 2) = m * v * (v / q) := by
      field_simp
    rw [heq]
    rcases hv.eq_or_lt with rfl | hv
    · exact iff_of_true (by simp) hq.le
    · rw [mul_le_iff_le_one_right (mul_pos hm hv), div_le_one hq]
  rw [mul_min_of_nonneg _ _ hq.le, min_le_iff, hbudget, mul_comm q b]

/-- The brake does not reverse the motion exactly when what is set takes off no more than the
momentum, or the speed is not above the number of the quanta: the budget that should see to it
grows with the square of the speed. -/
theorem tick_forward_iff (hsteers : Steers ar effects quanta drive e) {s : σ} {o : Body ℝ}
    (honce : o.prepare.pre_attribs.count e = 1)
    (hidle : ∀ d ∈ o.prepare.pre_attribs, d ≠ e → Idle effects quanta drive d)
    (hground : OnGround o) (hmass : 0 < o.mass) (hquanta : 0 < quanta)
    (hmax : 0 < (drive s).max_b) (hpower : (drive s).power = 0) {v : ℝ} (hv : 0 ≤ v)
    (hvelocity : o.velocity = heading o.attitude * v) :
    (0 ≤ (Body.tick ar effects quanta s o).2.1.velocity.dotProduct (heading o.attitude)
        ∧ (Body.tick ar effects quanta s o).2.1.velocity.dotProduct (heading o.attitude) ≤ v)
      ↔ (drive s).brake * (drive s).max_b * quanta ≤ o.mass * v ∨ v ≤ quanta := by
  have hbraking : (drive s).braking o quanta
      = min ((drive s).brake * (drive s).max_b) (o.mass * (v / quanta) ^ 2) := by
    unfold Setting.braking Setting.budget
    rw [hvelocity, groundSpeed_heading _ hv, hpower, zero_mul, add_zero]
  have hnonneg : 0 ≤ (drive s).braking o quanta := by
    rw [hbraking]
    exact le_min (mul_nonneg (drive s).brake_nonneg hmax.le) (by positivity)
  have hloss : 0 ≤ quanta * (drive s).braking o quanta / o.mass := by positivity
  rw [tick_brakes hsteers honce hidle hground hmass hquanta hpower hvelocity,
    and_iff_left (by linarith), sub_nonneg, div_le_iff₀ hmass, mul_comm v, hbraking]
  exact budget_le_momentum_iff hmass hv hquanta

/-! ## A sphere that is stopped -/

/-- The drive as the only effector, its settings the data. -/
noncomputable def steering : Effects (Setting ℝ) ℝ :=
  fun _ s o quanta => (s, s.tick realArith o quanta, false)

/-- A new drive: the brake is on. -/
noncomputable def braked : Setting ℝ :=
  ⟨Pre.construct 10 10 1, Pre.interlocked_lockdown (Pre.construct 10 10 1)⟩

theorem steers_steering (quanta : ℝ) : Steers realArith steering quanta id 1 := fun _ _ => rfl

theorem rollingAt_velocity (v : ℝ) :
    (rollingAt ⟨v, 0, 0⟩).velocity = heading (rollingAt ⟨v, 0, 0⟩).attitude * v := by
  show (⟨v, 0, 0⟩ : Triad ℝ) = heading 0 * v
  rw [heading_zero]
  show (⟨v, 0, 0⟩ : Triad ℝ) = ⟨1 * v, 0 * v, 0 * v⟩
  rw [one_mul, zero_mul]

theorem rollingAt_once (velocity : Triad ℝ) :
    (rollingAt velocity).prepare.pre_attribs.count 1 = 1 := rfl

theorem rollingAt_alone (velocity : Triad ℝ) (quanta : ℝ) :
    ∀ d ∈ (rollingAt velocity).prepare.pre_attribs, d ≠ 1 → Idle steering quanta id d :=
  fun _ hd hne => absurd (List.mem_singleton.mp hd) hne

theorem braked_power : braked.power = 0 := braked.power_eq rfl

/-- Half a second of braking turns a speed of one into a speed of one backwards. -/
theorem brake_reverses :
    braked.power = 0 ∧ OnGround (rollingAt ⟨1, 0, 0⟩)
      ∧ (rollingAt ⟨1, 0, 0⟩).velocity = heading (rollingAt ⟨1, 0, 0⟩).attitude * (1 : ℝ)
      ∧ (Body.tick realArith steering (1 / 2) braked
          (rollingAt ⟨1, 0, 0⟩)).2.1.velocity.dotProduct
            (heading (rollingAt ⟨1, 0, 0⟩).attitude) = -1 := by
  refine ⟨braked_power, onGround_rollingAt _, rollingAt_velocity 1, ?_⟩
  rw [tick_brakes (s := braked) (steers_steering _) (rollingAt_once _) (rollingAt_alone _ _)
    (onGround_rollingAt _) one_pos (by norm_num) braked_power (rollingAt_velocity 1)]
  have hspeed : groundSpeed (rollingAt ⟨1, 0, 0⟩).velocity = 1 := by
    rw [rollingAt_velocity, groundSpeed_heading _ zero_le_one]
  have hbrake : braked.brake = 1 := braked.brake_eq rfl
  show 1 - 1 / 2 * braked.braking (rollingAt ⟨1, 0, 0⟩) (1 / 2) / 1 = -1
  unfold Setting.braking Setting.budget
  rw [hspeed, hbrake, braked_power]
  show 1 - 1 / 2 * min (1 * 10) (1 * (1 / (1 / 2)) ^ 2 + 0 * 10) / 1 = (-1 : ℝ)
  norm_num

theorem tick_forward_iff_fast :
    0 ≤ (Body.tick realArith steering (1 / 2) braked
        (rollingAt ⟨10, 0, 0⟩)).2.1.velocity.dotProduct (heading (rollingAt ⟨10, 0, 0⟩).attitude)
      ∧ (Body.tick realArith steering (1 / 2) braked
        (rollingAt ⟨10, 0, 0⟩)).2.1.velocity.dotProduct (heading (rollingAt ⟨10, 0, 0⟩).attitude)
        ≤ 10 := by
  have hmax : 0 < braked.max_b := by
    show (0 : ℝ) < 10
    norm_num
  refine (tick_forward_iff (s := braked) (steers_steering _) (rollingAt_once _)
    (rollingAt_alone _ _) (onGround_rollingAt _) one_pos (by norm_num) hmax braked_power
    (by norm_num) (rollingAt_velocity 10)).mpr (Or.inl ?_)
  have hbrake : braked.brake = 1 := braked.brake_eq rfl
  show braked.brake * 10 * (1 / 2) ≤ 1 * 10
  rw [hbrake]
  norm_num

end Tick

end DiffSteer

end Nrtb
