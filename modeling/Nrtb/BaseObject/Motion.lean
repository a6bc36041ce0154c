import Nrtb.BaseObject
import Nrtb.Lib.Integrator
import Mathlib.Algebra.Order.Floor.Ring
import Mathlib.Data.Rat.Floor

/-!
# `base_object::tick` and `base_object::apply`

`cpp/sim_engine/base_object/base_object.cpp`, lines 39–68 and 157–219: how a turn moves an object.
`tick` runs the pre-effectors and advances the velocity, `apply` advances the location and runs the
post-effectors. `docs/math/movement.math` has the location advance by the average velocity; `tick`
computes an average and drops it, and `apply` advances by the final velocity.

Under a constant force the velocity of such a motion is right whatever the location is advanced by,
and the location is ahead by a term that grows with the number of the turns (`Lib.Integrator`). The
effectors may do anything else they like: what is asked of them is that the force and the
acceleration they add up to are the same in each of the turns.

* `tick_steady`, `apply_location`: one turn under a constant force.
* `motion_law_iff`: when `n` turns add up to the uniformly accelerated motion.
-/

namespace Nrtb

open scoped Numerals

/-- Arithmetic that is exact but for a division by zero, which may give any value. -/
structure Arith (K : Type*) [Field K] where
  div : K → K → K
  -- `fmodf`
  fmod : K → K → K
  -- `rotatable::period`
  period : K
  div_eq : ∀ a b, b ≠ 0 → div a b = a / b

/-- `triad<T>::operator / (const T &)` -/
def Arith.divTriad {K : Type*} [Field K] (ar : Arith K) (p : Triad K) (k : K) : Triad K :=
  ⟨ar.div p.x k, ar.div p.y k, ar.div p.z k⟩

theorem Arith.divTriad_eq {K : Type*} [Field K] (ar : Arith K) (p : Triad K) {k : K} (hk : k ≠ 0) :
    ar.divTriad p k = k⁻¹ • p := by
  show (⟨_, _, _⟩ : Triad K) = ⟨_, _, _⟩
  congr 1 <;> rw [ar.div_eq _ _ hk, div_eq_mul_inv]

/-- The state of a `base_object` that a turn reads and writes. A `rotatable` is its `axis`, and an
effector is its id. -/
structure Body (K : Type*) extends BaseObject K where
  attitude : Triad K
  rotation : Triad K
  mass : K
  force : Triad K
  torque : Triad K
  accel_mod : Triad K
  rotation_mod : Triad K
  mass_mod : K
  pre_attribs : List Nat
  post_attribs : List Nat
  cmd_attribs : List Nat
  dropped_attribs : List Nat

/-- The `tick` methods of the effectors, by id, over the effectors' own data `σ`: they change the
object and tell whether it should die. -/
abbrev Effects (σ K : Type*) := Nat → σ → Body K → K → σ × Body K × Bool

namespace Body

variable {σ K : Type*} [Field K]

/-! ## The pieces of a turn -/

/-- `rotatable::trim` -/
def trim (ar : Arith K) (axis : Triad K) : Triad K :=
  ⟨ar.fmod axis.x ar.period, ar.fmod axis.y ar.period, ar.fmod axis.z ar.period⟩

/-- `rotatable::apply_force` -/
def applyForce (ar : Arith K) (axis : Triad K) (mass arm : K) (vec : Triad K) (t : K) : Triad K :=
  let I := arm * arm * mass / 2
  ⟨axis.x + ar.div vec.x I * t, axis.y + ar.div vec.y I * t, axis.z + ar.div vec.z I * t⟩

/-- The loop over a list of effectors. -/
def runEffectors (effects : Effects σ K) (quanta : K) :
    List Nat → σ → Body K → Bool → σ × Body K × Bool
  | [], s, o, killme => (s, o, killme)
  | e :: rest, s, o, killme =>
    let (s, o, kill) := effects e s o quanta
    runEffectors effects quanta rest s o (killme || kill)

/-- `tick`: the clean-up for the next pass and the pending drops. -/
def prepare (o : Body K) : Body K :=
  { o with
    accel_mod := 0
    rotation_mod := 0
    force := 0
    torque := 0
    mass_mod := 0
    pre_attribs := o.pre_attribs.filter (· ∉ o.dropped_attribs)
    post_attribs := o.post_attribs.filter (· ∉ o.dropped_attribs)
    cmd_attribs := o.cmd_attribs.filter (· ∉ o.dropped_attribs)
    dropped_attribs := [] }

/-- `tick`: the pre-effectors. -/
def runPre (effects : Effects σ K) (quanta : K) (s : σ) (o : Body K) : σ × Body K × Bool :=
  runEffectors effects quanta o.prepare.pre_attribs s o.prepare false

/-- `tick`: what the forces do to velocity and rotation. -/
def accelerate (ar : Arith K) (quanta : K) (o : Body K) : Body K :=
  let a := ar.divTriad o.force o.mass
  -- the average velocity, which nothing reads
  let _ev := o.velocity + ar.divTriad (a + o.accel_mod) 2 * quanta
  let rbase := o.rotation
  let rotation := applyForce ar (o.rotation + o.rotation_mod * quanta) o.mass
    o.boundingSphere.radius o.torque quanta
  { o with
    velocity := o.velocity + (a + o.accel_mod) * quanta
    rotation := rotation
    rotation_mod := ar.divTriad (rotation + rbase) 2 }

variable [LinearOrder K]

/-- `base_object::tick` -/
def tick (ar : Arith K) (effects : Effects σ K) (quanta : K) (s : σ) (o : Body K) :
    σ × Body K × Bool :=
  let (s, o, killme) := runPre effects quanta s o
  let o := { o with mass := o.mass + o.mass_mod }
  if o.mass ≤ 0 then (s, o, true) else (s, accelerate ar quanta o, killme)

omit [LinearOrder K] in
/-- `base_object::apply` -/
def apply (ar : Arith K) (effects : Effects σ K) (quanta : K) (s : σ) (o : Body K) :
    σ × Body K × Bool :=
  let o := { o with
    location := o.location + o.velocity * quanta
    attitude := trim ar (o.attitude + o.rotation_mod * quanta) }
  runEffectors effects quanta o.post_attribs s o false

/-- `tick`, then `apply`. -/
def turn (ar : Arith K) (effects : Effects σ K) (quanta : K) (w : σ × Body K) : σ × Body K :=
  let (s, o, _) := tick ar effects quanta w.1 w.2
  let (s, o, _) := apply ar effects quanta s o
  (s, o)

def turns (ar : Arith K) (effects : Effects σ K) (quanta : K) (n : ℕ) (w : σ × Body K) :
    σ × Body K :=
  (turn ar effects quanta)^[n] w

/-! ## A constant force -/

/-- The pre-effectors have added the force `F` and the acceleration `A`, and left the rest of the
motion and the mass alone. -/
structure Adds (F A : Triad K) (o o' : Body K) : Prop where
  force : o'.force = o.force + F
  accel_mod : o'.accel_mod = o.accel_mod + A
  location : o'.location = o.location
  velocity : o'.velocity = o.velocity
  mass : o'.mass = o.mass
  mass_mod : o'.mass_mod = o.mass_mod
  post_attribs : o'.post_attribs = o.post_attribs

omit [LinearOrder K] in
theorem Adds.refl (o : Body K) : Adds 0 0 o o :=
  ⟨(add_zero _).symm, (add_zero _).symm, rfl, rfl, rfl, rfl, rfl⟩

omit [LinearOrder K] in
theorem Adds.trans {F G A B : Triad K} {o o' o'' : Body K} (h : Adds F A o o')
    (h' : Adds G B o' o'') : Adds (F + G) (A + B) o o'' where
  force := by rw [h'.force, h.force, add_assoc]
  accel_mod := by rw [h'.accel_mod, h.accel_mod, add_assoc]
  location := h'.location.trans h.location
  velocity := h'.velocity.trans h.velocity
  mass := h'.mass.trans h.mass
  mass_mod := h'.mass_mod.trans h.mass_mod
  post_attribs := h'.post_attribs.trans h.post_attribs

section Motion

variable {ar : Arith K} {effects : Effects σ K} {quanta : K} {F A : Triad K}

variable (ar) in
/-- `tick` under a constant force: only the velocity moves. -/
theorem tick_steady {s : σ} {o : Body K} (hmass : 0 < o.mass)
    (hadds : Adds F A o.prepare (runPre effects quanta s o).2.1) :
    (tick ar effects quanta s o).2.1.velocity
        = o.velocity + quanta • (o.mass⁻¹ • F + A)
      ∧ (tick ar effects quanta s o).2.1.location = o.location
      ∧ (tick ar effects quanta s o).2.1.mass = o.mass
      ∧ (tick ar effects quanta s o).2.1.post_attribs = o.prepare.post_attribs := by
  obtain ⟨hforce, haccel, hlocation, hvelocity, hm, hmod, hpost⟩ := hadds
  rw [tick]
  generalize runPre effects quanta s o = r at *
  obtain ⟨s', o', killme⟩ := r
  have hsame : o'.mass + o'.mass_mod = o.mass := by
    rw [hm, hmod]
    exact add_zero _
  have hforce' : o'.force = F := hforce.trans (zero_add F)
  have haccel' : o'.accel_mod = A := haccel.trans (zero_add A)
  simp only [hsame, if_neg hmass.not_ge]
  refine ⟨?_, hlocation, rfl, hpost⟩
  simp only [accelerate]
  rw [hforce', haccel', hvelocity, Arith.divTriad_eq ar F hmass.ne', Triad.scale_eq_smul]
  rfl

variable (ar effects quanta) in
omit [LinearOrder K] in
/-- `apply` without post-effectors advances the location by the velocity that it finds. -/
theorem apply_location (s : σ) {o : Body K} (hpost : o.post_attribs = []) :
    (apply ar effects quanta s o).2.1.velocity = o.velocity
      ∧ (apply ar effects quanta s o).2.1.location = o.location + quanta • o.velocity
      ∧ (apply ar effects quanta s o).2.1.mass = o.mass
      ∧ (apply ar effects quanta s o).2.1.post_attribs = [] := by
  have happly : apply ar effects quanta s o = (s, { o with
      location := o.location + o.velocity * quanta
      attitude := trim ar (o.attitude + o.rotation_mod * quanta) }, false) := by
    rw [apply, hpost]
    rfl
  rw [happly]
  exact ⟨rfl, rfl, rfl, hpost⟩

variable (ar) in
/-- A turn under a constant force. -/
theorem turn_steady {w : σ × Body K} (hmass : 0 < w.2.mass) (hpost : w.2.post_attribs = [])
    (hadds : Adds F A w.2.prepare (runPre effects quanta w.1 w.2).2.1) :
    (turn ar effects quanta w).2.velocity = w.2.velocity + quanta • (w.2.mass⁻¹ • F + A)
      ∧ (turn ar effects quanta w).2.location
        = w.2.location + quanta • (turn ar effects quanta w).2.velocity
      ∧ (turn ar effects quanta w).2.mass = w.2.mass
      ∧ (turn ar effects quanta w).2.post_attribs = [] := by
  obtain ⟨hvelocity, hlocation, hsame, hlist⟩ := tick_steady ar hmass hadds
  rw [turn]
  generalize tick ar effects quanta w.1 w.2 = r at *
  obtain ⟨s', o', killme⟩ := r
  have hnone : o'.post_attribs = [] := by
    rw [hlist, prepare, hpost]
    rfl
  obtain ⟨hkeep, hmove, hm, hpost'⟩ :=
    apply_location ar effects quanta s' hnone
  dsimp only at *
  refine ⟨hkeep.trans hvelocity, ?_, hm.trans hsame, hpost'⟩
  rw [hmove, hkeep, hlocation]

/-- The mass and the empty list of post-effectors stay. -/
theorem turns_keep {w : σ × Body K} {m : K} (hm : 0 < m) (hmass : w.2.mass = m)
    (hpost : w.2.post_attribs = []) {n : ℕ}
    (hadds : ∀ k < n, Adds F A (turns ar effects quanta k w).2.prepare
      (runPre effects quanta (turns ar effects quanta k w).1
        (turns ar effects quanta k w).2).2.1) :
    (turns ar effects quanta n w).2.mass = m
      ∧ (turns ar effects quanta n w).2.post_attribs = [] := by
  induction n with
  | zero => exact ⟨hmass, hpost⟩
  | succ n ih =>
    obtain ⟨hm', hpost'⟩ := ih fun k hk => hadds k (Nat.lt_succ_of_lt hk)
    obtain ⟨_, _, hsame, hlist⟩ :=
      turn_steady ar (hm'.symm ▸ hm) hpost' (hadds n (Nat.lt_succ_self n))
    rw [turns, Function.iterate_succ_apply']
    exact ⟨hsame.trans hm', hlist⟩

/-- After `n` turns under a constant force the velocity is that of the uniformly accelerated motion.
The location is, exactly when no turn has been made or the acceleration is zero. The turns are steps
of an integrator that advances by the final velocity, whose sums are known. -/
theorem motion_law_iff [IsStrictOrderedRing K] {w : σ × Body K} {m : K} (hm : 0 < m)
    (hmass : w.2.mass = m) (hpost : w.2.post_attribs = []) (hquanta : 0 < quanta) (n : ℕ)
    (hadds : ∀ k < n, Adds F A (turns ar effects quanta k w).2.prepare
      (runPre effects quanta (turns ar effects quanta k w).1
        (turns ar effects quanta k w).2).2.1) :
    (turns ar effects quanta n w).2.velocity
        = w.2.velocity + (n * quanta) • (m⁻¹ • F + A)
      ∧ ((turns ar effects quanta n w).2.location
          = w.2.location + (n * quanta) • w.2.velocity
            + ((n * quanta) ^ 2 / 2) • (m⁻¹ • F + A)
        ↔ n = 0 ∨ m⁻¹ • F + A = 0) := by
  have hstep : ∀ k < n, (turns ar effects quanta (k + 1) w).2.velocity
        = (turns ar effects quanta k w).2.velocity + quanta • (m⁻¹ • F + A)
      ∧ (turns ar effects quanta (k + 1) w).2.location
        = (turns ar effects quanta k w).2.location
          + quanta • (turns ar effects quanta (k + 1) w).2.velocity := by
    intro k hk
    obtain ⟨hm', hpost'⟩ := turns_keep hm hmass hpost fun j hj => hadds j (hj.trans hk)
    obtain ⟨hvelocity, hlocation, _, _⟩ :=
      turn_steady ar (hm'.symm ▸ hm) hpost' (hadds k hk)
    rw [hm'] at hvelocity
    rw [turns, Function.iterate_succ_apply']
    exact ⟨hvelocity, hlocation⟩
  exact ⟨Integrator.velocity_eq (v := fun k => (turns ar effects quanta k w).2.velocity)
      fun k hk => (hstep k hk).1,
    Integrator.location_law_iff (v := fun k => (turns ar effects quanta k w).2.velocity)
      (p := fun k => (turns ar effects quanta k w).2.location) hquanta.ne'
      (fun k hk => (hstep k hk).1) fun k hk => (hstep k hk).2⟩

end Motion

/-! ## A ball at rest, pushed -/

/-- Rounding towards zero. -/
def truncate (x : ℚ) : ℤ := if 0 ≤ x then ⌊x⌋ else ⌈x⌉

/-- Exact arithmetic on the rationals. -/
def exactArith : Arith ℚ where
  div a b := a / b
  fmod a b := a - truncate (a / b) * b
  period := 314159 / 50000
  div_eq _ _ _ := rfl

/-- Every effector adds a unit force along the `x` axis. -/
def pushing : Effects Unit ℚ := fun _ s o _ => (s, { o with force := o.force + ⟨1, 0, 0⟩ }, false)

/-- A ball of mass one, with one pre-effector. -/
def ball : Body ℚ where
  location := 0
  velocity := 0
  boundingSphere := ⟨1⟩
  attitude := 0
  rotation := 0
  mass := 1
  force := 0
  torque := 0
  accel_mod := 0
  rotation_mod := 0
  mass_mod := 0
  pre_attribs := [1]
  post_attribs := []
  cmd_attribs := []
  dropped_attribs := []

theorem adds_pushing {o : Body ℚ} (hpre : o.pre_attribs = [1]) (hdropped : o.dropped_attribs = []) :
    Adds ⟨1, 0, 0⟩ 0 o.prepare (runPre pushing 1 () o).2.1 := by
  have hrun : runPre pushing 1 () o
      = ((), { o.prepare with force := o.prepare.force + ⟨1, 0, 0⟩ }, false) := by
    simp [runPre, prepare, hpre, hdropped, runEffectors, pushing]
  rw [hrun]
  exact ⟨rfl, (add_zero _).symm, rfl, rfl, rfl, rfl, rfl⟩

/-- One turn takes the ball twice as far as the uniformly accelerated motion. -/
theorem ball_overshoots : (turns exactArith pushing 1 1 ((), ball)).2.location = ⟨1, 0, 0⟩
    ∧ (turns exactArith pushing 1 1 ((), ball)).2.location
      ≠ ball.location + ((1 : ℕ) * (1 : ℚ)) • ball.velocity
        + (((1 : ℕ) * (1 : ℚ)) ^ 2 / 2) • ((1 : ℚ)⁻¹ • (⟨1, 0, 0⟩ : Triad ℚ) + 0) := by
  have hlocation : (turns exactArith pushing 1 1 ((), ball)).2.location = ⟨1, 0, 0⟩ := by
    decide +kernel
  refine ⟨hlocation, ?_⟩
  rw [hlocation]
  decide +kernel

theorem motion_law_iff_ball :
    (turns exactArith pushing 1 1 ((), ball)).2.velocity
        = ball.velocity + ((1 : ℕ) * (1 : ℚ)) • ((1 : ℚ)⁻¹ • (⟨1, 0, 0⟩ : Triad ℚ) + 0)
      ∧ (turns exactArith pushing 1 1 ((), ball)).2.location
        ≠ ball.location + ((1 : ℕ) * (1 : ℚ)) • ball.velocity
          + (((1 : ℕ) * (1 : ℚ)) ^ 2 / 2) • ((1 : ℚ)⁻¹ • (⟨1, 0, 0⟩ : Triad ℚ) + 0) := by
  have hadds : ∀ k < 1, Adds ⟨1, 0, 0⟩ 0 (turns exactArith pushing 1 k ((), ball)).2.prepare
      (runPre pushing 1 (turns exactArith pushing 1 k ((), ball)).1
        (turns exactArith pushing 1 k ((), ball)).2).2.1 := fun k hk => by
    obtain rfl : k = 0 := Nat.lt_one_iff.mp hk
    exact adds_pushing rfl rfl
  obtain ⟨hvelocity, hlocation⟩ := motion_law_iff one_pos rfl rfl one_pos 1 hadds
  refine ⟨hvelocity, fun hlaw => ?_⟩
  rcases hlocation.mp hlaw with hn | ha
  · cases hn
  · revert ha
    decide +kernel

end Body

end Nrtb
