import Nrtb.DiffSteer.Braking
import Nrtb.Lib.Refinement

/-!
# `rotatable`

`cpp/sim_engine/base_object/base_object.cpp`, lines 28–104. A `rotatable` keeps the sines and
cosines of its angles, and a flag that tells when they are to be computed again.

Such a cache is right when nobody can tell that it is there. `Lib.Refinement` has the general
argument: a cached value stands for a plain one when its copy is fresh or marked, every method keeps
that and returns the same, and so does any sequence of calls. Nine methods are checked against it
here, and the drive, which asks for a cosine and a sine, is a client of it.

* `Rotatable.simulates`: it behaves as its angles do.
* `heading_refines`: after any calls the drive pushes along the heading.
-/

namespace Nrtb

/-- `rotatable`: the `axis`, from which `cos` and `sin` are computed. -/
abbrev Rotatable (K : Type*) := Cached (Triad K) (Triad K × Triad K)

namespace Rotatable

variable {K : Type*} [Field K]

/-! ## The methods -/

/-- `rotatable(triplet)` -/
def construct (s : Triad K) : Rotatable K := ⟨true, s, 0, 0⟩

def angles (r : Rotatable K) : Triad K := r.value

/-- `rotatable(rotatable &)` -/
def copy (a : Rotatable K) : Rotatable K := ⟨true, a.angles, 0, 0⟩

def trim (ar : Arith K) (r : Rotatable K) : Rotatable K :=
  { r with dirty := true, value := Body.trim ar r.value }

def apply_force (ar : Arith K) (mass arm : K) (vec : Triad K) (t : K) (r : Rotatable K) :
    Rotatable K :=
  { r with dirty := true, value := Body.applyForce ar r.value mass arm vec t }

def scale (factor : Triad K) (r : Rotatable K) : Rotatable K :=
  { r with dirty := true, value := r.value.times factor }

def add (value : Triad K) (r : Rotatable K) : Rotatable K :=
  { r with dirty := true, value := r.value + value }

/-- `set(triplet)` -/
def set (a : Triad K) (r : Rotatable K) : Rotatable K := { r with dirty := true, value := a }

/-- `set(rotatable)`: the argument is a copy. -/
def setTo (r a : Rotatable K) : Rotatable K := r.set a.copy.angles

variable (cosf sinf : K → K)

/-- The cosines and the sines. -/
def trig (axis : Triad K) : Triad K × Triad K :=
  (⟨cosf axis.x, cosf axis.y, cosf axis.z⟩, ⟨sinf axis.x, sinf axis.y, sinf axis.z⟩)

def recalc (r : Rotatable K) : Rotatable K :=
  { r with derived := trig cosf sinf r.value, dirty := false }

def get_cos (r : Rotatable K) : Rotatable K × Triad K :=
  let r := if r.dirty then r.recalc cosf sinf else r
  (r, r.derived.1)

def get_sin (r : Rotatable K) : Rotatable K × Triad K :=
  let r := if r.dirty then r.recalc cosf sinf else r
  (r, r.derived.2)

/-! ## Calls -/

inductive Call (K : Type*) where
  | trim
  | apply_force (mass arm : K) (vec : Triad K) (t : K)
  | scale (factor : Triad K)
  | add (value : Triad K)
  | set (a : Triad K)
  | setTo (a : Rotatable K)
  | angles
  | get_cos
  | get_sin

/-- What a call does, and what it returns. -/
def call (ar : Arith K) : Call K → Rotatable K → Rotatable K × Option (Triad K)
  | .trim, r => (r.trim ar, none)
  | .apply_force mass arm vec t, r => (r.apply_force ar mass arm vec t, none)
  | .scale factor, r => (r.scale factor, none)
  | .add value, r => (r.add value, none)
  | .set a, r => (r.set a, none)
  | .setTo a, r => (r.setTo a, none)
  | .angles, r => (r, some r.angles)
  | .get_cos, r => let (r, cos) := r.get_cos cosf sinf; (r, some cos)
  | .get_sin, r => let (r, sin) := r.get_sin cosf sinf; (r, some sin)

/-- The same calls of the angles alone. -/
def plainCall (ar : Arith K) : Call K → Triad K → Triad K × Option (Triad K)
  | .trim, axis => (Body.trim ar axis, none)
  | .apply_force mass arm vec t, axis => (Body.applyForce ar axis mass arm vec t, none)
  | .scale factor, axis => (axis.times factor, none)
  | .add value, axis => (axis + value, none)
  | .set a, _ => (a, none)
  | .setTo a, _ => (a.angles, none)
  | .angles, axis => (axis, some axis)
  | .get_cos, axis => (axis, some (trig cosf sinf axis).1)
  | .get_sin, axis => (axis, some (trig cosf sinf axis).2)

theorem for_construct (s : Triad K) : Cached.For (trig cosf sinf) (construct s) s :=
  ⟨rfl, fun hclean => by cases hclean⟩

/-- Every call keeps the angles and what is known of them. -/
theorem simulates (ar : Arith K) :
    Simulates (call cosf sinf ar) (plainCall cosf sinf ar) (Cached.For (trig cosf sinf)) := by
  intro k r axis h
  cases k with
  | trim => exact ⟨h.update (Body.trim ar), rfl⟩
  | apply_force mass arm vec t =>
    exact ⟨h.update fun axis => Body.applyForce ar axis mass arm vec t, rfl⟩
  | scale factor => exact ⟨h.update fun axis => axis.times factor, rfl⟩
  | add value => exact ⟨h.update fun axis => axis + value, rfl⟩
  | set a => exact ⟨h.update fun _ => a, rfl⟩
  | setTo a => exact ⟨h.update fun _ => a.angles, rfl⟩
  | angles => exact ⟨h, congrArg some h.value⟩
  | get_cos =>
    obtain ⟨hfor, hderived⟩ := h.refresh
    exact ⟨hfor, congrArg (fun d : Triad K × Triad K => some d.1) hderived⟩
  | get_sin =>
    obtain ⟨hfor, hderived⟩ := h.refresh
    exact ⟨hfor, congrArg (fun d : Triad K × Triad K => some d.2) hderived⟩

end Rotatable

/-! ## The direction of the thrust -/

namespace DiffSteer

/-- `vec` of `diff_steer::pre::tick`, from the attitude. -/
noncomputable def vec (a : Rotatable ℝ) : Rotatable ℝ × Triad ℝ :=
  let (a, cos) := a.get_cos Real.cos Real.sin
  let (a, sin) := a.get_sin Real.cos Real.sin
  (a, ⟨cos.z, sin.z, 0⟩)

theorem vec_eq {a : Rotatable ℝ} {axis : Triad ℝ}
    (h : Cached.For (Rotatable.trig Real.cos Real.sin) a axis) :
    Cached.For (Rotatable.trig Real.cos Real.sin) (vec a).1 axis ∧ (vec a).2 = heading axis := by
  obtain ⟨hcos, hcosine⟩ := h.refresh
  obtain ⟨hsin, hsine⟩ := hcos.refresh
  have hheading : (⟨(Rotatable.trig Real.cos Real.sin axis).1.z,
      (Rotatable.trig Real.cos Real.sin axis).2.z, 0⟩ : Triad ℝ) = heading axis := rfl
  rw [← hheading]
  nth_rewrite 1 [← hcosine]
  rw [← hsine]
  exact ⟨hsin, rfl⟩

/-- Whatever is called of an attitude, and however often, it answers as its angles would, and the
drive pushes along the heading that they have. -/
theorem heading_refines (ar : Arith ℝ) (s : Triad ℝ) (calls : List (Rotatable.Call ℝ)) :
    let run := runCalls (Rotatable.call Real.cos Real.sin ar) calls (Rotatable.construct s)
    let plain := runCalls (Rotatable.plainCall Real.cos Real.sin ar) calls s
    run.2 = plain.2 ∧ run.1.angles = plain.1 ∧ (vec run.1).2 = heading plain.1 := by
  obtain ⟨hfor, hresults⟩ := (Rotatable.simulates Real.cos Real.sin ar).run calls
    (Rotatable.for_construct Real.cos Real.sin s)
  exact ⟨hresults, hfor.value, (vec_eq hfor).2⟩

end DiffSteer

end Nrtb
