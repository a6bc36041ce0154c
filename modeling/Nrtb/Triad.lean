import Mathlib.Algebra.Order.Field.Basic
import Mathlib.Algebra.Module.Prod
import Mathlib.Analysis.Real.Sqrt
import Mathlib.Tactic.Linarith
import Mathlib.Tactic.Ring

/-!
# `triad<T>` — cartesian vectors

The vector template of `cpp/common/point/triad.h` over an arbitrary coordinate type `K`: its
component-wise operators, each under its own name, and the two lengths built on them. Instances are
stated over any field, so the same definitions run on `ℚ` and are compared with the euclidean
distance on `ℝ`. As a module over its field a `Triad` has the lemmas of such modules, which is what
the laws of motion use; `range` and `magnatude` are those of the source on real numbers, and
`magnatude_eq_zero_iff` is why a division by a length is one by zero only for points in one place.
-/

namespace Nrtb

/-- `triad<T>`: a point or vector in three coordinates. -/
structure Triad (K : Type*) where
  x : K
  y : K
  z : K
deriving DecidableEq, Repr

namespace Triad

section Operators

variable {K : Type*} [Field K]

/-- `operator + (const triad<T> &)` -/
instance : Add (Triad K) := ⟨fun p q => ⟨p.x + q.x, p.y + q.y, p.z + q.z⟩⟩

/-- `operator - (const triad<T> &)` -/
instance : Sub (Triad K) := ⟨fun p q => ⟨p.x - q.x, p.y - q.y, p.z - q.z⟩⟩

/-- `operator * (const T &)`: every coordinate times the scalar. -/
instance : HMul (Triad K) K (Triad K) := ⟨fun p k => ⟨p.x * k, p.y * k, p.z * k⟩⟩

/-- `operator / (const T &)` -/
instance : HDiv (Triad K) K (Triad K) := ⟨fun p k => ⟨p.x / k, p.y / k, p.z / k⟩⟩

/-- `operator * (const triad<T> &)` -/
def times (p q : Triad K) : Triad K := ⟨p.x * q.x, p.y * q.y, p.z * q.z⟩

@[simp] theorem add_x (p q : Triad K) : (p + q).x = p.x + q.x := rfl
@[simp] theorem add_y (p q : Triad K) : (p + q).y = p.y + q.y := rfl
@[simp] theorem add_z (p q : Triad K) : (p + q).z = p.z + q.z := rfl
@[simp] theorem sub_x (p q : Triad K) : (p - q).x = p.x - q.x := rfl
@[simp] theorem sub_y (p q : Triad K) : (p - q).y = p.y - q.y := rfl
@[simp] theorem sub_z (p q : Triad K) : (p - q).z = p.z - q.z := rfl
@[simp] theorem scale_x (p : Triad K) (k : K) : (p * k).x = p.x * k := rfl
@[simp] theorem scale_y (p : Triad K) (k : K) : (p * k).y = p.y * k := rfl
@[simp] theorem scale_z (p : Triad K) (k : K) : (p * k).z = p.z * k := rfl

/-- `triad<T>::dot_product` -/
def dotProduct (p q : Triad K) : K := p.x * q.x + p.y * q.y + p.z * q.z

end Operators

section VectorSpace

variable {K : Type*} [Field K]

def coords (p : Triad K) : K × K × K := (p.x, p.y, p.z)

omit [Field K] in
theorem coords_injective : Function.Injective (coords : Triad K → K × K × K) := by
  rintro ⟨x, y, z⟩ ⟨x', y', z'⟩ h
  obtain ⟨rfl, h⟩ := Prod.mk.inj h
  obtain ⟨rfl, rfl⟩ := Prod.mk.inj h
  rfl

instance : Zero (Triad K) := ⟨⟨0, 0, 0⟩⟩

instance : Neg (Triad K) := ⟨fun p => ⟨-p.x, -p.y, -p.z⟩⟩

instance : SMul ℕ (Triad K) := ⟨fun n p => ⟨n • p.x, n • p.y, n • p.z⟩⟩

instance : SMul ℤ (Triad K) := ⟨fun n p => ⟨n • p.x, n • p.y, n • p.z⟩⟩

instance : SMul K (Triad K) := ⟨fun k p => p * k⟩

instance : AddCommGroup (Triad K) :=
  coords_injective.addCommGroup coords rfl (fun _ _ => rfl) (fun _ => rfl) (fun _ _ => rfl)
    (fun _ _ => rfl) (fun _ _ => rfl)

/-- `coords` as a homomorphism. -/
def coordsHom : Triad K →+ K × K × K := ⟨⟨coords, rfl⟩, fun _ _ => rfl⟩

instance : Module K (Triad K) :=
  coords_injective.module K coordsHom fun k p => by
    show ((p.x * k, p.y * k, p.z * k) : K × K × K) = (k * p.x, k * p.y, k * p.z)
    rw [mul_comm p.x, mul_comm p.y, mul_comm p.z]

@[simp] theorem zero_x : (0 : Triad K).x = 0 := rfl
@[simp] theorem zero_y : (0 : Triad K).y = 0 := rfl
@[simp] theorem zero_z : (0 : Triad K).z = 0 := rfl

theorem scale_eq_smul (p : Triad K) (k : K) : p * k = k • p := rfl

end VectorSpace

section Length

variable {K : Type*} [Field K] [LinearOrder K] [IsStrictOrderedRing K]

theorem dotProduct_self_nonneg (p : Triad K) : 0 ≤ p.dotProduct p := by
  unfold dotProduct
  have hx := mul_self_nonneg p.x
  have hy := mul_self_nonneg p.y
  have hz := mul_self_nonneg p.z
  linarith

/-- A vector with a non-zero product against anything has positive length. -/
theorem dotProduct_self_pos_of_ne {p q : Triad K} (h : q.dotProduct p ≠ 0) :
    0 < p.dotProduct p := by
  have hx := mul_self_nonneg p.x
  have hy := mul_self_nonneg p.y
  have hz := mul_self_nonneg p.z
  rcases (dotProduct_self_nonneg p).lt_or_eq with hpos | hzero
  · exact hpos
  · unfold dotProduct at hzero h
    have hx0 : p.x = 0 := mul_self_eq_zero.mp (by linarith)
    have hy0 : p.y = 0 := mul_self_eq_zero.mp (by linarith)
    have hz0 : p.z = 0 := mul_self_eq_zero.mp (by linarith)
    exact absurd (by simp [hx0, hy0, hz0]) h

/-- `triad<T>::range`: the distance between two points, in exact arithmetic. -/
noncomputable def range (p q : Triad ℝ) : ℝ :=
  let offset := p - q
  Real.sqrt (offset.x * offset.x + offset.y * offset.y + offset.z * offset.z)

theorem range_eq (p q : Triad ℝ) : p.range q = Real.sqrt ((p - q).dotProduct (p - q)) := rfl

theorem range_lt_iff (p q : Triad ℝ) {r : ℝ} (hr : 0 ≤ r) :
    p.range q < r ↔ (p - q).dotProduct (p - q) < r * r := by
  rw [range_eq, Real.sqrt_lt (dotProduct_self_nonneg _) hr, sq]

theorem lt_range_iff (p q : Triad ℝ) {r : ℝ} (hr : 0 ≤ r) :
    r < p.range q ↔ r * r < (p - q).dotProduct (p - q) := by
  rw [range_eq, Real.lt_sqrt hr, sq]

/-- `triad<T>::magnatude`, in exact arithmetic. -/
noncomputable def magnatude (p : Triad ℝ) : ℝ := Real.sqrt (p.x * p.x + p.y * p.y + p.z * p.z)

/-- `triad<T>::normalize`; `none` is a division by zero. -/
noncomputable def normalize (p : Triad ℝ) : Option (Triad ℝ) :=
  if p.magnatude = 0 then none else some (p / p.magnatude)

theorem range_eq_magnatude (p q : Triad ℝ) : p.range q = (p - q).magnatude := rfl

theorem magnatude_nonneg (p : Triad ℝ) : 0 ≤ p.magnatude := Real.sqrt_nonneg _

theorem magnatude_eq_zero_iff (p : Triad ℝ) : p.magnatude = 0 ↔ p = 0 := by
  have hnonneg : 0 ≤ p.x * p.x + p.y * p.y + p.z * p.z := dotProduct_self_nonneg p
  rw [magnatude, Real.sqrt_eq_zero hnonneg]
  constructor
  · intro h
    have hx := mul_self_nonneg p.x
    have hy := mul_self_nonneg p.y
    have hz := mul_self_nonneg p.z
    have hx0 : p.x = 0 := mul_self_eq_zero.mp (by linarith)
    have hy0 : p.y = 0 := mul_self_eq_zero.mp (by linarith)
    have hz0 : p.z = 0 := mul_self_eq_zero.mp (by linarith)
    obtain ⟨x, y, z⟩ := p
    show (⟨x, y, z⟩ : Triad ℝ) = ⟨0, 0, 0⟩
    rw [show x = 0 from hx0, show y = 0 from hy0, show z = 0 from hz0]
  · rintro rfl
    simp

theorem magnatude_scale (p : Triad ℝ) (k : ℝ) : (p * k).magnatude = |k| * p.magnatude := by
  have hsq : p.x * k * (p.x * k) + p.y * k * (p.y * k) + p.z * k * (p.z * k)
      = k ^ 2 * (p.x * p.x + p.y * p.y + p.z * p.z) := by ring
  rw [magnatude, magnatude, scale_x, scale_y, scale_z, hsq, Real.sqrt_mul (sq_nonneg k),
    Real.sqrt_sq_eq_abs]

end Length

end Triad

end Nrtb
