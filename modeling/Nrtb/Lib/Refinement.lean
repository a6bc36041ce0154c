import Mathlib.Logic.Basic

/-!
# Refinement of objects

An object with calls, each of which changes it and gives a result. One object refines another when
they give the same results for every sequence of calls.

* `Simulates.run`: a relation that every call keeps, with equal results, is such a refinement.
* `Cached.For.update`, `Cached.For.refresh`: the relation between a value and an object that keeps
  what it has computed from it.
-/

namespace Nrtb

variable {σ τ κ ω : Type*}

/-- The object behind some calls, and their results. -/
def runCalls (call : κ → σ → σ × ω) : List κ → σ → σ × List ω
  | [], s => (s, [])
  | k :: ks, s =>
    let (s, out) := call k s
    let (s, outs) := runCalls call ks s
    (s, out :: outs)

/-- What each call keeps, and that it gives the same result. -/
def Simulates (call : κ → σ → σ × ω) (call' : κ → τ → τ × ω) (R : σ → τ → Prop) : Prop :=
  ∀ k s t, R s t → R (call k s).1 (call' k t).1 ∧ (call k s).2 = (call' k t).2

theorem Simulates.run {call : κ → σ → σ × ω} {call' : κ → τ → τ × ω} {R : σ → τ → Prop}
    (h : Simulates call call' R) (ks : List κ) {s : σ} {t : τ} (hstart : R s t) :
    R (runCalls call ks s).1 (runCalls call' ks t).1
      ∧ (runCalls call ks s).2 = (runCalls call' ks t).2 := by
  induction ks generalizing s t with
  | nil => exact ⟨hstart, rfl⟩
  | cons k rest ih =>
    obtain ⟨hnext, hout⟩ := h k s t hstart
    obtain ⟨hend, houts⟩ := ih hnext
    exact ⟨hend, congrArg₂ List.cons hout houts⟩

/-! ## Something that is computed when it is asked for -/

/-- A value, with what was once computed from it, and whether that has to be done again. -/
structure Cached (σ τ : Type*) where
  dirty : Bool
  value : σ
  derived : τ

namespace Cached

variable {compute : σ → τ} {c : Cached σ τ} {v : σ}

/-- It stands for a value: what it keeps is right unless it is dirty. -/
structure For (compute : σ → τ) (c : Cached σ τ) (v : σ) : Prop where
  value : c.value = v
  derived : c.dirty = false → c.derived = compute v

/-- A new value. -/
def update (f : σ → σ) (c : Cached σ τ) : Cached σ τ := { c with dirty := true, value := f c.value }

/-- Compute what is derived, if need be. -/
def refresh (compute : σ → τ) (c : Cached σ τ) : Cached σ τ :=
  if c.dirty then { c with dirty := false, derived := compute c.value } else c

theorem For.update (h : For compute c v) (f : σ → σ) : For compute (c.update f) (f v) :=
  ⟨congrArg f h.value, fun hclean => by cases hclean⟩

theorem For.refresh (h : For compute c v) :
    For compute (c.refresh compute) v ∧ (c.refresh compute).derived = compute v := by
  unfold Cached.refresh
  split
  · exact ⟨⟨h.value, fun _ => congrArg compute h.value⟩, congrArg compute h.value⟩
  · next hclean => exact ⟨h, h.derived (Bool.not_eq_true _ ▸ hclean)⟩

end Cached

end Nrtb
