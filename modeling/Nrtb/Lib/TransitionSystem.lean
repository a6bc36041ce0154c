import Mathlib.Data.List.Basic

/-!
# Labelled transition systems

Finite runs of a step relation with labels, oldest label first. A program with several threads is
such a relation: a state with the places of all of them, and a step for each of the things that one
of them can do next, labelled by what can be seen of it. Statements about all interleavings are
statements about all runs, and each of them is shown by a lemma on one step and one of the rules
here.

* `Run.invariant`: what every step keeps holds at the end of every run.
* `Run.history`: the same for a property of the state and the labels so far.
* `Run.strengthen`: what a condition on the steps of a run yields for its steps, where an invariant
  links the two.
* `Run.append`, `Run.cons`, `Run.split`, `Run.last`: putting runs together and taking them apart.
* `Run.of_exec`: runs that a function computes, which is how a run of many steps is exhibited.
-/

namespace Nrtb

variable {σ ℓ : Type*}

/-- A run from one state to another, with the labels of its steps. -/
inductive Run (step : σ → ℓ → σ → Prop) (s : σ) : List ℓ → σ → Prop
  | nil : Run step s [] s
  | snoc {ls : List ℓ} {t u : σ} {l : ℓ} :
      Run step s ls t → step t l u → Run step s (ls ++ [l]) u

namespace Run

variable {step : σ → ℓ → σ → Prop} {s t u : σ}

/-- A property of the labels so far and the state, kept by every step. -/
theorem history {P : List ℓ → σ → Prop} (hinit : P [] s)
    (hstep : ∀ ls t l u, P ls t → step t l u → P (ls ++ [l]) u) {ls : List ℓ}
    (h : Run step s ls t) : P ls t := by
  induction h with
  | nil => exact hinit
  | snoc _ hlast ih => exact hstep _ _ _ _ ih hlast

/-- An invariant of the states. -/
theorem invariant {I : σ → Prop} (hinit : I s)
    (hstep : ∀ t l u, I t → step t l u → I u) {ls : List ℓ} (h : Run step s ls t) : I t :=
  h.history (P := fun _ t => I t) hinit fun _ _ _ _ => hstep _ _ _

/-- A run of some of the steps is a run. -/
theorem mono {step' : σ → ℓ → σ → Prop} (hle : ∀ s l t, step s l t → step' s l t) {ls : List ℓ}
    (h : Run step s ls t) : Run step' s ls t := by
  induction h with
  | nil => exact .nil
  | snoc _ hlast ih => exact ih.snoc (hle _ _ _ hlast)

theorem append {ls ms : List ℓ} (h : Run step s ls t) (h' : Run step t ms u) :
    Run step s (ls ++ ms) u := by
  induction h' with
  | nil => rwa [List.append_nil]
  | snoc _ hlast ih =>
    rw [← List.append_assoc]
    exact ih.snoc hlast

theorem cons {l : ℓ} {ls : List ℓ} (h : step s l t) (h' : Run step t ls u) :
    Run step s (l :: ls) u :=
  append (Run.nil.snoc h) h'

/-- Runs whose steps all meet `P` are runs whose steps all meet `Q`, when an invariant of the
former yields `Q`. -/
theorem strengthen {P Q : σ → ℓ → Prop} {I : σ → Prop} (hinit : I s)
    (hstep : ∀ t l u, I t → step t l u → P t l → I u)
    (hyields : ∀ t l u, I t → step t l u → P t l → Q t l) {ls : List ℓ}
    (h : Run (fun t l u => step t l u ∧ P t l) s ls t) :
    I t ∧ Run (fun t l u => step t l u ∧ Q t l) s ls t := by
  induction h with
  | nil => exact ⟨hinit, .nil⟩
  | snoc _ hlast ih =>
    exact ⟨hstep _ _ _ ih.1 hlast.1 hlast.2,
      ih.2.snoc ⟨hlast.1, hyields _ _ _ ih.1 hlast.1 hlast.2⟩⟩

/-- A run goes through the states between its labels. -/
theorem split {pre post : List ℓ} {l : ℓ} (h : Run step s (pre ++ l :: post) u) :
    ∃ t t', Run step s pre t ∧ step t l t' ∧ Run step t' post u := by
  generalize hls : pre ++ l :: post = ls at h
  induction h generalizing post with
  | nil => cases pre <;> cases hls
  | @snoc ms v w m hrun hlast ih =>
    rcases List.eq_nil_or_concat post with rfl | ⟨post', x, rfl⟩
    · obtain ⟨rfl, hm⟩ := List.append_inj' hls rfl
      obtain rfl := List.singleton_inj.mp hm
      exact ⟨v, w, hrun, hlast, .nil⟩
    · have hms : (pre ++ l :: post') ++ [x] = ms ++ [m] := by simpa using hls
      obtain ⟨hpre, hm⟩ := List.append_inj' hms rfl
      obtain rfl := List.singleton_inj.mp hm
      obtain ⟨t, t', hrun₁, hstep, hrun₂⟩ := ih hpre
      refine ⟨t, t', hrun₁, hstep, ?_⟩
      rw [List.concat_eq_append]
      exact hrun₂.snoc hlast

/-- The last step of a run. -/
theorem last {ls : List ℓ} {l : ℓ} (h : Run step s (ls ++ [l]) u) :
    ∃ t, Run step s ls t ∧ step t l u := by
  generalize hls : ls ++ [l] = ms at h
  cases h with
  | nil => cases ls <;> cases hls
  | snoc hrun hlast =>
    obtain ⟨rfl, hl⟩ := List.append_inj' hls rfl
    obtain rfl := List.singleton_inj.mp hl
    exact ⟨_, hrun, hlast⟩

theorem single {l : ℓ} (h : step s l t) : Run step s [l] t := Run.nil.snoc h

/-! ## Executing labels -/

/-- The state that a function computes from a list of labels, one after the other. -/
def exec (next? : σ → ℓ → Option σ) : σ → List ℓ → Option σ
  | s, [] => some s
  | s, l :: ls => (next? s l).bind fun t => exec next? t ls

/-- A sound function computes runs. -/
theorem of_exec {next? : σ → ℓ → Option σ}
    (hsound : ∀ s l t, next? s l = some t → step s l t) {ls : List ℓ}
    (h : exec next? s ls = some t) : Run step s ls t := by
  induction ls generalizing s with
  | nil =>
    obtain rfl := Option.some.inj h
    exact .nil
  | cons l ls ih =>
    obtain ⟨u, hu, hrest⟩ := Option.bind_eq_some_iff.mp h
    exact cons (hsound s l u hu) (ih hrest)

end Run

end Nrtb
