import Mathlib.Data.List.Basic

/-!
# Since

Statements about the past of a history, which is the list of its events, oldest first. A property
that a state has "because of" an event, and keeps until another one, is put in these words, so that
it can be carried through a run by what one more event does to it.

* `Just p`: the last event is one for which `p` holds, before which the history was what it says.
* `Since P q`: `P` held of the history at some time, and since then all events are ones for which
  `q` holds.
* `just_snoc`, `since_snoc`: what one more event does to them.
* `Since.append`: events that go on with it.
-/

namespace Nrtb.History

variable {α : Type*}

/-- The last event is as `p` says, which sees what was before. -/
def Just (p : List α → α → Prop) (h : List α) : Prop :=
  ∃ before x, h = before ++ [x] ∧ p before x

/-- `P` held once, and since then `q` holds of every event. -/
def Since (P : List α → Prop) (q : α → Prop) (h : List α) : Prop :=
  ∃ before after, h = before ++ after ∧ P before ∧ ∀ x ∈ after, q x

variable {p : List α → α → Prop} {P : List α → Prop} {q : α → Prop} {h : List α} {x : α}

theorem not_just_nil : ¬ Just p [] := by
  rintro ⟨before, x, hnil, _⟩
  simp at hnil

theorem just_snoc : Just p (h ++ [x]) ↔ p h x := by
  constructor
  · rintro ⟨before, y, heq, hp⟩
    obtain ⟨rfl, hy⟩ := List.append_inj' heq rfl
    obtain rfl := List.singleton_inj.mp hy
    exact hp
  · exact fun hp => ⟨h, x, rfl, hp⟩

theorem since_nil : Since P q [] ↔ P [] := by
  constructor
  · rintro ⟨before, after, heq, hP, _⟩
    obtain ⟨rfl, rfl⟩ := List.append_eq_nil_iff.mp heq.symm
    exact hP
  · exact fun hP => ⟨[], [], rfl, hP, by simp⟩

/-- It holds now, or held before the last event, which goes on with it. -/
theorem since_snoc : Since P q (h ++ [x]) ↔ P (h ++ [x]) ∨ (Since P q h ∧ q x) := by
  constructor
  · rintro ⟨before, after, heq, hP, hq⟩
    rcases List.eq_nil_or_concat after with rfl | ⟨after', y, rfl⟩
    · rw [List.append_nil] at heq
      exact Or.inl (heq ▸ hP)
    · rw [List.concat_eq_append, ← List.append_assoc] at heq
      obtain ⟨rfl, hy⟩ := List.append_inj' heq rfl
      obtain rfl := List.singleton_inj.mp hy
      exact Or.inr ⟨⟨before, after', rfl, hP, fun z hz => hq z (by simp [hz])⟩, hq x (by simp)⟩
  · rintro (hP | ⟨⟨before, after, rfl, hP, hq⟩, hx⟩)
    · exact ⟨h ++ [x], [], by simp, hP, by simp⟩
    · refine ⟨before, after ++ [x], by simp, hP, fun z hz => ?_⟩
      rcases List.mem_append.mp hz with hz | hz
      · exact hq z hz
      · rw [List.mem_singleton.mp hz]
        exact hx

/-- Events that `q` allows do not end it. -/
theorem Since.append {after : List α} (hsince : Since P q h) (hq : ∀ x ∈ after, q x) :
    Since P q (h ++ after) := by
  obtain ⟨before, middle, rfl, hP, hmiddle⟩ := hsince
  refine ⟨before, middle ++ after, by simp, hP, fun z hz => ?_⟩
  rcases List.mem_append.mp hz with hz | hz
  · exact hmiddle z hz
  · exact hq z hz

end Nrtb.History
