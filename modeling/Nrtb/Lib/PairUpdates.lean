import Mathlib.Data.List.Pairwise
import Mathlib.Data.List.Perm.Basic
import Mathlib.Logic.Function.Basic

/-!
# Updates of two cells

Updates of a memory that read and write two cells each and put out something, one after the other.
What an update does to its cells, and what it puts out, depends on what it finds in them and on
nothing else. Updates that have no cell in common may therefore be made in any order. For a list of
them it is enough that they are pairwise apart, and the proofs are inductions on the list in which
one update is carried past another (`act_updated`, `updated_comm`).

* `foldl_output`: what updates that are apart put out, from what they find at the start.
* `foldl_memory_perm`, `foldl_output_perm`: the order does not matter.
-/

namespace Nrtb.PairUpdates

variable {κ β ω : Type*}

/-- Two pairs of cells without a cell in common. -/
def Apart (r r' : κ × κ) : Prop := r.1 ≠ r'.1 ∧ r.1 ≠ r'.2 ∧ r.2 ≠ r'.1 ∧ r.2 ≠ r'.2

theorem Apart.symm {r r' : κ × κ} (h : Apart r r') : Apart r' r :=
  ⟨h.1.symm, h.2.2.1.symm, h.2.1.symm, h.2.2.2.symm⟩

instance : Std.Symm (@Apart κ) := ⟨fun _ _ h => h.symm⟩

variable [DecidableEq κ] (act : κ × κ → β → β → (β × β) × List ω)

/-- What an update leaves of the memory. -/
def updated (memory : κ → β) (r : κ × κ) : κ → β :=
  let x := (act r (memory r.1) (memory r.2)).1
  Function.update (Function.update memory r.1 x.1) r.2 x.2

/-- An update of a memory, with what has been put out. -/
def update (w : (κ → β) × List ω) (r : κ × κ) : (κ → β) × List ω :=
  (updated act w.1 r, w.2 ++ (act r (w.1 r.1) (w.1 r.2)).2)

variable {act} {memory : κ → β} {r r' : κ × κ} {rs rs' : List (κ × κ)}

/-- Other cells keep what they hold. -/
theorem updated_of_ne {k : κ} (hfirst : k ≠ r.1) (hsecond : k ≠ r.2) :
    updated act memory r k = memory k := by
  rw [updated, Function.update_of_ne hsecond, Function.update_of_ne hfirst]

variable (act memory) in
/-- An update finds in its cells what was there before another one that is apart. -/
theorem act_updated (h : Apart r r') :
    act r' (updated act memory r r'.1) (updated act memory r r'.2)
      = act r' (memory r'.1) (memory r'.2) := by
  rw [updated_of_ne h.1.symm h.2.2.1.symm, updated_of_ne h.2.1.symm h.2.2.2.symm]

theorem updated_comm (h : Apart r r') :
    updated act (updated act memory r) r' = updated act (updated act memory r') r := by
  funext k
  rw [updated, act_updated act memory h]
  conv_rhs => rw [updated, act_updated act memory h.symm]
  obtain ⟨h11, h12, h21, h22⟩ := h
  by_cases hk : k = r'.1 ∨ k = r'.2
  · -- a cell of the second update
    have hfirst : k ≠ r.1 := by rcases hk with rfl | rfl <;> [exact h11.symm; exact h12.symm]
    have hsecond : k ≠ r.2 := by rcases hk with rfl | rfl <;> [exact h21.symm; exact h22.symm]
    rw [Function.update_of_ne hsecond, Function.update_of_ne hfirst]
    simp only [updated, Function.update_apply, if_neg hfirst, if_neg hsecond]
  · obtain ⟨hfirst, hsecond⟩ := not_or.mp hk
    rw [Function.update_of_ne hsecond, Function.update_of_ne hfirst]
    simp only [updated, Function.update_apply, if_neg hfirst, if_neg hsecond]

theorem foldl_update_fst (w : (κ → β) × List ω) (rs : List (κ × κ)) :
    (rs.foldl (update act) w).1 = rs.foldl (updated act) w.1 :=
  (List.foldl_hom Prod.fst fun _ _ => rfl).symm

/-- The outputs of updates that are apart. -/
theorem foldl_output (hapart : rs.Pairwise Apart) (w : (κ → β) × List ω) :
    (rs.foldl (update act) w).2
      = w.2 ++ rs.flatMap fun r => (act r (w.1 r.1) (w.1 r.2)).2 := by
  induction rs generalizing w with
  | nil => exact (List.append_nil _).symm
  | cons r rest ih =>
    obtain ⟨hr, hrest⟩ := List.pairwise_cons.mp hapart
    have hsame : rest.flatMap (fun r' => (act r' (updated act w.1 r r'.1)
        (updated act w.1 r r'.2)).2) = rest.flatMap fun r' => (act r' (w.1 r'.1) (w.1 r'.2)).2 :=
      List.flatMap_congr fun r' hr' => by
      rw [act_updated act w.1 (hr r' hr')]
    rw [List.foldl_cons, ih hrest]
    show (w.2 ++ _) ++ _ = _
    rw [show (update act w r).1 = updated act w.1 r from rfl, hsame, List.flatMap_cons,
      List.append_assoc]

/-- The memory does not depend on the order. -/
theorem foldl_memory_perm (hapart : rs.Pairwise Apart) (hperm : rs.Perm rs')
    (w : (κ → β) × List ω) :
    (rs.foldl (update act) w).1 = (rs'.foldl (update act) w).1 := by
  rw [foldl_update_fst, foldl_update_fst]
  refine hperm.foldl_eq' (fun r hr r' hr' memory => ?_) w.1
  by_cases heq : r = r'
  · rw [heq]
  · exact updated_comm (hapart.forall hr hr' heq)

/-- The outputs do not depend on it, but for their own order. -/
theorem foldl_output_perm (hapart : rs.Pairwise Apart) (hperm : rs.Perm rs')
    (w : (κ → β) × List ω) :
    (rs.foldl (update act) w).2.Perm (rs'.foldl (update act) w).2 := by
  have hapart' : rs'.Pairwise Apart := (hperm.pairwise_iff fun h => h.symm).mp hapart
  rw [foldl_output hapart, foldl_output hapart']
  exact (hperm.flatMap_right _).append_left _

end Nrtb.PairUpdates
