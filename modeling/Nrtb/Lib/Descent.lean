import Mathlib.Data.Fintype.Card
import Mathlib.Data.Set.Finite.Basic
import Mathlib.Logic.Relation

/-!
# Recursion over a graph

A procedure that calls itself on the children of a node, over any graph in which finitely many nodes
have children. It has no memory of where it has been, so that it follows every path. A path that
comes back to one of its nodes is followed for ever, and a node that is reached twice is only
visited twice.

* `Within`: the procedure comes back from a node within a given depth of calls.
* `Within.mono`, `exists_within_all`: bounds on the depth.
* `not_within_of_cycle`: a node that is reached from itself is never come back from, by induction on
  the depth.
* `exists_within_iff`: the procedure comes back exactly when no node that is reached lies on a
  cycle, and all of them are good, which is a property of the caller's. The nodes below one without
  a cycle are finitely many, so that they can be counted down (`wellFounded_below`).
-/

namespace Nrtb.Descent

open Relation

variable {N : Type*} (children : N → List N) (good : N → Prop)

/-- The second node is a child of the first. -/
def Child (n m : N) : Prop := m ∈ children n

/-- The procedure comes back from a node: with calls nested less than so deep, and from good nodes
only. -/
def Within : Nat → N → Prop
  | 0, _ => False
  | depth + 1, n => good n ∧ ∀ m ∈ children n, Within depth m

variable {children good}

theorem Within.mono {d d' : Nat} (hle : d ≤ d') {n : N} (h : Within children good d n) :
    Within children good d' n := by
  induction d generalizing d' n with
  | zero => exact h.elim
  | succ d ih =>
    cases d' with
    | zero => omega
    | succ d' => exact ⟨h.1, fun m hm => ih (by omega) (h.2 m hm)⟩

/-- One depth for the nodes of a list. -/
theorem exists_within_all {l : List N} (h : ∀ m ∈ l, ∃ d, Within children good d m) :
    ∃ d, ∀ m ∈ l, Within children good d m := by
  induction l with
  | nil => exact ⟨0, fun m hm => by cases hm⟩
  | cons n l ih =>
    obtain ⟨d, hd⟩ := h n (by simp)
    obtain ⟨d', hd'⟩ := ih fun m hm => h m (by simp [hm])
    refine ⟨max d d', fun m hm => ?_⟩
    rcases List.mem_cons.mp hm with rfl | hm
    · exact hd.mono (le_max_left d d')
    · exact (hd' m hm).mono (le_max_right d d')

/-- One call more for a node whose children are come back from. -/
theorem exists_within_of_children {n : N} (hgood : good n)
    (h : ∀ m ∈ children n, ∃ d, Within children good d m) : ∃ d, Within children good d n := by
  obtain ⟨d, hd⟩ := exists_within_all h
  exact ⟨d + 1, hgood, hd⟩

/-- Below a node the depth that is left is smaller. -/
theorem Within.below {d : Nat} {n m : N} (h : Within children good d n)
    (hm : TransGen (Child children) n m) : ∃ d' < d, Within children good d' m := by
  induction hm with
  | single hchild =>
    cases d with
    | zero => exact h.elim
    | succ d => exact ⟨d, d.lt_succ_self, h.2 _ hchild⟩
  | tail _ hchild ih =>
    obtain ⟨d', hlt, hd'⟩ := ih
    cases d' with
    | zero => exact hd'.elim
    | succ d' => exact ⟨d', by omega, hd'.2 _ hchild⟩

theorem Within.isGood {d : Nat} {n : N} (h : Within children good d n) : good n := by
  cases d with
  | zero => exact h.elim
  | succ d => exact h.1

/-- No depth is enough for a node on a cycle. -/
theorem not_within_of_cycle {n : N} (hcycle : TransGen (Child children) n n) (d : Nat) :
    ¬ Within children good d n := by
  induction d using Nat.strong_induction_on with
  | _ d ih =>
    intro h
    obtain ⟨d', hlt, hd'⟩ := h.below hcycle
    exact ih d' hlt hd'

/-- What is reached from a node that is come back from is good, and on no cycle. -/
theorem Within.reached {d : Nat} {n m : N} (h : Within children good d n)
    (hm : ReflTransGen (Child children) n m) : good m ∧ ¬ TransGen (Child children) m m := by
  obtain ⟨d', hd'⟩ : ∃ d', Within children good d' m := by
    rcases reflTransGen_iff_eq_or_transGen.mp hm with rfl | hbelow
    · exact ⟨d, h⟩
    · obtain ⟨d', _, hd'⟩ := h.below hbelow
      exact ⟨d', hd'⟩
  exact ⟨hd'.isGood, fun hcycle => not_within_of_cycle hcycle d' hd'⟩

section Finite

variable (hfin : {n | children n ≠ []}.Finite)

include hfin

/-- Nodes below a node can be counted down when there is no cycle among them. -/
theorem wellFounded_below (n : N)
    (hacyclic : ∀ m, ReflTransGen (Child children) n m → ¬ TransGen (Child children) m m) :
    WellFounded fun x y : {m // children m ≠ [] ∧ ReflTransGen (Child children) n m} =>
      TransGen (Child children) y.1 x.1 := by
  have : Finite {m // children m ≠ [] ∧ ReflTransGen (Child children) n m} :=
    (hfin.subset fun m hm => hm.1).to_subtype
  have : IsTrans {m // children m ≠ [] ∧ ReflTransGen (Child children) n m}
      fun x y => TransGen (Child children) y.1 x.1 := ⟨fun _ _ _ hxy hyz => hyz.trans hxy⟩
  have : Std.Irrefl fun x y : {m // children m ≠ [] ∧ ReflTransGen (Child children) n m} =>
      TransGen (Child children) y.1 x.1 := ⟨fun x => hacyclic x.1 x.2.2⟩
  exact Finite.wellFounded_of_trans_of_irrefl _

/-- The procedure comes back exactly when all that is reached is good, and on no cycle. -/
theorem exists_within_iff (n : N) :
    (∃ d, Within children good d n) ↔
      ∀ m, ReflTransGen (Child children) n m → good m ∧ ¬ TransGen (Child children) m m := by
  constructor
  · rintro ⟨d, h⟩ m hm
    exact h.reached hm
  · intro h
    have hwf := wellFounded_below hfin n fun m hm => (h m hm).2
    have hleaf : ∀ m, ReflTransGen (Child children) n m → children m = [] →
        ∃ d, Within children good d m := fun m hm hnil =>
      exists_within_of_children (h m hm).1 fun c hc => by
        rw [hnil] at hc
        cases hc
    -- from the children of an inner node to the node
    have hinner : ∀ x : {m // children m ≠ [] ∧ ReflTransGen (Child children) n m},
        ∃ d, Within children good d x.1 := fun x =>
      hwf.induction x fun x ih => exists_within_of_children (h x.1 x.2.2).1 fun c hc => by
        have hreach : ReflTransGen (Child children) n c := x.2.2.tail hc
        by_cases hnil : children c = []
        · exact hleaf c hreach hnil
        · exact ih ⟨c, hnil, hreach⟩ (TransGen.single hc)
    by_cases hnil : children n = []
    · exact hleaf n ReflTransGen.refl hnil
    · exact hinner ⟨n, hnil, ReflTransGen.refl⟩

end Finite

end Nrtb.Descent
