import Nrtb.Lib.PairUpdates
import Nrtb.SimCore.TurnResult

/-!
# What a turn comes to

`sim_core::resolve_collisions` (`cpp/sim_engine/sim_core/sim_core.cpp`, lines 286–319) behind
`tick()`. The collisions come from the queue in the order in which the workers have found them, and
each changes the two objects it is about. So the order may matter: an object that is hit twice is
pushed by the second collision from where the first one has left it.

Where no object is in two collisions the order does not matter, which is a fact about updates of
pairs that have nothing in common (`Lib.PairUpdates`). Together with `tick_eq_turn` this makes such
a turn a function of the objects that it begins with.

* `turn_outcome`: when no object is in two collisions, neither the objects nor the removals depend
  on the workers.
-/

namespace Nrtb.SimCore

open WorkPhase Cells

/-- `apply_collision(o, quanta)` of an object, which is given what the object and the other one
are, and the displacement of two objects that overlap. -/
structure Impacts (γ : Type*) where
  apply_collision : Object → Object → γ → γ → Bool × γ × γ
  separate : γ → γ → γ × γ

variable {γ : Type*} (i : Impacts γ)

/-- One round of the loop, with the ids that `remove_obj` is called for. -/
def Impacts.act (crec : Object × Object) (a b : γ) : (γ × γ) × List Nat :=
  let (killa, a, b) := i.apply_collision crec.1 crec.2 a b
  let (killb, b, a) := i.apply_collision crec.2 crec.1 b a
  let (a, b) := if !(killa || killb) then i.separate a b else (a, b)
  ((a, b), (if killa then [crec.1.id] else []) ++ (if killb then [crec.2.id] else []))

/-- `resolve_collisions`: the objects, and the calls of `remove_obj`. -/
def Impacts.resolve_collisions (memory : Object → γ) (collisions : List (Object × Object)) :
    (Object → γ) × List Nat :=
  collisions.foldl (PairUpdates.update i.act) (memory, [])

/-- The order of collisions that have no object in common does not matter. -/
theorem Impacts.resolve_collisions_perm (memory : Object → γ) {rs rs' : List (Object × Object)}
    (hapart : rs.Pairwise PairUpdates.Apart) (hperm : rs.Perm rs') :
    (i.resolve_collisions memory rs).1 = (i.resolve_collisions memory rs').1
      ∧ (i.resolve_collisions memory rs).2.Perm (i.resolve_collisions memory rs').2 :=
  ⟨PairUpdates.foldl_memory_perm hapart hperm _, PairUpdates.foldl_output_perm hapart hperm _⟩

/-- A turn in which no object is in two collisions: whatever the number of the workers and however
they are scheduled, `resolve_collisions` leaves the objects as one thread would that does
everything one after the other, and removes the same. -/
theorem turn_outcome {β : Type*} (m : Methods β) (i : Impacts (β × Bool)) {s : State}
    (hkeyed : Keyed s.objects) {workerCount : Nat} (hworkers : 0 < workerCount)
    (hint : workerCount < 2 ^ 31)
    (hcount : s.stored.length * (s.stored.length - 1) / 2 < 2 ^ 31) {memory : Object → β × Bool}
    (hapart : (m.turn s.stored memory).2.Pairwise PairUpdates.Apart) :
    ∃ packets clsnPackets, deal workerCount s.stored = some packets
      ∧ deal workerCount (pairs s.stored) = some clsnPackets
      ∧ ∀ control, TickStart workerCount control → ∀ ls e,
        Run (ExecStep m packets clsnPackets) (.called control memory) ls e →
        e.control.applies.shared.main = .returned →
          let after := i.resolve_collisions (fun o => (e.cells o).memory)
            e.control.checks.shared.out.buffer
          let alone := i.resolve_collisions (m.turn s.stored memory).1
            (m.turn s.stored memory).2
          after.1 = alone.1 ∧ after.2.Perm alone.2 := by
  have hnodup : s.stored.Nodup := stored_nodup hkeyed
  obtain ⟨packets, clsnPackets, hdeal, hclsnDeal, hperm, hclsnPerm, hruns⟩ :=
    exec_history m hkeyed hworkers hint hcount
  refine ⟨packets, clsnPackets, hdeal, hclsnDeal, fun control hstart ls e hrun hreturned => ?_⟩
  have hend := hruns control memory hstart ls e hrun
  have hmemory : (fun o => (e.cells o).memory) = (m.turn s.stored memory).1 :=
    funext fun o => (hend.memory hperm hnodup hreturned o).2
  have hcollisions := hend.collisions hperm hclsnPerm hnodup hreturned
  dsimp only
  rw [hmemory]
  have hapart' := (hcollisions.pairwise_iff fun h => h.symm).mpr hapart
  exact i.resolve_collisions_perm _ hapart' hcollisions

/-- Two objects that kill what they meet. -/
def deadly : Impacts (Nat × Bool) := ⟨fun _ _ a b => (true, a, b), fun a b => (a, b)⟩

/-- Two objects that meet once they have ticked. -/
def meeting : Methods Nat where
  tick := fun o n => (n + 2 - o.id % 10, false)
  check := fun _ n n' => n == n'
  apply := fun _ n => (n, false)

theorem turn_outcome_meeting :
    ∃ packets clsnPackets, deal 2 twoObjects.stored = some packets
      ∧ deal 2 (pairs twoObjects.stored) = some clsnPackets
      ∧ ∀ ls e, Run (ExecStep meeting packets clsnPackets)
          (.called ⟨newPool Object 2, newPool (Object × Object) 2, newPool Object 2⟩
            fun o => (o.id % 10, true)) ls e →
        e.control.applies.shared.main = .returned →
          (deadly.resolve_collisions (fun o => (e.cells o).memory)
            e.control.checks.shared.out.buffer).2.Perm [1, 2] := by
  have hkeyed : Keyed twoObjects.objects :=
    Keyed.insert (Keyed.insert (by intro k o h; simp at h) ⟨10, 1⟩) ⟨11, 2⟩
  have hstart : TickStart 2 ⟨newPool Object 2, newPool (Object × Object) 2, newPool Object 2⟩ :=
    ⟨newPool_ready Object 2, newPool_ready (Object × Object) 2, newPool_ready Object 2⟩
  have hone : (meeting.turn twoObjects.stored fun o => (o.id % 10, true)).2
      = [(⟨10, 1⟩, ⟨11, 2⟩)] := by decide
  obtain ⟨packets, clsnPackets, hdeal, hclsnDeal, hruns⟩ := turn_outcome meeting deadly hkeyed
    (show 0 < 2 by decide) (by decide) (by decide)
    (show (meeting.turn twoObjects.stored fun o => (o.id % 10, true)).2.Pairwise _ by
      rw [hone]
      exact List.pairwise_singleton _ _)
  refine ⟨packets, clsnPackets, hdeal, hclsnDeal, fun ls e hrun hreturned => ?_⟩
  refine (hruns _ hstart ls e hrun hreturned).2.trans (List.Perm.of_eq ?_)
  rw [hone]
  rfl

end Nrtb.SimCore
