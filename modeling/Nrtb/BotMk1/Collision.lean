import Nrtb.BaseObject
import Nrtb.SimCore.Tick
import Mathlib.Data.Sym.Sym2

/-!
# Collisions and the order of the objects

`bot_mk1::check_collision` (`cpp/sim_engine/bot_mk1/bot_mk1.cpp`, lines 111–122) next to
`base_object::check_collision`. `sim_core::collision_check` calls the method once for each pair, on
the object with the smaller id; a dead bot answers true to everybody.

The ids are given out in the order in which objects are made, and say nothing about where they are.
So the recorded pairs should not depend on them. `Walk` gives the same objects other ids, that is,
another order in the map; the recorded pairs are then a function of the order, and the question is
when it is constant. It is enough to look at two objects at a time, as any order can be had in which
one of them comes just before the other.

* `checkCollision_comm`: the test of the base class is symmetric, because relative place and
  velocity only change their sign.
* `check_comm_iff`: when the method is.
* `order_independent_iff`: when the recorded pairs do not depend on the ids.
-/

namespace Nrtb.BotMk1

open BaseObject SimCore

section Check

variable {K : Type*} [Field K]

theorem relPos_swap (a b : BaseObject K) : relPos b a = relPos a b * (-1 : K) := by
  rw [relPos, relPos]
  show (⟨_, _, _⟩ : Triad K) = ⟨_, _, _⟩
  congr 1 <;> simp

theorem relVel_swap (a b : BaseObject K) (quanta : K) :
    relVel b a quanta = relVel a b quanta * (-1 : K) := by
  rw [relVel, relVel]
  show (⟨_, _, _⟩ : Triad K) = ⟨_, _, _⟩
  congr 1 <;> simp only [Triad.sub_x, Triad.sub_y, Triad.sub_z, Triad.scale_x, Triad.scale_y,
    Triad.scale_z] <;> ring

theorem dotProduct_neg (p q : Triad K) :
    (p * (-1 : K)).dotProduct (q * (-1 : K)) = p.dotProduct q := by
  simp [Triad.dotProduct]

theorem pp_comm (a b : BaseObject K) : pp b a = pp a b := by
  have hdist : contactDist b a = contactDist a b := add_comm _ _
  rw [pp, relPos_swap, dotProduct_neg, hdist, pp]

theorem pv_comm (a b : BaseObject K) (quanta : K) : pv b a quanta = pv a b quanta := by
  rw [pv, relPos_swap, relVel_swap, dotProduct_neg, pv]

theorem vv_comm (a b : BaseObject K) (quanta : K) : vv b a quanta = vv a b quanta := by
  rw [vv, relVel_swap, dotProduct_neg, vv]

variable [LinearOrder K]

theorem checkCollision_comm (a b : BaseObject K) (quanta : K) :
    checkCollision b a quanta = checkCollision a b quanta := by
  rw [checkCollision_eq, checkCollision_eq, pp_comm, pv_comm, vv_comm]

/-- The classes that decide a collision. -/
inductive Kind where
  | base
  | bot (imAlive : Bool)
deriving DecidableEq, Repr

structure Collider (K : Type*) extends BaseObject K where
  kind : Kind

/-- `bot_mk1::check_collision` -/
def botCheckCollision (imAlive : Bool) (self o : BaseObject K) (quanta : K) : Option Bool :=
  if imAlive then checkCollision self o quanta else some true

/-- The call of `check_collision` on an object. -/
def check (self o : Collider K) (quanta : K) : Option Bool :=
  match self.kind with
  | .base => checkCollision self.toBaseObject o.toBaseObject quanta
  | .bot imAlive => botCheckCollision imAlive self.toBaseObject o.toBaseObject quanta

/-- A bot whose `ImAlive` is false. -/
def Collider.dead (c : Collider K) : Bool := c.kind == .bot false

theorem check_eq (self o : Collider K) (quanta : K) :
    check self o quanta = if self.dead then some true
      else checkCollision self.toBaseObject o.toBaseObject quanta := by
  obtain ⟨body, kind⟩ := self
  cases kind with
  | base => rfl
  | bot imAlive => cases imAlive <;> rfl

theorem check_comm_iff (a b : Collider K) (quanta : K) :
    check a b quanta = check b a quanta ↔ a.dead = b.dead
      ∨ checkCollision a.toBaseObject b.toBaseObject quanta = some true := by
  rw [check_eq, check_eq, checkCollision_comm a.toBaseObject b.toBaseObject]
  cases a.dead <;> cases b.dead <;> simp [eq_comm]

end Check

/-! ## The recorded pairs -/

section Recorded

variable {K ι : Type*} [Field K] [LinearOrder K]

/-- The pairs that `collision_check` records, for objects in the order of `all_objects`. -/
def recorded (view : ι → Collider K) (quanta : K) (objs : List ι) : Set (Sym2 ι) :=
  {p | ∃ r ∈ pairs objs, p = s(r.1, r.2) ∧ check (view r.1) (view r.2) quanta = some true}

/-- The objects in the order of their ids, as a walk through `all_objects` meets them. -/
def Walk (ids : ι → Nat) (objs walk : List ι) : Prop :=
  walk.Perm objs ∧ walk.Pairwise fun a b => ids a < ids b

variable [DecidableEq ι] {view : ι → Collider K} {quanta : K} {objs walk : List ι}

/-- Any order comes from some ids. -/
theorem exists_walk (hnodup : objs.Nodup) (hperm : walk.Perm objs) :
    ∃ ids, Walk ids objs walk := by
  refine ⟨fun a => walk.idxOf a, hperm, List.pairwise_iff_getElem.mpr fun i j hi hj hij => ?_⟩
  have hwalk : walk.Nodup := hperm.nodup_iff.mpr hnodup
  show walk.idxOf walk[i] < walk.idxOf walk[j]
  rw [hwalk.idxOf_getElem, hwalk.idxOf_getElem]
  exact hij

theorem mem_pairs_or {a b : ι} (hnodup : walk.Nodup) (ha : a ∈ walk) (hb : b ∈ walk)
    (hne : a ≠ b) : (a, b) ∈ pairs walk ∨ (b, a) ∈ pairs walk := by
  have hone := pairs_exactly_once hnodup ha hb hne
  by_contra hnone
  obtain ⟨hab, hba⟩ := not_or.mp hnone
  rw [List.count_eq_zero.mpr hab, List.count_eq_zero.mpr hba] at hone
  cases hone

/-- Where the test is symmetric, the order does not matter. -/
theorem recorded_subset {walk' : List ι}
    (hcomm : ∀ a ∈ objs, ∀ b ∈ objs, a ≠ b →
      check (view a) (view b) quanta = check (view b) (view a) quanta)
    (hnodup : objs.Nodup) (hwalk : walk.Perm objs) (hwalk' : walk'.Perm objs) :
    recorded view quanta walk ⊆ recorded view quanta walk' := by
  rintro p ⟨⟨a, b⟩, hr, rfl, hcheck⟩
  obtain ⟨ha, hb⟩ := mem_of_mem_pairs hr
  have hne : a ≠ b := ne_of_mem_pairs (hwalk.nodup_iff.mpr hnodup) hr
  have ha' : a ∈ objs := hwalk.subset ha
  have hb' : b ∈ objs := hwalk.subset hb
  rcases mem_pairs_or (hwalk'.nodup_iff.mpr hnodup) (hwalk'.symm.subset ha')
    (hwalk'.symm.subset hb') hne with hpair | hpair
  · exact ⟨_, hpair, rfl, hcheck⟩
  · exact ⟨_, hpair, Sym2.eq_swap, (hcomm a ha' b hb' hne).symm.trans hcheck⟩

/-- The walk that meets `a` first and then `b`. -/
theorem mem_recorded_front {a b : ι} {rest : List ι} (hnodup : (a :: b :: rest).Nodup) :
    s(a, b) ∈ recorded view quanta (a :: b :: rest)
      ↔ check (view a) (view b) quanta = some true := by
  have hfront : (a, b) ∈ pairs (a :: b :: rest) := by simp [pairs]
  refine ⟨?_, fun hcheck => ⟨_, hfront, rfl, hcheck⟩⟩
  rintro ⟨⟨x, y⟩, hr, hp, hcheck⟩
  rcases Sym2.eq_iff.mp hp with ⟨rfl, rfl⟩ | ⟨rfl, rfl⟩
  · exact hcheck
  · -- the pair comes up in one order only
    have hne : a ≠ b := ne_of_mem_pairs hnodup hfront
    have hone := pairs_exactly_once hnodup (by simp) (by simp) hne
    have hab := List.count_pos_iff.mpr hfront
    have hba := List.count_pos_iff.mpr hr
    omega

end Recorded

section Order

variable {K ι : Type*} [Field K] [LinearOrder K] [IsStrictOrderedRing K] [DecidableEq ι]

theorem check_ne_none (self o : Collider K) (quanta : K) : check self o quanta ≠ none := by
  rw [check_eq]
  split
  · exact nofun
  · exact checkCollision_ne_none _ _ _

/-- `check_collision` does not depend on which of two objects is asked exactly when both of them
or neither is a dead bot, or the geometry has them collide; and the pairs recorded in a turn do not
depend on the ids exactly when this holds of all pairs. -/
theorem order_independent_iff (quanta : K) :
    (∀ a b : Collider K, check a b quanta = check b a quanta ↔ a.dead = b.dead
        ∨ checkCollision a.toBaseObject b.toBaseObject quanta = some true)
      ∧ ∀ (view : ι → Collider K) (objs : List ι), objs.Nodup →
        ((∀ ids ids' walk walk', Walk ids objs walk → Walk ids' objs walk' →
            recorded view quanta walk = recorded view quanta walk')
          ↔ ∀ a ∈ objs, ∀ b ∈ objs, a ≠ b → (view a).dead = (view b).dead
            ∨ checkCollision (view a).toBaseObject (view b).toBaseObject quanta = some true) := by
  refine ⟨fun a b => check_comm_iff a b quanta, fun view objs hnodup => ⟨?_, ?_⟩⟩
  · intro hsame a ha b hb hne
    have hb' : b ∈ objs.erase a := (List.mem_erase_of_ne hne.symm).mpr hb
    have hperm : (a :: b :: (objs.erase a).erase b).Perm objs :=
      ((List.perm_cons_erase hb').symm.cons a).trans (List.perm_cons_erase ha).symm
    have hperm' : (b :: a :: (objs.erase a).erase b).Perm objs := (List.Perm.swap a b _).trans hperm
    obtain ⟨ids, hwalk⟩ := exists_walk hnodup hperm
    obtain ⟨ids', hwalk'⟩ := exists_walk hnodup hperm'
    have hrecorded := hsame ids ids' _ _ hwalk hwalk'
    have hiff : check (view a) (view b) quanta = some true
        ↔ check (view b) (view a) quanta = some true := by
      rw [← mem_recorded_front (hperm.nodup_iff.mpr hnodup), hrecorded, Sym2.eq_swap,
        mem_recorded_front (hperm'.nodup_iff.mpr hnodup)]
    refine (check_comm_iff _ _ quanta).mp ?_
    obtain ⟨x, hx⟩ := Option.ne_none_iff_exists'.mp (check_ne_none (view a) (view b) quanta)
    obtain ⟨y, hy⟩ := Option.ne_none_iff_exists'.mp (check_ne_none (view b) (view a) quanta)
    rw [hx, hy] at hiff ⊢
    cases x <;> cases y <;> simp_all
  · intro hpairs ids ids' walk walk' hwalk hwalk'
    have hcomm : ∀ a ∈ objs, ∀ b ∈ objs, a ≠ b →
        check (view a) (view b) quanta = check (view b) (view a) quanta :=
      fun a ha b hb hne => (check_comm_iff _ _ quanta).mpr (hpairs a ha b hb hne)
    exact (recorded_subset hcomm hnodup hwalk.1 hwalk'.1).antisymm
      (recorded_subset hcomm hnodup hwalk'.1 hwalk.1)

/-- A live object and a dead bot, ten apart and at rest. -/
def liveObject : Collider ℚ := ⟨⟨⟨0, 0, 0⟩, ⟨0, 0, 0⟩, ⟨1⟩⟩, .base⟩

def deadBot : Collider ℚ := ⟨⟨⟨10, 0, 0⟩, ⟨0, 0, 0⟩, ⟨1⟩⟩, .bot false⟩

theorem dead_bot_asymmetric :
    check deadBot liveObject (1 / 50) = some true ∧ check liveObject deadBot (1 / 50) = some false
      ∧ recorded (fun bot => if bot then deadBot else liveObject) (1 / 50) [true, false]
        ≠ recorded (fun bot => if bot then deadBot else liveObject) (1 / 50) [false, true] := by
  have hbot : check deadBot liveObject (1 / 50) = some true := rfl
  have hlive : check liveObject deadBot (1 / 50) = some false := by
    norm_num [check, checkCollision, relPos, relVel, contactDist, liveObject, deadBot]
  refine ⟨hbot, hlive, fun hsame => ?_⟩
  have hmem : s(true, false) ∈ recorded (fun bot => if bot then deadBot else liveObject) (1 / 50)
      [true, false] := (mem_recorded_front (by decide)).mpr hbot
  rw [hsame, Sym2.eq_swap, mem_recorded_front (by decide)] at hmem
  cases hlive.symm.trans hmem

/-- A dead bot that touches the live object. -/
def touchingBot : Collider ℚ := ⟨⟨⟨1, 0, 0⟩, ⟨0, 0, 0⟩, ⟨1⟩⟩, .bot false⟩

theorem order_independent_iff_touching :
    check touchingBot liveObject (1 / 50) = check liveObject touchingBot (1 / 50)
      ∧ recorded (fun bot => if bot then touchingBot else liveObject) (1 / 50) [true, false]
        = recorded (fun bot => if bot then touchingBot else liveObject) (1 / 50) [false, true] := by
  have htouch : checkCollision touchingBot.toBaseObject liveObject.toBaseObject (1 / 50)
      = some true := by
    norm_num [checkCollision, relPos, relVel, contactDist, liveObject, touchingBot]
  obtain ⟨hpair, hpopulation⟩ := order_independent_iff (ι := Bool) (1 / 50 : ℚ)
  refine ⟨(hpair touchingBot liveObject).mpr (.inr htouch), ?_⟩
  have hsame := (hpopulation (fun bot => if bot then touchingBot else liveObject) [true, false]
    (by decide)).mpr fun a _ b _ hne => by
      cases a <;> cases b
      · exact absurd rfl hne
      · exact .inr ((checkCollision_comm _ _ _).trans htouch)
      · exact .inr htouch
      · exact absurd rfl hne
  obtain ⟨ids, hwalk⟩ := exists_walk (by decide) (List.Perm.refl [true, false])
  obtain ⟨ids', hwalk'⟩ := exists_walk (by decide) (List.Perm.swap true false [])
  exact hsame ids ids' _ _ hwalk hwalk'

end Order

end Nrtb.BotMk1
