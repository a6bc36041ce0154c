import Nrtb.BaseObject.Motion
import Nrtb.Lib.Since
import Mathlib.Data.List.Sort

/-!
# The effectors of a `base_object`

`cpp/sim_engine/base_object/base_object.cpp`, lines 106–116, 157–182 and 255–291. An object keeps
three maps of effectors by id, and a list of the ids that wait to be dropped: `drop_attrib`, which
an effector may call from its own `tick`, only appends to that list, and the next `tick` of the
object removes what is in it. An effector is its id here; which ids are of commandable effectors is
a parameter.

What should be in the maps is said of the past: an effector is there if it was added and not dropped
since. The past is a list of events, in which the drops that effectors make inside a tick stand
where they are made, and `Registered`, `Pending` and `DroppedForGood` are read off it. A drop that
is pending is the one thing that keeps the maps from following the list at once; an effector that is
added while its drop is pending goes with it.

* `Event`: what happens to an object; `recorded` puts what effectors do inside a tick among it.
* `Consistent`: how the maps follow from the events; `perform_consistent` is the step.
* `registry_exact`: what is in the maps, and what is run, in every tick of every run.
-/

namespace Nrtb

open History

/-- `effector_list::add`: `insert` leaves what is there. -/
def EffectorList.add (l : List Nat) (e : Nat) : List Nat :=
  if e ∈ l then l else l.orderedInsert (· ≤ ·) e

namespace EffectorList

variable {l : List Nat} {e i : Nat}

theorem mem_add : i ∈ add l e ↔ i = e ∨ i ∈ l := by
  unfold add
  split
  · next he => exact ⟨Or.inr, fun h => h.elim (fun heq => heq ▸ he) id⟩
  · exact List.mem_orderedInsert _

theorem nodup_add (h : l.Nodup) : (add l e).Nodup := by
  unfold add
  split
  · exact h
  · next he =>
    rw [(List.perm_orderedInsert _ e l).nodup_iff]
    exact List.nodup_cons.mpr ⟨he, h⟩

end EffectorList

namespace Body

variable {σ K : Type*}

/-- `add_pre` -/
def add_pre (commandable : Nat → Bool) (e : Nat) (o : Body K) : Body K :=
  { o with
    pre_attribs := EffectorList.add o.pre_attribs e
    cmd_attribs := if commandable e then EffectorList.add o.cmd_attribs e else o.cmd_attribs }

/-- `add_post` -/
def add_post (commandable : Nat → Bool) (e : Nat) (o : Body K) : Body K :=
  { o with
    post_attribs := EffectorList.add o.post_attribs e
    cmd_attribs := if commandable e then EffectorList.add o.cmd_attribs e else o.cmd_attribs }

/-- `drop_attrib` -/
def drop_attrib (i : Nat) (o : Body K) : Body K :=
  { o with dropped_attribs := o.dropped_attribs ++ [i] }

/-- An object without effectors. -/
def bare (o : Body K) : Body K :=
  { o with pre_attribs := [], post_attribs := [], cmd_attribs := [], dropped_attribs := [] }

/-! ## Histories -/

/-- What happens to an object. -/
inductive Event
  | added_pre (e : Nat)
  | added_post (e : Nat)
  | dropped (i : Nat)
  -- a tick of the object begins
  | ticked
  -- a pre-effector's tick begins
  | ran (e : Nat)
deriving DecidableEq, Repr

/-- The effector that an event is the run of. -/
def Event.ran? : Event → Option Nat
  | .ran e => some e
  | _ => none

/-- The id that an event passes to `drop_attrib`. -/
def Event.dropped? : Event → Option Nat
  | .dropped i => some i
  | _ => none

/-- `drop_attrib` was called with this id, and there was no tick since. -/
def Pending (i : Nat) : List Event → Prop :=
  Since (Just fun _ x => x = .dropped i) (· ≠ .ticked)

/-- The effector was added when it was not about to be dropped, and was not dropped since. -/
def Registered (added : Nat → Event) (e : Nat) : List Event → Prop :=
  Since (Just fun before x => x = added e ∧ ¬ Pending e before) (· ≠ .dropped e)

/-- A drop of this id was pending, and it was not added since. -/
def DroppedForGood (i : Nat) : List Event → Prop :=
  Since (Pending i) fun x => x ≠ .added_pre i ∧ x ≠ .added_post i

section History

variable {h : List Event} {x : Event} {i e : Nat} {added : Nat → Event}

theorem pending_snoc : Pending i (h ++ [x]) ↔ x = .dropped i ∨ (Pending i h ∧ x ≠ .ticked) := by
  unfold Pending
  rw [since_snoc, just_snoc]

theorem registered_snoc : Registered added e (h ++ [x]) ↔
    (x = added e ∧ ¬ Pending e h) ∨ (Registered added e h ∧ x ≠ .dropped e) := by
  unfold Registered
  rw [since_snoc, just_snoc]

theorem droppedForGood_snoc : DroppedForGood i (h ++ [x]) ↔ Pending i (h ++ [x])
    ∨ (DroppedForGood i h ∧ x ≠ .added_pre i ∧ x ≠ .added_post i) := by
  unfold DroppedForGood
  rw [since_snoc]

theorem not_pending_nil : ¬ Pending i [] := fun h => not_just_nil (since_nil.mp h)

theorem not_registered_nil : ¬ Registered added e [] := fun h => not_just_nil (since_nil.mp h)

/-- What is about to be dropped counts as dropped. -/
theorem not_registered_of_pending (hadded : added e ≠ .dropped e) (hpending : Pending e h) :
    ¬ Registered added e h := by
  induction h using List.reverseRecOn with
  | nil => exact not_registered_nil
  | append_singleton h x ih =>
    rw [registered_snoc]
    rintro (⟨rfl, hnot⟩ | ⟨hreg, hne⟩)
    · rcases pending_snoc.mp hpending with hx | ⟨hold, _⟩
      · exact hadded hx
      · exact hnot hold
    · rcases pending_snoc.mp hpending with hx | ⟨hold, _⟩
      · exact hne hx
      · exact ih hold hreg

theorem not_registered_of_droppedForGood (hadd : added e = .added_pre e ∨ added e = .added_post e)
    (hgone : DroppedForGood e h) : ¬ Registered added e h := by
  have hadded : added e ≠ .dropped e := by
    rcases hadd with hadd | hadd <;> simp [hadd]
  induction h using List.reverseRecOn with
  | nil => exact not_registered_nil
  | append_singleton h x ih =>
    rcases droppedForGood_snoc.mp hgone with hpending | ⟨hold, hpre, hpost⟩
    · exact not_registered_of_pending hadded hpending
    · rw [registered_snoc]
      rintro (⟨rfl, _⟩ | ⟨hreg, _⟩)
      · exact hadd.elim hpre hpost
      · exact ih hold hreg

end History

/-! ## Runs -/

section Runs

variable (effects : Effects σ K) (drops : Nat → σ → Body K → K → List Nat)

/-- The ticks of the effectors, and the ids that each passes to `drop_attrib`. They do not add
effectors: the lists are protected. -/
structure DropsOnly : Prop where
  pre_attribs : ∀ e s o quanta, (effects e s o quanta).2.1.pre_attribs = o.pre_attribs
  post_attribs : ∀ e s o quanta, (effects e s o quanta).2.1.post_attribs = o.post_attribs
  cmd_attribs : ∀ e s o quanta, (effects e s o quanta).2.1.cmd_attribs = o.cmd_attribs
  dropped_attribs : ∀ e s o quanta,
    (effects e s o quanta).2.1.dropped_attribs = o.dropped_attribs ++ drops e s o quanta

/-- The same effectors, with a record of what they do. -/
def recorded : Effects (σ × List Event) K := fun e (s, h) o quanta =>
  let (s', o', kill) := effects e s o quanta
  ((s', h ++ .ran e :: (drops e s o quanta).map .dropped), o', kill)

/-- The calls that an object gets. -/
inductive Op (K : Type*)
  | add_pre (e : Nat)
  | add_post (e : Nat)
  | drop_attrib (i : Nat)
  | tick (quanta : K)

variable {effects drops} {quanta : K} {commandable : Nat → Bool}

variable (effects drops quanta) in
theorem runEffectors_recorded (l : List Nat) (s : σ) (h : List Event) (o : Body K) (killme : Bool) :
    let r := runEffectors (recorded effects drops) quanta l (s, h) o killme
    (r.1.1, r.2) = runEffectors effects quanta l s o killme := by
  induction l generalizing s h o killme with
  | nil => rfl
  | cons e rest ih =>
    unfold runEffectors
    exact ih _ _ _ _

/-- What running the effectors in `l` does to the history and to the lists. -/
structure Runs (l : List Nat) (h h' : List Event) (o o' : Body K) : Prop where
  calls : ∃ calls, h' = h ++ calls ∧ calls.filterMap Event.ran? = l
    ∧ (∀ x ∈ calls, (∃ e, x = .ran e) ∨ ∃ i, x = .dropped i)
    ∧ o'.dropped_attribs = o.dropped_attribs ++ calls.filterMap Event.dropped?
  pre_attribs : o'.pre_attribs = o.pre_attribs
  post_attribs : o'.post_attribs = o.post_attribs
  cmd_attribs : o'.cmd_attribs = o.cmd_attribs

variable (quanta) in
theorem runs_effectors (hdrops : DropsOnly effects drops) (l : List Nat) (s : σ) (h : List Event)
    (o : Body K) (killme : Bool) :
    let r := runEffectors (recorded effects drops) quanta l (s, h) o killme
    Runs l h r.1.2 o r.2.1 := by
  induction l generalizing s h o killme with
  | nil => exact ⟨⟨[], by simp [runEffectors]⟩, rfl, rfl, rfl⟩
  | cons e rest ih =>
    unfold runEffectors
    dsimp only [recorded]
    have hrest := ih (effects e s o quanta).1
      (h ++ .ran e :: (drops e s o quanta).map .dropped) (effects e s o quanta).2.1
      (killme || (effects e s o quanta).2.2)
    dsimp only [recorded] at hrest
    obtain ⟨⟨calls, hcalls, hran, hquiet, hdropped⟩, hpre, hpost, hcmd⟩ := hrest
    have hnone : ((drops e s o quanta).map Event.dropped).filterMap Event.ran? = [] := by
      simp [List.filterMap_map, Event.ran?]
    have hall : ((drops e s o quanta).map Event.dropped).filterMap Event.dropped?
        = drops e s o quanta := by
      simp [List.filterMap_map, Event.dropped?, Function.comp_def]
    refine ⟨⟨.ran e :: (drops e s o quanta).map .dropped ++ calls, ?_, ?_, ?_, ?_⟩,
      hpre.trans (hdrops.pre_attribs e s o quanta),
      hpost.trans (hdrops.post_attribs e s o quanta),
      hcmd.trans (hdrops.cmd_attribs e s o quanta)⟩
    · rw [hcalls, List.append_assoc]
    · rw [List.filterMap_append, List.filterMap_cons, hnone, hran]
      rfl
    · intro x hx
      rcases List.mem_append.mp hx with hx | hx
      · rcases List.mem_cons.mp hx with rfl | hx
        · exact Or.inl ⟨e, rfl⟩
        · obtain ⟨i, _, rfl⟩ := List.mem_map.mp hx
          exact Or.inr ⟨i, rfl⟩
      · exact hquiet x hx
    · rw [hdropped, hdrops.dropped_attribs, List.append_assoc, List.filterMap_append,
        List.filterMap_cons, hall]
      rfl

/-! ## The maps follow from the history -/

/-- `cmd_attribs` has the commandable effectors of the other two maps. -/
def CmdExact (commandable : Nat → Bool) (o : Body K) : Prop :=
  ∀ e, e ∈ o.cmd_attribs ↔ commandable e ∧ (e ∈ o.pre_attribs ∨ e ∈ o.post_attribs)

/-- How an object stands between two calls. -/
structure Consistent (commandable : Nat → Bool) (h : List Event) (o : Body K) : Prop where
  cmd : CmdExact commandable o
  dropped : ∀ i, i ∈ o.dropped_attribs ↔ Pending i h
  pre : ∀ e, ¬ Pending e h → (e ∈ o.pre_attribs ↔ Registered .added_pre e h)
  post : ∀ e, ¬ Pending e h → (e ∈ o.post_attribs ↔ Registered .added_post e h)
  pre_nodup : o.pre_attribs.Nodup

theorem consistent_bare (o : Body K) : Consistent commandable [] o.bare where
  cmd e := by simp [bare]
  dropped i := by simp [bare, not_pending_nil]
  pre e _ := by simp [bare, not_registered_nil]
  post e _ := by simp [bare, not_registered_nil]
  pre_nodup := List.nodup_nil

/-- Only the lists matter. -/
theorem Consistent.congr {h : List Event} {o o' : Body K} (hc : Consistent commandable h o)
    (hpre : o'.pre_attribs = o.pre_attribs) (hpost : o'.post_attribs = o.post_attribs)
    (hcmd : o'.cmd_attribs = o.cmd_attribs) (hdropped : o'.dropped_attribs = o.dropped_attribs) :
    Consistent commandable h o' := by
  obtain ⟨h₁, h₂, h₃, h₄, h₅⟩ := hc
  unfold CmdExact at h₁
  refine ⟨?_, ?_, ?_, ?_, ?_⟩
  · unfold CmdExact
    rwa [hcmd, hpre, hpost]
  · rwa [hdropped]
  · rwa [hpre]
  · rwa [hpost]
  · rwa [hpre]

theorem cmdExact_add_pre {o : Body K} (hcmd : CmdExact commandable o) (a : Nat) :
    CmdExact commandable (o.add_pre commandable a) := by
  intro e
  show e ∈ (if commandable a then EffectorList.add o.cmd_attribs a else o.cmd_attribs)
    ↔ commandable e ∧ (e ∈ EffectorList.add o.pre_attribs a ∨ e ∈ o.post_attribs)
  rw [EffectorList.mem_add]
  split
  · next ha =>
    rw [EffectorList.mem_add, hcmd e]
    constructor
    · rintro (rfl | ⟨he, hin⟩)
      · exact ⟨ha, Or.inl (Or.inl rfl)⟩
      · exact ⟨he, hin.imp Or.inr id⟩
    · rintro ⟨he, (rfl | hin) | hin⟩
      · exact Or.inl rfl
      · exact Or.inr ⟨he, Or.inl hin⟩
      · exact Or.inr ⟨he, Or.inr hin⟩
  · next ha =>
    rw [hcmd e]
    refine and_congr_right fun he => ⟨fun hin => hin.imp Or.inr id, ?_⟩
    rintro ((rfl | hin) | hin)
    · exact absurd he ha
    · exact Or.inl hin
    · exact Or.inr hin

theorem cmdExact_add_post {o : Body K} (hcmd : CmdExact commandable o) (a : Nat) :
    CmdExact commandable (o.add_post commandable a) := by
  -- the other map, with the names exchanged
  have hswap : CmdExact commandable
      { o with pre_attribs := o.post_attribs, post_attribs := o.pre_attribs } := fun e => by
    rw [or_comm]
    exact hcmd e
  intro e
  rw [or_comm]
  exact cmdExact_add_pre hswap a e

theorem Consistent.add_pre {h : List Event} {o : Body K} (hc : Consistent commandable h o)
    (a : Nat) : Consistent commandable (h ++ [.added_pre a]) (o.add_pre commandable a) where
  cmd := cmdExact_add_pre hc.cmd a
  dropped i := by
    show i ∈ o.dropped_attribs ↔ _
    rw [pending_snoc]
    simpa using hc.dropped i
  pre e hnot := by
    have hnot' : ¬ Pending e h := fun hp => hnot (pending_snoc.mpr (Or.inr ⟨hp, by simp⟩))
    show e ∈ EffectorList.add o.pre_attribs a ↔ _
    rw [EffectorList.mem_add, hc.pre e hnot', registered_snoc]
    simp [hnot', eq_comm]
  post e hnot := by
    have hnot' : ¬ Pending e h := fun hp => hnot (pending_snoc.mpr (Or.inr ⟨hp, by simp⟩))
    show e ∈ o.post_attribs ↔ _
    rw [hc.post e hnot', registered_snoc]
    simp
  pre_nodup := EffectorList.nodup_add hc.pre_nodup

theorem Consistent.add_post {h : List Event} {o : Body K} (hc : Consistent commandable h o)
    (a : Nat) : Consistent commandable (h ++ [.added_post a]) (o.add_post commandable a) where
  cmd := cmdExact_add_post hc.cmd a
  dropped i := by
    show i ∈ o.dropped_attribs ↔ _
    rw [pending_snoc]
    simpa using hc.dropped i
  pre e hnot := by
    have hnot' : ¬ Pending e h := fun hp => hnot (pending_snoc.mpr (Or.inr ⟨hp, by simp⟩))
    show e ∈ o.pre_attribs ↔ _
    rw [hc.pre e hnot', registered_snoc]
    simp
  post e hnot := by
    have hnot' : ¬ Pending e h := fun hp => hnot (pending_snoc.mpr (Or.inr ⟨hp, by simp⟩))
    show e ∈ EffectorList.add o.post_attribs a ↔ _
    rw [EffectorList.mem_add, hc.post e hnot', registered_snoc]
    simp [hnot', eq_comm]
  pre_nodup := hc.pre_nodup

theorem Consistent.drop_attrib {h : List Event} {o : Body K} (hc : Consistent commandable h o)
    (i : Nat) : Consistent commandable (h ++ [.dropped i]) (o.drop_attrib i) where
  cmd := hc.cmd
  dropped j := by
    show j ∈ o.dropped_attribs ++ [i] ↔ _
    rw [pending_snoc, List.mem_append, List.mem_singleton, hc.dropped j, or_comm]
    simp [eq_comm]
  pre e hnot := by
    rw [pending_snoc, not_or, not_and] at hnot
    have hnot' : ¬ Pending e h := fun hp => hnot.2 hp (by simp)
    show e ∈ o.pre_attribs ↔ _
    rw [registered_snoc]
    simpa [hnot.1] using hc.pre e hnot'
  post e hnot := by
    rw [pending_snoc, not_or, not_and] at hnot
    have hnot' : ¬ Pending e h := fun hp => hnot.2 hp (by simp)
    show e ∈ o.post_attribs ↔ _
    rw [registered_snoc]
    simpa [hnot.1] using hc.post e hnot'
  pre_nodup := hc.pre_nodup

theorem Consistent.ran {h : List Event} {o : Body K} (hc : Consistent commandable h o) (a : Nat) :
    Consistent commandable (h ++ [.ran a]) o where
  cmd := hc.cmd
  dropped i := by
    rw [pending_snoc]
    simpa using hc.dropped i
  pre e hnot := by
    rw [pending_snoc] at hnot
    rw [registered_snoc]
    simpa using hc.pre e fun hp => hnot (Or.inr ⟨hp, by simp⟩)
  post e hnot := by
    rw [pending_snoc] at hnot
    rw [registered_snoc]
    simpa using hc.post e fun hp => hnot (Or.inr ⟨hp, by simp⟩)
  pre_nodup := hc.pre_nodup

/-- The calls that effectors make. -/
theorem Consistent.calls {h : List Event} {o : Body K} (hc : Consistent commandable h o)
    {calls : List Event} (hquiet : ∀ x ∈ calls, (∃ e, x = .ran e) ∨ ∃ i, x = .dropped i) :
    Consistent commandable (h ++ calls)
      { o with dropped_attribs := o.dropped_attribs ++ calls.filterMap Event.dropped? } := by
  induction calls using List.reverseRecOn with
  | nil =>
    rw [List.append_nil]
    exact hc.congr rfl rfl rfl (List.append_nil _)
  | append_singleton calls x ih =>
    have hrest := ih fun y hy => hquiet y (List.mem_append_left _ hy)
    rw [← List.append_assoc]
    rcases hquiet x (by simp) with ⟨e, rfl⟩ | ⟨i, rfl⟩
    · refine (hrest.ran e).congr rfl rfl rfl ?_
      simp [Event.dropped?]
    · refine (hrest.drop_attrib i).congr rfl rfl rfl ?_
      simp [Event.dropped?, Body.drop_attrib]

theorem Consistent.runs {l : List Nat} {h h' : List Event} {o o' : Body K}
    (hc : Consistent commandable h o) (hruns : Runs l h h' o o') :
    Consistent commandable h' o' := by
  obtain ⟨⟨calls, rfl, _, hquiet, hdropped⟩, hpre, hpost, hcmd⟩ := hruns
  exact (hc.calls hquiet).congr hpre hpost hcmd hdropped

variable [Field K]

/-- The pending drops leave what is registered, and only that. -/
theorem Consistent.mem_prepare {h : List Event} {o : Body K} (hc : Consistent commandable h o)
    (e : Nat) : (e ∈ o.prepare.pre_attribs ↔ Registered .added_pre e h)
      ∧ (e ∈ o.prepare.post_attribs ↔ Registered .added_post e h) := by
  show (e ∈ o.pre_attribs.filter (· ∉ o.dropped_attribs) ↔ _)
    ∧ (e ∈ o.post_attribs.filter (· ∉ o.dropped_attribs) ↔ _)
  rw [List.mem_filter, List.mem_filter, decide_eq_true_iff, hc.dropped e]
  by_cases hpending : Pending e h
  · have hpre : ¬ Registered .added_pre e h := not_registered_of_pending (by simp) hpending
    have hpost : ¬ Registered .added_post e h := not_registered_of_pending (by simp) hpending
    simp [hpending, hpre, hpost]
  · rw [hc.pre e hpending, hc.post e hpending]
    simp [hpending]

theorem Consistent.prepare {h : List Event} {o : Body K} (hc : Consistent commandable h o) :
    Consistent commandable (h ++ [.ticked]) o.prepare where
  cmd e := by
    show e ∈ o.cmd_attribs.filter (· ∉ o.dropped_attribs)
      ↔ commandable e ∧ (e ∈ o.pre_attribs.filter (· ∉ o.dropped_attribs)
        ∨ e ∈ o.post_attribs.filter (· ∉ o.dropped_attribs))
    rw [List.mem_filter, List.mem_filter, List.mem_filter, hc.cmd e, ← or_and_right, and_assoc]
  dropped i := by
    rw [pending_snoc]
    simp [Body.prepare]
  pre e _ := by
    rw [(hc.mem_prepare e).1, registered_snoc]
    simp
  post e _ := by
    rw [(hc.mem_prepare e).2, registered_snoc]
    simp
  pre_nodup := hc.pre_nodup.filter _

/-! ## All calls -/

variable (effects drops) (commandable) [LinearOrder K] (ar : Arith K)

/-- One call, with the history. -/
def perform (w : (σ × List Event) × Body K) : Op K → (σ × List Event) × Body K
  | .add_pre e => ((w.1.1, w.1.2 ++ [.added_pre e]), w.2.add_pre commandable e)
  | .add_post e => ((w.1.1, w.1.2 ++ [.added_post e]), w.2.add_post commandable e)
  | .drop_attrib i => ((w.1.1, w.1.2 ++ [.dropped i]), w.2.drop_attrib i)
  | .tick quanta =>
    let (s, o, _) := tick ar (recorded effects drops) quanta (w.1.1, w.1.2 ++ [.ticked]) w.2
    (s, o)

/-- The calls of a run, on an object without effectors. -/
def performAll (s : σ) (o : Body K) (ops : List (Op K)) : (σ × List Event) × Body K :=
  ops.foldl (perform effects drops commandable ar) ((s, []), o.bare)

variable {effects drops commandable ar}

/-- The record changes nothing. -/
theorem tick_recorded (s : σ) (h : List Event) (o : Body K) :
    let r := tick ar (recorded effects drops) quanta (s, h) o
    (r.1.1, r.2) = tick ar effects quanta s o := by
  have hpre := runEffectors_recorded effects drops quanta o.prepare.pre_attribs s h o.prepare false
  dsimp only at hpre ⊢
  unfold tick runPre
  rw [← hpre]
  dsimp only
  split <;> rfl

/-- A whole tick does to the history and the lists what its pre-effectors do. -/
theorem runs_tick (hdrops : DropsOnly effects drops) (s : σ) (h : List Event) (o : Body K) :
    let r := tick ar (recorded effects drops) quanta (s, h) o
    Runs o.prepare.pre_attribs h r.1.2 o.prepare r.2.1 := by
  have hruns := runs_effectors quanta hdrops o.prepare.pre_attribs s h o.prepare false
  dsimp only at hruns ⊢
  unfold tick runPre
  dsimp only
  split
  · exact ⟨hruns.calls, hruns.pre_attribs, hruns.post_attribs, hruns.cmd_attribs⟩
  · exact ⟨hruns.calls, hruns.pre_attribs, hruns.post_attribs, hruns.cmd_attribs⟩

/-- One call keeps it. -/
theorem perform_consistent (hdrops : DropsOnly effects drops) {w : (σ × List Event) × Body K}
    (hc : Consistent commandable w.1.2 w.2) (op : Op K) :
    Consistent commandable (perform effects drops commandable ar w op).1.2
      (perform effects drops commandable ar w op).2 := by
  cases op with
  | add_pre e => exact hc.add_pre e
  | add_post e => exact hc.add_post e
  | drop_attrib i => exact hc.drop_attrib i
  | tick quanta => exact hc.prepare.runs (runs_tick hdrops w.1.1 (w.1.2 ++ [.ticked]) w.2)

theorem performAll_consistent (hdrops : DropsOnly effects drops) (s : σ) (o : Body K)
    (ops : List (Op K)) :
    Consistent commandable (performAll effects drops commandable ar s o ops).1.2
      (performAll effects drops commandable ar s o ops).2 := by
  unfold performAll
  induction ops using List.reverseRecOn with
  | nil => exact consistent_bare o
  | append_singleton ops op ih =>
    rw [List.foldl_append]
    exact perform_consistent hdrops ih op

variable (ar commandable) in
/-- After any calls, and in the tick that comes next: `cmd_attribs` is exact, what was dropped for
good is in no map and is not run, a map has the effectors that were added to it and not dropped
since, and every pre-effector is run once. -/
theorem registry_exact (hdrops : DropsOnly effects drops) (s : σ) (o : Body K) (ops : List (Op K))
    (quanta : K) :
    let w := performAll effects drops commandable ar s o ops
    let inTick := w.2.prepare
    let w' := perform effects drops commandable ar w (.tick quanta)
    CmdExact commandable w.2 ∧ CmdExact commandable inTick
      ∧ (∀ i, DroppedForGood i w.1.2 →
        i ∉ inTick.pre_attribs ∧ i ∉ inTick.post_attribs ∧ i ∉ inTick.cmd_attribs)
      ∧ (∀ e, e ∈ inTick.pre_attribs ↔ Registered .added_pre e w.1.2)
      ∧ (∀ e, e ∈ inTick.post_attribs ↔ Registered .added_post e w.1.2)
      ∧ (w'.2.pre_attribs = inTick.pre_attribs ∧ w'.2.post_attribs = inTick.post_attribs
        ∧ w'.2.cmd_attribs = inTick.cmd_attribs)
      ∧ ∃ calls, w'.1.2 = w.1.2 ++ .ticked :: calls
        ∧ calls.filterMap Event.ran? = inTick.pre_attribs ∧ inTick.pre_attribs.Nodup := by
  intro w inTick w'
  have hc : Consistent commandable w.1.2 w.2 := performAll_consistent hdrops s o ops
  have hprepare := hc.prepare
  have hruns : Runs inTick.pre_attribs (w.1.2 ++ [.ticked]) w'.1.2 inTick w'.2 :=
    runs_tick hdrops w.1.1 (w.1.2 ++ [.ticked]) w.2
  refine ⟨hc.cmd, hprepare.cmd, fun i hgone => ?_, fun e => (hc.mem_prepare e).1,
    fun e => (hc.mem_prepare e).2, ⟨hruns.pre_attribs, hruns.post_attribs, hruns.cmd_attribs⟩, ?_⟩
  · have hpre : i ∉ inTick.pre_attribs := fun hin =>
      not_registered_of_droppedForGood (Or.inl rfl) hgone ((hc.mem_prepare i).1.mp hin)
    have hpost : i ∉ inTick.post_attribs := fun hin =>
      not_registered_of_droppedForGood (Or.inr rfl) hgone ((hc.mem_prepare i).2.mp hin)
    exact ⟨hpre, hpost, fun hin => ((hprepare.cmd i).mp hin).2.elim hpre hpost⟩
  · obtain ⟨calls, hcalls, hran, _, _⟩ := hruns.calls
    exact ⟨calls, by rw [hcalls, List.append_assoc]; rfl, hran, hprepare.pre_nodup⟩

end Runs

/-! ## Rockets -/

/-- The effector 1 is a rocket that is burnt out, and drops itself in every tick. -/
def burntOut : Effects Unit ℚ := fun e s o _ => (s, if e = 1 then o.drop_attrib 1 else o, false)

def burntOutDrops : Nat → Unit → Body ℚ → ℚ → List Nat := fun e _ _ _ => if e = 1 then [1] else []

theorem burntOut_dropsOnly : DropsOnly burntOut burntOutDrops where
  pre_attribs e s o quanta := by unfold burntOut; dsimp only; split <;> rfl
  post_attribs e s o quanta := by unfold burntOut; dsimp only; split <;> rfl
  cmd_attribs e s o quanta := by unfold burntOut; dsimp only; split <;> rfl
  dropped_attribs e s o quanta := by
    unfold burntOut burntOutDrops
    dsimp only
    split
    · rfl
    · exact (List.append_nil _).symm

/-- The rocket is in its last tick; the other effector stays. -/
theorem registry_exact_rocket :
    1 ∉ (performAll burntOut burntOutDrops (fun _ => true) exactArith () ball
        [.add_pre 1, .add_pre 2, .tick 1]).2.prepare.pre_attribs
      ∧ 2 ∈ (performAll burntOut burntOutDrops (fun _ => true) exactArith () ball
        [.add_pre 1, .add_pre 2, .tick 1]).2.prepare.pre_attribs := by
  have hall := registry_exact (fun _ => true) exactArith burntOut_dropsOnly () ball
    [.add_pre 1, .add_pre 2, .tick 1] 1
  have hhistory : (performAll burntOut burntOutDrops (fun _ => true) exactArith () ball
      [.add_pre 1, .add_pre 2, .tick 1]).1.2
      = [.added_pre 1, .added_pre 2, .ticked, .ran 1, .dropped 1, .ran 2] := by
    decide +kernel
  obtain ⟨_, _, hgone, hpre, _⟩ := hall
  constructor
  · refine (hgone 1 ?_).1
    rw [hhistory]
    refine ⟨_, [], (List.append_nil _).symm, ?_, by simp⟩
    exact ⟨[.added_pre 1, .added_pre 2, .ticked, .ran 1, .dropped 1], [.ran 2], rfl,
      ⟨[.added_pre 1, .added_pre 2, .ticked, .ran 1], .dropped 1, rfl, rfl⟩, by simp⟩
  · refine (hpre 2).mpr ?_
    rw [hhistory]
    refine ⟨[.added_pre 1, .added_pre 2], [.ticked, .ran 1, .dropped 1, .ran 2], rfl, ?_, by simp⟩
    refine ⟨[.added_pre 1], .added_pre 2, rfl, rfl, ?_⟩
    rw [show [Event.added_pre 1] = [] ++ [.added_pre 1] from rfl, pending_snoc]
    rintro (h | ⟨h, _⟩)
    · cases h
    · exact not_pending_nil h

/-- An effector that was dropped and is added again after a tick is back. -/
theorem dropped_and_back :
    Event.dropped 2 ∈ (performAll burntOut burntOutDrops (fun _ => true) exactArith () ball
        [.add_pre 2, .drop_attrib 2, .tick 1, .add_pre 2]).1.2
      ∧ 2 ∈ (performAll burntOut burntOutDrops (fun _ => true) exactArith () ball
        [.add_pre 2, .drop_attrib 2, .tick 1, .add_pre 2]).2.prepare.pre_attribs
      ∧ (performAll burntOut burntOutDrops (fun _ => true) exactArith () ball
        [.add_pre 2, .drop_attrib 2, .tick 1, .add_pre 2, .tick 1]).1.2
          = [.added_pre 2, .dropped 2, .ticked, .added_pre 2, .ticked, .ran 2] := by
  refine ⟨?_, ?_, ?_⟩ <;> decide +kernel

end Body

end Nrtb
