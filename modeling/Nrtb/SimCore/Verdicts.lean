import Nrtb.SimCore.Population
import Nrtb.Lib.TransitionSystem
import Mathlib.Data.List.Nodup

/-!
# Verdicts over a turn

One turn of `run_sim` as steps: `tick()` with the writes of `do_tick` and `do_apply`,
`resolve_collisions`, and the calls other threads make in between. What the virtual methods of the
objects answer is part of the step. `base_object.h` says that a method returns true when the object
is destroyed; the verdict then has to get into the next population, by way of the `alive` flag or of
a `remove_obj` in the queue. The turn leaves out the `int` that counts the pairs in
`collision_check`, which overflows from 65537 objects on: what is proved of a turn holds of the
turns that such an engine gets through.

`FlagsDecided` gives the flag of every stored object at every moment, from the answers so far: while
`tick` runs its answer decides, from `apply` on that of `apply` does. The kills of a collision do
not touch the flags, they are removals in the queue. So the next population is a function of the
events of the turn, and the question is when it is the one that the verdicts ask for.

* `TurnInv.step`: what the flags and the queue hold, from the events of the turn so far.
* `verdicts_kept_iff`: the verdicts of a turn decide about the next population exactly in a
  `VerdictsKept` turn. `do_apply` writes the flag that `do_tick` has written, so that a kill of
  `tick` is lost when `apply` returns false.
-/

namespace Nrtb.SimCore

/-! ## The turn -/

/-- Where the thread of `run_sim` is. -/
inductive Phase where
  -- about to call `turn_init`
  | init
  -- in `tick()`, with the objects whose `tick` has not run yet
  | ticking (todo : List Object)
  -- in `tick()`, with the objects whose `apply` has not run yet
  | applying (todo : List Object)
  -- in `resolve_collisions`, between two records
  | resolving
  -- in `resolve_collisions`, with the ids `remove_obj` is still to be called on
  | removing (ids : List Nat)
deriving DecidableEq, Repr

structure Engine where
  state : State
  phase : Phase

/-- What happens in a turn. -/
inductive Event where
  | tick (o : Object) (verdict : Bool)
  | check (hits : List (Object × Object))
  | apply (o : Object) (verdict : Bool)
  | applied
  | collide (a b : Object) (killa killb : Bool)
  | removed (oid : Nat)
  | recordDone
  | resolved
  | call (c : Call)
deriving DecidableEq, Repr

/-- The objects of the map, in its order. -/
def State.stored (s : State) : List Object := s.objects.entries.map Prod.snd

/-- One step of a turn, `turn_init` excluded. -/
inductive TurnStep : Engine → Event → Engine → Prop
  -- `o->alive = !o->tick(quanta_duration)`, by some worker
  | tick (s : State) (pre post : List Object) (o : Object) (v : Bool) :
      TurnStep ⟨s, .ticking (pre ++ o :: post)⟩ (.tick o v)
        ⟨s.setAlive o (!v), .ticking (pre ++ post)⟩
  -- `collision_check`, with the records it leaves
  | check (s : State) (hits : List (Object × Object))
      (hstored : ∀ r ∈ hits, r.1 ∈ s.stored ∧ r.2 ∈ s.stored) :
      TurnStep ⟨s, .ticking []⟩ (.check hits)
        ⟨{ s with collisions := s.collisions ++ hits }, .applying s.stored⟩
  -- `o->alive = !o->apply(quanta_duration)`, by some worker
  | apply (s : State) (pre post : List Object) (o : Object) (v : Bool) :
      TurnStep ⟨s, .applying (pre ++ o :: post)⟩ (.apply o v)
        ⟨s.setAlive o (!v), .applying (pre ++ post)⟩
  | applied (s : State) : TurnStep ⟨s, .applying []⟩ .applied ⟨s, .resolving⟩
  -- one record: both `apply_collision` calls
  | collide (s : State) (a b : Object) (rest : List (Object × Object)) (killa killb : Bool)
      (hrec : s.collisions = (a, b) :: rest) :
      TurnStep ⟨s, .resolving⟩ (.collide a b killa killb)
        ⟨{ s with collisions := rest },
          .removing ((if killa then [a.id] else []) ++ (if killb then [b.id] else []))⟩
  | removed (s : State) (oid : Nat) (ids : List Nat) :
      TurnStep ⟨s, .removing (oid :: ids)⟩ (.removed oid) ⟨removeObj oid s, .removing ids⟩
  | recordDone (s : State) : TurnStep ⟨s, .removing []⟩ .recordDone ⟨s, .resolving⟩
  | resolved (s : State) (hdone : s.collisions = []) :
      TurnStep ⟨s, .resolving⟩ .resolved ⟨s, .init⟩
  -- a call of another thread, at any time
  | call (s : State) (phase : Phase) (c : Call) :
      TurnStep ⟨s, phase⟩ (.call c) ⟨c.perform s, phase⟩

/-- One step of the engine. -/
inductive EngineStep (d : Dangling) : Engine → Option Event → Engine → Prop
  | turnInit (s after : State) (h : turnInit d s = .done after) :
      EngineStep d ⟨s, .init⟩ none ⟨after, .ticking after.stored⟩
  | turn (e e' : Engine) (ev : Event) (h : TurnStep e ev e') : EngineStep d e (some ev) e'

/-- The state `run_sim` starts in: the population was built by `add_object`, and only calls have
been queued. -/
def Start (e : Engine) : Prop :=
  e.phase = .init ∧ e.state.isRunning = true ∧ Keyed e.state.objects
    ∧ ∃ calls : List Call, e.state.messages = calls.map Call.message

/-- The states a run of the engine can come to, whatever `++` does in each of its turns. -/
def Reachable (e : Engine) : Prop :=
  ∃ start log, Start start ∧ Run (fun e l e' => ∃ d, EngineStep d e l e') start log e

/-! ## What every reachable state satisfies -/

/-- The engine runs, every object is stored under its id, and the queue holds calls. -/
structure Wellformed (s : State) : Prop where
  running : s.isRunning = true
  keyed : Keyed s.objects
  queued : ∃ calls : List Call, s.messages = calls.map Call.message

theorem mem_stored_iff {s : State} (h : Keyed s.objects) {o : Object} :
    o ∈ s.stored ↔ s.objects.find? o.id = some o := by
  rw [State.stored, List.mem_map]
  constructor
  · rintro ⟨⟨k, o'⟩, hmem, rfl⟩
    have hfind := OrdMap.mem_entries_iff.mp hmem
    rwa [h k o' hfind]
  · exact fun hfind => ⟨(o.id, o), OrdMap.mem_entries_iff.mpr hfind, rfl⟩

theorem Wellformed.putMessage {s : State} (h : Wellformed s) (c : Call) :
    Wellformed (putMessage c.message s) := by
  obtain ⟨calls, hcalls⟩ := h.queued
  exact ⟨h.running, h.keyed, calls ++ [c], by simp [SimCore.putMessage, hcalls]⟩

theorem Wellformed.turnInit {d : Dangling} {s after : State} (h : Wellformed s)
    (hdone : turnInit d s = .done after) : Wellformed after := by
  obtain ⟨hprepared, hrunning, hqueue⟩ := turnInit_done hdone
  exact ⟨hrunning.trans h.running, hprepared.keyed h.keyed, hqueue ▸ callsOnly_leftOver h.queued⟩

theorem Wellformed.turnStep {e e' : Engine} {ev : Event} (h : Wellformed e.state)
    (hstep : TurnStep e ev e') : Wellformed e'.state := by
  cases hstep with
  | tick s pre post o v => exact ⟨h.running, h.keyed, h.queued⟩
  | check s hits _ => exact ⟨h.running, h.keyed, h.queued⟩
  | apply s pre post o v => exact ⟨h.running, h.keyed, h.queued⟩
  | applied s => exact h
  | collide s a b rest killa killb _ => exact ⟨h.running, h.keyed, h.queued⟩
  | removed s oid ids =>
    have hput := removeObj_running oid h.running
    exact hput ▸ h.putMessage (.remove oid)
  | recordDone s => exact h
  | resolved s _ => exact h
  | call s phase c =>
    have hput := Call.perform_running (c := c) h.running
    exact hput ▸ h.putMessage c

theorem Reachable.wellformed {e : Engine} (h : Reachable e) : Wellformed e.state := by
  obtain ⟨start, log, ⟨_, hrunning, hkeyed, hqueued⟩, hrun⟩ := h
  refine hrun.invariant (I := fun e => Wellformed e.state) ⟨hrunning, hkeyed, hqueued⟩ ?_
  rintro e l e' hwf ⟨d, hstep⟩
  cases hstep with
  | turnInit s after hdone => exact hwf.turnInit hdone
  | turn _ _ ev hturn => exact hwf.turnStep hturn

/-! ## What a turn leaves behind -/

/-- The calls that a turn puts into the queue, in order. -/
def callsOf : List Event → List Call
  | [] => []
  | .call c :: log => c :: callsOf log
  | .removed oid :: log => .remove oid :: callsOf log
  | _ :: log => callsOf log

/-- An `apply_collision` call on the object returned true. -/
def CollisionKilled (log : List Event) (o : Object) : Prop :=
  ∃ a b killa killb, Event.collide a b killa killb ∈ log
    ∧ (o = a ∧ killa = true ∨ o = b ∧ killb = true)

/-- Some call on the object returned true. -/
def Killed (log : List Event) (o : Object) : Prop :=
  .tick o true ∈ log ∨ .apply o true ∈ log ∨ CollisionKilled log o

theorem callsOf_append (log log' : List Event) :
    callsOf (log ++ log') = callsOf log ++ callsOf log' := by
  induction log with
  | nil => rfl
  | cons ev log ih => cases ev <;> simp [callsOf, ih]

theorem stored_nodup {s : State} (h : Keyed s.objects) : s.stored.Nodup := by
  refine List.Nodup.map_on ?_ (s.objects.sorted.imp fun hlt heq => ?_)
  · rintro ⟨k, o⟩ ho ⟨k', o'⟩ ho' heq
    have hk := h k o (OrdMap.mem_entries_iff.mp ho)
    have hk' := h k' o' (OrdMap.mem_entries_iff.mp ho')
    have heq : o = o' := heq
    rw [← hk, ← hk', heq]
  · rw [heq] at hlt
    exact lt_irrefl _ hlt

/-- What the phase says about the flags of the stored objects: `apply` decides, as soon as it
has run. -/
def FlagsDecided (s₀ : State) (log : List Event) (e : Engine) : Prop :=
  match e.phase with
  | .ticking todo => (∀ o ∈ todo, o ∈ s₀.stored) ∧ ∀ o v, Event.apply o v ∉ log
  | .applying todo => todo.Nodup ∧ (∀ o ∈ todo, o ∈ s₀.stored ∧ ∀ v, Event.apply o v ∉ log)
      ∧ ∀ o ∈ s₀.stored, o ∉ todo → (e.state.alive o = true ↔ Event.apply o true ∉ log)
  | _ => ∀ o ∈ s₀.stored, (e.state.alive o = true ↔ Event.apply o true ∉ log)

/-- The state of a turn, from the state at its start and what happened since. -/
structure TurnInv (s₀ : State) (calls₀ : List Call) (log : List Event) (e : Engine) : Prop where
  objects : e.state.objects = s₀.objects
  running : e.state.isRunning = true
  messages : e.state.messages = (calls₀ ++ callsOf log).map Call.message
  outside : ∀ o, o ∉ s₀.stored → e.state.alive o = s₀.alive o
  flags : FlagsDecided s₀ log e
  collisions : ∀ o, CollisionKilled log o → .remove o.id ∈ callsOf log
    ∨ ∃ ids, e.phase = .removing ids ∧ o.id ∈ ids

section TurnInv

variable {s₀ : State} {calls₀ : List Call} {log : List Event} {e e' : Engine} {ev : Event}

/-- An event that is no collision kills nobody by collision. -/
theorem collisionKilled_append {o : Object}
    (hev : ∀ a b killa killb, ev ≠ .collide a b killa killb)
    (h : CollisionKilled (log ++ [ev]) o) : CollisionKilled log o := by
  obtain ⟨a, b, killa, killb, hmem, ho⟩ := h
  rcases List.mem_append.mp hmem with hmem | hmem
  · exact ⟨a, b, killa, killb, hmem, ho⟩
  · exact absurd (List.mem_singleton.mp hmem).symm (hev a b killa killb)

theorem apply_mem_append {o : Object} {v : Bool} (hev : ∀ o v, ev ≠ .apply o v) :
    .apply o v ∈ log ++ [ev] ↔ .apply o v ∈ log := by
  rw [List.mem_append, List.mem_singleton]
  exact or_iff_left fun h => hev o v h.symm

theorem queued_keep {ms : List Message} (h : ms = (calls₀ ++ callsOf log).map Call.message)
    (hev : callsOf [ev] = []) : ms = (calls₀ ++ callsOf (log ++ [ev])).map Call.message := by
  rw [callsOf_append, hev, List.append_nil, h]

theorem queued_put {ms : List Message} {c : Call}
    (h : ms = (calls₀ ++ callsOf log).map Call.message) (hev : callsOf [ev] = [c]) :
    ms ++ [c.message] = (calls₀ ++ callsOf (log ++ [ev])).map Call.message := by
  rw [callsOf_append, hev, h]
  simp

theorem FlagsDecided.keep (h : FlagsDecided s₀ log e) (hev : ∀ o v, ev ≠ .apply o v)
    (hphase : e'.phase = e.phase) (halive : e'.state.alive = e.state.alive) :
    FlagsDecided s₀ (log ++ [ev]) e' := by
  unfold FlagsDecided at h ⊢
  rw [hphase]
  simp only [apply_mem_append hev, halive]
  exact h

/-- Outside `tick()` the flags stay as `apply` left them. -/
theorem FlagsDecided.of_decided
    (h : ∀ o ∈ s₀.stored, (e.state.alive o = true ↔ Event.apply o true ∉ log))
    (hev : ∀ o v, ev ≠ .apply o v) (halive : e'.state.alive = e.state.alive)
    (htick : ∀ todo, e'.phase ≠ .ticking todo) (happly : ∀ todo, e'.phase ≠ .applying todo) :
    FlagsDecided s₀ (log ++ [ev]) e' := by
  unfold FlagsDecided
  simp only [apply_mem_append hev, halive]
  cases hphase : e'.phase with
  | ticking todo => exact absurd hphase (htick todo)
  | applying todo => exact absurd hphase (happly todo)
  | init => exact h
  | resolving => exact h
  | removing ids => exact h

/-- A call of `apply` decides the flag of its object, and no other. -/
theorem FlagsDecided.apply {s : State} {pre post : List Object} {o : Object}
    (h : FlagsDecided s₀ log ⟨s, .applying (pre ++ o :: post)⟩) (v : Bool) :
    FlagsDecided s₀ (log ++ [.apply o v]) ⟨s.setAlive o (!v), .applying (pre ++ post)⟩ := by
  obtain ⟨hnodup, htodo, hdone⟩ := h
  have hnotin : o ∉ pre ++ post := fun hmem =>
    (List.nodup_middle.mp hnodup).notMem hmem
  refine ⟨(List.nodup_middle.mp hnodup).of_cons, fun x hx => ?_, fun x hx hnot => ?_⟩
  · have hne : x ≠ o := fun hxo => hnotin (hxo ▸ hx)
    have hold := htodo x (by
      rcases List.mem_append.mp hx with hx | hx
      · exact List.mem_append_left _ hx
      · exact List.mem_append_right _ (List.mem_cons_of_mem _ hx))
    exact ⟨hold.1, fun w => by simpa [hne] using hold.2 w⟩
  · by_cases hxo : x = o
    · -- the flag that this call decides
      subst hxo
      have hfirst := (htodo x (by simp)).2 true
      simp [State.setAlive, hfirst]
    · have hold := hdone x hx (by
        simp only [List.mem_append, List.mem_cons, not_or] at hnot ⊢
        exact ⟨hnot.1, hxo, hnot.2⟩)
      simp only [State.setAlive, Function.update_of_ne hxo, hold, List.mem_append,
        List.mem_singleton, Event.apply.injEq, hxo, false_and, or_false]

/-- An event that kills nobody by collision and drops no pending removal. -/
theorem pending_keep
    (h : ∀ o, CollisionKilled log o → Call.remove o.id ∈ callsOf log
      ∨ ∃ ids, e.phase = .removing ids ∧ o.id ∈ ids)
    (hev : ∀ a b killa killb, ev ≠ .collide a b killa killb)
    (hphase : ∀ ids, e.phase = .removing ids → e'.phase = .removing ids ∨ ids = []) :
    ∀ o, CollisionKilled (log ++ [ev]) o → Call.remove o.id ∈ callsOf (log ++ [ev])
      ∨ ∃ ids, e'.phase = .removing ids ∧ o.id ∈ ids := by
  intro o ho
  rcases h o (collisionKilled_append hev ho) with hmem | ⟨ids, hids, hmem⟩
  · rw [callsOf_append]
    exact .inl (List.mem_append_left _ hmem)
  · rcases hphase ids hids with hsame | rfl
    · exact .inr ⟨ids, hsame, hmem⟩
    · cases hmem

theorem TurnInv.step (hkeyed : Keyed s₀.objects) (h : TurnInv s₀ calls₀ log e)
    (hstep : TurnStep e ev e') : TurnInv s₀ calls₀ (log ++ [ev]) e' := by
  obtain ⟨hobjects, hrunning, hmsgs, houtside, hflags, hcoll⟩ := h
  cases hstep with
  | tick s pre post o v =>
    obtain ⟨hstored, hnone⟩ := hflags
    refine ⟨hobjects, hrunning, queued_keep hmsgs rfl, ?_, ?_,
      pending_keep hcoll (by simp) (by simp)⟩
    · intro x hx
      have hne : x ≠ o := fun hxo => hx (hxo ▸ hstored o (by simp))
      exact (Function.update_of_ne hne _ _).trans (houtside x hx)
    · refine ⟨fun x hx => hstored x ?_, fun x w => ?_⟩
      · rcases List.mem_append.mp hx with hx | hx
        · exact List.mem_append_left _ hx
        · exact List.mem_append_right _ (List.mem_cons_of_mem _ hx)
      · rw [apply_mem_append (by simp)]
        exact hnone x w
  | check s hits _ =>
    obtain ⟨_, hnone⟩ := hflags
    have hsame : s.stored = s₀.stored := by rw [State.stored, State.stored, hobjects]
    refine ⟨hobjects, hrunning, queued_keep hmsgs rfl, houtside, ?_,
      pending_keep hcoll (by simp) (by simp)⟩
    show s.stored.Nodup ∧ _
    rw [hsame]
    refine ⟨stored_nodup hkeyed, fun o ho => ⟨ho, fun v => ?_⟩, fun o ho hnot => absurd ho hnot⟩
    rw [apply_mem_append (by simp)]
    exact hnone o v
  | apply s pre post o v =>
    have ho := hflags.2.1 o (by simp)
    refine ⟨hobjects, hrunning, queued_keep hmsgs rfl, fun x hx => ?_, FlagsDecided.apply hflags v,
      pending_keep hcoll (by simp) (by simp)⟩
    have hne : x ≠ o := fun hxo => hx (hxo ▸ ho.1)
    exact (Function.update_of_ne hne _ _).trans (houtside x hx)
  | applied s =>
    obtain ⟨_, _, hdone⟩ := hflags
    exact ⟨hobjects, hrunning, queued_keep hmsgs rfl, houtside,
      .of_decided (e := ⟨s, .resolving⟩) (fun o ho => hdone o ho (by simp)) (by simp) rfl
        (by simp) (by simp),
      pending_keep hcoll (by simp) (by simp)⟩
  | collide s a b rest killa killb _ =>
    refine ⟨hobjects, hrunning, queued_keep hmsgs rfl, houtside,
      .of_decided (e := ⟨s, .resolving⟩) hflags (by simp) rfl (by simp) (by simp), ?_⟩
    rintro o ⟨a', b', killa', killb', hmem, ho⟩
    rcases List.mem_append.mp hmem with hmem | hmem
    · rcases hcoll o ⟨a', b', killa', killb', hmem, ho⟩ with hin | ⟨ids, hids, _⟩
      · exact .inl (by rw [callsOf_append]; exact List.mem_append_left _ hin)
      · cases hids
    · obtain ⟨rfl, rfl, rfl, rfl⟩ := Event.collide.inj (List.mem_singleton.mp hmem)
      refine .inr ⟨_, rfl, ?_⟩
      rcases ho with ⟨rfl, rfl⟩ | ⟨rfl, rfl⟩
      · simp
      · simp
  | removed s oid ids =>
    rw [removeObj_running oid hrunning]
    refine ⟨hobjects, hrunning, queued_put (c := .remove oid) hmsgs rfl, houtside,
      .of_decided (e := ⟨s, .resolving⟩) hflags (by simp) rfl (by simp) (by simp), ?_⟩
    intro o ho
    rw [callsOf_append]
    rcases hcoll o (collisionKilled_append (by simp) ho) with hin | ⟨ids', hids, hin⟩
    · exact .inl (List.mem_append_left _ hin)
    · obtain rfl := Phase.removing.inj hids
      rcases List.mem_cons.mp hin with hoid | hin
      · exact .inl (by simp [callsOf, hoid])
      · exact .inr ⟨ids, rfl, hin⟩
  | recordDone s =>
    exact ⟨hobjects, hrunning, queued_keep hmsgs rfl, houtside,
      .of_decided (e := ⟨s, .resolving⟩) hflags (by simp) rfl (by simp) (by simp),
      pending_keep hcoll (by simp) (by simp)⟩
  | resolved s _ =>
    exact ⟨hobjects, hrunning, queued_keep hmsgs rfl, houtside,
      .of_decided (e := ⟨s, .resolving⟩) hflags (by simp) rfl (by simp) (by simp),
      pending_keep hcoll (by simp) (by simp)⟩
  | call s phase c =>
    rw [Call.perform_running hrunning]
    exact ⟨hobjects, hrunning, queued_put hmsgs rfl, houtside, hflags.keep (by simp) rfl rfl,
      pending_keep hcoll (by simp) fun ids hids => .inl hids⟩

end TurnInv

/-! ## The calls in the queue -/

/-- The call a message stands for. -/
def Message.call? : Message → Option Call
  | ⟨0, 1, 1, .object obj⟩ => some (.add obj)
  | ⟨0, 1, 2, .oid oid⟩ => some (.remove oid)
  | _ => none

/-- The calls in the queue. -/
def State.queued (s : State) : List Call := s.messages.filterMap Message.call?

theorem queued_eq {s : State} {calls : List Call} (h : s.messages = calls.map Call.message) :
    s.queued = calls := by
  rw [State.queued, h, List.filterMap_map]
  have hcall : Message.call? ∘ Call.message = some := by
    funext c
    cases c <;> rfl
  rw [hcall, List.filterMap_some]

/-- From the start of `tick()` to the next `turn_init`. -/
theorem turnInv_of_run {s₀ s₃ : State} {log : List Event}
    (hreach : Reachable ⟨s₀, .ticking s₀.stored⟩)
    (hrun : Run TurnStep ⟨s₀, .ticking s₀.stored⟩ log ⟨s₃, .init⟩) :
    TurnInv s₀ s₀.queued log ⟨s₃, .init⟩ := by
  have hwf := hreach.wellformed
  obtain ⟨calls, hcalls⟩ := hwf.queued
  refine hrun.history (P := TurnInv s₀ s₀.queued) ?_ fun ls t l u h hstep => h.step hwf.keyed hstep
  refine ⟨rfl, hwf.running, ?_, fun _ _ => rfl, ⟨fun o ho => ho, by simp⟩, ?_⟩
  · rw [queued_eq hcalls, callsOf, List.append_nil]
    exact hcalls
  · rintro o ⟨a, b, killa, killb, hmem, _⟩
    cases hmem

/-! ## Calls about one id -/

theorem lastAbout_eq_none_iff {calls : List Call} {k : Nat} :
    lastAbout k calls = none ↔ ∀ c ∈ calls, c.about ≠ k := by
  induction calls with
  | nil => simp [lastAbout]
  | cons c calls ih =>
    rw [lastAbout, Option.or_eq_none_iff, ih]
    simp only [List.mem_cons, forall_eq_or_imp, ite_eq_right_iff, reduceCtorEq, imp_false]
    exact and_comm

/-- Without a remove of its id an object is not struck. -/
theorem struck_of_no_remove {objects : OrdMap Nat Object} (hkeyed : Keyed objects)
    {calls : List Call} {o : Object} (h : Call.remove o.id ∉ calls) :
    struck objects calls o = false := by
  induction calls generalizing objects with
  | nil => rfl
  | cons c calls ih =>
    rw [List.mem_cons, not_or] at h
    cases c with
    | add obj => exact ih (hkeyed.insert obj) h.2
    | remove oid =>
      have hfind : (objects.find? oid == some o) = false :=
        beq_false_of_ne fun hfind => h.1 (by rw [hkeyed oid o hfind])
      rw [struck, hfind, Bool.false_or]
      exact ih hkeyed h.2

/-- A remove strikes the object that no add replaces. -/
theorem struck_of_mem_remove {objects : OrdMap Nat Object} {calls : List Call} {o : Object}
    (hfind : objects.find? o.id = some o) (hadd : ∀ obj, Call.add obj ∈ calls → obj.id ≠ o.id)
    (h : Call.remove o.id ∈ calls) : struck objects calls o = true := by
  induction calls generalizing objects with
  | nil => cases h
  | cons c calls ih =>
    have hrest : ∀ obj, Call.add obj ∈ calls → obj.id ≠ o.id :=
      fun obj hobj => hadd obj (List.mem_cons_of_mem _ hobj)
    cases c with
    | add obj =>
      have hne : obj.id ≠ o.id := hadd obj (by simp)
      refine ih ?_ hrest (by simpa using h)
      rw [OrdMap.find?_insert, if_neg hne, hfind]
    | remove oid =>
      rw [struck]
      rcases List.mem_cons.mp h with hoid | h
      · rw [← Call.remove.inj hoid, hfind]
        simp
      · rw [ih hfind hrest h, Bool.or_true]

/-! ## The verdicts and the next population -/

/-- The verdicts of a turn decide: the next `turn_init` stays within the defined behaviour, it
leaves no object that a call killed (unless it processes an add under the same id), and it leaves
every other object whose removal nobody asked for. -/
def VerdictsDecide (d : Dangling) (s₀ : State) (log : List Event) (s₃ : State) : Prop :=
  ∃ after, turnInit d s₃ = .done after ∧ ∀ o ∈ s₀.stored,
    (Killed log o → (∀ obj, addMessage obj ∈ processed s₃.messages → obj.id ≠ o.id) →
        o ∉ after.stored)
      ∧ (¬ Killed log o → removeMessage o.id ∉ s₃.messages → o ∈ after.stored)

/-- When the verdicts of a turn decide, from its events, the calls in the queue at its end and those
of them that are `counted`: no remove of an absent id is counted; `apply` does not overwrite the
kill of a `tick` that no counted call is about; the removal of a collision kill is counted, or
`apply` kills as well; and no other object is added for good under the id of a surviving one. -/
structure VerdictsKept (s₀ : State) (log : List Event) (calls now : List Call) : Prop where
  present : RemovesPresent s₀.objects now
  kept : ∀ o ∈ s₀.stored, .tick o true ∈ log → .apply o true ∉ log → ∃ c ∈ now, c.about = o.id
  collided : 2 ^ 31 ≤ calls.length → ∀ o ∈ s₀.stored, CollisionKilled log o →
    .apply o true ∉ log → ∃ c ∈ now, c.about = o.id
  replaced : ∀ o ∈ s₀.stored, ¬ Killed log o → .remove o.id ∉ calls →
    ∀ obj, lastAbout o.id now = some (.add obj) → obj = o

/-- The sweep behind the turn has nobody to erase. -/
def NobodySwept (s₀ : State) (log : List Event) (now : List Call) : Prop :=
  ∀ k o, (withAdds s₀.objects now).find? k = some o →
    (o ∈ s₀.stored → .apply o true ∉ log) ∧ (o ∉ s₀.stored → s₀.alive o = true)
      ∧ struck s₀.objects now o = false

section Decide

variable {s₀ s₃ : State} {log : List Event} {calls : List Call}
  (hkeyed : Keyed s₀.objects) (hinv : TurnInv s₀ s₀.queued log ⟨s₃, .init⟩)
  (hcalls : calls = s₀.queued ++ callsOf log)

include hinv in
/-- A flag when `turn_init` starts, from the events of the turn. -/
theorem TurnInv.alive_iff (o : Object) :
    s₃.alive o = true
      ↔ (o ∈ s₀.stored → .apply o true ∉ log) ∧ (o ∉ s₀.stored → s₀.alive o = true) := by
  by_cases ho : o ∈ s₀.stored
  · simpa [ho] using hinv.flags o ho
  · simp [ho, ← hinv.outside o ho]

include hinv hcalls in
theorem TurnInv.processed_eq :
    processed s₃.messages = (counted calls).map Call.message := by
  have hmsgs : s₃.messages = calls.map Call.message := hcalls ▸ hinv.messages
  rw [hmsgs, processed_calls]

include hinv hcalls in
theorem TurnInv.add_mem_iff {obj : Object} :
    addMessage obj ∈ processed s₃.messages ↔ .add obj ∈ counted calls := by
  rw [hinv.processed_eq hcalls]
  exact List.mem_map_of_injective message_injective (a := Call.add obj)

include hinv hcalls in
theorem TurnInv.remove_mem_iff {oid : Nat} :
    removeMessage oid ∈ s₃.messages ↔ .remove oid ∈ calls := by
  have hmsgs : s₃.messages = calls.map Call.message := hcalls ▸ hinv.messages
  rw [hmsgs]
  exact List.mem_map_of_injective message_injective (a := Call.remove oid)

include hinv hcalls in
/-- A collision kill has its removal in the queue. -/
theorem TurnInv.collision_remove {o : Object} (h : CollisionKilled log o) :
    .remove o.id ∈ calls := by
  rw [hcalls]
  rcases hinv.collisions o h with hmem | ⟨ids, hids, _⟩
  · exact List.mem_append_right _ hmem
  · cases hids

include hkeyed hinv hcalls in
/-- What a defined `turn_init` leaves: the stored objects whose flag is up and that no counted
remove strikes. -/
theorem TurnInv.mem_after_iff {after : State} (hdone : turnInit .next s₃ = .done after)
    {o : Object} :
    o ∈ after.stored ↔ (withAdds s₀.objects (counted calls)).find? o.id = some o
      ∧ s₃.alive o = true ∧ struck s₀.objects (counted calls) o = false := by
  obtain ⟨hprepared, _⟩ := turnInit_done hdone
  have hkeyed₃ : Keyed s₃.objects := by rwa [hinv.objects]
  rw [mem_stored_iff (hprepared.keyed hkeyed₃),
    hprepared.find?_iff (hinv.processed_eq hcalls), hinv.objects]
  refine and_congr_right fun hk => (not_erases_next_iff hk).trans ?_
  exact aliveBehind_iff

include hinv hcalls in
/-- What the message loop comes to. -/
theorem TurnInv.messageLoop_cases :
    (RemovesPresent s₀.objects (counted calls)
        ∧ messageLoop s₃ = .done { s₃ with
            objects := withAdds s₀.objects (counted calls)
            alive := aliveBehind s₀.objects s₃.alive (counted calls)
            messages := leftOver s₃.messages })
      ∨ (¬ RemovesPresent s₀.objects (counted calls) ∧ messageLoop s₃ = .undefined) := by
  have hloop := messageLoop_calls (hinv.processed_eq hcalls)
  rwa [hinv.objects] at hloop

include hkeyed hinv hcalls in
/-- An object that neither `apply` nor a counted removal condemns is left, unless another one has
taken its place. -/
theorem TurnInv.mem_after {after : State} (hdone : turnInit .next s₃ = .done after) {o : Object}
    (ho : o ∈ s₀.stored) (happly : .apply o true ∉ log) (hremove : .remove o.id ∉ counted calls)
    (hfind : (withAdds s₀.objects (counted calls)).find? o.id = some o) : o ∈ after.stored :=
  (hinv.mem_after_iff hkeyed hcalls hdone).mpr
    ⟨hfind, (hinv.alive_iff o).mpr ⟨fun _ => happly, fun hnot => absurd ho hnot⟩,
      struck_of_no_remove hkeyed hremove⟩

include hkeyed hinv hcalls in
theorem TurnInv.kept_of_decide (h : VerdictsDecide .next s₀ log s₃) :
    VerdictsKept s₀ log calls (counted calls) := by
  obtain ⟨after, hdone, hverdicts⟩ := h
  -- without a call about it an object survives its kill if `apply` does not kill it
  have hkept : ∀ o ∈ s₀.stored, Killed log o → .apply o true ∉ log →
      ∃ c ∈ counted calls, c.about = o.id := by
    intro o ho hkill happly
    by_contra hnone
    simp only [not_exists, not_and] at hnone
    have hplace : (withAdds s₀.objects (counted calls)).find? o.id = s₀.objects.find? o.id :=
      find?_withAdds_of_none (lastAbout_eq_none_iff.mpr hnone)
    refine (hverdicts o ho).1 hkill (fun obj hobj => hnone _ ((hinv.add_mem_iff hcalls).mp hobj)) ?_
    exact hinv.mem_after hkeyed hcalls hdone ho happly (fun hmem => hnone _ hmem rfl)
      (hplace.trans ((mem_stored_iff hkeyed).mp ho))
  refine ⟨?_, fun o ho htick => hkept o ho (.inl htick),
    fun _ o ho hcoll => hkept o ho (.inr (.inr hcoll)), fun o ho hkill hrem obj hlast => ?_⟩
  · rcases hinv.messageLoop_cases hcalls with ⟨hpresent, _⟩ | ⟨_, hundefined⟩
    · exact hpresent
    · obtain ⟨t, hloop, _⟩ := turnInit_done_iff.mp hdone
      cases hundefined.symm.trans hloop
  · -- the object that the last add put in its place
    have hin := (hverdicts o ho).2 hkill fun hmem => hrem ((hinv.remove_mem_iff hcalls).mp hmem)
    have hfind := ((hinv.mem_after_iff hkeyed hcalls hdone).mp hin).1
    rw [find?_withAdds_of_add hlast] at hfind
    exact Option.some.inj hfind

include hinv hcalls in
/-- A kill that `apply` does not repeat has left a counted call about the object. -/
theorem TurnInv.call_of_killed (h : VerdictsKept s₀ log calls (counted calls)) {o : Object}
    (ho : o ∈ s₀.stored) (hkill : Killed log o) (happly : .apply o true ∉ log) :
    ∃ c ∈ counted calls, c.about = o.id := by
  rcases hkill with htick | happly' | hcoll
  · exact h.kept o ho htick happly
  · exact absurd happly' happly
  · by_cases hlong : 2 ^ 31 ≤ calls.length
    · exact h.collided hlong o ho hcoll happly
    · rw [counted_of_lt (not_le.mp hlong)]
      exact ⟨_, hinv.collision_remove hcalls hcoll, rfl⟩

include hkeyed hinv hcalls in
theorem TurnInv.decide_of_kept (h : VerdictsKept s₀ log calls (counted calls)) :
    VerdictsDecide .next s₀ log s₃ := by
  rcases hinv.messageLoop_cases hcalls with ⟨_, hloop⟩ | ⟨habsent, _⟩
  swap
  · exact absurd h.present habsent
  obtain ⟨objects, hsweep, _⟩ := sweep_next { s₃ with
    objects := withAdds s₀.objects (counted calls)
    alive := aliveBehind s₀.objects s₃.alive (counted calls)
    messages := leftOver s₃.messages }
  have hdone := turnInit_done_iff.mpr ⟨_, hloop, hsweep⟩
  refine ⟨_, hdone, fun o ho => ⟨fun hkill hnoAdd hin => ?_, fun hkill hrem => ?_⟩⟩
  · obtain ⟨_, halive, hstruck⟩ := (hinv.mem_after_iff hkeyed hcalls hdone).mp hin
    have happly : .apply o true ∉ log := ((hinv.alive_iff o).mp halive).1 ho
    have hno : ∀ obj, Call.add obj ∈ counted calls → obj.id ≠ o.id := fun obj hobj =>
      hnoAdd obj ((hinv.add_mem_iff hcalls).mpr hobj)
    obtain ⟨c, hc, habout⟩ := hinv.call_of_killed hcalls h ho hkill happly
    -- a counted removal would have struck the object
    cases c with
    | add obj => exact hno obj hc habout
    | remove oid =>
      have hid : oid = o.id := habout
      rw [struck_of_mem_remove ((mem_stored_iff hkeyed).mp ho) hno (hid ▸ hc)] at hstruck
      cases hstruck
  · have hrem : Call.remove o.id ∉ calls := fun hmem => hrem ((hinv.remove_mem_iff hcalls).mpr hmem)
    have hcounted : Call.remove o.id ∉ counted calls := fun hmem =>
      hrem (counted_subset calls hmem)
    have happly : .apply o true ∉ log := fun hmem => hkill (.inr (.inl hmem))
    refine hinv.mem_after hkeyed hcalls hdone ho happly hcounted ?_
    cases hlast : lastAbout o.id (counted calls) with
    | none => exact (find?_withAdds_of_none hlast).trans ((mem_stored_iff hkeyed).mp ho)
    | some c =>
      cases c with
      | add obj =>
        rw [find?_withAdds_of_add hlast, h.replaced o ho hkill hrem obj hlast]
      | remove oid =>
        have hid : oid = o.id := about_of_lastAbout hlast
        exact absurd (hid ▸ mem_of_lastAbout hlast) hcounted

include hkeyed hinv hcalls in
/-- `verdicts_kept_iff` where `++` leads to the next entry. -/
theorem TurnInv.decide_next_iff :
    VerdictsDecide .next s₀ log s₃ ↔ VerdictsKept s₀ log calls (counted calls) :=
  ⟨hinv.kept_of_decide hkeyed hcalls, hinv.decide_of_kept hkeyed hcalls⟩

include hinv hcalls in
/-- Nobody is dead when the sweep begins, from the events of the turn. -/
theorem TurnInv.nobodyDead_iff (hpresent : RemovesPresent s₀.objects (counted calls)) :
    NobodyDead s₃ ↔ NobodySwept s₀ log (counted calls) := by
  rcases hinv.messageLoop_cases hcalls with ⟨_, hloop⟩ | ⟨habsent, _⟩
  swap
  · exact absurd hpresent habsent
  have hflag : ∀ o, aliveBehind s₀.objects s₃.alive (counted calls) o = true
      ↔ (o ∈ s₀.stored → .apply o true ∉ log) ∧ (o ∉ s₀.stored → s₀.alive o = true)
        ∧ struck s₀.objects (counted calls) o = false := fun o => by
    rw [aliveBehind_iff, hinv.alive_iff, and_assoc]
  constructor
  · exact fun h k o hfind => (hflag o).mp (h _ hloop k o hfind)
  · intro h t ht k o hfind
    obtain rfl := Outcome.done.inj (hloop.symm.trans ht)
    exact (hflag o).mpr (h k o hfind)

end Decide

/-- In every reachable turn, the verdicts decide about the population after the next `turn_init`
if and only if the turn is `VerdictsKept`, where `++` leads to the next entry; and whatever `++`
does on the iterator of an erased element if and only if, besides, the sweep has nobody to erase. -/
theorem verdicts_kept_iff (s₀ s₃ : State) (log : List Event)
    (hreach : Reachable ⟨s₀, .ticking s₀.stored⟩)
    (hrun : Run TurnStep ⟨s₀, .ticking s₀.stored⟩ log ⟨s₃, .init⟩) :
    let calls := s₀.queued ++ callsOf log
    (VerdictsDecide .next s₀ log s₃ ↔ VerdictsKept s₀ log calls (counted calls))
      ∧ ((∀ d, VerdictsDecide d s₀ log s₃) ↔ VerdictsKept s₀ log calls (counted calls)
        ∧ NobodySwept s₀ log (counted calls)) := by
  intro calls
  have hinv := turnInv_of_run hreach hrun
  have hnext := hinv.decide_next_iff hreach.wellformed.keyed rfl
  refine ⟨hnext, ?_⟩
  have hforall := forall_turnInit_iff (P := fun r => ∃ after, r = .done after ∧ ∀ o ∈ s₀.stored,
    (Killed log o → (∀ obj, addMessage obj ∈ processed s₃.messages → obj.id ≠ o.id) →
        o ∉ after.stored)
      ∧ (¬ Killed log o → removeMessage o.id ∉ s₃.messages → o ∈ after.stored))
    (by rintro ⟨_, h, _⟩; cases h) s₃
  exact hforall.trans (Iff.trans (and_congr_left' hnext)
    (and_congr_right fun h => hinv.nobodyDead_iff rfl h.present))

/-! ## A collision -/

/-- The running engine with some objects. -/
def running (objs : List Object) : State := { populated objs with isRunning := true }

theorem turnInit_running (d : Dangling) (objs : List Object) :
    turnInit d (running objs) = .done (running objs) := by
  have hshort : (running objs).messages.length < 2 ^ 31 := show 0 < 2 ^ 31 by decide
  rw [turnInit_of_lt d hshort]
  exact sweep_of_alive d fun _ _ _ => rfl

theorem reachable_running (objs : List Object) :
    Reachable ⟨running objs, .ticking (running objs).stored⟩ :=
  ⟨⟨running objs, .init⟩, [none], ⟨rfl, rfl, keyed_populated objs, [], rfl⟩,
    .single ⟨.next, .turnInit _ _ (turnInit_running _ objs)⟩⟩

/-- Of three objects two collide, which kills the first of them, and both methods kill the
third. -/
def collisionTurn : List Event :=
  [.tick ⟨100, 1⟩ false, .tick ⟨101, 2⟩ false, .tick ⟨102, 3⟩ true, .check [(⟨100, 1⟩, ⟨101, 2⟩)],
    .apply ⟨100, 1⟩ false, .apply ⟨101, 2⟩ false, .apply ⟨102, 3⟩ true, .applied,
    .collide ⟨100, 1⟩ ⟨101, 2⟩ true false, .removed 1, .recordDone, .resolved]

/-- The flags behind `tick` or `apply` of the three. -/
def State.thirdDead (s : State) : State :=
  ((s.setAlive ⟨100, 1⟩ true).setAlive ⟨101, 2⟩ true).setAlive ⟨102, 3⟩ false

/-- What the turn leaves. -/
def afterCollision : State :=
  { (running [⟨100, 1⟩, ⟨101, 2⟩, ⟨102, 3⟩]).thirdDead.thirdDead with
    messages := [removeMessage 1] }

theorem run_collisionTurn :
    Run TurnStep ⟨running [⟨100, 1⟩, ⟨101, 2⟩, ⟨102, 3⟩],
        .ticking (running [⟨100, 1⟩, ⟨101, 2⟩, ⟨102, 3⟩]).stored⟩ collisionTurn
      ⟨afterCollision, .init⟩ := by
  have hhits : ∀ r ∈ [((⟨100, 1⟩, ⟨101, 2⟩) : Object × Object)],
      r.1 ∈ (running [⟨100, 1⟩, ⟨101, 2⟩, ⟨102, 3⟩]).thirdDead.stored
        ∧ r.2 ∈ (running [⟨100, 1⟩, ⟨101, 2⟩, ⟨102, 3⟩]).thirdDead.stored := by decide
  refine .cons (.tick _ [] [⟨101, 2⟩, ⟨102, 3⟩] _ _) (.cons (.tick _ [] [⟨102, 3⟩] _ _)
    (.cons (.tick _ [] [] _ _) (.cons (.check _ _ hhits) ?_)))
  refine .cons (.apply _ [] [⟨101, 2⟩, ⟨102, 3⟩] _ _) (.cons (.apply _ [] [⟨102, 3⟩] _ _)
    (.cons (.apply _ [] [] _ _) (.cons (.applied _) ?_)))
  exact .cons (.collide _ _ _ [] true false rfl) (.cons (.removed _ 1 [])
    (.cons (.recordDone _) (.single (.resolved _ rfl))))

/-- `verdicts_kept_iff` on this turn: the second object is left. -/
theorem verdicts_kept_collision :
    ∃ after, turnInit .next afterCollision = .done after ∧ ⟨100, 1⟩ ∉ after.stored
      ∧ ⟨101, 2⟩ ∈ after.stored ∧ ⟨102, 3⟩ ∉ after.stored := by
  have hcalls : counted [.remove 1] = [.remove 1] := counted_of_lt (show 1 < 2 ^ 31 by decide)
  have hkept : VerdictsKept (running [⟨100, 1⟩, ⟨101, 2⟩, ⟨102, 3⟩]) collisionTurn [.remove 1]
      [.remove 1] := by
    refine ⟨⟨by decide, trivial⟩, ?_, fun h => absurd h (by decide), ?_⟩
    · rintro o - htick happly
      have hthird : o = ⟨102, 3⟩ := by simpa [collisionTurn] using htick
      exact absurd (by rw [hthird]; decide) happly
    · intro o ho _ _ obj hlast
      simp [lastAbout] at hlast
  obtain ⟨after, hdone, hverdicts⟩ := (verdicts_kept_iff _ _ _ (reachable_running _)
    run_collisionTurn).1.mpr (hcalls.symm ▸ hkept)
  have hadd : ∀ {oid : Nat} (obj : Object),
      addMessage obj ∈ processed afterCollision.messages → obj.id ≠ oid := fun obj hobj => by
    have hmem : addMessage obj ∈ [removeMessage 1] := List.mem_of_mem_take hobj
    simp [addMessage, removeMessage] at hmem
  refine ⟨after, hdone, (hverdicts _ (by decide)).1 (.inr (.inr ?_)) hadd,
    (hverdicts _ (by decide)).2 ?_ (by decide), (hverdicts _ (by decide)).1 (.inl (by decide)) hadd⟩
  · exact ⟨⟨100, 1⟩, ⟨101, 2⟩, true, false, by decide, .inl ⟨rfl, rfl⟩⟩
  · rintro (htick | happly | ⟨a, b, killa, killb, hmem, hkill⟩)
    · exact absurd htick (by decide)
    · exact absurd happly (by decide)
    · simp only [collisionTurn, List.mem_cons, Event.collide.injEq] at hmem
      simp_all

/-! ## A kill that is lost -/

/-- A turn of one object that meets nobody. -/
def loneTurn (o : Object) (vt va : Bool) : List Event :=
  [.tick o vt, .check [], .apply o va, .applied, .resolved]

/-- What its turn leaves. -/
def afterLoneTurn (o : Object) (vt va : Bool) : State :=
  ((running [o]).setAlive o (!vt)).setAlive o (!va)

theorem run_loneTurn (o : Object) (vt va : Bool) :
    Run TurnStep ⟨running [o], .ticking (running [o]).stored⟩ (loneTurn o vt va)
      ⟨afterLoneTurn o vt va, .init⟩ := by
  have htick : TurnStep ⟨running [o], .ticking [o]⟩ (.tick o vt)
      ⟨(running [o]).setAlive o (!vt), .ticking []⟩ := .tick _ [] [] o vt
  have hcheck : TurnStep ⟨(running [o]).setAlive o (!vt), .ticking []⟩ (.check [])
      ⟨(running [o]).setAlive o (!vt), .applying [o]⟩ := .check _ [] (by simp)
  have happly : TurnStep ⟨(running [o]).setAlive o (!vt), .applying [o]⟩ (.apply o va)
      ⟨afterLoneTurn o vt va, .applying []⟩ := .apply _ [] [] o va
  exact .cons htick (.cons hcheck (.cons happly (.cons (.applied _) (.single (.resolved _ rfl)))))

/-- An object whose `tick` destroys it and whose `apply` does not: it survives, whatever the
sweep does with its iterators. -/
theorem verdicts_overwritten :
    Reachable ⟨running [⟨100, 1⟩], .ticking (running [⟨100, 1⟩]).stored⟩
      ∧ Run TurnStep ⟨running [⟨100, 1⟩], .ticking (running [⟨100, 1⟩]).stored⟩
          (loneTurn ⟨100, 1⟩ true false) ⟨afterLoneTurn ⟨100, 1⟩ true false, .init⟩
      ∧ ∀ d, ¬ VerdictsDecide d (running [⟨100, 1⟩]) (loneTurn ⟨100, 1⟩ true false)
          (afterLoneTurn ⟨100, 1⟩ true false) := by
  refine ⟨reachable_running _, run_loneTurn _ _ _, fun d => ?_⟩
  rintro ⟨after, hdone, hverdicts⟩
  have hshort : (afterLoneTurn ⟨100, 1⟩ true false).messages.length < 2 ^ 31 :=
    show 0 < 2 ^ 31 by decide
  have hafter : turnInit d (afterLoneTurn ⟨100, 1⟩ true false)
      = .done (afterLoneTurn ⟨100, 1⟩ true false) := (turnInit_of_lt d hshort).trans rfl
  obtain rfl := Outcome.done.inj (hafter.symm.trans hdone)
  refine (hverdicts ⟨100, 1⟩ (by decide)).1 (.inl (by decide)) (fun obj hobj => ?_) (by decide)
  cases List.mem_of_mem_take hobj

end Nrtb.SimCore
