import Nrtb.SimCore.Verdicts

/-!
# Balanced locking of the objects

`run_sim`, `cpp/sim_engine/sim_core/sim_core.cpp`, lines 392–491: a turn locks every object of
`all_objects`, calls `turn_init`, `tick` and `resolve_collisions`, and unlocks every object of
`all_objects`. What the methods of the objects answer, the calls of other threads and what may throw
inside the turn are steps of their own, and where `++` leads on the iterator of an element that the
sweep has erased is a parameter. The turn is that of `Verdicts`, without the `int` that counts the
pairs in `collision_check`: what is said of more than 65536 objects is said of a turn which goes on
behind the overflow.

The two loops run over the same map, and `turn_init` changes it in between. `base_object.h` says
that the two methods are there for mutexes, so that an object which gets only one of the calls stays
locked, or is unlocked by somebody who has not locked it. A new object is unlocked without having
been locked, and one that was swept out stays locked; one that comes and goes in the same
`turn_init` gets neither call.

* `TurnLocks.step`: which objects a turn has locked and unlocked so far, step by step.
* `locksBalanced_iff`: a turn that has reached its end is balanced if the map is the same again.
* `turn_balanced_iff`: a turn is balanced exactly when it `Fits`, which says when that is so by the
  state at its start, the queue that `turn_init` finds and whether anything was thrown.
-/

namespace Nrtb.SimCore

/-! ## The turn loop -/

/-- Where the thread of `run_sim` is. -/
inductive LoopPc where
  -- at `while (!end_run)`
  | test
  -- in the first loop over `all_objects`
  | locking (todo : List Object)
  -- past `turn_init`; in `.init` the collisions are resolved and the public list is filled
  | working (phase : Phase)
  -- in the last loop over `all_objects`
  | unlocking (todo : List Object)
  -- behind the handlers
  | closing
deriving DecidableEq, Repr

structure Loop where
  state : State
  pc : LoopPc

inductive LoopEvent where
  | begin
  | lock (o : Object)
  | init
  | initThrows (e : TurnError)
  | work (ev : Event)
  -- an exception out of `tick`, `resolve_collisions` or the public list
  | workThrows
  | listed
  | unlock (o : Object)
  | report
  -- an overrun, or another exception behind the unlocking
  | reportThrows
  | leave
  -- a call of another thread
  | call (c : Call)
  -- `stop_sim`
  | stop
deriving DecidableEq, Repr

/-- One step of `run_sim`, or of a thread that calls the engine. -/
inductive LoopStep (d : Dangling) : Loop → LoopEvent → Loop → Prop
  | begin (s : State) (hrun : s.endRun = false) :
      LoopStep d ⟨s, .test⟩ .begin ⟨s, .locking s.stored⟩
  | lock (s : State) (o : Object) (todo : List Object) :
      LoopStep d ⟨s, .locking (o :: todo)⟩ (.lock o) ⟨s, .locking todo⟩
  | init (s after : State) (h : turnInit d s = .done after) :
      LoopStep d ⟨s, .locking []⟩ .init ⟨after, .working (.ticking after.stored)⟩
  | initThrows (s after : State) (e : TurnError) (h : turnInit d s = .throws e after) :
      LoopStep d ⟨s, .locking []⟩ (.initThrows e) ⟨after, .closing⟩
  | work (s s' : State) (p p' : Phase) (ev : Event) (h : TurnStep ⟨s, p⟩ ev ⟨s', p'⟩) :
      LoopStep d ⟨s, .working p⟩ (.work ev) ⟨s', .working p'⟩
  | workThrows (s : State) (p : Phase) :
      LoopStep d ⟨s, .working p⟩ .workThrows ⟨s, .closing⟩
  | listed (s : State) : LoopStep d ⟨s, .working .init⟩ .listed ⟨s, .unlocking s.stored⟩
  | unlock (s : State) (o : Object) (todo : List Object) :
      LoopStep d ⟨s, .unlocking (o :: todo)⟩ (.unlock o) ⟨s, .unlocking todo⟩
  | report (s : State) : LoopStep d ⟨s, .unlocking []⟩ .report ⟨s, .test⟩
  | reportThrows (s : State) : LoopStep d ⟨s, .unlocking []⟩ .reportThrows ⟨s, .closing⟩
  | leave (s : State) (hend : s.endRun = true) : LoopStep d ⟨s, .test⟩ .leave ⟨s, .closing⟩
  | call (s : State) (pc : LoopPc) (c : Call) : LoopStep d ⟨s, pc⟩ (.call c) ⟨c.perform s, pc⟩
  | stop (s : State) (pc : LoopPc) : LoopStep d ⟨s, pc⟩ .stop ⟨{ s with endRun := true }, pc⟩

/-- `run_sim` enters its loop over any population, with anything in the message queue. -/
def LoopStart (e : Loop) : Prop :=
  e.pc = .test ∧ e.state.isRunning = true ∧ Keyed e.state.objects

/-- The states a run can come to, whatever `++` does in each of its turns. -/
def LoopReachable (e : Loop) : Prop :=
  ∃ start log, LoopStart start ∧ Run (fun e ev e' => ∃ d, LoopStep d e ev e') start log e

/-! ## What a turn locks -/

/-- The object that `lock()` is called on. -/
def LoopEvent.locked : LoopEvent → Option Object
  | lock o => some o
  | _ => none

/-- The object that `unlock()` is called on. -/
def LoopEvent.unlocked : LoopEvent → Option Object
  | unlock o => some o
  | _ => none

def locks (log : List LoopEvent) : List Object := log.filterMap LoopEvent.locked

def unlocks (log : List LoopEvent) : List Object := log.filterMap LoopEvent.unlocked

/-- Every locked object is unlocked exactly once, and no other object is unlocked. -/
def LocksBalanced (log : List LoopEvent) : Prop :=
  ∀ o, (o ∈ locks log → (unlocks log).count o = 1) ∧ (o ∈ unlocks log → o ∈ locks log)

/-- The messages that other threads queue before `turn_init` counts them. -/
def queuedFirst : List LoopEvent → List Message
  | [] => []
  | .init :: _ => []
  | .initThrows _ :: _ => []
  | .call c :: log => c.message :: queuedFirst log
  | _ :: log => queuedFirst log

/-- The calls leave the population as it is: every remove finds its id; what was stored is still
stored behind the adds, and it is alive and not removed, or the sweep passes over it; and whatever
else the adds store is dead or removed again, and the sweep does not pass over it. -/
structure Settled (d : Dangling) (objects : OrdMap Nat Object) (alive : Object → Bool)
    (calls : List Call) : Prop where
  present : RemovesPresent objects calls
  kept : ∀ k o, objects.find? k = some o → (withAdds objects calls).find? k = some o
    ∧ (alive o = true ∧ struck objects calls o = false
      ∨ PassesOver d (aliveBehind objects alive calls) (withAdds objects calls) (k, o))
  fresh : ∀ k o, (withAdds objects calls).find? k = some o → objects.find? k = some o
    ∨ ((alive o = false ∨ struck objects calls o = true)
      ∧ ¬ PassesOver d (aliveBehind objects alive calls) (withAdds objects calls) (k, o))

/-- When a turn is balanced, by the state at its start, the queue that `turn_init` finds and
whether something throws before the unlocking: the messages that it counts are calls which settle,
and nothing throws; or there is nobody to lock, and something throws. -/
def Fits (d : Dangling) (s : State) (log : List LoopEvent) : Prop :=
  (.workThrows ∉ log ∧ ∃ calls : List Call,
      processed (s.messages ++ queuedFirst log) = calls.map Call.message
        ∧ Settled d s.objects s.alive calls)
    ∨ (s.stored = []
      ∧ (.workThrows ∈ log ∨ ¬ CallsOnly (processed (s.messages ++ queuedFirst log))))

theorem locks_append (log : List LoopEvent) (ev : LoopEvent) :
    locks (log ++ [ev]) = locks log ++ ev.locked.toList := by
  unfold locks
  rw [List.filterMap_append]
  cases h : ev.locked <;> simp [h]

theorem unlocks_append (log : List LoopEvent) (ev : LoopEvent) :
    unlocks (log ++ [ev]) = unlocks log ++ ev.unlocked.toList := by
  unfold unlocks
  rw [List.filterMap_append]
  cases h : ev.unlocked <;> simp [h]

theorem locks_append_of_none {log : List LoopEvent} {ev : LoopEvent} (h : ev.locked = none) :
    locks (log ++ [ev]) = locks log := by
  rw [locks_append, h]
  exact List.append_nil _

theorem unlocks_append_of_none {log : List LoopEvent} {ev : LoopEvent} (h : ev.unlocked = none) :
    unlocks (log ++ [ev]) = unlocks log := by
  rw [unlocks_append, h]
  exact List.append_nil _

/-! ## What a turn has locked and unlocked -/

def LoopEvent.isInit : LoopEvent → Bool
  | init => true
  | initThrows _ => true
  | _ => false

section Turn

variable {d : Dangling} {s₀ s s' : State} {log : List LoopEvent} {ev : LoopEvent} {e e' : Loop}
  {todo : List Object}

theorem queuedFirst_append_of_open (h : ∀ ev ∈ log, ev.isInit = false) :
    queuedFirst (log ++ [ev]) = queuedFirst log ++ queuedFirst [ev] := by
  induction log with
  | nil => rfl
  | cons first log ih =>
    have hfirst := h first (by simp)
    have hrest := ih fun ev hev => h ev (List.mem_cons_of_mem _ hev)
    cases first with
    | init => cases hfirst
    | initThrows e => cases hfirst
    | call c => exact congrArg (c.message :: ·) hrest
    | _ => exact hrest

theorem queuedFirst_append_of_begun (h : ∃ ev ∈ log, ev.isInit = true) :
    queuedFirst (log ++ [ev]) = queuedFirst log := by
  induction log with
  | nil => obtain ⟨_, hmem, _⟩ := h; cases hmem
  | cons first log ih =>
    obtain ⟨last, hmem, hinit⟩ := h
    rcases List.mem_cons.mp hmem with rfl | hmem
    · cases last with
      | init => rfl
      | initThrows e => rfl
      | _ => cases hinit
    · have hrest := ih ⟨last, hmem, hinit⟩
      cases first with
      | init => rfl
      | initThrows e => rfl
      | call c => exact congrArg (c.message :: ·) hrest
      | _ => exact hrest

/-- The turn is in its first loop. -/
structure Opening (s₀ : State) (log : List LoopEvent) (todo : List Object) (s : State) :
    Prop where
  locked : locks log ++ todo = s₀.stored
  unlocked : unlocks log = []
  quiet : .workThrows ∉ log
  opened : ∀ ev ∈ log, ev.isInit = false
  objects : s.objects = s₀.objects
  alive : s.alive = s₀.alive
  messages : s.messages = s₀.messages ++ queuedFirst log
  running : s.isRunning = true

/-- `turn_init` has returned, and nothing has been thrown since. -/
structure Past (d : Dangling) (s₀ : State) (log : List LoopEvent) (s : State) : Prop where
  locked : locks log = s₀.stored
  quiet : .workThrows ∉ log
  begun : ∃ ev ∈ log, ev.isInit = true
  prepared : Prepared d s₀ (s₀.messages ++ queuedFirst log) s.objects
  running : s.isRunning = true

/-- The turn has ended before its last loop. -/
structure Failed (s₀ : State) (log : List LoopEvent) : Prop where
  locked : locks log = s₀.stored
  unlocked : unlocks log = []
  begun : ∃ ev ∈ log, ev.isInit = true
  cause : .workThrows ∈ log ∨ ¬ CallsOnly (processed (s₀.messages ++ queuedFirst log))

/-- What a turn has locked and unlocked, by where it is. -/
def TurnLocks (d : Dangling) (s₀ : State) (log : List LoopEvent) (e : Loop) : Prop :=
  match e.pc with
  | .locking todo => Opening s₀ log todo e.state
  | .working _ => Past d s₀ log e.state ∧ unlocks log = []
  | .unlocking todo => Past d s₀ log e.state ∧ unlocks log ++ todo = e.state.stored
  | .test => Past d s₀ log e.state ∧ unlocks log = e.state.stored
  | .closing => (Past d s₀ log e.state ∧ unlocks log = e.state.stored) ∨ Failed s₀ log

/-- Neither the objects nor other threads change the map while the simulation runs. -/
theorem TurnStep.objects {e e' : Engine} {ev : Event} (h : TurnStep e ev e')
    (hrunning : e.state.isRunning = true) :
    e'.state.objects = e.state.objects ∧ e'.state.isRunning = true := by
  cases h with
  | removed s oid ids =>
    rw [removeObj_running oid hrunning]
    exact ⟨rfl, hrunning⟩
  | call s phase c =>
    rw [Call.perform_running hrunning]
    exact ⟨rfl, hrunning⟩
  | _ => exact ⟨rfl, hrunning⟩

theorem Past.keep (h : Past d s₀ log s) (hlock : ev.locked = none) (hquiet : ev ≠ .workThrows)
    (hobjects : s'.objects = s.objects) (hrunning : s'.isRunning = true) :
    Past d s₀ (log ++ [ev]) s' := by
  refine ⟨?_, ?_, ?_, ?_, hrunning⟩
  · exact (locks_append_of_none hlock).trans h.locked
  · rw [List.mem_append, List.mem_singleton, not_or]
    exact ⟨h.quiet, hquiet.symm⟩
  · obtain ⟨first, hmem, hinit⟩ := h.begun
    exact ⟨first, List.mem_append_left _ hmem, hinit⟩
  · rw [queuedFirst_append_of_begun h.begun, hobjects]
    exact h.prepared

theorem Failed.keep (h : Failed s₀ log) (hlock : ev.locked = none) (hunlock : ev.unlocked = none) :
    Failed s₀ (log ++ [ev]) := by
  refine ⟨?_, ?_, ?_, ?_⟩
  · exact (locks_append_of_none hlock).trans h.locked
  · exact (unlocks_append_of_none hunlock).trans h.unlocked
  · obtain ⟨first, hmem, hinit⟩ := h.begun
    exact ⟨first, List.mem_append_left _ hmem, hinit⟩
  · rw [queuedFirst_append_of_begun h.begun]
    exact h.cause.imp_left (List.mem_append_left _)

/-- The call of `turn_init`, with every object locked. -/
theorem Opening.called (ev : LoopEvent) (h : Opening s₀ log [] s) (hinit : ev.isInit = true)
    (hlock : ev.locked = none) (hunlock : ev.unlocked = none) :
    locks (log ++ [ev]) = s₀.stored ∧ unlocks (log ++ [ev]) = []
      ∧ (∃ first ∈ log ++ [ev], first.isInit = true)
      ∧ s₀.messages ++ queuedFirst (log ++ [ev]) = s.messages := by
  refine ⟨?_, ?_, ⟨ev, by simp, hinit⟩, ?_⟩
  · rw [locks_append_of_none hlock, ← h.locked, List.append_nil]
  · exact (unlocks_append_of_none hunlock).trans h.unlocked
  · have hnone : queuedFirst [ev] = [] := by
      cases ev with
      | call c => cases hinit
      | _ => rfl
    rw [queuedFirst_append_of_open h.opened, hnone, List.append_nil, h.messages]

/-- A step of the first loop, or a call during it. -/
theorem Opening.keep {todo' : List Object} (h : Opening s₀ log todo s) (hinit : ev.isInit = false)
    (hlock : ev.locked.toList ++ todo' = todo) (hunlock : ev.unlocked = none)
    (hquiet : ev ≠ .workThrows) (hobjects : s'.objects = s.objects) (halive : s'.alive = s.alive)
    (hmessages : s'.messages = s.messages ++ queuedFirst [ev]) (hrunning : s'.isRunning = true) :
    Opening s₀ (log ++ [ev]) todo' s' := by
  refine ⟨?_, ?_, ?_, ?_, hobjects.trans h.objects, halive.trans h.alive, ?_, hrunning⟩
  · rw [locks_append, List.append_assoc, hlock, h.locked]
  · exact (unlocks_append_of_none hunlock).trans h.unlocked
  · rw [List.mem_append, List.mem_singleton, not_or]
    exact ⟨h.quiet, hquiet.symm⟩
  · intro first hmem
    rcases List.mem_append.mp hmem with hmem | hmem
    · exact h.opened first hmem
    · exact List.mem_singleton.mp hmem ▸ hinit
  · rw [queuedFirst_append_of_open h.opened, ← List.append_assoc, ← h.messages, hmessages]

/-- A step of another thread, which leaves the loop where it is. -/
theorem TurnLocks.outside {pc : LoopPc} (h : TurnLocks d s₀ log ⟨s, pc⟩) (hinit : ev.isInit = false)
    (hlock : ev.locked = none) (hunlock : ev.unlocked = none) (hquiet : ev ≠ .workThrows)
    (hkeep : s.isRunning = true → s'.objects = s.objects ∧ s'.alive = s.alive
      ∧ s'.messages = s.messages ++ queuedFirst [ev] ∧ s'.isRunning = true) :
    TurnLocks d s₀ (log ++ [ev]) ⟨s', pc⟩ := by
  have hsilent : unlocks (log ++ [ev]) = unlocks log := unlocks_append_of_none hunlock
  have hpast (h : Past d s₀ log s) : Past d s₀ (log ++ [ev]) s' ∧ s'.stored = s.stored := by
    obtain ⟨hobjects, _, _, hrunning⟩ := hkeep h.running
    exact ⟨h.keep hlock hquiet hobjects hrunning, by rw [State.stored, hobjects]; rfl⟩
  cases pc with
  | test =>
    obtain ⟨hthen, hunlocks⟩ := h
    obtain ⟨hnow, hstored⟩ := hpast hthen
    exact ⟨hnow, by rw [hsilent, hunlocks, hstored]⟩
  | locking todo =>
    have hopening : Opening s₀ log todo s := h
    obtain ⟨hobjects, halive, hmessages, hrunning⟩ := hkeep hopening.running
    refine hopening.keep hinit ?_ hunlock hquiet hobjects halive hmessages hrunning
    rw [hlock]
    rfl
  | working phase =>
    obtain ⟨hthen, hunlocks⟩ := h
    exact ⟨(hpast hthen).1, hsilent.trans hunlocks⟩
  | unlocking todo =>
    obtain ⟨hthen, hunlocks⟩ := h
    obtain ⟨hnow, hstored⟩ := hpast hthen
    exact ⟨hnow, by rw [hsilent, hunlocks, hstored]⟩
  | closing =>
    rcases h with ⟨hthen, hunlocks⟩ | hfailed
    · obtain ⟨hnow, hstored⟩ := hpast hthen
      exact .inl ⟨hnow, by rw [hsilent, hunlocks, hstored]⟩
    · exact .inr (hfailed.keep hlock hunlock)

theorem TurnLocks.step (h : TurnLocks d s₀ log e) (hstep : LoopStep d e ev e')
    (hturn : ev ≠ .begin) : TurnLocks d s₀ (log ++ [ev]) e' := by
  unfold TurnLocks at h
  cases hstep with
  | begin s hrun => exact absurd rfl hturn
  | lock s o todo =>
    exact h.keep rfl rfl rfl nofun rfl rfl (List.append_nil _).symm h.running
  | init s after hdone =>
    obtain ⟨hlocks, hunlocks, hbegun, hqueue⟩ := h.called .init rfl rfl rfl
    obtain ⟨⟨calls, hcalls, hpresent, hobjects⟩, hrunning, _⟩ := turnInit_done hdone
    refine ⟨⟨hlocks, ?_, hbegun, ?_, hrunning.trans h.running⟩, hunlocks⟩
    · simpa using h.quiet
    · rw [hqueue]
      rw [h.objects] at hpresent hobjects
      rw [h.alive] at hobjects
      exact ⟨calls, hcalls, hpresent, hobjects⟩
  | initThrows s after e hthrows =>
    obtain ⟨hlocks, hunlocks, hbegun, hqueue⟩ := h.called (.initThrows e) rfl rfl rfl
    exact .inr ⟨hlocks, hunlocks, hbegun, .inr (hqueue ▸ turnInit_throws hthrows)⟩
  | work s s' p p' ev hturnStep =>
    obtain ⟨hpast, hunlocks⟩ := h
    obtain ⟨hobjects, hrunning⟩ := hturnStep.objects hpast.running
    exact ⟨hpast.keep rfl nofun hobjects hrunning, (unlocks_append_of_none rfl).trans hunlocks⟩
  | workThrows s p =>
    obtain ⟨hpast, hunlocks⟩ := h
    obtain ⟨first, hmem, hinit⟩ := hpast.begun
    exact .inr ⟨(locks_append_of_none rfl).trans hpast.locked,
      (unlocks_append_of_none rfl).trans hunlocks, ⟨first, List.mem_append_left _ hmem, hinit⟩,
      .inl (by simp)⟩
  | listed s =>
    obtain ⟨hpast, hunlocks⟩ := h
    refine ⟨hpast.keep rfl nofun rfl hpast.running, ?_⟩
    rw [unlocks_append_of_none rfl, hunlocks]
    rfl
  | unlock s o todo =>
    obtain ⟨hpast, hunlocks⟩ := h
    refine ⟨hpast.keep rfl nofun rfl hpast.running, ?_⟩
    rw [unlocks_append, List.append_assoc]
    exact hunlocks
  | report s =>
    obtain ⟨hpast, hunlocks⟩ := h
    refine ⟨hpast.keep rfl nofun rfl hpast.running, ?_⟩
    rw [unlocks_append_of_none rfl, ← hunlocks, List.append_nil]
  | reportThrows s =>
    obtain ⟨hpast, hunlocks⟩ := h
    refine .inl ⟨hpast.keep rfl nofun rfl hpast.running, ?_⟩
    rw [unlocks_append_of_none rfl, ← hunlocks, List.append_nil]
  | leave s hend =>
    obtain ⟨hpast, hunlocks⟩ := h
    exact .inl ⟨hpast.keep rfl nofun rfl hpast.running, (unlocks_append_of_none rfl).trans hunlocks⟩
  | call s pc c =>
    -- while the simulation runs the call only queues its message
    refine TurnLocks.outside h rfl rfl rfl nofun fun hrunning => ?_
    rw [Call.perform_running hrunning]
    exact ⟨rfl, rfl, rfl, hrunning⟩
  | stop s pc =>
    exact TurnLocks.outside h rfl rfl rfl nofun fun hrunning =>
      ⟨rfl, rfl, (List.append_nil _).symm, hrunning⟩

/-- What a whole turn has locked and unlocked. -/
theorem turnLocks_of_run (hrunning : s₀.isRunning = true)
    (hrun : Run (LoopStep d) ⟨s₀, .locking s₀.stored⟩ log e) (hturn : .begin ∉ log) :
    TurnLocks d s₀ log e := by
  refine hrun.history (P := fun log e => .begin ∉ log → TurnLocks d s₀ log e) (fun _ => ?_) ?_ hturn
  · show Opening s₀ [] s₀.stored s₀
    exact ⟨rfl, rfl, nofun, nofun, rfl, rfl, (List.append_nil _).symm, hrunning⟩
  · intro log t ev u h hstep hnone
    rw [List.mem_append, List.mem_singleton, not_or] at hnone
    exact (h hnone.1).step hstep (Ne.symm hnone.2)

/-! ## Balanced turns -/

theorem LoopStep.keyed (hstep : LoopStep d e ev e') (hpc : e'.pc ≠ .closing)
    (hrunning : e.state.isRunning = true) (hkeyed : Keyed e.state.objects) :
    e'.state.isRunning = true ∧ Keyed e'.state.objects := by
  cases hstep with
  | init s after hdone =>
    obtain ⟨hprepared, hrun, _⟩ := turnInit_done hdone
    exact ⟨hrun.trans hrunning, hprepared.keyed hkeyed⟩
  | work s s' p p' ev hturnStep =>
    obtain ⟨hobjects, hrun⟩ := hturnStep.objects hrunning
    exact ⟨hrun, by rw [hobjects]; exact hkeyed⟩
  | call s pc c =>
    rw [Call.perform_running hrunning]
    exact ⟨hrunning, hkeyed⟩
  | initThrows s after e _ => exact absurd rfl hpc
  | workThrows s p => exact absurd rfl hpc
  | reportThrows s => exact absurd rfl hpc
  | leave s _ => exact absurd rfl hpc
  | _ => exact ⟨hrunning, hkeyed⟩

theorem LoopReachable.keyed (h : LoopReachable e) (hpc : e.pc ≠ .closing) :
    e.state.isRunning = true ∧ Keyed e.state.objects := by
  obtain ⟨start, log, ⟨_, hrunning, hkeyed⟩, hrun⟩ := h
  have hkept : e.pc ≠ .closing → e.state.isRunning = true ∧ Keyed e.state.objects := by
    refine hrun.invariant (I := fun e => e.pc ≠ .closing → e.state.isRunning = true
      ∧ Keyed e.state.objects) (fun _ => ⟨hrunning, hkeyed⟩) ?_
    rintro e ev e' h ⟨d, hstep⟩ hpc'
    have hbefore : e.pc ≠ .closing := fun hclosing => by
      cases hstep <;> first | exact hpc' hclosing | cases hclosing
    obtain ⟨hrun, hmap⟩ := h hbefore
    exact hstep.keyed hpc' hrun hmap
  exact hkept hpc

/-- The locked objects are unlocked once each, and nobody else is. -/
theorem locksBalanced_iff {before after : State} (hbefore : Keyed before.objects)
    (hafter : Keyed after.objects) (hlocks : locks log = before.stored)
    (hunlocks : unlocks log = after.stored) :
    LocksBalanced log
      ↔ ∀ k o, before.objects.find? k = some o ↔ after.objects.find? k = some o := by
  have hstored (s : State) (hs : Keyed s.objects) (k : Nat) (o : Object) :
      s.objects.find? k = some o ↔ o.id = k ∧ o ∈ s.stored := by
    rw [mem_stored_iff hs]
    constructor
    · intro hk
      obtain rfl := hs k o hk
      exact ⟨rfl, hk⟩
    · rintro ⟨rfl, hk⟩
      exact hk
  unfold LocksBalanced
  rw [hlocks, hunlocks]
  constructor
  · intro h k o
    rw [hstored before hbefore, hstored after hafter]
    refine and_congr_right fun _ => ⟨fun ho => ?_, (h o).2⟩
    exact List.count_pos_iff.mp (by rw [(h o).1 ho]; exact Nat.one_pos)
  · intro h o
    have hiff : o ∈ before.stored ↔ o ∈ after.stored := by
      rw [mem_stored_iff hbefore, mem_stored_iff hafter]
      exact h o.id o
    exact ⟨fun ho => List.count_eq_one_of_mem (stored_nodup hafter) (hiff.mp ho), hiff.mpr⟩

/-- The population is the same again exactly if the calls of the queue settle. -/
theorem settled_iff {calls : List Call} {objects : OrdMap Nat Object}
    (hpresent : RemovesPresent s.objects calls)
    (hobjects : ∀ k o, objects.find? k = some o ↔ (withAdds s.objects calls).find? k = some o
      ∧ ¬ Erases d (aliveBehind s.objects s.alive calls) (withAdds s.objects calls) (k, o)) :
    (∀ k o, s.objects.find? k = some o ↔ objects.find? k = some o)
      ↔ Settled d s.objects s.alive calls := by
  have hleft : ∀ k o, objects.find? k = some o ↔ (withAdds s.objects calls).find? k = some o
      ∧ (s.alive o = true ∧ struck s.objects calls o = false
        ∨ PassesOver d (aliveBehind s.objects s.alive calls) (withAdds s.objects calls) (k, o)) :=
    fun k o => by rw [hobjects, not_erases_iff, aliveBehind_iff]
  have hgone : ∀ o, ¬ (s.alive o = true ∧ struck s.objects calls o = false)
      ↔ s.alive o = false ∨ struck s.objects calls o = true := fun o => by
    rw [not_and_or, Bool.not_eq_true, Bool.not_eq_false]
  constructor
  · intro h
    refine ⟨hpresent, fun k o hk => (hleft k o).mp ((h k o).mp hk), fun k o hk => ?_⟩
    by_cases hold : s.objects.find? k = some o
    · exact .inl hold
    · have hnot := fun hin => hold ((h k o).mpr ((hleft k o).mpr ⟨hk, hin⟩))
      rw [← hgone]
      exact .inr (not_or.mp hnot)
  · intro h k o
    rw [hleft]
    refine ⟨h.kept k o, fun ⟨hk, hin⟩ => ?_⟩
    rcases h.fresh k o hk with hold | ⟨hdead, hpass⟩
    · exact hold
    · exact absurd hin (not_or.mpr ⟨(hgone o).mpr hdead, hpass⟩)

theorem Past.balanced_iff (h : Past d s₀ log s) (hkeyed : Keyed s₀.objects)
    (hunlocks : unlocks log = s.stored) : LocksBalanced log ↔ Fits d s₀ log := by
  rw [locksBalanced_iff hkeyed (h.prepared.keyed hkeyed) h.locked hunlocks]
  obtain ⟨calls, hcalls, hpresent, hobjects⟩ := h.prepared
  rw [settled_iff hpresent hobjects]
  constructor
  · exact fun hsettled => .inl ⟨h.quiet, calls, hcalls, hsettled⟩
  · rintro (⟨_, calls', hcalls', hsettled⟩ | ⟨_, hthrown | hother⟩)
    · have heq : calls' = calls :=
        List.map_injective_iff.mpr message_injective (hcalls'.symm.trans hcalls)
      exact heq ▸ hsettled
    · exact absurd hthrown h.quiet
    · exact absurd ⟨calls, hcalls⟩ hother

theorem Failed.balanced_iff (h : Failed s₀ log) : LocksBalanced log ↔ Fits d s₀ log := by
  have hempty : LocksBalanced log ↔ s₀.stored = [] := by
    unfold LocksBalanced
    rw [h.locked, h.unlocked]
    constructor
    · exact fun hbalanced => List.eq_nil_iff_forall_not_mem.mpr
        fun o ho => by cases (hbalanced o).1 ho
    · intro hnone o
      rw [hnone]
      exact ⟨nofun, nofun⟩
  rw [hempty]
  constructor
  · exact fun hnone => .inr ⟨hnone, h.cause⟩
  · rintro (⟨hquiet, calls, hcalls, _⟩ | ⟨hnone, _⟩)
    · rcases h.cause with hthrown | hother
      · exact absurd hthrown hquiet
      · exact absurd ⟨calls, hcalls⟩ hother
    · exact hnone

end Turn

/-- Every turn of every run, up to the next test of `end_run` or to the end of `run_sim`: balanced
if and only if it fits. Any way in which the sweep may go on behind an entry that it has erased is
covered, since the calls are followed object by object. -/
theorem turn_balanced_iff (d : Dangling) (s : State) (log : List LoopEvent) (e : Loop)
    (hreach : LoopReachable ⟨s, .locking s.stored⟩)
    (hrun : Run (LoopStep d) ⟨s, .locking s.stored⟩ log e) (hturn : .begin ∉ log)
    (hover : e.pc = .test ∨ e.pc = .closing) :
    LocksBalanced log ↔ Fits d s log := by
  obtain ⟨hrunning, hkeyed⟩ := hreach.keyed nofun
  have hlocks := turnLocks_of_run hrunning hrun hturn
  obtain ⟨t, pc⟩ := e
  rcases hover with rfl | rfl
  · obtain ⟨hpast, hunlocks⟩ := hlocks
    exact hpast.balanced_iff hkeyed hunlocks
  · rcases hlocks with ⟨hpast, hunlocks⟩ | hfailed
    · exact hpast.balanced_iff hkeyed hunlocks
    · exact hfailed.balanced_iff

/-! ## Two visitors -/

theorem loopReachable_start {s : State} (hrunning : s.isRunning = true) (hkeyed : Keyed s.objects)
    (hrun : s.endRun = false) : LoopReachable ⟨s, .locking s.stored⟩ :=
  ⟨⟨s, .test⟩, [.begin], ⟨rfl, hrunning, hkeyed⟩, .single ⟨.next, .begin s hrun⟩⟩

theorem loopReachable_running (objs : List Object) :
    LoopReachable ⟨running objs, .locking (running objs).stored⟩ :=
  loopReachable_start rfl (keyed_populated objs) rfl

/-- A turn of two objects, up to the call of `turn_init`: two more are added and removed again. -/
def visitFront : List LoopEvent :=
  [.lock ⟨100, 1⟩, .call (.add ⟨102, 2⟩), .call (.add ⟨103, 3⟩), .lock ⟨104, 4⟩, .call (.remove 2),
    .call (.remove 3)]

def visitCalls : List Call := [.add ⟨102, 2⟩, .add ⟨103, 3⟩, .remove 2, .remove 3]

/-- What `turn_init` finds. -/
def visitors : State :=
  { running [⟨100, 1⟩, ⟨104, 4⟩] with messages := visitCalls.map Call.message }

theorem run_visitFront (d : Dangling) :
    Run (LoopStep d) ⟨running [⟨100, 1⟩, ⟨104, 4⟩],
      .locking (running [⟨100, 1⟩, ⟨104, 4⟩]).stored⟩ visitFront ⟨visitors, .locking []⟩ :=
  .cons (.lock _ _ [⟨104, 4⟩]) (.cons (.call _ _ _) (.cons (.call _ _ _) (.cons (.lock _ _ [])
    (.cons (.call _ _ _) (.single (.call _ _ _))))))

/-- The two objects are left. -/
def visited : State :=
  (({ visitors with messages := [] } : State).setAlive ⟨102, 2⟩ false).setAlive ⟨103, 3⟩ false

/-- The flags behind `tick` or `apply` of the two. -/
def State.hostsAlive (s : State) : State := (s.setAlive ⟨100, 1⟩ true).setAlive ⟨104, 4⟩ true

/-- The rest of the turn. -/
def visitBack : List LoopEvent :=
  [.init, .work (.tick ⟨100, 1⟩ false), .work (.tick ⟨104, 4⟩ false), .work (.check []),
    .work (.apply ⟨100, 1⟩ false), .work (.apply ⟨104, 4⟩ false), .work .applied, .work .resolved,
    .listed, .unlock ⟨100, 1⟩, .unlock ⟨104, 4⟩, .report]

theorem run_visitBack :
    Run (LoopStep .next) ⟨visitors, .locking []⟩ visitBack
      ⟨visited.hostsAlive.hostsAlive, .test⟩ := by
  have hdone : turnInit .next visitors = .done visited :=
    (turnInit_of_lt .next (s := visitors) (show 4 < 2 ^ 31 by decide)).trans rfl
  have hcheck : LoopStep .next ⟨visited.hostsAlive, .working (.ticking [])⟩ (.work (.check []))
      ⟨visited.hostsAlive, .working (.applying [⟨100, 1⟩, ⟨104, 4⟩])⟩ :=
    .work _ _ _ _ _ (.check _ [] (by simp))
  exact .cons (.init _ _ hdone) (.cons (.work _ _ _ _ _ (.tick _ [] [⟨104, 4⟩] _ _))
    (.cons (.work _ _ _ _ _ (.tick _ [] [] _ _)) (.cons hcheck
    (.cons (.work _ _ _ _ _ (.apply _ [] [⟨104, 4⟩] _ _))
    (.cons (.work _ _ _ _ _ (.apply _ [] [] _ _)) (.cons (.work _ _ _ _ _ (.applied _))
    (.cons (.work _ _ _ _ _ (.resolved _ rfl)) (.cons (.listed _) (.cons (.unlock _ _ _)
    (.cons (.unlock _ _ _) (.single (.report _))))))))))))

/-- `turn_balanced_iff` on this turn, in which the sweep has two objects to erase. -/
theorem turn_balanced_visitors : LocksBalanced (visitFront ++ visitBack) := by
  have hprocessed : processed ((running [⟨100, 1⟩, ⟨104, 4⟩]).messages
      ++ queuedFirst (visitFront ++ visitBack)) = visitCalls.map Call.message :=
    processed_eq_iff.mpr (show 4 < 2 ^ 31 by decide)
  have hpass : ∀ {a : Nat × Object}, a ∈ (withAdds (running [⟨100, 1⟩, ⟨104, 4⟩]).objects
      visitCalls).entries → ¬ PassesOver .next (aliveBehind (running [⟨100, 1⟩, ⟨104, 4⟩]).objects
        (running [⟨100, 1⟩, ⟨104, 4⟩]).alive visitCalls)
        (withAdds (running [⟨100, 1⟩, ⟨104, 4⟩]).objects visitCalls) a := by
    rintro a ha ⟨hdead, hnot⟩
    rw [not_erases_next_iff (OrdMap.mem_entries_iff.mp ha), hdead] at hnot
    cases hnot
  refine (turn_balanced_iff .next _ _ _ (loopReachable_running _)
    ((run_visitFront _).append run_visitBack) (by decide) (.inl rfl)).mpr
    (.inl ⟨by decide, visitCalls, hprocessed, ⟨by decide, by decide, trivial⟩,
      fun k o hk => ?_, fun k o hk => ?_⟩)
  · have hmem : (k, o) ∈ [((1, ⟨100, 1⟩) : Nat × Object), (4, ⟨104, 4⟩)] :=
      OrdMap.mem_entries_iff.mpr hk
    rw [List.mem_pair] at hmem
    rcases hmem with h | h
    · obtain ⟨rfl, rfl⟩ := Prod.mk.inj h
      exact ⟨by decide, .inl (by decide)⟩
    · obtain ⟨rfl, rfl⟩ := Prod.mk.inj h
      exact ⟨by decide, .inl (by decide)⟩
  · have hentry := OrdMap.mem_entries_iff.mpr hk
    have hmem : (k, o) ∈ [((1, ⟨100, 1⟩) : Nat × Object), (2, ⟨102, 2⟩), (3, ⟨103, 3⟩),
        (4, ⟨104, 4⟩)] := hentry
    simp only [List.mem_cons, List.not_mem_nil, or_false] at hmem
    rcases hmem with h | h | h | h
    · obtain ⟨rfl, rfl⟩ := Prod.mk.inj h
      exact .inl (by decide)
    · obtain ⟨rfl, rfl⟩ := Prod.mk.inj h
      exact .inr ⟨.inr (by decide), hpass hentry⟩
    · obtain ⟨rfl, rfl⟩ := Prod.mk.inj h
      exact .inr ⟨.inr (by decide), hpass hentry⟩
    · obtain ⟨rfl, rfl⟩ := Prod.mk.inj h
      exact .inl (by decide)

/-! ## Turns that are not balanced -/

/-- The running engine with one object and the `add_object` of another one in its queue. -/
def arrival : State := { running [⟨100, 1⟩] with messages := [addMessage ⟨200, 2⟩] }

/-- The turn in which the other object comes in. -/
def arrivalTurn : List LoopEvent :=
  [.lock ⟨100, 1⟩, .init, .work (.tick ⟨100, 1⟩ false), .work (.tick ⟨200, 2⟩ false),
    .work (.check []), .work (.apply ⟨100, 1⟩ false), .work (.apply ⟨200, 2⟩ false),
    .work .applied, .work .resolved, .listed, .unlock ⟨100, 1⟩, .unlock ⟨200, 2⟩, .report]

/-- A turn that a method of the object ends. -/
def thrownTurn : List LoopEvent := [.lock ⟨100, 1⟩, .init, .workThrows]

/-- What `turn_init` makes of it. -/
def arrived : State where
  objects := arrival.objects.insert 2 ⟨200, 2⟩
  alive := arrival.alive
  messages := []
  collisions := []
  endRun := false
  isRunning := true

/-- The flags behind `tick` or `apply` of both objects. -/
def State.bothAlive (s : State) : State := (s.setAlive ⟨100, 1⟩ true).setAlive ⟨200, 2⟩ true

theorem run_arrivalTurn (d : Dangling) :
    Run (LoopStep d) ⟨arrival, .locking arrival.stored⟩ arrivalTurn
      ⟨arrived.bothAlive.bothAlive, .test⟩ := by
  have hdone : turnInit d arrival = .done arrived :=
    (turnInit_of_lt d (s := arrival) (show 1 < 2 ^ 31 by decide)).trans rfl
  have hinit : LoopStep d ⟨arrival, .locking []⟩ .init
      ⟨arrived, .working (.ticking [⟨100, 1⟩, ⟨200, 2⟩])⟩ := .init _ _ hdone
  have htick : Run (LoopStep d) ⟨arrived, .working (.ticking [⟨100, 1⟩, ⟨200, 2⟩])⟩
      [.work (.tick ⟨100, 1⟩ false), .work (.tick ⟨200, 2⟩ false)]
      ⟨arrived.bothAlive, .working (.ticking [])⟩ :=
    .cons (.work _ _ _ _ _ (.tick _ [] [⟨200, 2⟩] _ _))
      (.single (.work _ _ _ _ _ (.tick _ [] [] _ _)))
  have hcheck : LoopStep d ⟨arrived.bothAlive, .working (.ticking [])⟩ (.work (.check []))
      ⟨arrived.bothAlive, .working (.applying [⟨100, 1⟩, ⟨200, 2⟩])⟩ :=
    .work _ _ _ _ _ (.check _ [] (by simp))
  have happly : Run (LoopStep d)
      ⟨arrived.bothAlive, .working (.applying [⟨100, 1⟩, ⟨200, 2⟩])⟩
      [.work (.apply ⟨100, 1⟩ false), .work (.apply ⟨200, 2⟩ false)]
      ⟨arrived.bothAlive.bothAlive, .working (.applying [])⟩ :=
    .cons (.work _ _ _ _ _ (.apply _ [] [⟨200, 2⟩] _ _))
      (.single (.work _ _ _ _ _ (.apply _ [] [] _ _)))
  have hunlock : Run (LoopStep d)
      ⟨arrived.bothAlive.bothAlive, .unlocking [⟨100, 1⟩, ⟨200, 2⟩]⟩
      [.unlock ⟨100, 1⟩, .unlock ⟨200, 2⟩, .report] ⟨arrived.bothAlive.bothAlive, .test⟩ :=
    .cons (.unlock _ _ _) (.cons (.unlock _ _ _) (.single (.report _)))
  exact .cons (.lock _ _ _) (.cons hinit (htick.append (.cons hcheck (happly.append
    (.cons (.work _ _ _ _ _ (.applied _)) (.cons (.work _ _ _ _ _ (.resolved _ rfl))
      (.cons (.listed _) hunlock)))))))

/-- The iterator of the first visitor leads past the other one. -/
def skipping : Dangling := fun _ _ => some 2

/-- The second visitor is left as well. -/
def staying : State := { visited with objects := visited.objects.insert 3 ⟨103, 3⟩ }

/-- The rest of a turn in which all three are unlocked. -/
def stayBack : List LoopEvent :=
  [.init, .work (.tick ⟨100, 1⟩ false), .work (.tick ⟨103, 3⟩ false), .work (.tick ⟨104, 4⟩ false),
    .work (.check []), .work (.apply ⟨100, 1⟩ false), .work (.apply ⟨103, 3⟩ false),
    .work (.apply ⟨104, 4⟩ false), .work .applied, .work .resolved, .listed, .unlock ⟨100, 1⟩,
    .unlock ⟨103, 3⟩, .unlock ⟨104, 4⟩, .report]

theorem run_stayBack :
    ∃ t, Run (LoopStep skipping) ⟨visitors, .locking []⟩ stayBack ⟨t, .test⟩ := by
  have hdone : turnInit skipping visitors = .done staying :=
    (turnInit_of_lt skipping (s := visitors) (show 4 < 2 ^ 31 by decide)).trans rfl
  refine ⟨_, .cons (.init _ _ hdone) (.cons (.work _ _ _ _ _ (.tick _ [] [⟨103, 3⟩, ⟨104, 4⟩] _ _))
    (.cons (.work _ _ _ _ _ (.tick _ [] [⟨104, 4⟩] _ _)) (.cons (.work _ _ _ _ _
    (.tick _ [] [] _ _)) (.cons (.work _ _ _ _ _ (.check _ [] (by simp)))
    (.cons (.work _ _ _ _ _ (.apply _ [] [⟨103, 3⟩, ⟨104, 4⟩] _ _))
    (.cons (.work _ _ _ _ _ (.apply _ [] [⟨104, 4⟩] _ _)) (.cons (.work _ _ _ _ _
    (.apply _ [] [] _ _)) (.cons (.work _ _ _ _ _ (.applied _))
    (.cons (.work _ _ _ _ _ (.resolved _ rfl)) (.cons (.listed _) (.cons (.unlock _ _ _)
    (.cons (.unlock _ _ _) (.cons (.unlock _ _ _) (.single (.report _)))))))))))))))⟩

/-- An object that comes in is unlocked without having been locked; a turn that throws leaves its
object locked for good; and a visitor that the sweep passes over is unlocked as well. -/
theorem locks_unbalanced :
    (∀ d, ∃ s log e, LoopReachable ⟨s, .locking s.stored⟩
        ∧ Run (LoopStep d) ⟨s, .locking s.stored⟩ log e ∧ .begin ∉ log ∧ e.pc = .test
        ∧ ¬ LocksBalanced log)
      ∧ (∀ d, ∃ s log e, LoopReachable ⟨s, .locking s.stored⟩
        ∧ Run (LoopStep d) ⟨s, .locking s.stored⟩ log e ∧ .begin ∉ log ∧ e.pc = .closing
        ∧ ¬ LocksBalanced log)
      ∧ (∃ t, Run (LoopStep skipping) ⟨running [⟨100, 1⟩, ⟨104, 4⟩],
          .locking (running [⟨100, 1⟩, ⟨104, 4⟩]).stored⟩ (visitFront ++ stayBack) ⟨t, .test⟩)
      ∧ ¬ LocksBalanced (visitFront ++ stayBack) := by
  refine ⟨fun d => ?_, fun d => ?_, ?_, fun hbalanced => ?_⟩
  · have hkeyed : Keyed arrival.objects := keyed_populated [⟨100, 1⟩]
    refine ⟨arrival, arrivalTurn, _, loopReachable_start rfl hkeyed rfl, run_arrivalTurn d,
      by decide, rfl, fun hbalanced => ?_⟩
    have hlocked : ⟨200, 2⟩ ∈ locks arrivalTurn := (hbalanced ⟨200, 2⟩).2 (by decide)
    exact absurd hlocked (by decide)
  · have hdone := turnInit_running d [⟨100, 1⟩]
    have hrun : Run (LoopStep d) ⟨running [⟨100, 1⟩], .locking (running [⟨100, 1⟩]).stored⟩
        thrownTurn ⟨running [⟨100, 1⟩], .closing⟩ :=
      .cons (.lock _ _ _) (.cons (.init _ _ hdone) (.single (.workThrows _ _)))
    refine ⟨running [⟨100, 1⟩], thrownTurn, _, loopReachable_running _, hrun, by decide, rfl,
      fun hbalanced => ?_⟩
    have hone : (unlocks thrownTurn).count ⟨100, 1⟩ = 1 := (hbalanced ⟨100, 1⟩).1 (by decide)
    exact absurd hone (by decide)
  · obtain ⟨t, hback⟩ := run_stayBack
    exact ⟨t, (run_visitFront _).append hback⟩
  · have hlocked : ⟨103, 3⟩ ∈ locks (visitFront ++ stayBack) :=
      (hbalanced ⟨103, 3⟩).2 (by decide)
    exact absurd hlocked (by decide)

end Nrtb.SimCore
