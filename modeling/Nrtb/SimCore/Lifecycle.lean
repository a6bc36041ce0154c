import Nrtb.Lib.TransitionSystem

/-!
# Starting and stopping the simulation

`start_sim`, `stop_sim`, `running` (`sim_core.cpp`, lines 363–390) called by one thread, against the
thread of `run_sim` (lines 392–491), step by step. What the virtual methods and the clock may do to
a run (an overrun, any other exception) is a step of its own.

`sim_core.h` promises that a start throws if the simulation is already running, and that `running`
tells whether it is. The code has three things that stand for a run and do not change together:
`is_running`, which the new thread sets and clears itself, `engine`, which stays joinable until
somebody joins it, and the queues, which `run_sim` shuts down and nothing opens again. A start that
comes before the thread has set the flag assigns over a joinable thread, which terminates the
process; a start behind a run finds queues that take nothing.

* `starts_as_promised`: the start calls behave as they should in every run in which nobody stops
  before the first start and every later start finds `is_running` set, and any other call leads to a
  run in which they do not. The invariant `Inv` says that there is one run, or none yet.
* `running_truthful_iff`: `running()` tells the truth unless a run has ended that no `stop_sim` has
  joined, which is the case exactly when the last mark that a run has left is its end.
-/

namespace Nrtb.SimCore.Lifecycle

/-! ## The state -/

/-- The `ready` flags of the four queues that `run_sim` shuts down. -/
structure Ready where
  applylist : Bool
  ticklist : Bool
  clsnWorkList : Bool
  collisions : Bool
deriving DecidableEq, Repr

/-- The `n`-th `shutdown()` at the end of `run_sim`. -/
def Ready.shutdown (r : Ready) : Nat → Ready
  | 0 => { r with applylist := false }
  | 1 => { r with ticklist := false }
  | 2 => { r with clsnWorkList := false }
  | _ => { r with collisions := false }

/-- `tick()` gets its packets through: no `push` throws `queue_not_ready`. -/
def Ready.accepts (r : Ready) : Bool := r.ticklist && r.clsnWorkList && r.applylist

/-- Where the thread of `run_sim` is. -/
inductive RunPc where
  -- before `is_running = true`
  | entry
  -- in the `try`, before the turn loop
  | prologue
  -- at `while (!end_run)`
  | test
  -- inside a turn
  | turn
  -- behind the handlers, with this many queues shut down
  | closing (n : Nat)
  | finished
deriving DecidableEq, Repr

/-- Where the calling thread is. -/
inductive CallerPc where
  | idle
  -- in `start_sim`, past the test of `is_running`
  | launching
  -- in `stop_sim`, past `end_run = true`
  | stopping
deriving DecidableEq, Repr

structure State where
  isRunning : Bool
  endRun : Bool
  workerCount : Nat
  -- `engine.joinable()`
  joinable : Bool
  ready : Ready
  -- the thread of the last accepted start, if there was one
  run : Option RunPc
  caller : CallerPc
  -- `std::terminate` has been called
  terminated : Bool
  -- a stop was requested after the last accepted start call
  stopRequested : Bool
deriving DecidableEq, Repr

/-- A `sim_core` as its constructor leaves it. -/
def State.initial : State where
  isRunning := false
  endRun := false
  workerCount := 2
  joinable := false
  ready := ⟨true, true, true, true⟩
  run := none
  caller := .idle
  terminated := false
  stopRequested := false

/-- `running()` -/
def State.running (s : State) : Bool := s.joinable

/-- A launched `run_sim` has not finished yet. -/
def State.Live (s : State) : Prop := ∃ pc, s.run = some pc ∧ pc ≠ .finished

/-! ## The steps -/

inductive Label where
  -- `start_sim` finds `is_running` set and throws
  | startThrows (threads : Nat)
  -- `start_sim` passes the test of `is_running`
  | startAccepts (threads : Nat)
  -- `engine = std::thread(...)` over a handle that holds no thread
  | launch
  -- the same assignment over a joinable thread
  | terminate
  -- `stop_sim` sets `end_run`
  | stopCall
  -- `engine.join()` returns
  | joined
  -- `stop_sim` finds nothing to join
  | stopReturns
  -- `is_running = true`
  | enter
  | setup
  | setupThrows
  | testPass
  | testFail
  -- a whole turn, with its sleep
  | turnDone
  -- a `push` of `tick()` throws `queue_not_ready`
  | turnNotReady
  -- an overrun, or any other exception inside the turn
  | turnThrows
  | shutdown (n : Nat)
  -- `is_running = false`, and the thread ends
  | leave
deriving DecidableEq, Repr

/-- Where a step is possible. -/
def Enabled (s : State) : Label → Prop
  | .startThrows threads => 1 ≤ threads ∧ s.caller = .idle ∧ s.isRunning = true
  | .startAccepts threads => 1 ≤ threads ∧ s.caller = .idle ∧ s.isRunning = false
  | .launch => s.caller = .launching ∧ s.joinable = false
  | .terminate => s.caller = .launching ∧ s.joinable = true
  | .stopCall => s.caller = .idle
  | .joined => s.caller = .stopping ∧ s.joinable = true ∧ s.run = some .finished
  | .stopReturns => s.caller = .stopping ∧ s.joinable = false
  | .enter => s.run = some .entry
  | .setup => s.run = some .prologue
  | .setupThrows => s.run = some .prologue
  | .testPass => s.run = some .test ∧ s.endRun = false
  | .testFail => s.run = some .test ∧ s.endRun = true
  | .turnDone => s.run = some .turn ∧ s.ready.accepts = true
  | .turnNotReady => s.run = some .turn ∧ s.ready.accepts = false
  | .turnThrows => s.run = some .turn
  | .shutdown n => s.run = some (.closing n) ∧ n < 4
  | .leave => s.run = some (.closing 4)

/-- What a step does. -/
def update (s : State) : Label → State
  | .startThrows _ => s
  | .startAccepts threads =>
    { s with workerCount := threads, caller := .launching, stopRequested := false }
  | .launch => { s with joinable := true, run := some .entry, caller := .idle }
  | .terminate => { s with terminated := true }
  | .stopCall => { s with endRun := true, caller := .stopping, stopRequested := true }
  | .joined => { s with joinable := false, caller := .idle }
  | .stopReturns => { s with caller := .idle }
  | .enter => { s with isRunning := true, run := some .prologue }
  | .setup => { s with run := some .test }
  | .setupThrows => { s with run := some (.closing 0) }
  | .testPass => { s with run := some .turn }
  | .testFail => { s with run := some (.closing 0) }
  | .turnDone => { s with run := some .test }
  | .turnNotReady => { s with run := some (.closing 0) }
  | .turnThrows => { s with run := some (.closing 0) }
  | .shutdown n => { s with ready := s.ready.shutdown n, run := some (.closing (n + 1)) }
  | .leave => { s with isRunning := false, run := some .finished }

instance (s : State) (l : Label) : Decidable (Enabled s l) := by
  cases l <;> dsimp only [Enabled] <;> infer_instance

/-- One step of a process that has not been terminated. -/
def Step (s : State) (l : Label) (s' : State) : Prop :=
  s.terminated = false ∧ Enabled s l ∧ update s l = s'

/-- The state a step leads to, if it is possible. -/
def next? (s : State) (l : Label) : Option State :=
  if s.terminated = false ∧ Enabled s l then some (update s l) else none

theorem step_of_next? (s : State) (l : Label) (s' : State) (h : next? s l = some s') :
    Step s l s' := by
  obtain ⟨⟨halive, henabled⟩, heq⟩ := Option.ite_none_right_eq_some.mp h
  exact ⟨halive, henabled, Option.some.inj heq⟩

/-! ## The start calls -/

/-- What the interface promises of a step: a start throws exactly while an accepted start is
still running, nothing is assigned over a joinable thread, and a run leaves its turn loop only on
a stop requested after its start (an exception of the turn itself apart). -/
def AsPromised (s : State) : Label → Prop
  | .startThrows _ => s.Live
  | .startAccepts _ => ¬ s.Live
  | .terminate => False
  | .testFail => s.stopRequested = true
  | .turnNotReady => False
  | _ => True

/-- The condition on the calls: nobody stops before the first start, and every later start is
made while `is_running` is set. -/
def Meets (s : State) : Label → Prop
  | .startThrows _ => s.run ≠ none → s.isRunning = true
  | .startAccepts _ => s.run ≠ none → s.isRunning = true
  | .stopCall => s.run ≠ none
  | _ => True

instance (s : State) (l : Label) : Decidable (Meets s l) := by
  cases l <;> dsimp only [Meets] <;> infer_instance

/-- The state a step leads to, if it is possible and meets the condition. -/
def nextMet? (s : State) (l : Label) : Option State :=
  if Meets s l then next? s l else none

theorem step_of_nextMet? (s : State) (l : Label) (s' : State) (h : nextMet? s l = some s') :
    Step s l s' ∧ Meets s l := by
  obtain ⟨hmeets, hnext⟩ := Option.ite_none_right_eq_some.mp h
  exact ⟨step_of_next? s l s' hnext, hmeets⟩

/-- Before the first start. -/
structure Fresh (s : State) : Prop where
  run : s.run = none
  handle : s.joinable = false
  flag : s.isRunning = false
  end_ : s.endRun = false
  queues : s.ready.accepts = true
  caller : s.caller ≠ .stopping

/-- The run of the first start, which stays the only one. -/
structure OnlyRun (s : State) (pc : RunPc) : Prop where
  run : s.run = some pc
  caller : s.caller ≠ .launching
  -- whoever set `end_run` requested a stop of this run
  requested : s.endRun = true → s.stopRequested = true
  flag : s.isRunning = true → pc ≠ .finished
  -- no queue is shut down before the turn loop is left
  queues : s.ready.accepts = true ∨ pc = .finished ∨ ∃ n, pc = .closing n
  -- only a `stop_sim` gives the handle back
  stopping : s.caller = .stopping → s.endRun = true
  handle : s.joinable = false → s.endRun = true

/-- What holds in every run whose calls meet the condition. -/
def Inv (s : State) : Prop := Fresh s ∨ ∃ pc, OnlyRun s pc

theorem OnlyRun.pc_eq {s : State} {pc pc' : RunPc} (h : OnlyRun s pc) (hrun : s.run = some pc') :
    pc = pc' :=
  Option.some.inj (h.run.symm.trans hrun)

/-- A queue is shut down only behind the turn loop. -/
theorem OnlyRun.accepts {s : State} {pc : RunPc} (h : OnlyRun s pc) (hfin : pc ≠ .finished)
    (hclosing : ∀ n, pc ≠ .closing n) : s.ready.accepts = true := by
  rcases h.queues with hready | hpc | ⟨n, hpc⟩
  · exact hready
  · exact absurd hpc hfin
  · exact absurd hpc (hclosing n)

theorem Inv.onlyRun {s : State} {pc : RunPc} (h : Inv s) (hrun : s.run = some pc) :
    OnlyRun s pc := by
  rcases h with hfresh | ⟨pc', hrun'⟩
  · rw [hfresh.run] at hrun
    cases hrun
  · exact hrun'.pc_eq hrun ▸ hrun'

theorem Inv.fresh {s : State} (h : Inv s) (hrun : s.run = none) : Fresh s := by
  rcases h with hfresh | ⟨pc, hrun'⟩
  · exact hfresh
  · rw [hrun'.run] at hrun
    cases hrun

/-- Behind the turn loop. -/
theorem OnlyRun.closing {s s' : State} {pc : RunPc} {n : Nat} (h : OnlyRun s pc)
    (hrun : s'.run = some (.closing n)) (hcaller : s'.caller = s.caller)
    (hend : s'.endRun = s.endRun ∧ s'.stopRequested = s.stopRequested)
    (hhandle : s'.joinable = s.joinable) : Inv s' := by
  refine .inr ⟨.closing n, hrun, by rw [hcaller]; exact h.caller, ?_, by simp, .inr (.inr ⟨n, rfl⟩),
    ?_, ?_⟩
  · rw [hend.1, hend.2]
    exact h.requested
  · rw [hcaller, hend.1]
    exact h.stopping
  · rw [hhandle, hend.1]
    exact h.handle

theorem inv_initial : Inv State.initial := .inl ⟨rfl, rfl, rfl, rfl, rfl, by simp [State.initial]⟩

/-- The invariant along a step of a call that meets the condition. -/
theorem Inv.step {s s' : State} {l : Label} (h : Inv s) (hstep : Step s l s') (hmeets : Meets s l) :
    Inv s' := by
  obtain ⟨_, henabled, rfl⟩ := hstep
  cases l with
  | startThrows threads => exact h
  | startAccepts threads =>
    -- the condition leaves the first start only
    have hnone : s.run = none := by
      by_contra hne
      exact Bool.noConfusion ((hmeets hne).symm.trans henabled.2.2)
    obtain ⟨hrun, hhandle, hflag, hend, hqueues, _⟩ := h.fresh hnone
    exact .inl ⟨hrun, hhandle, hflag, hend, hqueues, by simp [update]⟩
  | launch =>
    rcases h with ⟨hrun, _, hflag, hend, hqueues, _⟩ | ⟨pc, hrun⟩
    · exact .inr ⟨.entry, rfl, by simp [update], by simp [update, hend], by simp, .inl hqueues,
        by simp [update], by simp [update]⟩
    · exact absurd henabled.1 hrun.caller
  | terminate =>
    rcases h with hfresh | ⟨pc, hrun⟩
    · exact Bool.noConfusion (hfresh.handle.symm.trans henabled.2)
    · exact absurd henabled.1 hrun.caller
  | stopCall =>
    rcases h with hfresh | ⟨pc, hrun, _, _, hflag, hqueues, _, _⟩
    · exact absurd hfresh.run hmeets
    · exact .inr ⟨pc, hrun, by simp [update], fun _ => rfl, hflag, hqueues, fun _ => rfl,
        fun _ => rfl⟩
  | joined =>
    obtain ⟨hrun, _, hreq, hflag, hqueues, hstopping, _⟩ := h.onlyRun henabled.2.2
    exact .inr ⟨.finished, hrun, by simp [update], hreq, hflag, hqueues, by simp [update],
      fun _ => hstopping henabled.1⟩
  | stopReturns =>
    rcases h with hfresh | ⟨pc, hrun, _, hreq, hflag, hqueues, _, hhandle⟩
    · exact absurd henabled.1 hfresh.caller
    · exact .inr ⟨pc, hrun, by simp [update], hreq, hflag, hqueues, by simp [update], hhandle⟩
  | enter =>
    have hold := h.onlyRun henabled
    exact .inr ⟨.prologue, rfl, hold.caller, hold.requested, by simp,
      .inl (hold.accepts (by simp) (by simp)), hold.stopping, hold.handle⟩
  | setup =>
    have hold := h.onlyRun henabled
    exact .inr ⟨.test, rfl, hold.caller, hold.requested, by simp,
      .inl (hold.accepts (by simp) (by simp)), hold.stopping, hold.handle⟩
  | testPass =>
    have hold := h.onlyRun henabled.1
    exact .inr ⟨.turn, rfl, hold.caller, hold.requested, by simp,
      .inl (hold.accepts (by simp) (by simp)), hold.stopping, hold.handle⟩
  | turnDone =>
    have hold := h.onlyRun henabled.1
    exact .inr ⟨.test, rfl, hold.caller, hold.requested, by simp, .inl henabled.2, hold.stopping,
      hold.handle⟩
  | setupThrows => exact (h.onlyRun henabled).closing rfl rfl ⟨rfl, rfl⟩ rfl
  | testFail => exact (h.onlyRun henabled.1).closing rfl rfl ⟨rfl, rfl⟩ rfl
  | turnNotReady => exact (h.onlyRun henabled.1).closing rfl rfl ⟨rfl, rfl⟩ rfl
  | turnThrows => exact (h.onlyRun henabled).closing rfl rfl ⟨rfl, rfl⟩ rfl
  | shutdown n => exact (h.onlyRun henabled.1).closing rfl rfl ⟨rfl, rfl⟩ rfl
  | leave =>
    have hold := h.onlyRun henabled
    exact .inr ⟨.finished, rfl, hold.caller, hold.requested, by simp [update], .inr (.inl rfl),
      hold.stopping, hold.handle⟩

/-- What the invariant makes of a step. -/
theorem Inv.asPromised {s s' : State} {l : Label} (h : Inv s) (hstep : Step s l s')
    (hmeets : Meets s l) : AsPromised s l := by
  obtain ⟨_, henabled, _⟩ := hstep
  cases l with
  | startThrows threads =>
    have hrunning : s.isRunning = true := henabled.2.2
    rcases h with hfresh | ⟨pc, hrun⟩
    · rw [hfresh.flag] at hrunning
      cases hrunning
    · exact ⟨pc, hrun.run, hrun.flag hrunning⟩
  | startAccepts threads =>
    rintro ⟨pc, hrun, _⟩
    have hflag : s.isRunning = true := hmeets (by simp [hrun])
    rw [henabled.2.2] at hflag
    cases hflag
  | terminate =>
    rcases h with hfresh | ⟨pc, hrun⟩
    · exact Bool.noConfusion (hfresh.handle.symm.trans henabled.2)
    · exact hrun.caller henabled.1
  | testFail => exact (h.onlyRun henabled.1).requested henabled.2
  | turnNotReady =>
    have haccepts := (h.onlyRun henabled.1).accepts (by simp) (by simp)
    exact Bool.noConfusion (haccepts.symm.trans henabled.2)
  | _ => trivial

/-! ## Calls that do not meet the condition -/

/-- A run launched while `end_run` is still set executes no turn. -/
theorem launching_breaks {s : State} (halive : s.terminated = false)
    (hpc : s.caller = .launching) (hhandle : s.joinable = false) (hend : s.endRun = true)
    (hreq : s.stopRequested = false) :
    ∃ ms v l w, Run Step s ms v ∧ Step v l w ∧ ¬ AsPromised v l := by
  have hlaunch : Step s .launch (update s .launch) := ⟨halive, ⟨hpc, hhandle⟩, rfl⟩
  have henter : Step (update s .launch) .enter (update (update s .launch) .enter) :=
    ⟨halive, rfl, rfl⟩
  refine ⟨[.launch, .enter, .setup], _, .testFail, _,
    .cons hlaunch (.cons henter (.single ⟨halive, rfl, rfl⟩)), ⟨halive, ⟨rfl, hend⟩, rfl⟩, ?_⟩
  simp [AsPromised, update, hreq]

/-- A call that does not meet the condition breaks the promise, or can be followed by a step that
is not. -/
theorem Inv.breaks {s s' : State} {l : Label} (h : Inv s) (hstep : Step s l s')
    (hmeets : ¬ Meets s l) :
    ¬ AsPromised s l ∨ ∃ ms v l' w, Run Step s' ms v ∧ Step v l' w ∧ ¬ AsPromised v l' := by
  obtain ⟨halive, henabled, rfl⟩ := hstep
  cases l with
  | startThrows threads => exact absurd (fun _ => henabled.2.2) hmeets
  | startAccepts threads =>
    have hne : s.run ≠ none := fun hnone => hmeets fun hne => absurd hnone hne
    obtain ⟨pc, hrun⟩ := Option.ne_none_iff_exists'.mp hne
    by_cases hpcfin : pc = .finished
    · subst hpcfin
      right
      by_cases hhandle : s.joinable = true
      · exact ⟨[], _, .terminate, _, .nil, ⟨halive, ⟨rfl, hhandle⟩, rfl⟩, id⟩
      · have hhandle : s.joinable = false := Bool.eq_false_iff.mpr hhandle
        exact launching_breaks halive rfl hhandle ((h.onlyRun hrun).handle hhandle) rfl
    · exact .inl fun hnot => hnot ⟨pc, hrun, hpcfin⟩
  | stopCall =>
    have hnone : s.run = none := not_not.mp hmeets
    have hfresh := h.fresh hnone
    right
    -- the call returns, and the first start launches a run that ends at once
    have hreturns : Step (update s .stopCall) .stopReturns
        (update (update s .stopCall) .stopReturns) := ⟨halive, ⟨rfl, hfresh.handle⟩, rfl⟩
    have haccepts : Step (update (update s .stopCall) .stopReturns) (.startAccepts 1)
        (update (update (update s .stopCall) .stopReturns) (.startAccepts 1)) :=
      ⟨halive, ⟨Nat.le.refl, rfl, hfresh.flag⟩, rfl⟩
    obtain ⟨ms, v, l, w, hrun, hlast, hbad⟩ := launching_breaks
      (s := update (update (update s .stopCall) .stopReturns) (.startAccepts 1))
      halive rfl hfresh.handle rfl rfl
    exact ⟨_, v, l, w, .cons hreturns (.cons haccepts hrun), hlast, hbad⟩
  | _ => exact absurd trivial hmeets

/-- In a run whose start and stop calls meet the condition every step is as promised; and a next
call that does not meet it breaks the promise itself or can be followed by a step that does. So the
condition leaves out no call that would do no harm. -/
theorem starts_as_promised (log : List Label) (t : State)
    (hrun : Run (fun s l s' => Step s l s' ∧ Meets s l) .initial log t) :
    Run (fun s l s' => Step s l s' ∧ AsPromised s l) .initial log t
      ∧ ∀ l t', Step t l t' → ¬ Meets t l →
        ¬ AsPromised t l ∨ ∃ ms v l' w, Run Step t' ms v ∧ Step v l' w ∧ ¬ AsPromised v l' := by
  obtain ⟨hinv, hpromised⟩ := Run.strengthen (P := Meets) (Q := AsPromised) inv_initial
    (fun _ _ _ h hstep hmeets => h.step hstep hmeets)
    (fun _ _ _ h hstep hmeets => h.asPromised hstep hmeets) hrun
  exact ⟨hpromised, fun l t' hstep hmeets => hinv.breaks hstep hmeets⟩

/-- `starts_as_promised` on a start, a turn, a rejected start and a stop. -/
theorem starts_as_promised_once :
    ∃ t, Run (fun s l s' => Step s l s' ∧ AsPromised s l) .initial
      [.startAccepts 2, .launch, .enter, .setup, .testPass, .turnDone, .startThrows 2, .stopCall,
        .testFail] t :=
  ⟨_, (starts_as_promised _ _ (.of_exec step_of_nextMet? rfl)).1⟩

/-- A second `start_sim` right after the first: the new thread has not set `is_running` yet, the
call is accepted, and its assignment over the joinable thread terminates the process. -/
theorem quickRestart_terminates :
    ∃ t t', Run Step .initial [.startAccepts 2, .launch, .startAccepts 2] t
      ∧ Step t .terminate t' ∧ ¬ AsPromised t .terminate :=
  ⟨_, _, .of_exec step_of_next? rfl, step_of_next? _ _ _ rfl, id⟩

/-! ## `running()` -/

/-- The last launch, end or join of a run. -/
def lastMark (log : List Label) : Option Label :=
  log.foldl (fun m l => if l = .launch ∨ l = .leave ∨ l = .joined then some l else m) none

@[simp] theorem lastMark_snoc (log : List Label) (l : Label) :
    lastMark (log ++ [l])
      = if l = .launch ∨ l = .leave ∨ l = .joined then some l else lastMark log := by
  rw [lastMark, List.foldl_append]
  rfl

/-- What the last mark of a run says about its end. -/
inductive Marked (log : List Label) (s : State) : Prop
  | fresh (hmark : lastMark log = none) (hrun : s.run = none) (hhandle : s.joinable = false)
  | live (hmark : lastMark log = some .launch) (hlive : s.Live) (hhandle : s.joinable = true)
  | ended (hmark : lastMark log = some .leave) (hrun : s.run = some .finished)
      (hhandle : s.joinable = true)
  | joined (hmark : lastMark log = some .joined) (hrun : s.run = some .finished)
      (hhandle : s.joinable = false)

/-- A step of the caller that touches neither the thread nor its handle. -/
theorem Marked.keep {log : List Label} {s s' : State} {l : Label} (h : Marked log s)
    (hl : ¬ (l = .launch ∨ l = .leave ∨ l = .joined)) (hrun : s'.run = s.run)
    (hhandle : s'.joinable = s.joinable) : Marked (log ++ [l]) s' := by
  cases h with
  | fresh hm hr hh => exact .fresh (by simp [hl, hm]) (hrun.trans hr) (hhandle.trans hh)
  | live hm hlive hh =>
    obtain ⟨pc, hpc, hne⟩ := hlive
    exact .live (by simp [hl, hm]) ⟨pc, hrun.trans hpc, hne⟩ (hhandle.trans hh)
  | ended hm hr hh => exact .ended (by simp [hl, hm]) (hrun.trans hr) (hhandle.trans hh)
  | joined hm hr hh => exact .joined (by simp [hl, hm]) (hrun.trans hr) (hhandle.trans hh)

/-- A step of the run from one unfinished place to another. -/
theorem Marked.advance {log : List Label} {s s' : State} {l : Label} {pc pc' : RunPc}
    (h : Marked log s) (hl : ¬ (l = .launch ∨ l = .leave ∨ l = .joined))
    (hrun : s.run = some pc) (hpc : pc ≠ .finished) (hrun' : s'.run = some pc')
    (hpc' : pc' ≠ .finished) (hhandle : s'.joinable = s.joinable) : Marked (log ++ [l]) s' := by
  cases h with
  | fresh hm hr hh => rw [hrun] at hr; cases hr
  | live hm _ hh => exact .live (by simp [hl, hm]) ⟨pc', hrun', hpc'⟩ (hhandle.trans hh)
  | ended hm hr hh => rw [hrun, Option.some.injEq] at hr; exact absurd hr hpc
  | joined hm hr hh => rw [hrun, Option.some.injEq] at hr; exact absurd hr hpc

theorem Marked.step {log : List Label} {s s' : State} {l : Label} (h : Marked log s)
    (hstep : Step s l s') : Marked (log ++ [l]) s' := by
  obtain ⟨_, henabled, rfl⟩ := hstep
  cases l with
  | startThrows threads => exact h.keep (by simp) rfl rfl
  | startAccepts threads => exact h.keep (by simp) rfl rfl
  | launch => exact .live (by simp) ⟨.entry, rfl, by simp⟩ rfl
  | terminate => exact h.keep (by simp) rfl rfl
  | stopCall => exact h.keep (by simp) rfl rfl
  | joined => exact .joined (by simp) henabled.2.2 rfl
  | stopReturns => exact h.keep (by simp) rfl rfl
  | enter => exact h.advance (by simp) henabled (by simp) rfl (by simp) rfl
  | setup => exact h.advance (by simp) henabled (by simp) rfl (by simp) rfl
  | setupThrows => exact h.advance (by simp) henabled (by simp) rfl (by simp) rfl
  | testPass => exact h.advance (by simp) henabled.1 (by simp) rfl (by simp) rfl
  | testFail => exact h.advance (by simp) henabled.1 (by simp) rfl (by simp) rfl
  | turnDone => exact h.advance (by simp) henabled.1 (by simp) rfl (by simp) rfl
  | turnNotReady => exact h.advance (by simp) henabled.1 (by simp) rfl (by simp) rfl
  | turnThrows => exact h.advance (by simp) henabled (by simp) rfl (by simp) rfl
  | shutdown n => exact h.advance (by simp) henabled.1 (by simp) rfl (by simp) rfl
  | leave =>
    have hrun : s.run = some (.closing 4) := henabled
    cases h with
    | fresh hm hr hh => rw [hrun] at hr; cases hr
    | live hm _ hh => exact .ended (by simp) rfl hh
    | ended hm hr hh => rw [hrun] at hr; cases hr
    | joined hm hr hh => rw [hrun] at hr; cases hr

/-- In every reachable state, `running()` returns true only while a launched `run_sim` has not
finished, if and only if it is not the case that the last thing to happen to a run was its end.
`running()` asks whether the thread can be joined, and a thread that has ended can be. -/
theorem running_truthful_iff (log : List Label) (t : State) (h : Run Step .initial log t) :
    (t.running = true → t.Live) ↔ lastMark log ≠ some .leave := by
  have hmarked : Marked log t :=
    h.history (P := Marked) (.fresh rfl rfl rfl) fun _ _ _ _ hm hstep => hm.step hstep
  cases hmarked with
  | fresh hm hr hh => simp [State.running, hm, hh]
  | live hm hlive hh => simp [hm, hlive]
  | ended hm hr hh =>
    rw [hm, State.running, hh]
    simp [State.Live, hr]
  | joined hm hr hh => simp [State.running, hm, hh]

/-- `running_truthful_iff` while the first run is in its first turn. -/
theorem running_truthful_turn :
    ∃ t, Run Step .initial [.startAccepts 2, .launch, .enter, .setup, .testPass] t
      ∧ (t.running = true → t.Live) := by
  have hrun : ∃ t, Run Step .initial [.startAccepts 2, .launch, .enter, .setup, .testPass] t :=
    ⟨_, .of_exec step_of_next? rfl⟩
  obtain ⟨t, hrun⟩ := hrun
  exact ⟨t, hrun, (running_truthful_iff _ t hrun).mpr (by decide)⟩

/-- After an overrun has ended the run, `running()` still returns true. -/
theorem overrun_still_running :
    ∃ t, Run Step .initial
        [.startAccepts 2, .launch, .enter, .setup, .testPass, .turnThrows, .shutdown 0,
          .shutdown 1, .shutdown 2, .shutdown 3, .leave] t
      ∧ ¬ (t.running = true → t.Live) := by
  refine ⟨_, .of_exec step_of_next? rfl, fun h => ?_⟩
  obtain ⟨pc, hpc, hne⟩ := h rfl
  exact hne (Option.some.inj hpc).symm

end Nrtb.SimCore.Lifecycle
