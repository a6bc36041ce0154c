import Nrtb.SimCore.Tick

/-!
# `join()` when a method throws

`cpp/sim_engine/sim_core/sim_core.cpp`, lines 493–537, with `join` and `task_done` of `abs_queue`: a
worker whose item throws leaves its loop with the packet in its hands, and nobody reports that
packet. The `catch (...)` is around the loop and has no `task_done`.

A barrier holds when two things are so: the counters say what is outstanding, and `join` does not
wait for what nobody will do. The first fails while a packet is counted and not yet in the buffer,
and for good once a call has thrown; the second fails as soon as the lost packet is the only one
left. Both can be read off the accounts of the phase, which are kept for throwing calls as well,
with one packet lost for each call that threw.

* `lost_of_run`: the packets that nobody will report are as many as the calls that threw.
* `Accounts.countsAgree_iff`, `Awake.not_wedged`: when the counters agree with what is outstanding,
  and when `join` is told.
* `barrier_iff`: one call of `tick()`, whatever throws in it. `tick_wedges` is the run of one object
  whose `tick` throws, after which `join` waits for ever.
-/

namespace Nrtb.WorkPhase

variable {ι : Type*}

/-! ## What is outstanding -/

/-- The packet of a worker that has left its loop. -/
def WorkerPc.lost : WorkerPc ι → Nat
  | failed _ => 1
  | _ => 0

/-- The packet of a worker that has not left its loop. -/
def WorkerPc.carried (w : WorkerPc ι) : Nat := if w.running then w.laden else 0

/-- The worker has no packet, or has left its loop, and is not about to notify. -/
def WorkerPc.quiet : WorkerPc ι → Bool
  | pop => true
  | waiting => true
  | exited => true
  | failed _ => true
  | _ => false

/-- `in_count - completed` is the number of packets in the buffer and in the loops. -/
def CountsAgree (p : Phase ι) : Prop :=
  (p.shared.queue.inCount : Int) - p.shared.queue.completed
    = p.shared.queue.buffer.length + total WorkerPc.carried p.workers

/-- `join` waits while nothing is outstanding: no packet in the buffer, and no worker that works
on one or reports one. -/
def Wedged (p : Phase ι) : Prop :=
  p.shared.main = .waiting ∧ p.shared.queue.buffer = [] ∧ ∀ w ∈ p.workers, w.quiet = true

theorem WorkerPc.laden_eq (w : WorkerPc ι) : w.laden = w.carried + w.lost := by
  cases w <;> rfl

theorem total_laden (ws : List (WorkerPc ι)) :
    total WorkerPc.laden ws = total WorkerPc.carried ws + total WorkerPc.lost ws := by
  induction ws with
  | nil => rfl
  | cons w ws ih =>
    have hladen := w.laden_eq
    simp only [total, List.map_cons, List.sum_cons] at ih ⊢
    omega

section Barrier

variable [DecidableEq ι] {packets : List (List ι)} {records : ι → Bool → Bool} {throws : ι → Prop}
  {base : Nat} {ls : List (Label ι)} {l : Label ι} {s s' : Shared ι} {w w' : WorkerPc ι}
  {p p' : Phase ι}

omit [DecidableEq ι] in
theorem WorkerStep.lost (h : WorkerStep records throws s w l s' w') (hout : s.out.ready = true) :
    w'.lost = w.lost + l.thrown.length := by
  cases h with
  | finish i todo answer => split <;> rfl
  | foundThrows i todo hready => cases hready.symm.trans hout
  | _ => rfl

omit [DecidableEq ι] in
theorem Step.lost (h : Step packets records throws p l p') (hout : p.shared.out.ready = true) :
    total WorkerPc.lost p'.workers = total WorkerPc.lost p.workers + l.thrown.length := by
  cases h with
  | main _ _ _ hmain =>
    cases hmain with
    | notifyOne q out pre post rest => simp [WorkerPc.lost, Label.thrown]
    | _ => rfl
  | worker s s' pre post w w' _ hworker =>
    have hlost : w'.lost = w.lost + l.thrown.length := hworker.lost hout
    simp only [total_split]
    omega

/-- Every call that throws costs one packet its report. -/
theorem lost_of_run (hfew : packets.length < 2 ^ 32)
    (hinit : Accounts packets records base [] p) (hnone : total WorkerPc.lost p.workers = 0)
    (hrun : Run (Step packets records throws) p ls p') :
    Accounts packets records base ls p'
      ∧ total WorkerPc.lost p'.workers = (ls.flatMap Label.thrown).length := by
  refine hrun.history (P := fun ls p => Accounts packets records base ls p
    ∧ total WorkerPc.lost p.workers = (ls.flatMap Label.thrown).length) ⟨hinit, hnone⟩ ?_
  intro ls t l u h hstep
  have hlost := hstep.lost h.1.flags.2.2
  refine ⟨h.1.step hfew hstep, ?_⟩
  rw [hlost, h.2, List.flatMap_append, List.flatMap_singleton, List.length_append]

/-- The counters agree with what is outstanding, but for a packet on its way into the buffer and
those that nobody will report. -/
theorem Accounts.countsAgree_iff (h : Accounts packets records base ls p)
    (hlost : total WorkerPc.lost p.workers = (ls.flatMap Label.thrown).length) :
    CountsAgree p ↔ p.shared.main.inserting = 0 ∧ ls.flatMap Label.thrown = [] := by
  have hload := h.load
  rw [total_laden, hlost] at hload
  rw [CountsAgree, ← List.length_eq_zero_iff]
  omega

omit [DecidableEq ι] in
theorem WorkerPc.unladen_of_quiet (hquiet : w.quiet = true) (hrunning : w.running = true) :
    w.laden = 0 := by
  cases w with
  | pop => rfl
  | waiting => rfl
  | exited => rfl
  | failed todo => cases hrunning
  | _ => cases hquiet

/-- While every worker is in its loop, `join` does not wait for nothing. -/
theorem Awake.not_wedged (h : Awake p) (haccounts : Accounts packets records base ls p) :
    ¬ Wedged p := by
  rintro ⟨hmain, hbuffer, hquiet⟩
  have hladen : total WorkerPc.laden p.workers = 0 :=
    total_eq_zero fun w hw => WorkerPc.unladen_of_quiet (hquiet w hw) (h.running w hw)
  have hload := haccounts.load
  rw [hmain, hbuffer, hladen] at hload
  have hdrained : p.shared.queue.drained = true := by
    simp [AbsQueue.drained, AbsQueue.sameInt, hload, MainPc.inserting]
  obtain ⟨w, hw, hreports⟩ := h.told hmain hdrained
  have hwquiet := hquiet w hw
  cases w <;> first | exact hreports | cases hwquiet

/-- With nothing to push, `join` finds the queue drained at once. -/
theorem Accounts.not_waiting (hinit : Accounts [] records base [] p)
    (hmain : p.shared.main ≠ .waiting) (hrun : Run (Step [] records throws) p ls p') :
    p'.shared.main ≠ .waiting := by
  have hboth : Accounts [] records base ls p' ∧ p'.shared.main ≠ .waiting := by
    refine hrun.history (P := fun ls p => Accounts [] records base ls p
      ∧ p.shared.main ≠ .waiting) ⟨hinit, hmain⟩ ?_
    intro ls t l u h hstep
    refine ⟨h.1.step (Nat.two_pow_pos 32) hstep, ?_⟩
    have hsent := h.1.sent
    have hreported := h.1.reported
    have hload := h.1.load
    rw [List.length_nil] at hsent
    cases hstep with
    | main _ _ _ hmain =>
      cases hmain with
      | joinWaits q out ws hdone =>
        have hsame : q.completed = q.inCount := by
          dsimp only at hsent hreported hload
          omega
        simp [AbsQueue.drained, AbsQueue.sameInt, hsame] at hdone
      | _ => rintro ⟨⟩
    | worker s s' pre post w w' _ hworker =>
      rcases hworker.main with heq | ⟨_, hjoin⟩
      · exact heq ▸ h.2
      · exact hjoin ▸ (by rintro ⟨⟩)
  exact hboth.2

omit [DecidableEq ι] in
theorem WorkerStep.unthrown (h : WorkerStep records throws s w l s' w') (hnone : l.thrown = []) :
    WorkerStep records (fun _ => False) s w l s' w' := by
  cases h with
  | throw i todo _ => cases hnone
  | _ => constructor <;> assumption

omit [DecidableEq ι] in
/-- A run in which nothing has thrown is one of methods that never throw. -/
theorem unthrown_run (hrun : Run (Step packets records throws) p ls p')
    (hnone : ls.flatMap Label.thrown = []) :
    Run (Step packets records fun _ => False) p ls p' := by
  induction hrun with
  | nil => exact .nil
  | @snoc ls t u l _ hstep ih =>
    rw [List.flatMap_append, List.flatMap_singleton] at hnone
    obtain ⟨hbefore, hlast⟩ := List.append_eq_nil_iff.mp hnone
    refine (ih hbefore).snoc ?_
    cases hstep with
    | main _ _ _ hmain => exact .main _ _ _ hmain
    | worker s s' pre post w w' _ hworker =>
      exact .worker s s' pre post w w' l (hworker.unthrown hlast)

omit [DecidableEq ι] in
theorem lost_of_running {ws : List (WorkerPc ι)} (h : ∀ w ∈ ws, w.running = true) :
    total WorkerPc.lost ws = 0 :=
  total_eq_zero fun w hw => by
    have hw' := h w hw
    cases w with
    | failed todo => cases hw'
    | _ => rfl

theorem sound_of_unthrown (hfew : packets.length < 2 ^ 32) (hbegins : Begins p)
    (hrunning : ∀ w ∈ p.workers, w.running = true) (hsomebody : p.workers ≠ [])
    (hrun : Run (Step packets records throws) p ls p') (hnone : ls.flatMap Label.thrown = []) :
    Sound packets records p.shared.queue.inCount ls p' :=
  (unthrown_run hrun hnone).history (hbegins.sound hrunning hsomebody)
    fun _ _ _ _ => Sound.step hfew

/-- One use of the queue, whatever throws in it. -/
theorem phase_barrier_iff (hfew : packets.length < 2 ^ 32) (hbegins : Begins p)
    (hrunning : ∀ w ∈ p.workers, w.running = true) (hsomebody : p.workers = [] → packets = [])
    (hrun : Run (Step packets records throws) p ls p') :
    (CountsAgree p' ∧ ¬ Wedged p')
      ↔ p'.shared.main.inserting = 0 ∧ ls.flatMap Label.thrown = [] := by
  obtain ⟨haccounts, hcount⟩ := lost_of_run hfew hbegins.accounts (lost_of_running hrunning) hrun
  have hbalanced := haccounts.countsAgree_iff hcount
  refine ⟨fun h => hbalanced.mp h.1, fun h => ⟨hbalanced.mpr h, ?_⟩⟩
  by_cases hnobody : p.workers = []
  · obtain rfl := hsomebody hnobody
    have hidle : p.shared.main ≠ .waiting := by rw [hbegins.main]; exact nofun
    exact fun hwedged => (hbegins.accounts.not_waiting hidle hrun) hwedged.1
  · have hsound := sound_of_unthrown hfew hbegins hrunning hnobody hrun h.2
    exact hsound.awake.not_wedged haccounts

omit [DecidableEq ι] in
theorem length_workers_of_run (hrun : Run (Step packets records throws) p ls p') :
    p'.workers.length = p.workers.length :=
  hrun.invariant (I := fun q => q.workers.length = p.workers.length) rfl
    fun _ _ _ h hstep => hstep.length_workers.trans h

/-- A use that came to its end has lost nobody. -/
theorem next_of_returned (hfew : packets.length < 2 ^ 32) (hbegins : Begins p)
    (hrunning : ∀ w ∈ p.workers, w.running = true)
    (hrun : Run (Step packets records throws) p ls p') (hreturned : p'.shared.main = .returned) :
    Begins p'.next ∧ ∀ w ∈ p'.workers, w.running = true := by
  obtain ⟨haccounts, hcount⟩ := lost_of_run hfew hbegins.accounts (lost_of_running hrunning) hrun
  have hdrained := haccounts.settled (.inr hreturned)
  obtain ⟨_, hbuffer, hladen⟩ := haccounts.unladen hdrained
  refine ⟨⟨rfl, haccounts.flags, hbuffer, hdrained, rfl, hladen⟩, ?_⟩
  have hnone : ls.flatMap Label.thrown = [] := by
    have htotal := total_eq_zero hladen
    rw [total_laden, hcount] at htotal
    exact List.length_eq_zero_iff.mp (by omega)
  by_cases hnobody : p.workers = []
  · have hlength := length_workers_of_run hrun
    rw [hnobody] at hlength
    rw [List.length_eq_zero_iff.mp hlength]
    exact nofun
  · exact (sound_of_unthrown hfew hbegins hrunning hnobody hrun hnone).awake.running

end Barrier

end Nrtb.WorkPhase

namespace Nrtb.SimCore

open WorkPhase

/-! ## The three queues of a turn -/

theorem length_of_deal {ι : Type*} {workerCount : Nat} {items : List ι} {packets : List (List ι)}
    (h : deal workerCount items = some packets) : packets.length = workerCount := by
  have hloop : ∀ (items : List ι) (current : Nat) (start : List (List ι)),
      dealLoop workerCount items current start = some packets → packets.length = start.length := by
    intro items
    induction items with
    | nil =>
      intro current start hstart
      rw [Option.some.inj hstart]
    | cons item rest ih =>
      intro current start hstart
      rw [dealLoop] at hstart
      split at hstart
      · cases hstart
      · rw [ih _ _ hstart, List.length_modify]
  rw [hloop items 0 _ h, List.length_replicate]

section Turn

variable {packets : List (List Object)} {clsnPackets : List (List (Object × Object))}
  {throws : Throws} {start s : TickState} {ls : List TickLabel}

/-- A call of `tick()` is a use of each of its queues. -/
theorem runs_of_tick (hrun : Run (TickStep packets clsnPackets throws) start ls s) :
    Run (Step packets (fun _ _ => false) throws.tick) start.ticks (tickLog ls) s.ticks
      ∧ Run (Step clsnPackets (fun _ answer => answer) throws.check) start.checks (checkLog ls)
        s.checks
      ∧ Run (Step packets (fun _ _ => false) throws.apply) start.applies (applyLog ls)
        s.applies := by
  induction hrun with
  | nil => exact ⟨.nil, .nil, .nil⟩
  | snoc _ hstep ih =>
    obtain ⟨hticks, hchecks, happlies⟩ := ih
    simp only [tickLog, checkLog, applyLog, List.filterMap_append] at hticks hchecks happlies ⊢
    cases hstep with
    | tick l p hphase =>
      refine ⟨hticks.snoc hphase, ?_, ?_⟩
      · simpa [List.filterMap_cons, TickLabel.asCheck] using hchecks
      · simpa [List.filterMap_cons, TickLabel.asApply] using happlies
    | check l p hturn hphase =>
      refine ⟨?_, hchecks.snoc hphase, ?_⟩
      · simpa [List.filterMap_cons, TickLabel.asTick] using hticks
      · simpa [List.filterMap_cons, TickLabel.asApply] using happlies
    | apply l p hturn hphase =>
      refine ⟨?_, ?_, happlies.snoc hphase⟩
      · simpa [List.filterMap_cons, TickLabel.asTick] using hticks
      · simpa [List.filterMap_cons, TickLabel.asCheck] using hchecks

/-- A phase has begun only when the one before it is over. -/
theorem phases_of_tick (hchecks : start.checks.shared.main = .idle)
    (happlies : start.applies.shared.main = .idle)
    (hrun : Run (TickStep packets clsnPackets throws) start ls s) :
    (s.checks.shared.main ≠ .idle → s.ticks.shared.main = .returned)
      ∧ (s.applies.shared.main ≠ .idle → s.checks.shared.main = .returned) := by
  induction hrun with
  | nil => exact ⟨fun h => absurd hchecks h, fun h => absurd happlies h⟩
  | snoc _ hstep ih =>
    obtain ⟨hchecked, happlied⟩ := ih
    cases hstep with
    | tick l p hphase => exact ⟨fun hmain => hphase.returned (hchecked hmain), happlied⟩
    | check l p hturn hphase =>
      refine ⟨fun hmain => ?_, fun hmain => hphase.returned (happlied hmain)⟩
      by_cases hstart : l = .start
      · exact hturn hstart
      · exact hchecked fun hidle => hmain (hphase.idle hstart hidle)
    | apply l p hturn hphase =>
      refine ⟨hchecked, fun hmain => ?_⟩
      by_cases hstart : l = .start
      · exact hturn hstart
      · exact happlied fun hidle => hmain (hphase.idle hstart hidle)

/-- The counters of one queue agree with what is outstanding, and its `join` does not wait for
nothing. -/
def BarrierHolds {ι : Type*} (p : WorkPhase.Phase ι) : Prop := CountsAgree p ∧ ¬ Wedged p

/-- Nothing has thrown in the phase so far, and the turn is not between `in_count++` and the
insertion of a packet. -/
def Unhurt {ι : Type*} (ls : List (WorkPhase.Label ι)) (p : WorkPhase.Phase ι) : Prop :=
  p.shared.main.inserting = 0 ∧ ls.flatMap Label.thrown = []

theorem PoolReady.holds_iff {ι : Type*} [DecidableEq ι] {workerCount : Nat}
    {packets : List (List ι)} {records : ι → Bool → Bool} {throws : ι → Prop}
    {p p' : WorkPhase.Phase ι} {log : List (WorkPhase.Label ι)} (h : PoolReady workerCount p)
    (hint : workerCount < 2 ^ 31) (hlength : packets.length = workerCount)
    (hrun : Run (Step packets records throws) p log p') :
    (BarrierHolds p' ↔ Unhurt log p')
      ∧ (p'.shared.main = .returned → PoolReady workerCount p'.next) := by
  obtain ⟨hbegins, hworkers, hrunning⟩ := h
  have hfew : packets.length < 2 ^ 32 := by omega
  have hsomebody : p.workers = [] → packets = [] := fun hnobody => by
    rw [hnobody] at hworkers
    exact List.length_eq_zero_iff.mp (hlength.trans hworkers.symm)
  refine ⟨phase_barrier_iff hfew hbegins hrunning hsomebody hrun, fun hreturned => ?_⟩
  obtain ⟨hnext, hstill⟩ := next_of_returned hfew hbegins hrunning hrun hreturned
  exact ⟨hnext, (length_workers_of_run hrun).trans hworkers, hstill⟩

end Turn

/-- At every moment of a turn the three barriers hold exactly while no call has thrown in them and
no packet is on its way into their buffers; and a call of `tick()` that returns leaves the workers
as the next one expects them. The three phases are three instances of one argument about `Accounts`.
-/
theorem barrier_iff {s : State} {workerCount : Nat} (hint : workerCount < 2 ^ 31)
    {packets : List (List Object)} (hdeal : deal workerCount s.stored = some packets)
    {clsnPackets : List (List (Object × Object))}
    (hclsnDeal : deal workerCount (pairs s.stored) = some clsnPackets) (throws : Throws)
    {start : TickState} (hstart : TickStart workerCount start) {ls : List TickLabel}
    {t : TickState} (hrun : Run (TickStep packets clsnPackets throws) start ls t) :
    (BarrierHolds t.ticks ↔ Unhurt (tickLog ls) t.ticks)
      ∧ (BarrierHolds t.checks ↔ Unhurt (checkLog ls) t.checks)
      ∧ (BarrierHolds t.applies ↔ Unhurt (applyLog ls) t.applies)
      ∧ (t.applies.shared.main = .returned → TickStart workerCount t.next) := by
  obtain ⟨hticks, hchecks, happlies⟩ := hstart
  obtain ⟨hrunTicks, hrunChecks, hrunApplies⟩ := runs_of_tick hrun
  have hlength := length_of_deal hdeal
  obtain ⟨hiffTicks, hnextTicks⟩ := hticks.holds_iff hint hlength hrunTicks
  obtain ⟨hiffChecks, hnextChecks⟩ :=
    hchecks.holds_iff hint (length_of_deal hclsnDeal) hrunChecks
  obtain ⟨hiffApplies, hnextApplies⟩ := happlies.holds_iff hint hlength hrunApplies
  refine ⟨hiffTicks, hiffChecks, hiffApplies, fun hreturned => ?_⟩
  obtain ⟨hchecked, happlied⟩ := phases_of_tick hchecks.1.main happlies.1.main hrun
  have hmainChecks : t.checks.shared.main = .returned :=
    happlied (by rw [hreturned]; exact nofun)
  have hmainTicks : t.ticks.shared.main = .returned :=
    hchecked (by rw [hmainChecks]; exact nofun)
  exact ⟨hnextTicks hmainTicks, hnextChecks hmainChecks, hnextApplies hreturned⟩

/-- The object whose `tick` throws. -/
def fragile : Object := ⟨10, 1⟩

def fragileState : State where
  objects := OrdMap.empty.insert 1 fragile
  alive := fun _ => true
  messages := []
  collisions := []
  endRun := false
  isRunning := true

def fragileThrows : Throws := ⟨fun o => o = fragile, fun _ => False, fun _ => False⟩

/-- One worker, which finds the packet with the object in the buffer and `tick()` in `join`. -/
def joining (q : AbsQueue (List Object)) (main : MainPc Object) (w : WorkerPc Object) : TickState :=
  ⟨⟨⟨main, q, .empty⟩, [w]⟩, newPool (Object × Object) 1, newPool Object 1⟩

def pushedLog : List TickLabel :=
  [.tick .start, .tick .silent, .tick .silent, .tick .silent, .tick .silent, .tick .silent]

theorem run_pushed : Run (TickStep [[fragile]] [[]] fragileThrows)
    (joining .empty .idle .pop) pushedLog
    (joining ⟨[[fragile]], 1, 0, 0, true, false⟩ .waiting .pop) := by
  refine .cons (.tick _ _ _ (.main _ _ _ (.start _ _ _))) ?_
  refine .cons (.tick _ _ _ (.main _ _ _ (.count _ _ _ _ _ rfl))) ?_
  refine .cons (.tick _ _ _ (.main _ _ _ (.insert _ _ _ _ _))) ?_
  refine .cons (.tick _ _ _ (.main _ _ _ (.notifyNone _ _ _ _ (.inl (by simp))))) ?_
  refine .cons (.tick _ _ _ (.main _ _ _ (.toJoin _ _ _))) ?_
  exact .single (.tick _ _ _ (.main _ _ _ (.joinWaits _ _ _ rfl)))

def wedgedLog : List TickLabel :=
  pushedLog ++ [.tick .silent, .tick (.begin fragile), .tick (.throw fragile)]

theorem run_wedged : Run (TickStep [[fragile]] [[]] fragileThrows)
    (joining .empty .idle .pop) wedgedLog
    (joining ⟨[], 1, 1, 0, true, false⟩ .waiting (.failed [fragile])) := by
  refine run_pushed.append ?_
  refine .cons (.tick _ _ _ (.worker _ _ [] [] _ _ _ (.popTakes _ [fragile] _ rfl rfl))) ?_
  refine .cons (.tick _ _ _ (.worker _ _ [] [] _ _ _ (.begin _ fragile []))) ?_
  exact .single (.tick _ _ _ (.worker _ _ [] [] _ _ _ (.throw _ fragile [] rfl)))

theorem fragile_start : TickStart 1 (joining .empty .idle .pop) :=
  ⟨newPool_ready Object 1, newPool_ready (Object × Object) 1, newPool_ready Object 1⟩

/-- `join` waits, the buffer is empty, and the only worker has left its loop. -/
theorem tick_wedges : ∃ ls t, TickStart 1 (joining .empty .idle .pop)
    ∧ deal 1 fragileState.stored = some [[fragile]] ∧ deal 1 (pairs fragileState.stored) = some [[]]
    ∧ Run (TickStep [[fragile]] [[]] fragileThrows) (joining .empty .idle .pop) ls t
    ∧ Wedged t.ticks ∧ ¬ CountsAgree t.ticks := by
  refine ⟨wedgedLog, _, fragile_start, by decide, by decide, run_wedged, ⟨rfl, rfl, ?_⟩, ?_⟩
  · simp [joining, WorkerPc.quiet]
  · simp [CountsAgree, joining, total, WorkerPc.carried, WorkerPc.running]

theorem barrier_iff_fragile :
    BarrierHolds (joining ⟨[[fragile]], 1, 0, 0, true, false⟩ .waiting .pop).ticks
      ∧ ¬ BarrierHolds (joining ⟨[], 1, 1, 0, true, false⟩ .waiting (.failed [fragile])).ticks := by
  have hdeal : deal 1 fragileState.stored = some [[fragile]] := by decide
  have hclsnDeal : deal 1 (pairs fragileState.stored) = some [[]] := by decide
  have hpushed := barrier_iff (by decide) hdeal hclsnDeal fragileThrows fragile_start run_pushed
  have hwedged := barrier_iff (by decide) hdeal hclsnDeal fragileThrows fragile_start run_wedged
  refine ⟨hpushed.1.mpr ⟨rfl, rfl⟩, fun hholds => ?_⟩
  cases (hwedged.1.mp hholds).2

end Nrtb.SimCore
