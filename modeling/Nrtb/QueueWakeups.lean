import Nrtb.QueueThreads

/-!
# Notifications of `abs_queue`

`cpp/common/abs_queue/abs_queue.h`, lines 151–220, with the waiting and the notifications as steps
of their own: a thread in `pop` holds `mylock` between its test and its wait, and only a thread that
waits is notified. `push` and `release` notify without the lock, and `push` does not notify a queue
that is held.

A wake-up is lost when an item can be taken, some thread waits, and nobody is in the middle of
anything. Against that the invariant `Served` counts: as long as somebody waits, there are no more
items in the buffer than threads that will look at it or notify somebody (`serving`), unless the
queue is held or a `release` has still to notify. Every step keeps this but one. `hold` and
`release` write their flag without `mylock`, so that a thread which has found the queue held may not
yet be in its wait when `release` notifies, and is not reached. An insertion has no such gap,
because it needs the lock that the other thread holds from its test to its wait.

* `Served.step`: items that nobody is on the way to are not waited for.
* `no_lost_wakeup`: no run loses a wake-up in which `release` does not notify between a test that
  found the queue held and the wait behind it; `lost_wakeup` is the run in which it does.
* `Step.coarse`: without the notifications these are the threads of `QueueThreads`, so that what is
  conserved there is conserved here (`pops_prefix`).
-/

namespace Nrtb.QueueWakeups

variable {α : Type*}

/-- Where a thread is. -/
inductive Pc (α : Type*) where
  -- not in a call
  | idle
  -- in `push`, about to test `ready`
  | pushTest (item : α)
  -- in `push`, past that test
  | pushCount (item : α)
  -- in `push`, past `in_count++`
  | pushInsert (item : α)
  -- in `push`, past the insertion, about to test `blocked`
  | pushCheck
  -- in `push`, about to call `notify_one`
  | pushNotify
  -- in `pop`, about to take `mylock` and test
  | pop
  -- in `pop`, with `mylock`, about to call `wait`
  | tested
  -- in `signal.wait`
  | waiting
  -- in `release`, before `notify_all`
  | releasing
  -- in `shutdown`, with `mylock`, before `notify_all`
  | shuttingDown
deriving DecidableEq

/-- The thread has `mylock`. -/
def Pc.holds : Pc α → Bool
  | tested => true
  | shuttingDown => true
  | _ => false

inductive Label (α : Type*) where
  | silent
  | inserted (item : α)
  | popped (item : α)
  -- `queue_not_ready` leaves a call
  | threw
  | shutdown
  -- `release` notifies
  | released
deriving DecidableEq

structure State (α : Type*) where
  queue : AbsQueue α
  threads : List (Pc α)

/-- A step of one thread that does not need `mylock`. -/
inductive FreeStep : AbsQueue α → Pc α → AbsQueue α → Pc α → Label α → Prop
  | callPush (q : AbsQueue α) (item : α) : FreeStep q .idle q (.pushTest item) .silent
  | pushThrows (q : AbsQueue α) (item : α) (hready : q.ready = false) :
      FreeStep q (.pushTest item) q .idle .threw
  | pushReady (q : AbsQueue α) (item : α) (hready : q.ready = true) :
      FreeStep q (.pushTest item) q (.pushCount item) .silent
  | count (q : AbsQueue α) (item : α) :
      FreeStep q (.pushCount item) q.countIn (.pushInsert item) .silent
  -- `if (!blocked)`
  | checkHeld (q : AbsQueue α) (hblocked : q.blocked = true) : FreeStep q .pushCheck q .idle .silent
  | checkOpen (q : AbsQueue α) (hblocked : q.blocked = false) :
      FreeStep q .pushCheck q .pushNotify .silent
  | callPop (q : AbsQueue α) : FreeStep q .idle q .pop .silent
  -- `wait` gives `mylock` back
  | wait (q : AbsQueue α) : FreeStep q .tested q .waiting .silent
  -- a thread may wake up without being notified
  | wake (q : AbsQueue α) : FreeStep q .waiting q .pop .silent
  | hold (q : AbsQueue α) : FreeStep q .idle q.hold .idle .silent
  | release (q : AbsQueue α) : FreeStep q .idle q.release .releasing .silent

/-- A step of one thread that takes `mylock`. -/
inductive LockStep : AbsQueue α → Pc α → AbsQueue α → Pc α → Label α → Prop
  | insert (q : AbsQueue α) (item : α) :
      LockStep q (.pushInsert item) (q.insert item) .pushCheck (.inserted item)
  | popTests (q : AbsQueue α) (hwait : q.mustWait = true) : LockStep q .pop q .tested .silent
  | popTakes (q q' : AbsQueue α) (item : α) (hwait : q.mustWait = false)
      (htake : q.take? = some (item, q')) : LockStep q .pop q' .idle (.popped item)
  | popThrows (q : AbsQueue α) (hwait : q.mustWait = false) (hready : q.ready = false) :
      LockStep q .pop q .idle .threw
  | shutdown (q : AbsQueue α) : LockStep q .idle q.shutdown .shuttingDown .shutdown

/-- `notify_one` wakes one of the threads that wait, if there is one. -/
inductive NotifyOne : List (Pc α) → List (Pc α) → Prop
  | none (ts : List (Pc α)) (hnone : .waiting ∉ ts) : NotifyOne ts ts
  | one (pre post : List (Pc α)) : NotifyOne (pre ++ .waiting :: post) (pre ++ .pop :: post)

def Pc.notified : Pc α → Pc α
  | waiting => pop
  | t => t

/-- `notify_all` wakes all of them. -/
def notifyAll (ts : List (Pc α)) : List (Pc α) := ts.map Pc.notified

inductive Step : State α → Label α → State α → Prop
  | free (q q' : AbsQueue α) (pre post : List (Pc α)) (t t' : Pc α) (l : Label α)
      (h : FreeStep q t q' t' l) : Step ⟨q, pre ++ t :: post⟩ l ⟨q', pre ++ t' :: post⟩
  | lock (q q' : AbsQueue α) (pre post : List (Pc α)) (t t' : Pc α) (l : Label α)
      (hfree : ∀ u ∈ pre ++ t :: post, u.holds = false) (h : LockStep q t q' t' l) :
      Step ⟨q, pre ++ t :: post⟩ l ⟨q', pre ++ t' :: post⟩
  | notifyOne (q : AbsQueue α) (pre post ts : List (Pc α))
      (h : NotifyOne (pre ++ .idle :: post) ts) :
      Step ⟨q, pre ++ .pushNotify :: post⟩ .silent ⟨q, ts⟩
  | released (q : AbsQueue α) (pre post : List (Pc α)) :
      Step ⟨q, pre ++ .releasing :: post⟩ .released ⟨q, notifyAll (pre ++ .idle :: post)⟩
  | shutDown (q : AbsQueue α) (pre post : List (Pc α)) :
      Step ⟨q, pre ++ .shuttingDown :: post⟩ .silent ⟨q, notifyAll (pre ++ .idle :: post)⟩

/-! ## Lost wake-ups -/

/-- There is something to take from a queue that is not held, somebody waits for it, and nobody is
in the middle of anything. -/
structure LostWakeup (s : State α) : Prop where
  ready : s.queue.ready = true
  free : s.queue.blocked = false
  nonempty : s.queue.buffer ≠ []
  waiting : .waiting ∈ s.threads
  quiet : ∀ t ∈ s.threads, t = .idle ∨ t = .waiting

/-- When `release` notifies, no thread is between its test and its wait while there is something in
a queue that is not held. -/
def Timely (s : State α) (l : Label α) : Prop :=
  l = .released → .tested ∈ s.threads → s.queue.blocked = false → s.queue.buffer = []

/-- A thread that will look at the buffer, or notify one that waits. -/
def Pc.serving : Pc α → Nat
  | pushCheck => 1
  | pushNotify => 1
  | pop => 1
  | _ => 0

def serving (ts : List (Pc α)) : Nat := (ts.map Pc.serving).sum

@[simp] theorem serving_split (pre post : List (Pc α)) (t : Pc α) :
    serving (pre ++ t :: post) = serving pre + t.serving + serving post := by
  simp [serving, Nat.add_assoc]

/-- Nobody waits, or is about to, for what is there: only a `release` that has still to notify may
have changed what a test found. -/
structure Served (s : State α) : Prop where
  tested : .tested ∈ s.threads → s.queue.ready = true → s.queue.blocked = false →
    s.queue.buffer = [] ∨ .releasing ∈ s.threads
  waiting : .waiting ∈ s.threads → s.queue.ready = true → s.queue.blocked = false →
    .releasing ∉ s.threads → s.queue.buffer.length ≤ serving s.threads

variable {s s' : State α} {l : Label α} {q q' : AbsQueue α} {pre post : List (Pc α)} {t t' : Pc α}

theorem not_lostWakeup (h : Served s) : ¬ LostWakeup s := by
  intro hlost
  have hreleasing : .releasing ∉ s.threads := fun hmem => by
    rcases hlost.quiet _ hmem with h | h <;> cases h
  have hnone : serving s.threads = 0 := by
    rw [serving, List.sum_eq_zero]
    intro n hn
    obtain ⟨t, ht, rfl⟩ := List.mem_map.mp hn
    rcases hlost.quiet t ht with rfl | rfl <;> rfl
  have hle := h.waiting hlost.waiting hlost.ready hlost.free hreleasing
  rw [hnone] at hle
  exact hlost.nonempty (List.eq_nil_of_length_eq_zero (Nat.le_zero.mp hle))

/-! ## What the steps keep -/

theorem Served.free (h : Served ⟨q, pre ++ t :: post⟩) (hstep : FreeStep q t q' t' l) :
    Served ⟨q', pre ++ t' :: post⟩ := by
  obtain ⟨htested, hwaiting⟩ := h
  simp only [List.mem_append, List.mem_cons, serving_split] at htested hwaiting
  cases hstep with
  | wait =>
    -- what the test found is still so, or `release` has not notified yet
    constructor
    · simp only [List.mem_append, List.mem_cons, reduceCtorEq, false_or] at *
      grind
    · intro _ hready hblocked hreleasing
      simp only [List.mem_append, List.mem_cons, reduceCtorEq, false_or, true_or, or_true,
        forall_const] at *
      rcases htested hready hblocked with hempty | hmem
      · simp [hempty]
      · exact absurd hmem hreleasing
  | hold => exact ⟨fun _ _ hblocked => by simp [AbsQueue.hold] at hblocked,
      fun _ _ hblocked => by simp [AbsQueue.hold] at hblocked⟩
  | release => exact ⟨fun _ _ _ => Or.inr (by simp), fun _ _ _ hreleasing => by simp at hreleasing⟩
  | checkHeld hblocked =>
    refine ⟨fun _ _ hfree => ?_, fun _ _ hfree => ?_⟩
    · cases hblocked.symm.trans hfree
    · cases hblocked.symm.trans hfree
  | _ =>
    constructor
    · simp only [List.mem_append, List.mem_cons, reduceCtorEq, false_or, AbsQueue.countIn] at *
      exact htested
    · simp only [List.mem_append, List.mem_cons, reduceCtorEq, false_or, serving_split,
        AbsQueue.countIn, Pc.serving] at *
      intro hmem hready hblocked hreleasing
      have hle := hwaiting (by tauto) hready hblocked hreleasing
      omega

theorem Served.lock (h : Served ⟨q, pre ++ t :: post⟩)
    (hfree : ∀ u ∈ pre ++ t :: post, u.holds = false) (hstep : LockStep q t q' t' l) :
    Served ⟨q', pre ++ t' :: post⟩ := by
  have hnone : .tested ∉ pre ++ t :: post := fun hmem => by cases hfree _ hmem
  obtain ⟨_, hwaiting⟩ := h
  simp only [List.mem_append, List.mem_cons, serving_split] at hwaiting hnone
  cases hstep with
  | insert item =>
    constructor
    · simp only [List.mem_append, List.mem_cons, reduceCtorEq, false_or]
      exact fun hmem => absurd hmem (by tauto)
    · simp only [List.mem_append, List.mem_cons, reduceCtorEq, false_or, serving_split,
        Pc.serving, AbsQueue.insert, List.length_append, List.length_singleton] at *
      intro hmem hready hblocked hreleasing
      have hle := hwaiting hmem hready hblocked hreleasing
      omega
  | popTests hwait =>
    have hempty : q.ready = true → q.blocked = false → q.buffer = [] := fun hready hblocked =>
      List.isEmpty_iff.mp ((AbsQueue.mustWait_eq hready hblocked).symm.trans hwait)
    refine ⟨fun _ hready hblocked => Or.inl (hempty hready hblocked), fun _ hready hblocked _ => ?_⟩
    show q.buffer.length ≤ _
    rw [hempty hready hblocked]
    exact Nat.zero_le _
  | popTakes _ item _ htake =>
    obtain ⟨hbuffer, hqueue⟩ := AbsQueue.take?_eq_some htake
    constructor
    · simp only [List.mem_append, List.mem_cons, reduceCtorEq, false_or]
      exact fun hmem => absurd hmem (by tauto)
    · rw [hqueue]
      simp only [List.mem_append, List.mem_cons, reduceCtorEq, false_or, serving_split,
        Pc.serving, hbuffer, List.length_cons] at *
      intro hmem hready hblocked hreleasing
      have hle := hwaiting hmem hready hblocked hreleasing
      omega
  | popThrows _ hready =>
    refine ⟨fun _ hready' => ?_, fun _ hready' => ?_⟩
    · cases hready.symm.trans hready'
    · cases hready.symm.trans hready'
  | shutdown => exact ⟨fun _ hready => by simp [AbsQueue.shutdown] at hready,
      fun _ hready => by simp [AbsQueue.shutdown] at hready⟩

/-- Who neither waits nor is woken up is where he was. -/
theorem NotifyOne.mem_iff {ts ts' : List (Pc α)} (h : NotifyOne ts ts') {u : Pc α}
    (hwaiting : u ≠ .waiting) (hpop : u ≠ .pop) : u ∈ ts' ↔ u ∈ ts := by
  cases h with
  | none => rfl
  | one pre post => simp [hwaiting, hpop]

theorem mem_notifyAll {ts : List (Pc α)} {u : Pc α} (hpop : u ≠ .pop) :
    u ∈ notifyAll ts ↔ u ∈ ts ∧ u ≠ .waiting := by
  unfold notifyAll
  rw [List.mem_map]
  constructor
  · rintro ⟨t, ht, rfl⟩
    cases t with
    | waiting => exact absurd rfl hpop
    | _ => exact ⟨ht, by simp [Pc.notified]⟩
  · rintro ⟨hu, hne⟩
    refine ⟨u, hu, ?_⟩
    cases u with
    | waiting => exact absurd rfl hne
    | _ => rfl

/-- Nobody waits behind `notify_all`. -/
theorem not_waiting_notifyAll (ts : List (Pc α)) : .waiting ∉ notifyAll ts := fun hmem =>
  ((mem_notifyAll (by simp)).mp hmem).2 rfl

theorem Served.step (h : Served s) (hstep : Step s l s') (htimely : Timely s l) : Served s' := by
  cases hstep with
  | free q q' pre post t t' l hthread => exact h.free hthread
  | lock q q' pre post t t' l hfree hthread => exact h.lock hfree hthread
  | notifyOne q pre post ts hone =>
    obtain ⟨htested, hwaiting⟩ := h
    simp only [List.mem_append, List.mem_cons, serving_split, reduceCtorEq, false_or,
      Pc.serving] at htested hwaiting
    constructor
    · rw [hone.mem_iff (u := .tested) (by simp) (by simp),
        hone.mem_iff (u := .releasing) (by simp) (by simp)]
      simpa using htested
    · rw [hone.mem_iff (u := .releasing) (by simp) (by simp)]
      generalize hts : pre ++ .idle :: post = ts' at hone
      intro hmem hready hblocked hreleasing
      cases hone with
      | none _ hnone => exact absurd hmem hnone
      | one pre' post' =>
        have hserving : serving pre + serving post = serving pre' + serving post' := by
          have := congrArg serving hts
          simpa [Pc.serving] using this
        have hwas : .waiting ∈ pre ∨ .waiting ∈ post := by
          have hin : Pc.waiting ∈ pre ++ .idle :: post := by simp [hts]
          simpa using hin
        have hnot : ¬ (.releasing ∈ pre ∨ .releasing ∈ post) := by
          have hout : Pc.releasing ∉ pre ++ .idle :: post := by simpa [hts] using hreleasing
          simpa using hout
        have hle := hwaiting hwas hready hblocked hnot
        simp only [serving_split, Pc.serving]
        omega
  | released q pre post =>
    refine ⟨fun hmem hready hblocked => Or.inl ?_,
      fun hmem => absurd hmem (not_waiting_notifyAll _)⟩
    refine htimely rfl ?_ hblocked
    have hin := ((mem_notifyAll (by simp)).mp hmem).1
    simpa using hin
  | shutDown q pre post =>
    refine ⟨fun hmem hready hblocked => ?_, fun hmem => absurd hmem (not_waiting_notifyAll _)⟩
    have hin := ((mem_notifyAll (by simp)).mp hmem).1
    rcases h.tested (by simpa using hin) hready hblocked with hempty | hreleasing
    · exact Or.inl hempty
    · exact Or.inr ((mem_notifyAll (by simp)).mpr ⟨by simpa using hreleasing, by simp⟩)

/-- In a run in which every `release` notifies timely no wake-up is lost, whatever else the threads
do: by induction on the run every state is `Served`, and a served queue has an item for nobody or
somebody on the way to it. -/
theorem no_lost_wakeup {threads : List (Pc α)} {ls : List (Label α)}
    (hidle : ∀ t ∈ threads, t = .idle)
    (h : Run (fun s l s' => Step s l s' ∧ Timely s l) ⟨.empty, threads⟩ ls s) :
    ¬ LostWakeup s := by
  refine not_lostWakeup (h.invariant (I := Served) ⟨fun hmem => ?_, fun hmem => ?_⟩ ?_)
  · cases hidle _ hmem
  · cases hidle _ hmem
  · exact fun s l s' hserved hstep => hserved.step hstep.1 hstep.2

/-- The steps of a queue that is held while 7 is pushed, up to the test of another thread. -/
def heldLog : List (Label Nat) :=
  [.silent, .silent, .silent, .silent, .inserted 7, .silent, .silent, .silent]

theorem run_held :
    Run (fun s l s' => Step s l s' ∧ Timely s l) ⟨.empty, [.idle, .idle]⟩ heldLog
      ⟨⟨[7], 1, 0, 0, true, true⟩, [.tested, .idle]⟩ := by
  have hsilent : ∀ s : State Nat, Timely s .silent := fun _ h => by cases h
  refine .cons ⟨.free _ _ [.idle] [] _ _ _ (.hold _), hsilent _⟩ ?_
  refine .cons ⟨.free _ _ [.idle] [] _ _ _ (.callPush _ 7), hsilent _⟩ ?_
  refine .cons ⟨.free _ _ [.idle] [] _ _ _ (.pushReady _ 7 rfl), hsilent _⟩ ?_
  refine .cons ⟨.free _ _ [.idle] [] _ _ _ (.count _ 7), hsilent _⟩ ?_
  refine .cons ⟨.lock _ _ [.idle] [] _ _ _ (by decide) (.insert _ 7), fun h => by cases h⟩ ?_
  refine .cons ⟨.free _ _ [.idle] [] _ _ _ (.checkHeld _ rfl), hsilent _⟩ ?_
  refine .cons ⟨.free _ _ [] [.idle] _ _ _ (.callPop _), hsilent _⟩ ?_
  exact .single ⟨.lock _ _ [] [.idle] _ _ _ (by decide) (.popTests _ rfl), hsilent _⟩

/-- `release` opens the queue and notifies before the thread waits. -/
theorem lost_wakeup :
    ∃ (ls : List (Label Nat)) (s : State Nat),
      Run Step ⟨.empty, [.idle, .idle]⟩ ls s ∧ LostWakeup s := by
  refine ⟨heldLog ++ [.silent, .released, .silent],
    ⟨⟨[7], 1, 0, 0, true, false⟩, [.waiting, .idle]⟩, ?_, ⟨rfl, rfl, by simp, by simp, by simp⟩⟩
  refine (run_held.mono fun _ _ _ h => h.1).append ?_
  refine .cons (.free _ _ [.tested] [] _ _ _ (.release _)) ?_
  refine .cons (.released _ [.tested] []) ?_
  exact .single (.free _ _ [] [.idle] _ _ _ (.wait _))

/-- The thread waits before `release` notifies. -/
theorem no_lost_wakeup_timely :
    ¬ LostWakeup (⟨⟨[7], 1, 0, 0, true, false⟩, [.pop, .idle]⟩ : State Nat) := by
  have hidle : ∀ t ∈ [Pc.idle, Pc.idle], t = (.idle : Pc Nat) := by simp
  have hsilent : ∀ s : State Nat, Timely s .silent := fun _ h => by cases h
  have hrun : Run (fun s l s' => Step s l s' ∧ Timely s l) ⟨.empty, [.idle, .idle]⟩
      (heldLog ++ [.silent, .silent, .released])
      ⟨⟨[7], 1, 0, 0, true, false⟩, [.pop, .idle]⟩ := by
    refine run_held.append ?_
    refine .cons ⟨.free _ _ [.tested] [] _ _ _ (.release _), hsilent _⟩ ?_
    refine .cons ⟨.free _ _ [] [.releasing] _ _ _ (.wait _), hsilent _⟩ ?_
    refine .single ⟨.released _ [.waiting] [], fun _ hmem => ?_⟩
    simp at hmem
  exact no_lost_wakeup hidle hrun

/-! ## Without the notifications -/

/-- Where the thread is for `QueueThreads`, which has no notifications: at its test, a thread that
has to wait waits already. -/
def Pc.coarse : Pc α → QueueThreads.Pc α
  | idle => .idle
  | pushTest item => .pushTest item
  | pushCount item => .pushCount item
  | pushInsert item => .pushInsert item
  | pushCheck => .pushNotify
  | pushNotify => .pushNotify
  | pop => .pop
  | tested => .waiting
  | waiting => .waiting
  | releasing => .releasing
  | shuttingDown => .idle

def Label.coarse : Label α → QueueThreads.Label α
  | silent => .silent
  | inserted item => .inserted item
  | popped item => .popped item
  | threw => .threw
  | shutdown => .shutdown
  | released => .silent

def State.coarse (s : State α) : QueueThreads.State α := ⟨s.queue, s.threads.map Pc.coarse⟩

def visible : QueueThreads.Label α → Bool
  | .silent => false
  | _ => true

/-- Silent steps that lead from one state to another. -/
def Quiet (s s' : QueueThreads.State α) : Prop :=
  ∃ ms, Run QueueThreads.Step s ms s' ∧ ms.filter visible = []

theorem Quiet.refl (s : QueueThreads.State α) : Quiet s s := ⟨[], .nil, rfl⟩

theorem Quiet.cons {s u v : QueueThreads.State α} (h : QueueThreads.Step s .silent u)
    (h' : Quiet u v) : Quiet s v := by
  obtain ⟨ms, hrun, hms⟩ := h'
  exact ⟨.silent :: ms, .cons h hrun, hms⟩

/-- Threads wake up one after the other. -/
theorem quiet_notifyAll (q : AbsQueue α) (ps : List (QueueThreads.Pc α)) (ts : List (Pc α)) :
    Quiet ⟨q, ps ++ ts.map Pc.coarse⟩ ⟨q, ps ++ (notifyAll ts).map Pc.coarse⟩ := by
  induction ts generalizing ps with
  | nil => exact .refl _
  | cons t ts ih =>
    have hrest := ih (ps ++ [t.notified.coarse])
    rw [List.append_assoc, List.append_assoc] at hrest
    cases t with
    | waiting => exact .cons (.thread q q ps _ _ _ _ (.wake q)) hrest
    | _ => exact hrest

theorem NotifyOne.quiet {ts ts' : List (Pc α)} (h : NotifyOne ts ts') (q : AbsQueue α) :
    Quiet ⟨q, ts.map Pc.coarse⟩ ⟨q, ts'.map Pc.coarse⟩ := by
  cases h with
  | none => exact .refl _
  | one pre post =>
    rw [List.map_append, List.map_append]
    exact .cons (.thread q q _ _ _ _ _ (.wake q)) (.refl _)

/-- A step is one of `QueueThreads`, with some silent ones. -/
theorem Step.coarse (h : Step s l s') :
    ∃ ms, Run QueueThreads.Step s.coarse ms s'.coarse
      ∧ ms.filter visible = [l.coarse].filter visible := by
  have hquiet : Quiet s.coarse s'.coarse → l.coarse = .silent →
      ∃ ms, Run QueueThreads.Step s.coarse ms s'.coarse
        ∧ ms.filter visible = [l.coarse].filter visible := by
    rintro ⟨ms, hrun, hms⟩ hl
    exact ⟨ms, hrun, by rw [hms, hl]; rfl⟩
  cases h with
  | free q q' pre post t t' l hthread =>
    by_cases hstutter : q' = q ∧ t'.coarse = t.coarse
    · have hl : l.coarse = .silent := by
        cases hthread <;> simp_all [Label.coarse, Pc.coarse]
      refine hquiet ?_ hl
      obtain ⟨rfl, hsame⟩ := hstutter
      simp only [State.coarse, List.map_append, List.map_cons, hsame]
      exact .refl _
    · refine ⟨[l.coarse], .single ?_, rfl⟩
      simp only [State.coarse, List.map_append, List.map_cons]
      refine .thread q q' _ _ _ _ _ ?_
      cases hthread with
      | callPush item => exact .callPush q item
      | pushThrows item hready => exact .pushThrows q item hready
      | pushReady item hready => exact .pushReady q item hready
      | count item => exact .count q item
      | checkHeld => exact .notify q
      | checkOpen => exact absurd ⟨rfl, rfl⟩ hstutter
      | callPop => exact .callPop q
      | wait => exact absurd ⟨rfl, rfl⟩ hstutter
      | wake => exact .wake q
      | hold => exact .hold q
      | release => exact .release q
  | lock q q' pre post t t' l hfree hthread =>
    refine ⟨[l.coarse], .single ?_, rfl⟩
    simp only [State.coarse, List.map_append, List.map_cons]
    refine .thread q q' _ _ _ _ _ ?_
    cases hthread with
    | insert item => exact .insert q item
    | popTests hwait => exact .popWaits q hwait
    | popTakes q' item hwait htake => exact .popTakes q q' item hwait htake
    | popThrows hwait hready => exact .popThrows q hwait hready
    | shutdown => exact .shutdown q
  | notifyOne q pre post ts hone =>
    refine hquiet ?_ rfl
    refine .cons (u := ⟨q, (pre ++ .idle :: post).map Pc.coarse⟩) ?_ (hone.quiet q)
    simp only [State.coarse, List.map_append, List.map_cons]
    exact .thread q q _ _ _ _ _ (.notify q)
  | released q pre post =>
    refine hquiet ?_ rfl
    refine .cons (u := ⟨q, (pre ++ .idle :: post).map Pc.coarse⟩) ?_ (quiet_notifyAll q [] _)
    simp only [State.coarse, List.map_append, List.map_cons]
    exact .thread q q _ _ _ _ _ (.released q)
  | shutDown q pre post =>
    refine hquiet ?_ rfl
    have hsame : (pre ++ .idle :: post).map Pc.coarse
        = (pre ++ Pc.shuttingDown :: post).map Pc.coarse := by
      simp [Pc.coarse]
    have hall := quiet_notifyAll q [] (pre ++ .idle :: post)
    rwa [List.nil_append, List.nil_append, hsame] at hall

/-- With the notifications as steps of their own a queue does nothing that it does not do without
them. -/
theorem run_coarse {ls : List (Label α)} (h : Run Step s ls s') :
    ∃ ms, Run QueueThreads.Step s.coarse ms s'.coarse
      ∧ ms.filter visible = (ls.map Label.coarse).filter visible := by
  induction h with
  | nil => exact ⟨[], .nil, rfl⟩
  | snoc _ hlast ih =>
    obtain ⟨ms, hrun, hms⟩ := ih
    obtain ⟨ns, hrun', hns⟩ := hlast.coarse
    refine ⟨ms ++ ns, hrun.append hrun', ?_⟩
    rw [List.filter_append, hms, hns, List.map_append, List.filter_append]
    rfl

theorem insertions_visible (ms : List (QueueThreads.Label α)) :
    QueueThreads.insertions (ms.filter visible) = QueueThreads.insertions ms := by
  unfold QueueThreads.insertions
  rw [List.filterMap_filter]
  refine List.filterMap_congr fun m _ => ?_
  cases m <;> rfl

theorem pops_visible (ms : List (QueueThreads.Label α)) :
    QueueThreads.pops (ms.filter visible) = QueueThreads.pops ms := by
  unfold QueueThreads.pops
  rw [List.filterMap_filter]
  refine List.filterMap_congr fun m _ => ?_
  cases m <;> rfl

/-- A lost wake-up delays items, but loses, duplicates and reorders none. -/
theorem pops_prefix {threads : List (Pc α)} {ls : List (Label α)}
    (hidle : ∀ t ∈ threads, t = .idle) (h : Run Step ⟨.empty, threads⟩ ls s) :
    QueueThreads.pops (ls.map Label.coarse) <+: QueueThreads.insertions (ls.map Label.coarse) := by
  obtain ⟨ms, hrun, hms⟩ := run_coarse h
  have hcoarse : ∀ t ∈ threads.map Pc.coarse, t = .idle := by
    intro t ht
    obtain ⟨u, hu, rfl⟩ := List.mem_map.mp ht
    rw [hidle u hu]
    rfl
  have hprefix := (QueueThreads.conserved_of_run hcoarse hrun).1.pops_first
  rwa [← pops_visible ms, ← insertions_visible ms, hms, pops_visible, insertions_visible] at hprefix

end Nrtb.QueueWakeups
