import Nrtb.AbsQueue
import Nrtb.Lib.TransitionSystem
import Mathlib.Algebra.BigOperators.Group.List.Basic

/-!
# Threads on one `abs_queue`

`cpp/common/abs_queue/abs_queue.h`, lines 151–220. Any number of threads call `push`, `pop`, `hold`,
`release` and `shutdown` in any order. A step is one atomic operation or one critical section of
`mylock`; a waiting thread may wake up at any time, notified or not.

What can be said of such a queue is said of its log. The insertions and the pops are labels, each in
the critical section in which it happens, so that conservation is a relation between two lists and
needs no ghost state: what has been popped is a prefix of what has been inserted, and the buffer is
the rest of it, until a shutdown throws the buffer away. The counters are less exact than that. A
`push` counts its item before it inserts it, so that `in_count` is ahead by the pushes under way.

* `Flow.step`: what is in the buffer, from the insertions and the pops of the log.
* `Counted.step`: what the counters say, with the pushes under way added in.
* `pops_of_shutdown`: behind a shutdown nothing is popped, although a push that has passed its test
  may still insert.
* `queue_conserves`: the items come out as a prefix of what went in, until a shutdown the counters
  agree with the buffer, and after it nothing comes out. The log writer, the output writer and the
  queues of a bot are instances of `Flow`.
-/

namespace Nrtb.QueueThreads

variable {α : Type*}

/-- Where a thread is. -/
inductive Pc (α : Type*) where
  -- not in a call
  | idle
  -- in `push`, about to test `ready`
  | pushTest (item : α)
  -- in `push`, past that test
  | pushCount (item : α)
  -- in `push`, past `in_count++`
  | pushInsert (item : α)
  -- in `push`, past the insertion
  | pushNotify
  -- in `pop`, about to take `mylock` and test
  | pop
  -- in `signal.wait`
  | waiting
  -- in `release`, before `notify_all`
  | releasing

inductive Label (α : Type*) where
  | silent
  | inserted (item : α)
  | popped (item : α)
  -- `queue_not_ready` leaves a call
  | threw
  | shutdown

structure State (α : Type*) where
  queue : AbsQueue α
  threads : List (Pc α)

/-- A step of one thread. -/
inductive ThreadStep : AbsQueue α → Pc α → Label α → AbsQueue α → Pc α → Prop
  | callPush (q : AbsQueue α) (item : α) : ThreadStep q .idle .silent q (.pushTest item)
  | pushThrows (q : AbsQueue α) (item : α) (hready : q.ready = false) :
      ThreadStep q (.pushTest item) .threw q .idle
  | pushReady (q : AbsQueue α) (item : α) (hready : q.ready = true) :
      ThreadStep q (.pushTest item) .silent q (.pushCount item)
  | count (q : AbsQueue α) (item : α) :
      ThreadStep q (.pushCount item) .silent q.countIn (.pushInsert item)
  | insert (q : AbsQueue α) (item : α) :
      ThreadStep q (.pushInsert item) (.inserted item) (q.insert item) .pushNotify
  -- `if (!blocked) signal.notify_one()`
  | notify (q : AbsQueue α) : ThreadStep q .pushNotify .silent q .idle
  | callPop (q : AbsQueue α) : ThreadStep q .idle .silent q .pop
  | popWaits (q : AbsQueue α) (hwait : q.mustWait = true) :
      ThreadStep q .pop .silent q .waiting
  | popTakes (q q' : AbsQueue α) (item : α) (hwait : q.mustWait = false)
      (htake : q.take? = some (item, q')) : ThreadStep q .pop (.popped item) q' .idle
  | popThrows (q : AbsQueue α) (hwait : q.mustWait = false) (hready : q.ready = false) :
      ThreadStep q .pop .threw q .idle
  | wake (q : AbsQueue α) : ThreadStep q .waiting .silent q .pop
  | hold (q : AbsQueue α) : ThreadStep q .idle .silent q.hold .idle
  | release (q : AbsQueue α) : ThreadStep q .idle .silent q.release .releasing
  | released (q : AbsQueue α) : ThreadStep q .releasing .silent q .idle
  | shutdown (q : AbsQueue α) : ThreadStep q .idle .shutdown q.shutdown .idle

/-- The steps of a push that is ready, up to the insertion. -/
inductive PushStep : AbsQueue α → Pc α → Label α → AbsQueue α → Pc α → Prop
  | ready (q : AbsQueue α) (item : α) (hready : q.ready = true) :
      PushStep q (.pushTest item) .silent q (.pushCount item)
  | count (q : AbsQueue α) (item : α) :
      PushStep q (.pushCount item) .silent q.countIn (.pushInsert item)
  | insert (q : AbsQueue α) (item : α) :
      PushStep q (.pushInsert item) (.inserted item) (q.insert item) .pushNotify

theorem PushStep.thread {q q' : AbsQueue α} {t t' : Pc α} {l : Label α}
    (h : PushStep q t l q' t') : ThreadStep q t l q' t' := by
  cases h with
  | ready item hready => exact .pushReady q item hready
  | count item => exact .count q item
  | insert item => exact .insert q item

inductive Step : State α → Label α → State α → Prop
  | thread (q q' : AbsQueue α) (pre post : List (Pc α)) (t t' : Pc α) (l : Label α)
      (h : ThreadStep q t l q' t') : Step ⟨q, pre ++ t :: post⟩ l ⟨q', pre ++ t' :: post⟩

/-! ## What is conserved -/

/-- The insertions of a log, in their order. -/
def insertions (ls : List (Label α)) : List α :=
  ls.filterMap fun
    | .inserted item => some item
    | _ => none

/-- The items that `pop` returned, in the order of the critical sections. -/
def pops (ls : List (Label α)) : List α :=
  ls.filterMap fun
    | .popped item => some item
    | _ => none

def Label.isShutdown : Label α → Bool
  | shutdown => true
  | _ => false

/-- The push has counted its item but not inserted it. -/
def Pc.inserting : Pc α → Nat
  | pushInsert _ => 1
  | _ => 0

/-- The pushes that have counted but not inserted. -/
def inserting (ts : List (Pc α)) : Nat := (ts.map Pc.inserting).sum

@[simp] theorem inserting_split (pre post : List (Pc α)) (t : Pc α) :
    inserting (pre ++ t :: post) = inserting pre + t.inserting + inserting post := by
  simp [inserting, Nat.add_assoc]

/-- What the log says of a queue: whether it has been shut down, and what is in its buffer. -/
structure Flow (ls : List (Label α)) (q : AbsQueue α) : Prop where
  ready : q.ready = !ls.any Label.isShutdown
  pops_first : pops ls <+: insertions ls
  order : q.ready = true → insertions ls = pops ls ++ q.buffer

@[simp] theorem insertions_append (ls ms : List (Label α)) :
    insertions (ls ++ ms) = insertions ls ++ insertions ms :=
  List.filterMap_append

@[simp] theorem pops_append (ls ms : List (Label α)) : pops (ls ++ ms) = pops ls ++ pops ms :=
  List.filterMap_append

theorem Flow.empty : Flow [] (AbsQueue.empty : AbsQueue α) :=
  ⟨rfl, List.prefix_rfl, fun _ => rfl⟩

variable {ls : List (Label α)} {l : Label α} {q q' : AbsQueue α} {t t' : Pc α} {item : α}
  {s s' : State α}

/-- A step that inserts nothing, pops nothing and leaves the buffer and `ready` alone. -/
theorem Flow.still (h : Flow ls q) (hins : insertions [l] = []) (hpops : pops [l] = [])
    (hshutdown : l.isShutdown = false) (hready : q'.ready = q.ready)
    (hbuffer : q'.buffer = q.buffer) : Flow (ls ++ [l]) q' where
  ready := by simp [hready, h.ready, hshutdown]
  pops_first := by simpa [hins, hpops] using h.pops_first
  order := by simpa [hins, hpops, hready, hbuffer] using h.order

/-- The insertion of a push, which may come after the shutdown. -/
theorem Flow.insert (h : Flow ls q) (item : α) : Flow (ls ++ [.inserted item]) (q.insert item) := by
  have hpops : pops (ls ++ [.inserted item]) = pops ls := by simp [pops]
  constructor
  · simp [AbsQueue.insert, h.ready, Label.isShutdown]
  · rw [hpops, insertions_append]
    exact h.pops_first.trans (List.prefix_append _ _)
  · intro hready
    rw [hpops, insertions_append, h.order hready]
    exact List.append_assoc _ _ _

/-- A pop takes the oldest of the items inserted and not yet popped. -/
theorem Flow.pop (h : Flow ls q) (htake : q.take? = some (item, q')) :
    Flow (ls ++ [.popped item]) q' := by
  have hready := AbsQueue.ready_of_take? htake
  obtain ⟨hbuffer, hqueue⟩ := AbsQueue.take?_eq_some htake
  have horder : insertions ls = pops ls ++ item :: q'.buffer := by
    rw [h.order hready, hbuffer]
  have hins : insertions (ls ++ [.popped item]) = insertions ls := by simp [insertions]
  have hpops : pops (ls ++ [.popped item]) = pops ls ++ [item] := by simp [pops]
  have hready' : q'.ready = q.ready := by rw [hqueue]
  constructor
  · simp [hready', h.ready, Label.isShutdown]
  · rw [hins, hpops, horder]
    exact ⟨q'.buffer, by simp⟩
  · intro _
    rw [hins, hpops, horder]
    simp

theorem Flow.shutdown (h : Flow ls q) : Flow (ls ++ [.shutdown]) q.shutdown := by
  constructor
  · simp [AbsQueue.shutdown, Label.isShutdown]
  · simpa [pops, insertions] using h.pops_first
  · exact nofun

theorem Flow.step (h : Flow ls q) (hstep : ThreadStep q t l q' t') : Flow (ls ++ [l]) q' := by
  cases hstep with
  | insert item => exact h.insert item
  | popTakes _ item _ htake => exact h.pop htake
  | shutdown => exact h.shutdown
  | _ => exact h.still rfl rfl rfl rfl rfl

/-- Until a shutdown the counters agree with the buffer and the pushes under way. -/
def Counted (s : State α) : Prop :=
  s.queue.ready = true →
    s.queue.inCount = s.queue.outCount + s.queue.buffer.length + inserting s.threads

theorem Counted.step (h : Counted s) (hstep : Step s l s') : Counted s' := by
  obtain ⟨q, q', pre, post, t, t', l, hthread⟩ := hstep
  intro hready
  cases hthread with
  | count item =>
    have hcounted := h hready
    simp only [inserting_split, AbsQueue.countIn, Pc.inserting] at hcounted ⊢
    omega
  | insert item =>
    have hcounted := h hready
    simp only [inserting_split, AbsQueue.insert, Pc.inserting, List.length_append,
      List.length_singleton] at hcounted ⊢
    omega
  | popTakes _ item _ htake =>
    obtain ⟨hbuffer, hqueue⟩ := AbsQueue.take?_eq_some htake
    have hcounted := h (AbsQueue.ready_of_take? htake)
    rw [hqueue]
    simp only [inserting_split, hbuffer, Pc.inserting, List.length_cons] at hcounted ⊢
    omega
  | shutdown => cases hready
  | _ =>
    have hcounted := h hready
    simpa [Pc.inserting, AbsQueue.hold, AbsQueue.release] using hcounted

theorem Step.flow (h : Flow ls s.queue) (hstep : Step s l s') : Flow (ls ++ [l]) s'.queue := by
  obtain ⟨q, q', pre, post, t, t', l, hthread⟩ := hstep
  exact h.step hthread

theorem inserting_of_idle {threads : List (Pc α)} (hidle : ∀ t ∈ threads, t = .idle) :
    inserting threads = 0 := by
  rw [inserting, List.sum_eq_zero]
  intro n hn
  obtain ⟨t, ht, rfl⟩ := List.mem_map.mp hn
  rw [hidle t ht]
  rfl

/-- At any moment of a run that begins with an empty queue and every thread outside its methods. -/
theorem conserved_of_run {threads : List (Pc α)} (hidle : ∀ t ∈ threads, t = .idle)
    (h : Run Step ⟨.empty, threads⟩ ls s) : Flow ls s.queue ∧ Counted s := by
  refine h.history (P := fun ls s => Flow ls s.queue ∧ Counted s) ⟨.empty, fun _ => ?_⟩ ?_
  · simp [AbsQueue.empty, inserting_of_idle hidle]
  · exact fun ls s l s' h hstep => ⟨Step.flow h.1 hstep, h.2.step hstep⟩

/-- Nothing is popped from a queue that has been shut down. -/
theorem pops_of_shutdown (hready : s.queue.ready = false) (h : Run Step s ls s') :
    pops ls = [] := by
  have hboth : pops ls = [] ∧ s'.queue.ready = false := by
    refine h.history (P := fun ls s => pops ls = [] ∧ s.queue.ready = false) ⟨rfl, hready⟩ ?_
    rintro ls s l s' ⟨hpops, hready⟩ ⟨q, q', pre, post, t, t', l, hthread⟩
    rw [pops_append, hpops]
    cases hthread with
    | popTakes _ item _ htake =>
      cases hready.symm.trans (AbsQueue.ready_of_take? htake)
    | shutdown => exact ⟨rfl, rfl⟩
    | _ => exact ⟨rfl, hready⟩
  exact hboth.1

/-- `abs_queue` loses, duplicates and reorders nothing, whatever the threads call and however they
are scheduled. What has been popped is a prefix of what has been inserted; without a shutdown
`in_count` is what has been popped, what is in the buffer and what is being pushed; and behind a
shutdown nothing is popped. By induction on the run, with `Flow` for the items and `Counted` for the
counters. -/
theorem queue_conserves {threads : List (Pc α)} (hidle : ∀ t ∈ threads, t = .idle)
    (h : Run Step ⟨.empty, threads⟩ ls s) :
    pops ls <+: insertions ls
      ∧ (ls.any Label.isShutdown = false → s.queue.inCount
        = s.queue.outCount + s.queue.buffer.length + inserting s.threads)
      ∧ ∀ pre post, ls = pre ++ .shutdown :: post → pops post = [] := by
  obtain ⟨hflow, hcounted⟩ := conserved_of_run hidle h
  refine ⟨hflow.pops_first, ?_, ?_⟩
  · intro hnone
    exact hcounted (by rw [hflow.ready, hnone]; rfl)
  · rintro pre post rfl
    obtain ⟨t, t', _, ⟨q, q', _, _, _, _, _, hthread⟩, hpost⟩ := h.split
    cases hthread
    exact pops_of_shutdown rfl hpost

/-- One thread pushes 7 and 8, the other pops 7 and shuts down while 8 is on its way in. -/
def racedLog : List (Label Nat) :=
  [.silent, .silent, .silent, .inserted 7, .silent, .silent, .silent, .silent, .popped 7, .shutdown,
    .silent, .inserted 8]

theorem run_raced :
    Run Step ⟨.empty, [.idle, .idle]⟩ racedLog
      ⟨⟨[8], 2, 1, 0, false, false⟩, [.pushNotify, .idle]⟩ := by
  refine .cons (.thread _ _ [] [.idle] _ _ _ (.callPush _ 7)) ?_
  refine .cons (.thread _ _ [] [.idle] _ _ _ (.pushReady _ 7 rfl)) ?_
  refine .cons (.thread _ _ [] [.idle] _ _ _ (.count _ 7)) ?_
  refine .cons (.thread _ _ [] [.idle] _ _ _ (.insert _ 7)) ?_
  refine .cons (.thread _ _ [] [.idle] _ _ _ (.notify _)) ?_
  refine .cons (.thread _ _ [.idle] [] _ _ _ (.callPop _)) ?_
  refine .cons (.thread _ _ [] [.pop] _ _ _ (.callPush _ 8)) ?_
  refine .cons (.thread _ _ [] [.pop] _ _ _ (.pushReady _ 8 rfl)) ?_
  refine .cons (.thread _ _ [.pushCount 8] [] _ _ _ (.popTakes _ _ 7 rfl rfl)) ?_
  refine .cons (.thread _ _ [.pushCount 8] [] _ _ _ (.shutdown _)) ?_
  refine .cons (.thread _ _ [] [.idle] _ _ _ (.count _ 8)) ?_
  exact .single (.thread _ _ [] [.idle] _ _ _ (.insert _ 8))

theorem queue_conserves_raced :
    pops racedLog <+: insertions racedLog ∧ pops racedLog = [7] ∧ insertions racedLog = [7, 8]
      ∧ ∀ pre post, racedLog = pre ++ .shutdown :: post → pops post = [] := by
  have hidle : ∀ t ∈ [Pc.idle, Pc.idle], t = (.idle : Pc Nat) := by simp
  obtain ⟨hpre, _, hafter⟩ := queue_conserves hidle run_raced
  exact ⟨hpre, rfl, rfl, hafter⟩

end Nrtb.QueueThreads
