import Nrtb.AbsQueue
import Nrtb.Lib.TransitionSystem
import Mathlib.Algebra.BigOperators.Group.List.Basic
import Mathlib.Tactic.Linarith

/-!
# A phase of work packets

The use that `sim_core` makes of an `abs_queue`: one thread pushes packets and joins, a pool of
workers pops packets, calls a method on every item of a packet, pushes the items whose answer asks
for it onto a second queue, and reports the packet done. The steps are the atomic operations and
critical sections of `abs_queue`; wake-ups may also be spurious, and a call may throw, which ends
its worker.

The model is generic in the items, and in what the answers ask for: `tick` and `apply` record
nothing, `check_collision` records the pairs that collide. The invariant `Accounts` is a balance
sheet. Every packet is with the pushing thread, in the buffer, with a worker or completed, and every
item is in a packet that is still to be worked off, with a worker or finished; the counters of the
queue are sums over these places. A step of a worker moves one thing from one place to the next
(`Moves`), so that the sums need to be looked at once, and not for every step.

* `WorkerStep.moves`: what a step of a worker moves.
* `Accounts.step`: every item is in exactly one place, and so is every packet.
* `Accounts.returned`: when `join` has returned, every item was worked on once and the second queue
  holds what was recorded. The equality of two `int` counters is enough for that, because there are
  fewer than `2 ^ 32` packets.
-/

namespace Nrtb.WorkPhase

variable {ι : Type*}

/-! ## The threads -/

/-- The thread that pushes the packets and joins. -/
inductive MainPc (ι : Type*) where
  -- has not come to this phase
  | idle
  -- in the loop, with these packets to push
  | push (rest : List (List ι))
  -- in `push`, past `in_count++`
  | insert (p : List ι) (rest : List (List ι))
  -- in `push`, before `notify_one`
  | notify (rest : List (List ι))
  -- in `join`, about to test under `joinlock`
  | join
  -- in `sigdone.wait`
  | waiting
  | returned

/-- A worker. -/
inductive WorkerPc (ι : Type*) where
  -- in `pop`, about to test under `mylock`
  | pop
  -- in `signal.wait`
  | waiting
  -- in the loop over a packet, with these items to go
  | work (todo : List ι)
  -- inside the method of an item
  | call (i : ι) (todo : List ι)
  -- about to push the item onto the second queue
  | found (i : ι) (todo : List ι)
  -- in that `push`, past `in_count++`
  | foundInsert (i : ι) (todo : List ι)
  -- in that `push`, before `notify_one`
  | foundNotify (todo : List ι)
  -- in `task_done`, with what has been loaded of `completed` and `in_count`
  | comparing (c n : Option Nat)
  -- in `task_done`, about to notify under `joinlock`
  | notifying
  -- left the loop on `queue_not_ready`
  | exited
  -- left the loop on an exception while it held these items
  | failed (todo : List ι)

/-- What the threads share. -/
structure Shared (ι : Type*) where
  main : MainPc ι
  queue : AbsQueue (List ι)
  -- the second queue
  out : AbsQueue ι

structure Phase (ι : Type*) where
  shared : Shared ι
  workers : List (WorkerPc ι)

inductive Label (ι : Type*) where
  | start
  | silent
  | spurious
  -- the method of an item is called
  | begin (i : ι)
  -- it returns
  | finish (i : ι) (answer : Bool)
  -- it throws
  | throw (i : ι)
deriving DecidableEq

/-! ## The steps -/

section Steps

variable (packets : List (List ι)) (records : ι → Bool → Bool) (throws : ι → Prop)

/-- A step of the thread that pushes and joins, which may wake a worker. -/
inductive MainStep : Phase ι → Label ι → Phase ι → Prop
  | start (q : AbsQueue (List ι)) (out : AbsQueue ι) (ws : List (WorkerPc ι)) :
      MainStep ⟨⟨.idle, q, out⟩, ws⟩ .start ⟨⟨.push packets, q, out⟩, ws⟩
  | count (q : AbsQueue (List ι)) (out : AbsQueue ι) (ws : List (WorkerPc ι)) (p : List ι)
      (rest : List (List ι)) (hready : q.ready = true) :
      MainStep ⟨⟨.push (p :: rest), q, out⟩, ws⟩ .silent
        ⟨⟨.insert p rest, q.countIn, out⟩, ws⟩
  | insert (q : AbsQueue (List ι)) (out : AbsQueue ι) (ws : List (WorkerPc ι)) (p : List ι)
      (rest : List (List ι)) :
      MainStep ⟨⟨.insert p rest, q, out⟩, ws⟩ .silent ⟨⟨.notify rest, q.insert p, out⟩, ws⟩
  | notifyOne (q : AbsQueue (List ι)) (out : AbsQueue ι) (pre post : List (WorkerPc ι))
      (rest : List (List ι)) :
      MainStep ⟨⟨.notify rest, q, out⟩, pre ++ .waiting :: post⟩ .silent
        ⟨⟨.push rest, q, out⟩, pre ++ .pop :: post⟩
  -- nobody waits, or the queue is blocked
  | notifyNone (q : AbsQueue (List ι)) (out : AbsQueue ι) (ws : List (WorkerPc ι))
      (rest : List (List ι)) (hnone : .waiting ∉ ws ∨ q.blocked = true) :
      MainStep ⟨⟨.notify rest, q, out⟩, ws⟩ .silent ⟨⟨.push rest, q, out⟩, ws⟩
  | toJoin (q : AbsQueue (List ι)) (out : AbsQueue ι) (ws : List (WorkerPc ι)) :
      MainStep ⟨⟨.push [], q, out⟩, ws⟩ .silent ⟨⟨.join, q, out⟩, ws⟩
  | joinReturns (q : AbsQueue (List ι)) (out : AbsQueue ι) (ws : List (WorkerPc ι))
      (hdone : q.drained = true) :
      MainStep ⟨⟨.join, q, out⟩, ws⟩ .silent ⟨⟨.returned, q, out⟩, ws⟩
  -- the test and the wait are one critical section of `joinlock`; this thread alone changes
  -- `in_count`
  | joinWaits (q : AbsQueue (List ι)) (out : AbsQueue ι) (ws : List (WorkerPc ι))
      (hdone : q.drained = false) :
      MainStep ⟨⟨.join, q, out⟩, ws⟩ .silent ⟨⟨.waiting, q, out⟩, ws⟩
  | spurious (q : AbsQueue (List ι)) (out : AbsQueue ι) (ws : List (WorkerPc ι)) :
      MainStep ⟨⟨.waiting, q, out⟩, ws⟩ .spurious ⟨⟨.join, q, out⟩, ws⟩

/-- A step of one worker. -/
inductive WorkerStep : Shared ι → WorkerPc ι → Label ι → Shared ι → WorkerPc ι → Prop
  | popWaits (s : Shared ι) (hwait : s.queue.mustWait = true) :
      WorkerStep s .pop .silent s .waiting
  | popTakes (s : Shared ι) (p : List ι) (q : AbsQueue (List ι))
      (hwait : s.queue.mustWait = false) (htake : s.queue.take? = some (p, q)) :
      WorkerStep s .pop .silent { s with queue := q } (.work p)
  | popThrows (s : Shared ι) (hwait : s.queue.mustWait = false)
      (hready : s.queue.ready = false) : WorkerStep s .pop .silent s .exited
  | spurious (s : Shared ι) : WorkerStep s .waiting .spurious s .pop
  | begin (s : Shared ι) (i : ι) (todo : List ι) :
      WorkerStep s (.work (i :: todo)) (.begin i) s (.call i todo)
  | finish (s : Shared ι) (i : ι) (todo : List ι) (answer : Bool) :
      WorkerStep s (.call i todo) (.finish i answer) s
        (if records i answer then .found i todo else .work todo)
  | throw (s : Shared ι) (i : ι) (todo : List ι) (hthrows : throws i) :
      WorkerStep s (.call i todo) (.throw i) s (.failed (i :: todo))
  | foundCount (s : Shared ι) (i : ι) (todo : List ι) (hready : s.out.ready = true) :
      WorkerStep s (.found i todo) .silent { s with out := s.out.countIn } (.foundInsert i todo)
  | foundThrows (s : Shared ι) (i : ι) (todo : List ι) (hready : s.out.ready = false) :
      WorkerStep s (.found i todo) .silent s (.failed todo)
  | foundInsert (s : Shared ι) (i : ι) (todo : List ι) :
      WorkerStep s (.foundInsert i todo) .silent { s with out := s.out.insert i }
        (.foundNotify todo)
  -- nobody pops from the second queue during the phase
  | foundNotify (s : Shared ι) (todo : List ι) :
      WorkerStep s (.foundNotify todo) .silent s (.work todo)
  | taskDone (s : Shared ι) :
      WorkerStep s (.work []) .silent { s with queue := s.queue.complete } (.comparing none none)
  | loadCompleted (s : Shared ι) (n : Option Nat) :
      WorkerStep s (.comparing none n) .silent s (.comparing (some s.queue.completed) n)
  | loadInCount (s : Shared ι) (c : Option Nat) :
      WorkerStep s (.comparing c none) .silent s (.comparing c (some s.queue.inCount))
  | equal (s : Shared ι) (c n : Nat) (hsame : AbsQueue.sameInt c n = true) :
      WorkerStep s (.comparing (some c) (some n)) .silent s .notifying
  | notEqual (s : Shared ι) (c n : Nat) (hsame : AbsQueue.sameInt c n = false) :
      WorkerStep s (.comparing (some c) (some n)) .silent s .pop
  | notifyAll (s : Shared ι) (hmain : s.main = .waiting) :
      WorkerStep s .notifying .silent { s with main := .join } .pop
  | notifyNobody (s : Shared ι)
      (hmain : s.main ≠ .waiting) : WorkerStep s .notifying .silent s .pop

/-- A step of the phase. -/
inductive Step : Phase ι → Label ι → Phase ι → Prop
  | main (p p' : Phase ι) (l : Label ι) (h : MainStep packets p l p') : Step p l p'
  | worker (s s' : Shared ι) (pre post : List (WorkerPc ι)) (w w' : WorkerPc ι) (l : Label ι)
      (h : WorkerStep records throws s w l s' w') :
      Step ⟨s, pre ++ w :: post⟩ l ⟨s', pre ++ w' :: post⟩

end Steps

/-! ## Where the packets and the items are -/

namespace MainPc

/-- The packets that are not in the buffer yet. -/
def unsent (packets : List (List ι)) : MainPc ι → List (List ι)
  | idle => packets
  | push rest => rest
  | insert p rest => p :: rest
  | notify rest => rest
  | _ => []

/-- The packets that `in_count` does not count yet. -/
def uncounted (packets : List (List ι)) : MainPc ι → Nat
  | idle => packets.length
  | push rest => rest.length
  | insert _ rest => rest.length
  | notify rest => rest.length
  | _ => 0

/-- The packet that is counted but not in the buffer. -/
def inserting : MainPc ι → Nat
  | insert _ _ => 1
  | _ => 0

end MainPc

namespace WorkerPc

/-- The items of the worker's packet whose call has not returned. -/
def held : WorkerPc ι → List ι
  | work todo => todo
  | call i todo => i :: todo
  | found _ todo => todo
  | foundInsert _ todo => todo
  | foundNotify todo => todo
  | failed todo => todo
  | _ => []

/-- The item whose method runs. -/
def calling : WorkerPc ι → List ι
  | call i _ => [i]
  | _ => []

/-- The item on its way to the second queue. -/
def recording : WorkerPc ι → List ι
  | found i _ => [i]
  | foundInsert i _ => [i]
  | _ => []

/-- The worker has a packet that it has not reported done. -/
def laden : WorkerPc ι → Nat
  | work _ => 1
  | call _ _ => 1
  | found _ _ => 1
  | foundInsert _ _ => 1
  | foundNotify _ => 1
  | failed _ => 1
  | _ => 0

end WorkerPc

namespace Label

def begun : Label ι → List ι
  | begin i => [i]
  | _ => []

def finished : Label ι → List ι
  | finish i _ => [i]
  | _ => []

def thrown : Label ι → List ι
  | throw i => [i]
  | _ => []

/-- The item whose answer asks for the second queue. -/
def recorded (records : ι → Bool → Bool) : Label ι → List ι
  | finish i answer => if records i answer then [i] else []
  | _ => []

end Label

/-- A quantity, added up over the workers. -/
def total (f : WorkerPc ι → Nat) (ws : List (WorkerPc ι)) : Nat := (ws.map f).sum

@[simp] theorem total_split (f : WorkerPc ι → Nat) (pre post : List (WorkerPc ι))
    (w : WorkerPc ι) : total f (pre ++ w :: post) = total f pre + f w + total f post := by
  simp [total, Nat.add_assoc]

theorem eq_zero_of_total {f : WorkerPc ι → Nat} {ws : List (WorkerPc ι)} (h : total f ws = 0)
    {w : WorkerPc ι} (hw : w ∈ ws) : f w = 0 := by
  obtain ⟨pre, post, rfl⟩ := List.append_of_mem hw
  rw [total_split] at h
  omega

section Accounts

variable [DecidableEq ι] {packets : List (List ι)} {records : ι → Bool → Bool} {throws : ι → Prop}

/-- What a step of a worker moves: its packet between the buffer, its hands and `completed`, and
an item between its hands and the answers. -/
structure Moves (packets : List (List ι)) (records : ι → Bool → Bool) (s : Shared ι)
    (w : WorkerPc ι) (l : Label ι) (s' : Shared ι) (w' : WorkerPc ι) : Prop where
  unsent : s'.main.unsent packets = s.main.unsent packets
  uncounted : s'.main.uncounted packets = s.main.uncounted packets
  inserting : s'.main.inserting = s.main.inserting
  counted : s'.queue.inCount = s.queue.inCount
  flags : s'.queue.ready = s.queue.ready ∧ s'.queue.blocked = s.queue.blocked
    ∧ s'.out.ready = s.out.ready
  load : s'.queue.completed + s'.queue.buffer.length + w'.laden
    = s.queue.completed + s.queue.buffer.length + w.laden
  items : ∀ x, s'.queue.buffer.flatten.count x + w'.held.count x + l.finished.count x
    = s.queue.buffer.flatten.count x + w.held.count x
  begun : ∀ x, l.begun.count x + w.calling.count x
    = l.finished.count x + l.thrown.count x + w'.calling.count x
  recorded : s.out.ready = true → ∀ x, s'.out.buffer.count x + w'.recording.count x
    = s.out.buffer.count x + w.recording.count x + (l.recorded records).count x

omit [DecidableEq ι] in
theorem unsent_join (packets : List (List ι)) {s : Shared ι} (h : s.main = .waiting) :
    (MainPc.join : MainPc ι).unsent packets = s.main.unsent packets
      ∧ (MainPc.join : MainPc ι).uncounted packets = s.main.uncounted packets
      ∧ (MainPc.join : MainPc ι).inserting = s.main.inserting := by
  rw [h]
  exact ⟨rfl, rfl, rfl⟩

/-- A silent step that leaves everything where it is. -/
theorem Moves.still {s : Shared ι} {w w' : WorkerPc ι} {l : Label ι}
    (hl : l = .silent ∨ l = .spurious) (hladen : w'.laden = w.laden)
    (hheld : w'.held = w.held) (hcalling : w'.calling = w.calling)
    (hrecording : w'.recording = w.recording) :
    Moves packets records s w l s w' := by
  have hnone : l.begun = [] ∧ l.finished = [] ∧ l.thrown = [] ∧ l.recorded records = [] := by
    rcases hl with rfl | rfl <;> exact ⟨rfl, rfl, rfl, rfl⟩
  obtain ⟨hbegun, hfinished, hthrown, hrecorded⟩ := hnone
  constructor
  · rfl
  · rfl
  · rfl
  · rfl
  · exact ⟨rfl, rfl, rfl⟩
  · rw [hladen]
  · simp [hheld, hfinished]
  · simp [hcalling, hbegun, hfinished, hthrown]
  · simp [hrecording, hrecorded]

theorem WorkerStep.moves {s s' : Shared ι} {w w' : WorkerPc ι} {l : Label ι}
    (h : WorkerStep records throws s w l s' w') :
    Moves packets records s w l s' w' := by
  cases h with
  | popWaits _ => exact .still (.inl rfl) rfl rfl rfl rfl
  | popTakes p q _ htake =>
    obtain ⟨hbuffer, hq⟩ := AbsQueue.take?_eq_some htake
    rw [hq]
    refine ⟨rfl, rfl, rfl, rfl, ⟨rfl, rfl, rfl⟩, ?_, ?_, fun x => rfl, fun _ x => rfl⟩
    · simp [hbuffer, WorkerPc.laden]
      omega
    · intro x
      simp [hbuffer, WorkerPc.held, Label.finished]
      omega
  | popThrows _ _ => exact .still (.inl rfl) rfl rfl rfl rfl
  | spurious => exact .still (.inr rfl) rfl rfl rfl rfl
  | begin i todo =>
    exact ⟨rfl, rfl, rfl, rfl, ⟨rfl, rfl, rfl⟩, rfl, fun x => rfl,
      fun x => by simp [Label.begun, Label.finished, Label.thrown, WorkerPc.calling],
      fun _ x => rfl⟩
  | finish i todo answer =>
    refine ⟨rfl, rfl, rfl, rfl, ⟨rfl, rfl, rfl⟩, ?_, fun x => ?_, fun x => ?_, fun _ x => ?_⟩
    · split <;> rfl
    · split <;> simp [WorkerPc.held, Label.finished, List.count_cons] <;> omega
    · split <;> simp [WorkerPc.calling, Label.begun, Label.finished, Label.thrown]
    · simp only [Label.recorded]
      split <;> simp [WorkerPc.recording]
  | throw i todo _ =>
    exact ⟨rfl, rfl, rfl, rfl, ⟨rfl, rfl, rfl⟩, rfl, fun x => rfl,
      fun x => by simp [Label.begun, Label.finished, Label.thrown, WorkerPc.calling],
      fun _ x => rfl⟩
  | foundCount i todo _ => exact ⟨rfl, rfl, rfl, rfl, ⟨rfl, rfl, rfl⟩, rfl, fun x => rfl,
      fun x => rfl, fun _ x => rfl⟩
  | foundThrows i todo hready =>
    refine ⟨rfl, rfl, rfl, rfl, ⟨rfl, rfl, rfl⟩, rfl, fun x => rfl, fun x => rfl, fun hout => ?_⟩
    rw [hready] at hout
    cases hout
  | foundInsert i todo =>
    refine ⟨rfl, rfl, rfl, rfl, ⟨rfl, rfl, rfl⟩, rfl, fun x => rfl, fun x => rfl, fun _ x => ?_⟩
    simp [AbsQueue.insert, WorkerPc.recording, Label.recorded]
  | foundNotify todo => exact .still (.inl rfl) rfl rfl rfl rfl
  | taskDone =>
    refine ⟨rfl, rfl, rfl, rfl, ⟨rfl, rfl, rfl⟩, ?_, fun x => rfl, fun x => rfl, fun _ x => rfl⟩
    simp [AbsQueue.complete, WorkerPc.laden]
    omega
  | loadCompleted n => exact .still (.inl rfl) rfl rfl rfl rfl
  | loadInCount c => exact .still (.inl rfl) rfl rfl rfl rfl
  | equal c n _ => exact .still (.inl rfl) rfl rfl rfl rfl
  | notEqual c n _ => exact .still (.inl rfl) rfl rfl rfl rfl
  | notifyAll hmain =>
    obtain ⟨hunsent, huncounted, hinserting⟩ := unsent_join packets hmain
    exact ⟨hunsent, huncounted, hinserting, rfl, ⟨rfl, rfl, rfl⟩, rfl, fun x => rfl, fun x => rfl,
      fun _ x => rfl⟩
  | notifyNobody _ => exact .still (.inl rfl) rfl rfl rfl rfl

/-- Where the packets and the items of a phase are, after the steps with the given labels. -/
structure Accounts (packets : List (List ι)) (records : ι → Bool → Bool) (base : Nat)
    (ls : List (Label ι)) (p : Phase ι) : Prop where
  flags : p.shared.queue.ready = true ∧ p.shared.queue.blocked = false ∧ p.shared.out.ready = true
  sent : p.shared.queue.inCount + p.shared.main.uncounted packets = base + packets.length
  reported : base ≤ p.shared.queue.completed
  load : p.shared.queue.inCount = p.shared.queue.completed + p.shared.main.inserting
    + p.shared.queue.buffer.length + total WorkerPc.laden p.workers
  items : ∀ x, (p.shared.main.unsent packets).flatten.count x
    + p.shared.queue.buffer.flatten.count x + total (fun w => w.held.count x) p.workers
    + (ls.flatMap Label.finished).count x = packets.flatten.count x
  begun : ∀ x, (ls.flatMap Label.begun).count x = (ls.flatMap Label.finished).count x
    + (ls.flatMap Label.thrown).count x + total (fun w => w.calling.count x) p.workers
  recorded : ∀ x, p.shared.out.buffer.count x + total (fun w => w.recording.count x) p.workers
    = (ls.flatMap (Label.recorded records)).count x
  -- outside of its use the queue is drained
  settled : p.shared.main = .idle ∨ p.shared.main = .returned →
    p.shared.queue.completed = p.shared.queue.inCount

variable {base : Nat} {ls : List (Label ι)} {p p' : Phase ι} {l : Label ι}

/-- While the queue is drained and nothing is on its way into it, no worker has a packet. -/
theorem Accounts.unladen (h : Accounts packets records base ls p)
    (hdone : p.shared.queue.completed = p.shared.queue.inCount) :
    p.shared.main.inserting = 0 ∧ p.shared.queue.buffer = [] ∧ ∀ w ∈ p.workers, w.laden = 0 := by
  have hload := h.load
  refine ⟨by omega, List.length_eq_zero_iff.mp (by omega), fun w hw => ?_⟩
  exact eq_zero_of_total (by omega) hw

omit [DecidableEq ι] in
theorem WorkerStep.completed_le {s s' : Shared ι} {w w' : WorkerPc ι} {l : Label ι}
    (h : WorkerStep records throws s w l s' w') : s.queue.completed ≤ s'.queue.completed := by
  cases h with
  | popTakes p q _ htake =>
    obtain ⟨_, hq⟩ := AbsQueue.take?_eq_some htake
    rw [hq]
  | taskDone => exact Nat.le_succ _
  | _ => exact Nat.le_refl _

theorem Accounts.worker {s s' : Shared ι} {pre post : List (WorkerPc ι)} {w w' : WorkerPc ι}
    (h : Accounts packets records base ls ⟨s, pre ++ w :: post⟩)
    (hstep : WorkerStep records throws s w l s' w') :
    Accounts packets records base (ls ++ [l]) ⟨s', pre ++ w' :: post⟩ := by
  have hm : Moves packets records s w l s' w' := hstep.moves
  have hunladen := h.unladen
  have hcompleted : s.queue.completed ≤ s'.queue.completed := hstep.completed_le
  obtain ⟨hflags, hsent, hreported, hload, hitems, hbegun, hrecorded, hsettled⟩ := h
  simp only [total_split] at hload hitems hbegun hrecorded
  constructor
  · exact ⟨hm.flags.1.trans hflags.1, hm.flags.2.1.trans hflags.2.1,
      hm.flags.2.2.trans hflags.2.2⟩
  · rw [hm.counted, hm.uncounted]
    exact hsent
  · exact hreported.trans hcompleted
  · have := hm.load
    rw [hm.counted, hm.inserting]
    simp only [total_split]
    omega
  · intro x
    have := hm.items x
    have := hitems x
    rw [hm.unsent]
    simp only [total_split, List.flatMap_append, List.flatMap_singleton, List.count_append]
    omega
  · intro x
    have := hm.begun x
    have := hbegun x
    simp only [total_split, List.flatMap_append, List.flatMap_singleton, List.count_append]
    omega
  · intro x
    have := hm.recorded hflags.2.2 x
    have := hrecorded x
    simp only [total_split, List.flatMap_append, List.flatMap_singleton, List.count_append]
    omega
  · -- a drained queue stays drained: nobody has a packet to report
    intro hmain
    have hmain' : s.main = .idle ∨ s.main = .returned := by
      cases hstep with
      | notifyAll hwaiting => rcases hmain with hmain | hmain <;> cases hmain
      | _ => exact hmain
    have hdone : s.queue.completed = s.queue.inCount := hsettled hmain'
    have hw : w.laden = 0 := (hunladen hdone).2.2 w (by simp)
    have hbuffer : s.queue.buffer = [] := (hunladen hdone).2.1
    have := hm.load
    rw [hbuffer, hw, List.length_nil] at this
    have hcounted := hm.counted
    show s'.queue.completed = s'.queue.inCount
    omega

omit [DecidableEq ι] in
/-- A label of the pushing thread moves no item. -/
theorem MainStep.label (hstep : MainStep packets p l p') :
    l.begun = [] ∧ l.finished = [] ∧ l.thrown = [] ∧ l.recorded records = [] := by
  cases hstep <;> exact ⟨rfl, rfl, rfl, rfl⟩

/-- A step of the pushing thread that wakes nobody and leaves the second queue alone. -/
theorem Accounts.ofShared {s s' : Shared ι} {ws : List (WorkerPc ι)}
    (h : Accounts packets records base ls ⟨s, ws⟩)
    (hlabel : l.begun = [] ∧ l.finished = [] ∧ l.thrown = [] ∧ l.recorded records = [])
    (hready : s'.queue.ready = s.queue.ready) (hblocked : s'.queue.blocked = s.queue.blocked)
    (hout : s'.out = s.out)
    (hcompleted : s'.queue.completed = s.queue.completed)
    (hsent : s'.queue.inCount + s'.main.uncounted packets
      = s.queue.inCount + s.main.uncounted packets)
    (hload : s'.queue.inCount + s.main.inserting + s.queue.buffer.length
      = s.queue.inCount + s'.main.inserting + s'.queue.buffer.length)
    (hitems : ∀ x, (s'.main.unsent packets).flatten.count x + s'.queue.buffer.flatten.count x
      = (s.main.unsent packets).flatten.count x + s.queue.buffer.flatten.count x)
    (hsettled : s'.main = .idle ∨ s'.main = .returned →
      s'.queue.completed = s'.queue.inCount) :
    Accounts packets records base (ls ++ [l]) ⟨s', ws⟩ := by
  obtain ⟨hlb, hlf, hlt, hlr⟩ := hlabel
  obtain ⟨hflags, hsent₀, hreported₀, hload₀, hitems₀, hbegun₀, hrecorded₀, _⟩ := h
  refine ⟨⟨hready.trans hflags.1, hblocked.trans hflags.2.1, ?_⟩, hsent.trans hsent₀, ?_, ?_,
    fun x => ?_, fun x => ?_, fun x => ?_, hsettled⟩
  · rw [hout]
    exact hflags.2.2
  · rw [hcompleted]
    exact hreported₀
  · dsimp only at hload₀ ⊢
    omega
  · have := hitems x
    have := hitems₀ x
    simp only [List.flatMap_append, List.flatMap_singleton, hlf, List.append_nil]
    dsimp only at *
    omega
  · simpa only [List.flatMap_append, List.flatMap_singleton, hlb, hlf, hlt, List.append_nil]
      using hbegun₀ x
  · simpa only [List.flatMap_append, List.flatMap_singleton, hlr, List.append_nil, hout]
      using hrecorded₀ x

/-- A worker that wakes up has nothing. -/
theorem Accounts.wake {s : Shared ι} {pre post : List (WorkerPc ι)}
    (h : Accounts packets records base ls ⟨s, pre ++ .waiting :: post⟩) :
    Accounts packets records base ls ⟨s, pre ++ .pop :: post⟩ := by
  obtain ⟨hflags, hsent, hreported, hload, hitems, hbegun, hrecorded, hsettled⟩ := h
  simp only [total_split] at hload hitems hbegun hrecorded
  refine ⟨hflags, hsent, hreported, ?_, fun x => ?_, fun x => ?_, fun x => ?_, hsettled⟩
  · rw [total_split]
    exact hload
  · rw [total_split]
    exact hitems x
  · rw [total_split]
    exact hbegun x
  · rw [total_split]
    exact hrecorded x

theorem Accounts.mainStep (hfew : packets.length < 2 ^ 32)
    (h : Accounts packets records base ls p) (hstep : MainStep packets p l p') :
    Accounts packets records base (ls ++ [l]) p' := by
  have hlabel : l.begun = [] ∧ l.finished = [] ∧ l.thrown = [] ∧ l.recorded records = [] :=
    hstep.label
  have hsent := h.sent
  have hreported := h.reported
  have hload := h.load
  cases hstep with
  | start q out ws =>
    exact h.ofShared hlabel rfl rfl rfl rfl rfl rfl (fun x => rfl) (by simp)
  | count q out ws pk rest _ =>
    refine h.ofShared hlabel rfl rfl rfl rfl ?_ ?_ (fun x => rfl) (by simp)
    · simp [AbsQueue.countIn, MainPc.uncounted]
      omega
    · simp [AbsQueue.countIn, MainPc.inserting]
  | insert q out ws pk rest =>
    refine h.ofShared hlabel rfl rfl rfl rfl rfl ?_ (fun x => ?_) (by simp)
    · simp [AbsQueue.insert, MainPc.inserting]
      omega
    · simp [AbsQueue.insert, MainPc.unsent]
      omega
  | notifyOne q out pre post rest =>
    exact h.wake.ofShared hlabel rfl rfl rfl rfl rfl rfl (fun x => rfl) (by simp)
  | notifyNone q out ws rest _ =>
    exact h.ofShared hlabel rfl rfl rfl rfl rfl rfl (fun x => rfl) (by simp)
  | toJoin q out ws =>
    exact h.ofShared hlabel rfl rfl rfl rfl rfl rfl (fun x => rfl) (by simp)
  | joinReturns q out ws hdone =>
    refine h.ofShared hlabel rfl rfl rfl rfl rfl rfl (fun x => rfl) fun _ => ?_
    -- fewer than `2^32` packets are under way, so equal `int`s are equal counts
    dsimp only [MainPc.uncounted] at hsent hreported hload
    show q.completed = q.inCount
    exact AbsQueue.eq_of_sameInt hdone (by omega) (by omega)
  | joinWaits q out ws _ =>
    exact h.ofShared hlabel rfl rfl rfl rfl rfl rfl (fun x => rfl) (by simp)
  | spurious q out ws =>
    exact h.ofShared hlabel rfl rfl rfl rfl rfl rfl (fun x => rfl) (by simp)

theorem Accounts.step (hfew : packets.length < 2 ^ 32) (h : Accounts packets records base ls p)
    (hstep : Step packets records throws p l p') :
    Accounts packets records base (ls ++ [l]) p' := by
  cases hstep with
  | main _ _ _ hmain => exact h.mainStep hfew hmain
  | worker s s' pre post w w' _ hworker => exact h.worker hworker

/-! ## After `join` -/

/-- The state in which the phase begins: the queue drained, the second queue empty, and the
workers without packets. -/
structure Begins (p : Phase ι) : Prop where
  main : p.shared.main = .idle
  flags : p.shared.queue.ready = true ∧ p.shared.queue.blocked = false ∧ p.shared.out.ready = true
  buffer : p.shared.queue.buffer = []
  drained : p.shared.queue.completed = p.shared.queue.inCount
  out : p.shared.out.buffer = []
  workers : ∀ w ∈ p.workers, w.laden = 0

omit [DecidableEq ι] in
theorem total_eq_zero {f : WorkerPc ι → Nat} {ws : List (WorkerPc ι)} (h : ∀ w ∈ ws, f w = 0) :
    total f ws = 0 := by
  rw [total]
  exact List.sum_eq_zero fun n hn => by
    obtain ⟨w, hw, rfl⟩ := List.mem_map.mp hn
    exact h w hw

omit [DecidableEq ι] in
/-- A worker without a packet has no item of one. -/
theorem WorkerPc.of_unladen {w : WorkerPc ι} (h : w.laden = 0) :
    w.held = [] ∧ w.calling = [] ∧ w.recording = [] := by
  cases w <;> first | exact ⟨rfl, rfl, rfl⟩ | cases h

theorem Begins.accounts {p : Phase ι} (h : Begins p) :
    Accounts packets records p.shared.queue.inCount [] p := by
  have hnone : ∀ w ∈ p.workers, w.held = [] ∧ w.calling = [] ∧ w.recording = [] :=
    fun w hw => WorkerPc.of_unladen (h.workers w hw)
  constructor
  · exact h.flags
  · rw [h.main, MainPc.uncounted]
  · exact h.drained.ge
  · rw [h.main, h.buffer, h.drained, total_eq_zero h.workers]
    rfl
  · intro x
    rw [h.main, h.buffer, total_eq_zero fun w hw => by rw [(hnone w hw).1]; rfl]
    rfl
  · intro x
    rw [total_eq_zero fun w hw => by rw [(hnone w hw).2.1]; rfl]
    rfl
  · intro x
    rw [h.out, total_eq_zero fun w hw => by rw [(hnone w hw).2.2]; rfl]
    rfl
  · exact fun _ => h.drained

/-- Before the phase has begun nothing happens to its items. -/
theorem Accounts.idle (h : Accounts packets records base ls p) (hmain : p.shared.main = .idle)
    (x : ι) :
    (ls.flatMap Label.finished).count x = 0 := by
  have hitems := h.items x
  rw [hmain] at hitems
  simp only [MainPc.unsent] at hitems
  omega

/-- When the phase is over, every item has had its call and its answer, and the second queue
holds what was recorded. -/
theorem Accounts.returned (h : Accounts packets records base ls p)
    (hmain : p.shared.main = .returned) (hthrown : ls.flatMap Label.thrown = []) (x : ι) :
    (ls.flatMap Label.finished).count x = packets.flatten.count x
      ∧ (ls.flatMap Label.begun).count x = packets.flatten.count x
      ∧ p.shared.out.buffer.count x = (ls.flatMap (Label.recorded records)).count x := by
  obtain ⟨_, hbuffer, hladen⟩ := h.unladen (h.settled (.inr hmain))
  have hnone : ∀ w ∈ p.workers, w.held = [] ∧ w.calling = [] ∧ w.recording = [] :=
    fun w hw => WorkerPc.of_unladen (hladen w hw)
  have hitems := h.items x
  have hbegun := h.begun x
  have hrecorded := h.recorded x
  rw [hmain, hbuffer, total_eq_zero fun w hw => by rw [(hnone w hw).1]; rfl] at hitems
  rw [hthrown, total_eq_zero fun w hw => by rw [(hnone w hw).2.1]; rfl] at hbegun
  rw [total_eq_zero fun w hw => by rw [(hnone w hw).2.2]; rfl] at hrecorded
  simp only [MainPc.unsent, List.flatten_nil, List.count_nil] at hitems hbegun
  omega

/-- A call begins only after the phase has begun and before it is over. -/
theorem Accounts.begins (h : Accounts packets records base ls p) {i : ι}
    (hstep : Step packets records throws p (.begin i) p') :
    p.shared.main ≠ .idle ∧ p.shared.main ≠ .returned := by
  cases hstep with
  | main _ _ _ hmain => cases hmain
  | worker s s' pre post w w' _ hworker =>
    cases hworker with
    | begin _ todo =>
      have hnot : ¬ (s.main = .idle ∨ s.main = .returned) := fun hmain => by
        have := (h.unladen (h.settled hmain)).2.2 (.work (i :: todo)) (by simp)
        cases this
      exact not_or.mp hnot

end Accounts

end Nrtb.WorkPhase
