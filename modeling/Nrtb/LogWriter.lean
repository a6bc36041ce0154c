import Nrtb.QueueThreads
import Mathlib.Data.List.TakeWhile

/-!
# `log_file_writer`

`cpp/common/logger/logger.cpp`, lines 85–138: a thread pops the records of a `log_queue` and writes
them to a file, until the queue is shut down; `close` polls `size()` until it is zero, and shuts the
queue down, which throws away what is in it. `close` is called by any number of threads, one of them
the destructor, while others push records, hold the queue and release it.

A program that closes its log wants everything in the file that it has logged before. The poll sees
to that: when the queue is empty, all that was inserted before has been taken, and the writer writes
what it has in its hand before it looks at the queue again. Records that come in behind the poll may
be lost, and nothing is promised of them. `size` is an `int`, and a queue of `2 ^ 32` records has
the size zero.

* `Draining.step`: what is written, what the writer has in its hand, and what is still in the queue.
* `drained_before_end`: what was pushed before the first `close` is written when the writer ends, in
  a run in which `size()` is zero for an empty queue only. `records_lost` is a run in which it is
  not.
-/

namespace Nrtb.LogWriter

open QueueThreads (ThreadStep Flow insertions pops)

variable {α : Type*}

/-- Where `writer_thread` is. -/
inductive WriterPc (α : Type*) where
  -- in `pop`, about to take `mylock` and test
  | popping
  -- in `signal.wait`
  | waiting
  -- about to write the record that it popped
  | writing (record : α)
  | ended
deriving DecidableEq

/-- Where a thread is that calls `close`. -/
inductive CloserPc where
  | idle
  -- about to evaluate `myqueue.size()`
  | polling
  -- behind the loop
  | shutting
deriving DecidableEq

inductive Label (α : Type*) where
  -- what is seen of the queue
  | queue (l : QueueThreads.Label α)
  | wrote (record : α)
  -- `close` is called
  | closing
  -- the loop in `close` ends
  | polled

/-- What the queue sees of a step. -/
def Label.onQueue : Label α → QueueThreads.Label α
  | queue l => l
  | _ => .silent

def Label.isClosing : Label α → Bool
  | closing => true
  | _ => false

structure State (α : Type*) where
  queue : AbsQueue α
  -- the lines of the file
  output : List α
  writer : WriterPc α
  producers : List (QueueThreads.Pc α)
  closers : List CloserPc

inductive WriterStep : AbsQueue α → List α → WriterPc α → Label α →
    AbsQueue α → List α → WriterPc α → Prop
  | waits (q : AbsQueue α) (out : List α) (hwait : q.mustWait = true) :
      WriterStep q out .popping (.queue .silent) q out .waiting
  | wakes (q : AbsQueue α) (out : List α) :
      WriterStep q out .waiting (.queue .silent) q out .popping
  | takes (q q' : AbsQueue α) (out : List α) (record : α) (hwait : q.mustWait = false)
      (htake : q.take? = some (record, q')) :
      WriterStep q out .popping (.queue (.popped record)) q' out (.writing record)
  | writes (q : AbsQueue α) (out : List α) (record : α) :
      WriterStep q out (.writing record) (.wrote record) q (out ++ [record]) .popping
  -- `catch (...) { done = true; }`
  | ends (q : AbsQueue α) (out : List α) (hwait : q.mustWait = false) (hready : q.ready = false) :
      WriterStep q out .popping (.queue .threw) q out .ended

inductive CloserStep : AbsQueue α → CloserPc → Label α → AbsQueue α → CloserPc → Prop
  | call (q : AbsQueue α) : CloserStep q .idle .closing q .polling
  -- `usleep(100)`
  | again (q : AbsQueue α) (hsize : q.size ≠ 0) :
      CloserStep q .polling (.queue .silent) q .polling
  | leave (q : AbsQueue α) (hsize : q.size = 0) : CloserStep q .polling .polled q .shutting
  | shutdown (q : AbsQueue α) : CloserStep q .shutting (.queue .shutdown) q.shutdown .idle

inductive Step : State α → Label α → State α → Prop
  | writer (q q' : AbsQueue α) (out out' : List α) (w w' : WriterPc α)
      (producers : List (QueueThreads.Pc α)) (closers : List CloserPc) (l : Label α)
      (h : WriterStep q out w l q' out' w') :
      Step ⟨q, out, w, producers, closers⟩ l ⟨q', out', w', producers, closers⟩
  | closer (q q' : AbsQueue α) (out : List α) (w : WriterPc α)
      (producers : List (QueueThreads.Pc α)) (pre post : List CloserPc) (c c' : CloserPc)
      (l : Label α) (h : CloserStep q c l q' c') :
      Step ⟨q, out, w, producers, pre ++ c :: post⟩ l ⟨q', out, w, producers, pre ++ c' :: post⟩
  -- these threads do not call `pop` or `shutdown`
  | producer (q q' : AbsQueue α) (out : List α) (w : WriterPc α)
      (pre post : List (QueueThreads.Pc α)) (t t' : QueueThreads.Pc α) (closers : List CloserPc)
      (l : QueueThreads.Label α) (h : ThreadStep q t l q' t')
      (hpop : t ≠ .pop) (hpop' : t' ≠ .pop) (hshutdown : l ≠ .shutdown) :
      Step ⟨q, out, w, pre ++ t :: post, closers⟩ (.queue l)
        ⟨q', out, w, pre ++ t' :: post, closers⟩

/-! ## What is drained -/

/-- What was inserted before the first call of `close`. -/
def beforeClose (ls : List (Label α)) : List α :=
  insertions ((ls.takeWhile fun l => !l.isClosing).map Label.onQueue)

/-- The record that the writer has popped and not written. -/
def WriterPc.inHand : WriterPc α → List α
  | writing record => [record]
  | _ => []

/-- A poll that ends the loop does not find a number of records that `int` takes for zero. -/
def Counted (s : State α) (l : Label α) : Prop :=
  l = .polled → ¬ (2 ^ 32 ∣ s.queue.buffer.length ∧ s.queue.buffer ≠ [])

structure Draining (ls : List (Label α)) (s : State α) : Prop where
  flow : Flow (ls.map Label.onQueue) s.queue
  written : pops (ls.map Label.onQueue) = s.output ++ s.writer.inHand
  called : (∃ c ∈ s.closers, c ≠ .idle) ∨ s.queue.ready = false → .closing ∈ ls
  drained : .shutting ∈ s.closers ∨ s.queue.ready = false →
    beforeClose ls <+: pops (ls.map Label.onQueue)
  ended : s.writer = .ended → s.queue.ready = false

variable {ls : List (Label α)} {l : Label α} {s s' : State α} {q q' : AbsQueue α}

theorem beforeClose_prefix (ls : List (Label α)) :
    beforeClose ls <+: insertions (ls.map Label.onQueue) := by
  obtain ⟨rest, hrest⟩ := List.takeWhile_prefix (l := ls) fun l => !l.isClosing
  refine ⟨insertions (rest.map Label.onQueue), ?_⟩
  unfold beforeClose
  rw [← QueueThreads.insertions_append, ← List.map_append, hrest]

/-- Behind a call of `close` it does not change any more. -/
theorem beforeClose_append (h : .closing ∈ ls) (l : Label α) :
    beforeClose (ls ++ [l]) = beforeClose ls := by
  have hstop : (ls.takeWhile fun m => !m.isClosing).length ≠ ls.length := fun hlength => by
    have hall := (List.takeWhile_prefix fun m : Label α => !m.isClosing).eq_of_length hlength
    have hclosing := List.takeWhile_eq_self_iff.mp hall _ h
    simp [Label.isClosing] at hclosing
  unfold beforeClose
  rw [List.takeWhile_append, if_neg hstop]

/-- What is drained stays so. -/
theorem Draining.later (h : Draining ls s) (l : Label α)
    (hold : .shutting ∈ s.closers ∨ s.queue.ready = false) :
    beforeClose (ls ++ [l]) <+: pops ((ls ++ [l]).map Label.onQueue) := by
  have hcalled : .closing ∈ ls := by
    refine h.called (hold.imp (fun hmem => ⟨_, hmem, by simp⟩) id)
  rw [beforeClose_append hcalled, List.map_append, QueueThreads.pops_append]
  exact (h.drained hold).trans (List.prefix_append _ _)

theorem Draining.writer {out out' : List α} {w w' : WriterPc α}
    {producers : List (QueueThreads.Pc α)} {closers : List CloserPc}
    (h : Draining ls ⟨q, out, w, producers, closers⟩) (hstep : WriterStep q out w l q' out' w') :
    Draining (ls ++ [l]) ⟨q', out', w', producers, closers⟩ := by
  have hready : q'.ready = q.ready := by
    cases hstep with
    | takes _ _ record _ htake => rw [(AbsQueue.take?_eq_some htake).2]
    | _ => rfl
  refine ⟨?_, ?_, fun hcalled => ?_, fun hdrained => ?_, fun hended => ?_⟩
  · rw [List.map_append]
    cases hstep with
    | takes _ _ record _ htake => exact h.flow.pop htake
    | _ => exact h.flow.still rfl rfl rfl rfl rfl
  · rw [List.map_append, QueueThreads.pops_append, h.written]
    cases hstep <;> simp [pops, Label.onQueue, WriterPc.inHand]
  · refine List.mem_append_left _ (h.called ?_)
    rwa [hready] at hcalled
  · refine h.later l ?_
    rwa [hready] at hdrained
  · cases hstep with
    | ends _ _ hnot => exact hnot
    | _ => cases hended

theorem Draining.closer {out : List α} {w : WriterPc α} {producers : List (QueueThreads.Pc α)}
    {pre post : List CloserPc} {c c' : CloserPc}
    (h : Draining ls ⟨q, out, w, producers, pre ++ c :: post⟩) (hstep : CloserStep q c l q' c')
    (hcounted : Counted ⟨q, out, w, producers, pre ++ c :: post⟩ l) :
    Draining (ls ++ [l]) ⟨q', out, w, producers, pre ++ c' :: post⟩ := by
  have hpops : pops ((ls ++ [l]).map Label.onQueue) = pops (ls.map Label.onQueue) := by
    rw [List.map_append, QueueThreads.pops_append]
    cases hstep <;> simp [pops, Label.onQueue]
  refine ⟨?_, ?_, fun hcalled => ?_, fun hdrained => ?_, fun hended => ?_⟩
  · rw [List.map_append]
    cases hstep with
    | shutdown => exact h.flow.shutdown
    | _ => exact h.flow.still rfl rfl rfl rfl rfl
  · rw [hpops]
    exact h.written
  · by_cases hidle : c = .idle
    · -- only a call leads out of a closer that is idle
      subst hidle
      cases hstep
      simp
    · exact List.mem_append_left _ (h.called (Or.inl ⟨c, by simp, hidle⟩))
  · cases hstep with
    | leave hsize =>
      by_cases hready : q.ready = false
      · exact h.later _ (Or.inr hready)
      · -- an empty buffer: everything that was inserted has been popped
        have hempty : q.buffer = [] := by
          by_contra hne
          exact hcounted rfl ⟨(CInt.toInt_eq_zero_iff _).mp hsize, hne⟩
        have hcalled : .closing ∈ ls := h.called (Or.inl ⟨.polling, by simp, by simp⟩)
        have horder := h.flow.order (by simpa using hready)
        have hprefix := beforeClose_prefix ls
        rw [hpops, beforeClose_append hcalled]
        rw [horder, hempty, List.append_nil] at hprefix
        exact hprefix
    | shutdown => exact h.later _ (Or.inl (by simp))
    | _ => exact h.later _ (by simpa using hdrained)
  · cases hstep with
    | shutdown => rfl
    | _ => exact h.ended hended

theorem Draining.producer {out : List α} {w : WriterPc α} {pre post : List (QueueThreads.Pc α)}
    {t t' : QueueThreads.Pc α} {closers : List CloserPc} {l : QueueThreads.Label α}
    (h : Draining ls ⟨q, out, w, pre ++ t :: post, closers⟩) (hstep : ThreadStep q t l q' t')
    (hpop : t ≠ .pop) (hshutdown : l ≠ .shutdown) :
    Draining (ls ++ [.queue l]) ⟨q', out, w, pre ++ t' :: post, closers⟩ := by
  have hready : q'.ready = q.ready := by
    cases hstep with
    | popTakes => exact absurd rfl hpop
    | shutdown => exact absurd rfl hshutdown
    | _ => rfl
  refine ⟨?_, ?_, fun hcalled => ?_, fun hdrained => ?_, fun hended => ?_⟩
  · rw [List.map_append]
    exact h.flow.step hstep
  · rw [List.map_append, QueueThreads.pops_append, h.written]
    cases hstep with
    | popTakes => exact absurd rfl hpop
    | _ => simp [pops, Label.onQueue]
  · refine List.mem_append_left _ (h.called ?_)
    rwa [hready] at hcalled
  · refine h.later _ ?_
    rwa [hready] at hdrained
  · exact hready.trans (h.ended hended)

theorem Draining.step (h : Draining ls s) (hstep : Step s l s') (hcounted : Counted s l) :
    Draining (ls ++ [l]) s' := by
  cases hstep with
  | writer q q' out out' w w' producers closers l hwriter => exact h.writer hwriter
  | closer q q' out w producers pre post c c' l hcloser => exact h.closer hcloser hcounted
  | producer q q' out w pre post t t' closers l hthread hpop hpop' hshutdown =>
    exact h.producer hthread hpop hshutdown

/-- A queue that is empty, with a writer that has just been started. -/
def started (producers : List (QueueThreads.Pc α)) (closers : List CloserPc) : State α :=
  ⟨.empty, [], .popping, producers, closers⟩

theorem draining_started {producers : List (QueueThreads.Pc α)} {closers : List CloserPc}
    (hidle : ∀ c ∈ closers, c = .idle) : Draining [] (started producers closers) := by
  have hready : (started producers closers).queue.ready = true := rfl
  have hnone : ∀ c ∈ (started producers closers).closers, c = .idle := hidle
  refine ⟨.empty, rfl, ?_, ?_, fun hended => by cases hended⟩
  · rintro (⟨c, hc, hne⟩ | hnot)
    · exact absurd (hnone c hc) hne
    · cases hready.symm.trans hnot
  · rintro (hmem | hnot)
    · cases hnone _ hmem
    · cases hready.symm.trans hnot

/-- When the writer has ended, the file has the records in the order of their insertion: all that
were inserted before the first `close`, and no record twice. The log file may be closed more than
once and from any thread, while others still write to it. -/
theorem drained_before_end {producers : List (QueueThreads.Pc α)} {closers : List CloserPc}
    (hidle : ∀ c ∈ closers, c = .idle)
    (h : Run (fun s l s' => Step s l s' ∧ Counted s l) (started producers closers) ls s)
    (hended : s.writer = .ended) :
    beforeClose ls <+: s.output ∧ s.output <+: insertions (ls.map Label.onQueue) := by
  have hdraining : Draining ls s := by
    refine h.history (P := Draining) (draining_started hidle) ?_
    exact fun ls s l s' hdraining hstep => hdraining.step hstep.1 hstep.2
  have hwritten : pops (ls.map Label.onQueue) = s.output := by
    rw [hdraining.written, hended]
    exact List.append_nil _
  have hdrained := hdraining.drained (Or.inr (hdraining.ended hended))
  have hfirst := hdraining.flow.pops_first
  rw [hwritten] at hdrained hfirst
  exact ⟨hdrained, hfirst⟩

/-! ## A few records, and as many as `int` takes for none -/

/-- What is seen of a push that is not held up. -/
def pushLog (r : α) : List (Label α) :=
  [.queue .silent, .queue .silent, .queue .silent, .queue (.inserted r), .queue .silent]

theorem run_pushLog {out : List α} {w : WriterPc α} {closers : List CloserPc} (r : α)
    (hready : q.ready = true) :
    Run Step ⟨q, out, w, [.idle], closers⟩ (pushLog r)
      ⟨q.countIn.insert r, out, w, [.idle], closers⟩ := by
  have hprod : ∀ {q q' : AbsQueue α} {t t' : QueueThreads.Pc α} {l : QueueThreads.Label α},
      ThreadStep q t l q' t' → t ≠ .pop → t' ≠ .pop → l ≠ .shutdown →
        Step ⟨q, out, w, [t], closers⟩ (.queue l) ⟨q', out, w, [t'], closers⟩ :=
    fun hstep hpop hpop' hshutdown =>
      .producer _ _ out w [] [] _ _ closers _ hstep hpop hpop' hshutdown
  have hcall := hprod (.callPush q r) (by simp) (by simp) (by simp)
  have htest := hprod (.pushReady q r hready) (by simp) (by simp) (by simp)
  have hcount := hprod (.count q r) (by simp) (by simp) (by simp)
  have hinsert := hprod (.insert q.countIn r) (by simp) (by simp) (by simp)
  have hnotify := hprod (.notify (q.countIn.insert r)) (by simp) (by simp) (by simp)
  exact .cons hcall (.cons htest (.cons hcount (.cons hinsert (.single hnotify))))

/-- A thread pushes records while the writer does not get to run. -/
theorem run_push (r : α) (n : Nat) :
    ∃ ls, Run Step (started [.idle] [.idle]) ls
        ⟨⟨List.replicate n r, n, 0, 0, true, false⟩, [], .popping, [.idle], [.idle]⟩
      ∧ insertions (ls.map Label.onQueue) = List.replicate n r ∧ ∀ l ∈ ls, l.isClosing = false := by
  induction n with
  | zero => exact ⟨[], .nil, rfl, by simp⟩
  | succ n ih =>
    obtain ⟨ls, hrun, hinsertions, hnone⟩ := ih
    refine ⟨ls ++ pushLog r, hrun.append ?_, ?_, fun l hl => ?_⟩
    · rw [List.replicate_succ']
      exact run_pushLog r rfl
    · rw [List.map_append, QueueThreads.insertions_append, hinsertions, List.replicate_succ']
      rfl
    · rcases List.mem_append.mp hl with hl | hl
      · exact hnone l hl
      · simp only [pushLog, List.mem_cons, List.not_mem_nil, or_false] at hl
        rcases hl with rfl | rfl | rfl | rfl | rfl <;> rfl

/-- Where no poll ends a loop there is nothing to count. -/
theorem run_counted (h : Run Step s ls s') (hne : .polled ∉ ls) :
    Run (fun s l s' => Step s l s' ∧ Counted s l) s ls s' := by
  induction h with
  | nil => exact .nil
  | snoc _ hlast ih =>
    rw [List.mem_append, List.mem_singleton, not_or] at hne
    exact (ih hne.1).snoc ⟨hlast, fun hpolled => absurd hpolled.symm hne.2⟩

theorem beforeClose_of_none {ms : List (Label α)} (h : ∀ l ∈ ls, l.isClosing = false) :
    beforeClose (ls ++ .closing :: ms) = insertions (ls.map Label.onQueue) := by
  have hall : ∀ l ∈ ls, (!l.isClosing) = true := fun l hl => by rw [h l hl]; rfl
  have hstop : (Label.closing :: ms).takeWhile (fun m : Label α => !m.isClosing) = [] :=
    List.takeWhile_cons_of_neg (by simp [Label.isClosing])
  unfold beforeClose
  rw [List.takeWhile_append_of_pos hall, hstop, List.append_nil]

/-- With `2 ^ 32` records in the queue `close` shuts it down at once, and none of them is
written. -/
theorem records_lost :
    ∃ (ls : List (Label Nat)) (s : State Nat), Run Step (started [.idle] [.idle]) ls s
      ∧ s.writer = .ended ∧ s.output = [] ∧ beforeClose ls = List.replicate (2 ^ 32) 7
      ∧ ¬ beforeClose ls <+: s.output := by
  obtain ⟨ls, hrun, hinsertions, hnone⟩ := run_push 7 (2 ^ 32)
  have hsize :
      (⟨List.replicate (2 ^ 32) 7, 2 ^ 32, 0, 0, true, false⟩ : AbsQueue Nat).size = 0 := by
    unfold AbsQueue.size
    rw [CInt.toInt_eq_zero_iff, List.length_replicate]
  refine ⟨ls ++ .closing :: [.polled, .queue .shutdown, .queue .threw], _, hrun.append
    (.cons (.closer _ _ _ _ _ [] [] _ _ _ (.call _))
      (.cons (.closer _ _ _ _ _ [] [] _ _ _ (.leave _ hsize))
        (.cons (.closer _ _ _ _ _ [] [] _ _ _ (.shutdown _))
          (.single (.writer _ _ _ _ _ _ _ _ _ (.ends _ _ rfl rfl)))))), rfl, rfl, ?_⟩
  rw [beforeClose_of_none hnone, hinsertions]
  refine ⟨rfl, fun hprefix => ?_⟩
  have hlength := hprefix.length_le
  rw [List.length_replicate] at hlength
  exact absurd hlength (by decide)

/-- Two records are pushed before `close` is called, and written. A third one is pushed between the
last poll and the shutdown, which throws it away. -/
def twoRecords : List (Label Nat) :=
  (pushLog 7 ++ pushLog 8 ++ [.closing, .queue .silent, .queue (.popped 7), .wrote 7,
    .queue (.popped 8)]) ++ .polled :: (.wrote 8 :: pushLog 9 ++ [.queue .shutdown, .queue .threw])

theorem run_twoRecords :
    Run (fun s l s' => Step s l s' ∧ Counted s l) (started [.idle] [.idle]) twoRecords
      ⟨⟨[], 3, 2, 0, false, false⟩, [7, 8], .ended, [.idle], [.idle]⟩ := by
  have hpushed : Run Step (started [.idle] [.idle]) (pushLog 7 ++ pushLog 8)
      ⟨⟨[7, 8], 2, 0, 0, true, false⟩, [], .popping, [.idle], [.idle]⟩ :=
    (run_pushLog 7 rfl).append (run_pushLog 8 rfl)
  have hclosing : Run Step ⟨⟨[7, 8], 2, 0, 0, true, false⟩, [], .popping, [.idle], [.idle]⟩
      [.closing, .queue .silent, .queue (.popped 7), .wrote 7, .queue (.popped 8)]
      ⟨⟨[], 2, 2, 0, true, false⟩, [7], .writing 8, [.idle], [.polling]⟩ :=
    .cons (.closer _ _ _ _ _ [] [] _ _ _ (.call _)) <|
      .cons (.closer _ _ _ _ _ [] [] _ _ _ (.again _ (by decide))) <|
      .cons (.writer _ _ _ _ _ _ _ _ _ (.takes _ _ _ 7 rfl rfl)) <|
      .cons (.writer _ _ _ _ _ _ _ _ _ (.writes _ _ 7)) <|
      .single (.writer _ _ _ _ _ _ _ _ _ (.takes _ _ _ 8 rfl rfl))
  have hwritten : Run Step ⟨⟨[], 2, 2, 0, true, false⟩, [7], .writing 8, [.idle], [.shutting]⟩
      (.wrote 8 :: pushLog 9)
      ⟨⟨[9], 3, 2, 0, true, false⟩, [7, 8], .popping, [.idle], [.shutting]⟩ :=
    .cons (.writer _ _ _ _ _ _ _ _ _ (.writes _ _ 8)) (run_pushLog 9 rfl)
  have hlast : Run Step ⟨⟨[9], 3, 2, 0, true, false⟩, [7, 8], .popping, [.idle], [.shutting]⟩
      [.queue .shutdown, .queue .threw]
      ⟨⟨[], 3, 2, 0, false, false⟩, [7, 8], .ended, [.idle], [.idle]⟩ :=
    .cons (.closer _ _ _ _ _ [] [] _ _ _ (.shutdown _))
      (.single (.writer _ _ _ _ _ _ _ _ _ (.ends _ _ rfl rfl)))
  -- the poll that ends the loop finds the queue empty
  have hpolled : Step ⟨⟨[], 2, 2, 0, true, false⟩, [7], .writing 8, [.idle], [.polling]⟩ .polled
      ⟨⟨[], 2, 2, 0, true, false⟩, [7], .writing 8, [.idle], [.shutting]⟩ :=
    .closer _ _ _ _ _ [] [] _ _ _ (.leave _ (by decide))
  refine (run_counted (hpushed.append hclosing) (by simp [pushLog])).append
    (.cons ⟨hpolled, fun _ hcounted => hcounted.2 rfl⟩ (run_counted (hwritten.append hlast) ?_))
  simp [pushLog]

theorem drained_before_end_two :
    beforeClose twoRecords = [7, 8] ∧ beforeClose twoRecords <+: [7, 8]
      ∧ [7, 8] <+: insertions (twoRecords.map Label.onQueue) :=
  ⟨rfl, drained_before_end (by simp) run_twoRecords rfl⟩

end Nrtb.LogWriter
