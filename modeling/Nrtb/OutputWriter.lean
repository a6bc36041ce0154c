import Nrtb.QueueThreads
import Nrtb.Common

/-!
# The output of the engine

`cpp/sim_engine/main/simengine.cpp`, lines 46–99 and 221–240, and
`cpp/sim_engine/sim_core/sim_core.cpp`, lines 83–92, 363–370 and 392–462. The engine pushes a report
of every turn onto a queue, `output_writer` stores them in a database, and `main` stops the engine,
waits until the queue has been drained and shuts it down. The database may fail at any time, which
ends the writer.

These are three threads and one queue, in the steps of `QueueThreads`, and what comes of them is a
list of documents. A report that has been pushed is in the queue, with the writer, or stored, in the
order in which it was pushed; the numbers of the reports go up by one, as the engine counts its
turns where it makes them. Both are invariants of the steps of one thread at a time. The two modules
behind this one use them at the end of a run.

* `Delivered.step`: where the reports are, and what is in the database.
* `Numbered.step`: which report is the next one.
-/

namespace Nrtb.OutputWriter

open QueueThreads (Flow insertions pops)

variable {D F : Type*}

/-! ## Reports and documents -/

/-- `sim_core::report` -/
structure Report (D : Type*) where
  quanta : Nat
  duration : Nat
  wallclock : D
  objects : List Str

/-- What is stored of a report. -/
structure Document (F : Type*) where
  sim_id : Str
  quanta : Nat
  obj_count : Nat
  ticks : Nat
  run_sec : F
  objects : Option (List Str)

/-- The arguments of `output_writer`, and `float(double)`. -/
structure Setup (D F : Type*) where
  id : Str
  write_zeros : Bool
  write_bots : Bool
  narrow : D → F

/-- The numbers are converted to `unsigned`. -/
def document (cfg : Setup D F) (rep : Report D) : Option (Document F) :=
  if cfg.write_zeros ∨ rep.objects.length ≠ 0 then
    some ⟨cfg.id, rep.quanta % 2 ^ 32, rep.objects.length % 2 ^ 32, rep.duration % 2 ^ 32,
      cfg.narrow rep.wallclock, if cfg.write_bots then some rep.objects else none⟩
  else none

/-- `nrtb.quanta`, and `last_checkpoint` of the run in `nrtb.sim_setup`. -/
structure Db (F : Type*) where
  documents : List (Document F)
  last_checkpoint : Nat

/-- `save the quanta to the database` -/
def Db.insert (cfg : Setup D F) (db : Db F) (rep : Report D) : Db F :=
  match document cfg rep with
  | some d => { db with documents := db.documents ++ [d] }
  | none => db

/-- `is it time for a checkpoint update?` -/
def Db.update (db : Db F) (rep : Report D) : Db F :=
  if rep.quanta % 50 = 0 then { db with last_checkpoint := rep.quanta % 2 ^ 32 } else db

/-! ## The threads -/

/-- Where `run_sim` is. -/
inductive EnginePc (D : Type*) where
  | starting
  -- in `push`; the first report is that of the initial state
  | counting (first : Bool) (r : Report D)
  | inserting (first : Bool) (r : Report D)
  | notifying (first : Bool) (r : Report D)
  -- about to check for overrun
  | judging (elapsed : Nat)
  -- about to test `end_run`
  | looping
  | inTurn
  | ended

/-- Where `output_writer` is. -/
inductive WriterPc (D : Type*) where
  | connecting
  -- in `pop`, about to take `mylock` and test
  | popping
  -- in `signal.wait`
  | waiting
  -- about to insert the document
  | storing (r : Report D)
  -- about to update the checkpoint
  | checking (r : Report D)
  -- in `task_done`
  | completing
  | comparing
  | notifying
  -- left the loop, on `queue_not_ready`
  | ended
  -- left the loop on an exception of the database, with what it had popped
  | failed (r? : Option (Report D))

/-- Where `main` is. -/
inductive MainPc where
  -- in the health check loop
  | watching
  -- in `stop_sim`, about to store `end_run`
  | stopping
  -- in `engine.join()`
  | joining
  -- in `soq.join()`, about to test
  | draining
  -- in `sigdone.wait`
  | waiting
  | shutting
  -- in `writer.join()`
  | closing
  | exited
deriving DecidableEq

inductive Label (D : Type*) where
  -- what is seen of the queue
  | queue (l : QueueThreads.Label (Report D))
  | stored (r : Report D)
  | checked (r : Report D)
  -- an exception of the database
  | failed
  -- a wait ends without a notification
  | spurious

/-- What the queue sees of a step. -/
def Label.onQueue : Label D → QueueThreads.Label (Report D)
  | queue l => l
  | _ => .silent

structure State (D F : Type*) where
  queue : AbsQueue (Report D)
  engine : EnginePc D
  quanta : Nat
  end_run : Bool
  writer : WriterPc D
  db : Db F
  main : MainPc

/-- As `main` has started the threads. -/
def State.start : State D F :=
  ⟨.empty, .starting, 0, false, .connecting, ⟨[], 0⟩, .watching⟩

/-- `signal.notify_one()`, `signal.notify_all()` -/
def WriterPc.wake : WriterPc D → WriterPc D
  | waiting => popping
  | w => w

/-- The thread is over. -/
def WriterPc.isOver : WriterPc D → Bool
  | ended => true
  | failed _ => true
  | _ => false

/-- `sigdone.notify_all()` -/
def MainPc.wake : MainPc → MainPc
  | waiting => draining
  | m => m

section Steps

variable (cfg : Setup D F) (ticks : Nat)

inductive EngineStep [Zero D] : State D F → Label D → State D F → Prop
  | first (s : State D F) (objects : List Str) (hpc : s.engine = .starting) :
      EngineStep s (.queue .silent)
        { s with engine := .counting true ⟨s.quanta, 0, 0, objects⟩ }
  -- a thread cannot be started
  | failsFirst (s : State D F) (hpc : s.engine = .starting) :
      EngineStep s (.queue .silent) { s with engine := .ended }
  | count (s : State D F) (first : Bool) (r : Report D) (hpc : s.engine = .counting first r)
      (hready : s.queue.ready = true) :
      EngineStep s (.queue .silent)
        { s with queue := s.queue.countIn, engine := .inserting first r }
  | throws (s : State D F) (first : Bool) (r : Report D) (hpc : s.engine = .counting first r)
      (hready : s.queue.ready = false) :
      EngineStep s (.queue .threw) { s with engine := .ended }
  | insert (s : State D F) (first : Bool) (r : Report D) (hpc : s.engine = .inserting first r) :
      EngineStep s (.queue (.inserted r))
        { s with queue := s.queue.insert r, engine := .notifying first r }
  -- nobody blocks this queue
  | notify (s : State D F) (first : Bool) (r : Report D) (hpc : s.engine = .notifying first r) :
      EngineStep s (.queue .silent)
        { s with writer := s.writer.wake
                 quanta := if first then 0 else s.quanta
                 engine := if first then .looping else .judging r.duration }
  | overruns (s : State D F) (elapsed : Nat) (hpc : s.engine = .judging elapsed)
      (hover : ticks ≤ elapsed) : EngineStep s (.queue .silent) { s with engine := .ended }
  | sleeps (s : State D F) (elapsed : Nat) (hpc : s.engine = .judging elapsed)
      (hover : elapsed < ticks) : EngineStep s (.queue .silent) { s with engine := .looping }
  | stops (s : State D F) (hpc : s.engine = .looping) (hend : s.end_run = true) :
      EngineStep s (.queue .silent) { s with engine := .ended }
  | turn (s : State D F) (hpc : s.engine = .looping) (hend : s.end_run = false) :
      EngineStep s (.queue .silent) { s with quanta := s.quanta + 1, engine := .inTurn }
  -- an exception leaves the turn
  | fails (s : State D F) (hpc : s.engine = .inTurn) :
      EngineStep s (.queue .silent) { s with engine := .ended }
  | report (s : State D F) (elapsed : Nat) (wallclock : D) (objects : List Str)
      (hpc : s.engine = .inTurn) :
      EngineStep s (.queue .silent)
        { s with engine := .counting false ⟨s.quanta, elapsed, wallclock, objects⟩ }

inductive WriterStep : State D F → Label D → State D F → Prop
  | connects (s : State D F) (hpc : s.writer = .connecting) :
      WriterStep s (.queue .silent) { s with writer := .popping }
  | failsConnect (s : State D F) (hpc : s.writer = .connecting) :
      WriterStep s .failed { s with writer := .failed none }
  | waits (s : State D F) (hpc : s.writer = .popping) (hwait : s.queue.mustWait = true) :
      WriterStep s (.queue .silent) { s with writer := .waiting }
  | takes (s : State D F) (r : Report D) (q : AbsQueue (Report D)) (hpc : s.writer = .popping)
      (hwait : s.queue.mustWait = false) (htake : s.queue.take? = some (r, q)) :
      WriterStep s (.queue (.popped r)) { s with queue := q, writer := .storing r }
  | throws (s : State D F) (hpc : s.writer = .popping) (hwait : s.queue.mustWait = false)
      (hready : s.queue.ready = false) :
      WriterStep s (.queue .threw) { s with writer := .ended }
  | wakes (s : State D F) (hpc : s.writer = .waiting) :
      WriterStep s .spurious { s with writer := .popping }
  | stores (s : State D F) (r : Report D) (hpc : s.writer = .storing r) :
      WriterStep s (.stored r) { s with db := s.db.insert cfg r, writer := .checking r }
  | failsInsert (s : State D F) (r : Report D) (hpc : s.writer = .storing r)
      (hdocument : document cfg r ≠ none) :
      WriterStep s .failed { s with writer := .failed (some r) }
  | checks (s : State D F) (r : Report D) (hpc : s.writer = .checking r) :
      WriterStep s (.checked r) { s with db := s.db.update r, writer := .completing }
  | failsUpdate (s : State D F) (r : Report D) (hpc : s.writer = .checking r)
      (hcheckpoint : r.quanta % 50 = 0) :
      WriterStep s .failed { s with writer := .failed (some r) }
  | completes (s : State D F) (hpc : s.writer = .completing) :
      WriterStep s (.queue .silent) { s with queue := s.queue.complete, writer := .comparing }
  -- this thread alone changes `completed`
  | equal (s : State D F) (hpc : s.writer = .comparing) (hdone : s.queue.drained = true) :
      WriterStep s (.queue .silent) { s with writer := .notifying }
  | notEqual (s : State D F) (hpc : s.writer = .comparing) (hdone : s.queue.drained = false) :
      WriterStep s (.queue .silent) { s with writer := .popping }
  | notifies (s : State D F) (hpc : s.writer = .notifying) :
      WriterStep s (.queue .silent) { s with main := s.main.wake, writer := .popping }

inductive MainStep : State D F → Label D → State D F → Prop
  | leaves (s : State D F) (hpc : s.main = .watching) :
      MainStep s (.queue .silent) { s with main := .stopping }
  | ends (s : State D F) (hpc : s.main = .stopping) :
      MainStep s (.queue .silent) { s with end_run := true, main := .joining }
  | joined (s : State D F) (hpc : s.main = .joining) (hengine : s.engine = .ended) :
      MainStep s (.queue .silent) { s with main := .draining }
  | drained (s : State D F) (hpc : s.main = .draining) (hdone : s.queue.drained = true) :
      MainStep s (.queue .silent) { s with main := .shutting }
  -- the test and the wait are one critical section of `joinlock`
  | waits (s : State D F) (hpc : s.main = .draining) (hdone : s.queue.drained = false) :
      MainStep s (.queue .silent) { s with main := .waiting }
  | wakes (s : State D F) (hpc : s.main = .waiting) :
      MainStep s .spurious { s with main := .draining }
  | shuts (s : State D F) (hpc : s.main = .shutting) :
      MainStep s (.queue .shutdown)
        { s with queue := s.queue.shutdown, writer := s.writer.wake, main := .closing }
  | exits (s : State D F) (hpc : s.main = .closing) (hover : s.writer.isOver = true) :
      MainStep s (.queue .silent) { s with main := .exited }

inductive Step [Zero D] : State D F → Label D → State D F → Prop
  | engine (s s' : State D F) (l : Label D) (h : EngineStep ticks s l s') : Step s l s'
  | writer (s s' : State D F) (l : Label D) (h : WriterStep cfg s l s') : Step s l s'
  | main (s s' : State D F) (l : Label D) (h : MainStep s l s') : Step s l s'

end Steps

/-! ## What a run has done -/

section Log

variable (ls : List (Label D))

/-- The reports in the order in which they went into the queue. -/
def pushed : List (Report D) := insertions (ls.map Label.onQueue)

/-- The reports that the writer took out. -/
def popped : List (Report D) := pops (ls.map Label.onQueue)

/-- The reports of which the document was inserted, or was not asked for. -/
def stored : List (Report D) :=
  ls.filterMap fun
    | .stored r => some r
    | _ => none

/-- The reports behind the update of the checkpoint. -/
def checked : List (Report D) :=
  ls.filterMap fun
    | .checked r => some r
    | _ => none

variable (l : Label D)

theorem pushed_append : pushed (ls ++ [l]) = pushed ls ++ pushed [l] := by
  simp [pushed]

theorem popped_append : popped (ls ++ [l]) = popped ls ++ popped [l] := by
  simp [popped]

theorem stored_append : stored (ls ++ [l]) = stored ls ++ stored [l] :=
  List.filterMap_append

theorem checked_append : checked (ls ++ [l]) = checked ls ++ checked [l] :=
  List.filterMap_append

variable {ls l}

theorem pushed_still (h : pushed [l] = []) : pushed (ls ++ [l]) = pushed ls := by
  rw [pushed_append, h, List.append_nil]

theorem popped_still (h : popped [l] = []) : popped (ls ++ [l]) = popped ls := by
  rw [popped_append, h, List.append_nil]

theorem stored_still (h : stored [l] = []) : stored (ls ++ [l]) = stored ls := by
  rw [stored_append, h, List.append_nil]

theorem checked_still (h : checked [l] = []) : checked (ls ++ [l]) = checked ls := by
  rw [checked_append, h, List.append_nil]

end Log

/-- The checkpoint behind some reports. -/
def lastCheckpoint (rs : List (Report D)) : Nat :=
  rs.foldl (fun c r => if r.quanta % 50 = 0 then r.quanta % 2 ^ 32 else c) 0

section Run

variable {cfg : Setup D F} {ticks : Nat} {ls : List (Label D)} {l : Label D}
  {s s' : State D F}

/-! ## The reports -/

/-- The queue keeps its order. -/
theorem Step.flow [Zero D] (h : Flow (ls.map Label.onQueue) s.queue)
    (hstep : Step cfg ticks s l s') : Flow ((ls ++ [l]).map Label.onQueue) s'.queue := by
  rw [List.map_append]
  cases hstep with
  | engine _ _ hengine =>
    cases hengine with
    | insert first r hpc => exact h.insert r
    | _ => exact h.still rfl rfl rfl rfl rfl
  | writer _ _ hwriter =>
    cases hwriter with
    | takes r q hpc hwait htake => exact h.pop htake
    | _ => exact h.still rfl rfl rfl rfl rfl
  | main _ _ hmain =>
    cases hmain with
    | shuts hpc => exact h.shutdown
    | _ => exact h.still rfl rfl rfl rfl rfl

/-- What the writer has taken and not stored. -/
def WriterPc.unstored : WriterPc D → List (Report D)
  | storing r => [r]
  | _ => []

/-- What it has stored without the checkpoint. -/
def WriterPc.unchecked : WriterPc D → List (Report D)
  | checking r => [r]
  | _ => []

/-- Where the reports are, as long as the database does not fail. -/
structure Delivered (cfg : Setup D F) (ls : List (Label D)) (s : State D F) : Prop where
  taken : popped ls = stored ls ++ s.writer.unstored
  halfway : stored ls = checked ls ++ s.writer.unchecked
  documents : s.db.documents = (stored ls).filterMap (document cfg)
  checkpoint : s.db.last_checkpoint = lastCheckpoint (checked ls)

theorem Db.insert_documents (db : Db F) (r : Report D) :
    (db.insert cfg r).documents = db.documents ++ (document cfg r).toList := by
  unfold Db.insert
  cases document cfg r with
  | none => simp
  | some d => rfl

theorem Db.insert_last_checkpoint (db : Db F) (r : Report D) :
    (db.insert cfg r).last_checkpoint = db.last_checkpoint := by
  unfold Db.insert
  cases document cfg r <;> rfl

theorem Db.update_documents (db : Db F) (r : Report D) :
    (db.update r).documents = db.documents := by
  unfold Db.update
  split <;> rfl

theorem lastCheckpoint_append (rs : List (Report D)) (r : Report D) (db : Db F)
    (h : db.last_checkpoint = lastCheckpoint rs) :
    (db.update r).last_checkpoint = lastCheckpoint (rs ++ [r]) := by
  rw [lastCheckpoint, List.foldl_append, List.foldl_cons, List.foldl_nil, ← lastCheckpoint, ← h,
    Db.update]
  split <;> rfl

theorem unstored_wake (w : WriterPc D) : w.wake.unstored = w.unstored := by
  cases w <;> rfl

theorem unchecked_wake (w : WriterPc D) : w.wake.unchecked = w.unchecked := by
  cases w <;> rfl

/-- A step that moves no report and leaves the database alone. -/
theorem Delivered.still (h : Delivered cfg ls s) (hpopped : popped [l] = [])
    (hstored : stored [l] = []) (hchecked : checked [l] = [])
    (hunstored : s'.writer.unstored = s.writer.unstored)
    (hunchecked : s'.writer.unchecked = s.writer.unchecked) (hdb : s'.db = s.db) :
    Delivered cfg (ls ++ [l]) s' where
  taken := by rw [popped_still hpopped, stored_still hstored, hunstored, h.taken]
  halfway := by rw [stored_still hstored, checked_still hchecked, hunchecked, h.halfway]
  documents := by rw [stored_still hstored, hdb, h.documents]
  checkpoint := by rw [checked_still hchecked, hdb, h.checkpoint]

theorem Delivered.writerStep (h : Delivered cfg ls s) (hstep : WriterStep cfg s l s')
    (hok : l ≠ .failed) : Delivered cfg (ls ++ [l]) s' := by
  obtain ⟨htaken, hhalfway, hdocuments, hcheckpoint⟩ := h
  cases hstep with
  | failsConnect => exact absurd rfl hok
  | failsInsert => exact absurd rfl hok
  | failsUpdate => exact absurd rfl hok
  | takes r q hpc hwait htake =>
    rw [hpc] at htaken hhalfway
    refine ⟨?_, ?_, ?_, ?_⟩
    · rw [popped_append, stored_still rfl, htaken]
      exact (congrArg (· ++ [r]) (List.append_nil _))
    · rw [stored_still rfl, checked_still rfl, hhalfway]
      rfl
    · rw [stored_still rfl]
      exact hdocuments
    · rw [checked_still rfl]
      exact hcheckpoint
  | stores r hpc =>
    rw [hpc] at htaken hhalfway
    have hstored : stored (ls ++ [.stored r]) = stored ls ++ [r] := stored_append _ _
    refine ⟨?_, ?_, ?_, ?_⟩
    · rw [popped_still rfl, hstored, htaken]
      exact (List.append_nil _).symm
    · rw [hstored, checked_still rfl, hhalfway]
      exact congrArg (· ++ [r]) (List.append_nil _)
    · rw [hstored, List.filterMap_append, Db.insert_documents, hdocuments]
      cases hdocument : document cfg r <;> simp [hdocument]
    · rw [checked_still rfl, Db.insert_last_checkpoint]
      exact hcheckpoint
  | checks r hpc =>
    rw [hpc] at htaken hhalfway
    have hchecked : checked (ls ++ [.checked r]) = checked ls ++ [r] := checked_append _ _
    refine ⟨?_, ?_, ?_, ?_⟩
    · rw [popped_still rfl, stored_still rfl, htaken]
      rfl
    · rw [stored_still rfl, hchecked, hhalfway]
      exact (List.append_nil _).symm
    · rw [stored_still rfl, Db.update_documents]
      exact hdocuments
    · rw [hchecked]
      exact lastCheckpoint_append _ r _ hcheckpoint
  | connects hpc | waits hpc _ | throws hpc _ _ | wakes hpc | completes hpc | equal hpc _
  | notEqual hpc _ | notifies hpc =>
    exact (Delivered.mk htaken hhalfway hdocuments hcheckpoint).still rfl rfl rfl
      (by rw [hpc]; rfl) (by rw [hpc]; rfl) rfl

theorem Delivered.step [Zero D] (h : Delivered cfg ls s) (hstep : Step cfg ticks s l s')
    (hok : l ≠ .failed) : Delivered cfg (ls ++ [l]) s' := by
  cases hstep with
  | engine _ _ hengine =>
    cases hengine with
    | notify => exact h.still rfl rfl rfl (unstored_wake _) (unchecked_wake _) rfl
    | _ => exact h.still rfl rfl rfl rfl rfl rfl
  | writer _ _ hwriter => exact h.writerStep hwriter hok
  | main _ _ hmain =>
    cases hmain with
    | shuts => exact h.still rfl rfl rfl (unstored_wake _) (unchecked_wake _) rfl
    | _ => exact h.still rfl rfl rfl rfl rfl rfl

/-! ## The turns -/

/-- What the engine counts when `n` reports are in the queue. -/
def EnginePc.Counts (quanta n : Nat) : EnginePc D → Prop
  | starting => quanta = 0 ∧ n = 0
  | counting first r => r.quanta = n ∧ quanta = n ∧ (first = true → n = 0)
  | inserting first r => r.quanta = n ∧ quanta = n ∧ (first = true → n = 0)
  | notifying first _ => quanta + 1 = n ∧ (first = true → n = 1)
  | judging _ => quanta + 1 = n
  | looping => quanta + 1 = n
  | inTurn => quanta = n
  | ended => True

/-- There is a report of every turn, and one of the initial state. -/
structure Numbered (ls : List (Label D)) (s : State D F) : Prop where
  numbers : (pushed ls).map Report.quanta = List.range (pushed ls).length
  counts : s.engine.Counts s.quanta (pushed ls).length

theorem Numbered.still (h : Numbered ls s) (hpushed : pushed [l] = [])
    (hcounts : s'.engine.Counts s'.quanta (pushed ls).length) : Numbered (ls ++ [l]) s' := by
  have hsame : pushed (ls ++ [l]) = pushed ls := pushed_still hpushed
  exact ⟨by rw [hsame, h.numbers], by rw [hsame]; exact hcounts⟩

theorem Numbered.engineStep [Zero D] (h : Numbered ls s) (hstep : EngineStep ticks s l s') :
    Numbered (ls ++ [l]) s' := by
  have hcounts := h.counts
  cases hstep with
  | insert first r hpc =>
    rw [hpc] at hcounts
    obtain ⟨hr, hquanta, hfirst⟩ := hcounts
    have hpushed : pushed (ls ++ [.queue (.inserted r)]) = pushed ls ++ [r] := pushed_append _ _
    refine ⟨?_, ?_⟩
    · rw [hpushed, List.map_append, h.numbers, List.length_append, List.map_singleton, hr]
      exact List.range_succ.symm
    · rw [hpushed, List.length_append]
      exact ⟨by rw [hquanta]; rfl, fun htrue => by rw [hfirst htrue]; rfl⟩
  | first objects hpc =>
    rw [hpc] at hcounts
    obtain ⟨hquanta, hn⟩ := hcounts
    exact h.still rfl ⟨hquanta.trans hn.symm, hquanta.trans hn.symm, fun _ => hn⟩
  | count first r hpc hready =>
    rw [hpc] at hcounts
    exact h.still rfl hcounts
  | notify first r hpc =>
    rw [hpc] at hcounts
    obtain ⟨hquanta, hfirst⟩ := hcounts
    refine h.still rfl ?_
    cases first with
    | true => exact (hfirst rfl).symm
    | false => exact hquanta
  | sleeps elapsed hpc hover =>
    rw [hpc] at hcounts
    exact h.still rfl hcounts
  | turn hpc hend =>
    rw [hpc] at hcounts
    exact h.still rfl hcounts
  | report elapsed wallclock objects hpc =>
    rw [hpc] at hcounts
    have hn : s.quanta = (pushed ls).length := hcounts
    exact h.still rfl ⟨hn, hn, by simp⟩
  | _ => exact h.still rfl trivial

theorem Numbered.step [Zero D] (h : Numbered ls s) (hstep : Step cfg ticks s l s') :
    Numbered (ls ++ [l]) s' := by
  cases hstep with
  | engine _ _ hengine => exact h.engineStep hengine
  | writer _ _ hwriter => cases hwriter <;> exact h.still rfl h.counts
  | main _ _ hmain => cases hmain <;> exact h.still rfl h.counts

/-- The checkpoint behind the reports of the first turns. -/
theorem lastCheckpoint_of_numbers {rs : List (Report D)}
    (h : rs.map Report.quanta = List.range rs.length) :
    lastCheckpoint rs = (rs.length - 1) / 50 * 50 % 2 ^ 32 := by
  induction rs using List.reverseRecOn with
  | nil => simp [lastCheckpoint]
  | append_singleton rs r ih =>
    rw [List.map_append, List.length_append, List.map_singleton, List.length_singleton,
      List.range_succ] at h
    obtain ⟨hrs, hr⟩ := List.append_inj' h rfl
    have hquanta : r.quanta = rs.length := List.singleton_inj.mp hr
    rw [lastCheckpoint, List.foldl_append, List.foldl_cons, List.foldl_nil, ← lastCheckpoint,
      ih hrs, List.length_append, List.length_singleton, hquanta]
    split
    · omega
    · omega

end Run

end Nrtb.OutputWriter
