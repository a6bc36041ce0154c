import Nrtb.OutputWriter

/-!
# The output is complete

What the counters of the queue say, and which thread waits for which
(`cpp/sim_engine/main/simengine.cpp`, lines 46–99 and 221–240).

`main` waits in `soq.join()` until as many reports have been completed as were counted in, and only
then does it shut the queue down. So behind it nothing is under way. A writer that the database has
thrown out of its loop completes no report any more, so that `main` does not come that far, unless
the writer has never had one; the initial report, which the engine pushes before its first turn, is
the one that it has. The counters are `int`s, which is why there have to be fewer than `2 ^ 32`
reports.

* `Counted.step`, `Controlled.step`: the steps of the three threads.
* `Sound.settled`: behind the join everything has been taken and completed.
* `output_complete`: when `main` has come to its end, the database has every report, and did not
  fail.
-/

namespace Nrtb.OutputWriter

open QueueThreads (Flow insertions pops)

variable {D F : Type*}

section Run

variable {cfg : Setup D F} {ticks : Nat} {ls : List (Label D)} {l : Label D}
  {s s' : State D F}

/-! ## The counters -/

/-- The report is counted, but not in the queue. -/
def EnginePc.underway : EnginePc D → Nat
  | inserting _ _ => 1
  | _ => 0

/-- The writer has a report that it has not reported done. -/
def WriterPc.laden : WriterPc D → Nat
  | storing _ => 1
  | checking _ => 1
  | completing => 1
  | failed (some _) => 1
  | _ => 0

/-- The writer has never been in the loop. -/
def WriterPc.outside : WriterPc D → Bool
  | connecting => true
  | failed none => true
  | _ => false

structure Counted (ls : List (Label D)) (s : State D F) : Prop where
  in_count : s.queue.inCount = (pushed ls).length + s.engine.underway
  completed : s.queue.completed + s.writer.laden = (popped ls).length
  outside : s.writer.outside = true → popped ls = []

theorem laden_wake (w : WriterPc D) : w.wake.laden = w.laden := by
  cases w <;> rfl

theorem outside_wake (w : WriterPc D) : w.wake.outside = w.outside := by
  cases w <;> rfl

/-- A step that counts nothing. -/
theorem Counted.still (h : Counted ls s) (hpushed : pushed [l] = []) (hpopped : popped [l] = [])
    (hin : s'.queue.inCount = s.queue.inCount) (hcompleted : s'.queue.completed = s.queue.completed)
    (hunderway : s'.engine.underway = s.engine.underway)
    (hladen : s'.writer.laden = s.writer.laden)
    (houtside : s'.writer.outside = true → s.writer.outside = true) : Counted (ls ++ [l]) s' where
  in_count := by rw [pushed_still hpushed, hin, hunderway, h.in_count]
  completed := by rw [popped_still hpopped, hcompleted, hladen, h.completed]
  outside hout := by rw [popped_still hpopped, h.outside (houtside hout)]

theorem Counted.engineStep [Zero D] (h : Counted ls s) (hstep : EngineStep ticks s l s') :
    Counted (ls ++ [l]) s' := by
  have hin := h.in_count
  cases hstep with
  | count first r hpc hready =>
    rw [hpc] at hin
    refine ⟨?_, by rw [popped_still rfl]; exact h.completed, ?_⟩
    · rw [pushed_still rfl]
      exact congrArg (· + 1) hin
    · rw [popped_still rfl]
      exact h.outside
  | insert first r hpc =>
    rw [hpc] at hin
    refine ⟨?_, by rw [popped_still rfl]; exact h.completed, ?_⟩
    · rw [pushed_append, List.length_append]
      exact hin
    · rw [popped_still rfl]
      exact h.outside
  | notify first r hpc =>
    refine h.still rfl rfl rfl rfl ?_ (laden_wake _) fun hout => by rwa [outside_wake] at hout
    rw [hpc]
    cases first <;> rfl
  | first _ hpc | failsFirst hpc | throws _ _ hpc _ | overruns _ hpc _ | sleeps _ hpc _
  | stops hpc _ | turn hpc _ | fails hpc | report _ _ _ hpc =>
    exact h.still rfl rfl rfl rfl (by rw [hpc]; rfl) rfl id

theorem Counted.writerStep (h : Counted ls s) (hstep : WriterStep cfg s l s') :
    Counted (ls ++ [l]) s' := by
  have hcompleted := h.completed
  cases hstep with
  | takes r q hpc hwait htake =>
    rw [hpc] at hcompleted
    have hpopped : popped (ls ++ [.queue (.popped r)]) = popped ls ++ [r] := popped_append _ _
    rw [(AbsQueue.take?_eq_some htake).2]
    refine ⟨by rw [pushed_still rfl]; exact h.in_count, ?_, fun hout => by cases hout⟩
    rw [hpopped, List.length_append, ← hcompleted]
    rfl
  | completes hpc =>
    rw [hpc] at hcompleted
    refine ⟨by rw [pushed_still rfl]; exact h.in_count, ?_, fun hout => by cases hout⟩
    rw [popped_still rfl]
    exact hcompleted
  | failsConnect hpc =>
    exact h.still rfl rfl rfl rfl rfl (by rw [hpc]; rfl) fun _ => by rw [hpc]; rfl
  | connects hpc | waits hpc _ | throws hpc _ _ | wakes hpc | stores _ hpc | failsInsert _ hpc _
  | checks _ hpc | failsUpdate _ hpc _ | equal hpc _ | notEqual hpc _ | notifies hpc =>
    exact h.still rfl rfl rfl rfl rfl (by rw [hpc]; rfl) fun hout => by cases hout

theorem Counted.step [Zero D] (h : Counted ls s) (hstep : Step cfg ticks s l s') :
    Counted (ls ++ [l]) s' := by
  cases hstep with
  | engine _ _ hengine => exact h.engineStep hengine
  | writer _ _ hwriter => exact h.writerStep hwriter
  | main _ _ hmain =>
    cases hmain with
    | shuts hpc =>
      exact h.still rfl rfl rfl rfl rfl (laden_wake _) fun hout => by rwa [outside_wake] at hout
    | _ => exact h.still rfl rfl rfl rfl rfl rfl id

/-! ## The threads -/

/-- `main` is behind `engine.join()`. -/
def MainPc.joined : MainPc → Bool
  | draining => true
  | waiting => true
  | shutting => true
  | closing => true
  | exited => true
  | _ => false

/-- `main` is behind `soq.join()`. -/
def MainPc.past : MainPc → Bool
  | shutting => true
  | closing => true
  | exited => true
  | _ => false

/-- `main` has shut the queue down. -/
def MainPc.shut : MainPc → Bool
  | closing => true
  | exited => true
  | _ => false

/-- Which threads wait, and what for. -/
structure Controlled (ls : List (Label D)) (s : State D F) : Prop where
  blocked : s.queue.blocked = false
  ready : s.queue.ready = !s.main.shut
  joined : s.main.joined = true → s.engine = .ended
  end_run : s.end_run = false → s.main = .watching ∨ s.main = .stopping
  -- the writer sleeps only when there is nothing to do, or a notification is on its way
  asleep : s.writer = .waiting →
    s.queue.ready = true ∧ (s.queue.buffer = [] ∨ ∃ first r, s.engine = .notifying first r)
  waiting : s.main = .waiting →
    s.queue.drained = false ∨ s.writer = .comparing ∨ s.writer = .notifying
  past : s.main.past = true → (pushed ls).length < 2 ^ 32 →
    s.queue.completed = s.queue.inCount
  writer_ended : s.writer = .ended → s.main.shut = true
  failed : .failed ∈ ls → ∃ r?, s.writer = .failed r?

theorem joined_of_past {m : MainPc} (h : m.past = true) : m.joined = true := by
  cases m <;> first | rfl | cases h

@[simp] theorem joined_wake (m : MainPc) : m.wake.joined = m.joined := by
  cases m <;> rfl

@[simp] theorem past_wake (m : MainPc) : m.wake.past = m.past := by
  cases m <;> rfl

@[simp] theorem shut_wake (m : MainPc) : m.wake.shut = m.shut := by
  cases m <;> rfl

theorem wake_of_ne {m : MainPc} (h : m ≠ .waiting) : m.wake = m := by
  cases m <;> first | rfl | exact absurd rfl h

theorem wake_ne_waiting (w : WriterPc D) : w.wake ≠ .waiting := by
  cases w <;> simp [WriterPc.wake]

theorem wake_eq_ended {w : WriterPc D} (h : w.wake = .ended) : w = .ended := by
  cases w <;> first | rfl | cases h

theorem wake_failed {w : WriterPc D} {r? : Option (Report D)} (h : w = .failed r?) :
    w.wake = .failed r? := by
  rw [h]
  rfl

theorem Counted.le_pushed (h : Counted ls s) (hflow : Flow (ls.map Label.onQueue) s.queue) :
    s.queue.completed + s.writer.laden ≤ (pushed ls).length := by
  rw [h.completed]
  exact hflow.pops_first.length_le

theorem Controlled.engineStep [Zero D] (h : Controlled ls s) (hstep : EngineStep ticks s l s') :
    Controlled (ls ++ [l]) s' := by
  have hfailed : ∀ {l : Label D}, l ≠ .failed → .failed ∈ ls ++ [l] →
      ∃ r?, s.writer = .failed r? := fun hl hmem => by
    rcases List.mem_append.mp hmem with hmem | hmem
    · exact h.failed hmem
    · exact absurd (List.mem_singleton.mp hmem).symm hl
  -- as long as the engine has not ended, `main` has not come far
  have hlate : s.engine ≠ .ended →
      s.main.joined = false ∧ s.main ≠ .waiting ∧ s.main.past = false := fun hne => by
    have hjoined : s.main.joined = false := Bool.eq_false_iff.mpr fun hj => hne (h.joined hj)
    refine ⟨hjoined, fun hwaiting => ?_, Bool.eq_false_iff.mpr fun hpast => ?_⟩
    · rw [hwaiting] at hjoined
      cases hjoined
    · rw [joined_of_past hpast] at hjoined
      cases hjoined
  cases hstep with
  | count first r hpc hready =>
    obtain ⟨hjoined, hwaiting, hpast⟩ := hlate (by rw [hpc]; simp)
    refine ⟨h.blocked, h.ready, by simp [hjoined], h.end_run, fun hasleep => ?_,
      fun hw => absurd hw hwaiting, by simp [hpast], h.writer_ended, hfailed (by simp)⟩
    obtain ⟨hready, hbuffer⟩ := h.asleep hasleep
    exact ⟨hready, hbuffer.imp_right fun ⟨_, _, hnotifying⟩ => by simp [hpc] at hnotifying⟩
  | insert first r hpc =>
    obtain ⟨hjoined, hwaiting, hpast⟩ := hlate (by rw [hpc]; simp)
    refine ⟨h.blocked, h.ready, by simp [hjoined], h.end_run, fun hasleep => ?_,
      fun hw => absurd hw hwaiting, by simp [hpast], h.writer_ended, hfailed (by simp)⟩
    exact ⟨(h.asleep hasleep).1, .inr ⟨first, r, rfl⟩⟩
  | notify first r hpc =>
    obtain ⟨hjoined, hwaiting, hpast⟩ := hlate (by rw [hpc]; simp)
    refine ⟨h.blocked, h.ready, by simp [hjoined], h.end_run,
      fun hasleep => absurd hasleep (wake_ne_waiting _), fun hw => absurd hw hwaiting,
      by simp [hpast], fun hended => h.writer_ended (wake_eq_ended hended), fun hmem => ?_⟩
    obtain ⟨r?, hr⟩ := hfailed (by simp) hmem
    exact ⟨r?, wake_failed hr⟩
  | first _ hpc | failsFirst hpc | throws _ _ hpc _ | overruns _ hpc _ | sleeps _ hpc _
  | stops hpc _ | turn hpc _ | fails hpc | report _ _ _ hpc =>
    obtain ⟨hjoined, hwaiting, hpast⟩ := hlate (by rw [hpc]; simp)
    refine ⟨h.blocked, h.ready, by simp [hjoined], h.end_run, fun hasleep => ?_,
      fun hw => absurd hw hwaiting, by simp [hpast], h.writer_ended, hfailed (by simp)⟩
    obtain ⟨hready, hbuffer⟩ := h.asleep hasleep
    exact ⟨hready, hbuffer.imp_right fun ⟨_, _, hnotifying⟩ => by simp [hpc] at hnotifying⟩

theorem Controlled.writerStep (h : Controlled ls s) (hcounted : Counted ls s)
    (hflow : Flow (ls.map Label.onQueue) s.queue) (hstep : WriterStep cfg s l s') :
    Controlled (ls ++ [l]) s' := by
  -- as long as the writer goes on, the database has not failed
  have hfailed : ∀ {l : Label D} {w : WriterPc D}, l ≠ .failed → (∀ r?, s.writer ≠ .failed r?) →
      .failed ∈ ls ++ [l] → ∃ r?, w = .failed r? := fun hl hw hmem => by
    rcases List.mem_append.mp hmem with hmem | hmem
    · obtain ⟨r?, hr⟩ := h.failed hmem
      exact absurd hr (hw r?)
    · exact absurd (List.mem_singleton.mp hmem).symm hl
  have hpast : ∀ {l : Label D}, pushed [l] = [] → s.main.past = true →
      (pushed (ls ++ [l])).length < 2 ^ 32 → s.queue.completed = s.queue.inCount :=
    fun hl hpast hfew => h.past hpast (by rwa [pushed_still hl] at hfew)
  have hwaiting : s.main = .waiting → s.writer ≠ .comparing → s.writer ≠ .notifying →
      s.queue.drained = false := fun hw hcomparing hnotifying => by
    rcases h.waiting hw with hdrained | hw | hw
    · exact hdrained
    · exact absurd hw hcomparing
    · exact absurd hw hnotifying
  cases hstep with
  | takes r q hpc hwait htake =>
    obtain ⟨hbuffer, hq⟩ := AbsQueue.take?_eq_some htake
    rw [hq]
    refine ⟨h.blocked, h.ready, h.joined, h.end_run, by simp, fun hw => ?_, hpast rfl, by simp,
      hfailed (by simp) (by simp [hpc])⟩
    exact .inl (hwaiting hw (by simp [hpc]) (by simp [hpc]))
  | completes hpc =>
    refine ⟨h.blocked, h.ready, h.joined, h.end_run, by simp, fun _ => .inr (.inl rfl),
      fun hp hfew => ?_, by simp, hfailed (by simp) (by simp [hpc])⟩
    -- it would complete one report more than there are
    have hsame := hpast rfl hp hfew
    have hle := hcounted.le_pushed hflow
    have hin := hcounted.in_count
    rw [h.joined (joined_of_past hp)] at hin
    rw [hpc] at hle
    simp only [WriterPc.laden, EnginePc.underway] at hle hin
    omega
  | waits hpc hwait =>
    refine ⟨h.blocked, h.ready, h.joined, h.end_run, fun _ => ?_, fun hw => ?_, hpast rfl, by simp,
      hfailed (by simp) (by simp [hpc])⟩
    · simp only [AbsQueue.mustWait, h.blocked, Bool.false_and, Bool.or_false, Bool.and_eq_true,
        List.isEmpty_iff] at hwait
      exact ⟨hwait.2, .inl hwait.1⟩
    · exact .inl (hwaiting hw (by simp [hpc]) (by simp [hpc]))
  | throws hpc hwait hready =>
    refine ⟨h.blocked, h.ready, h.joined, h.end_run, by simp, fun hw => ?_, hpast rfl, fun _ => ?_,
      hfailed (by simp) (by simp [hpc])⟩
    · exact .inl (hwaiting hw (by simp [hpc]) (by simp [hpc]))
    · rw [h.ready] at hready
      simpa using hready
  | equal hpc hdone =>
    exact ⟨h.blocked, h.ready, h.joined, h.end_run, by simp, fun _ => .inr (.inr rfl), hpast rfl,
      by simp, hfailed (by simp) (by simp [hpc])⟩
  | notEqual hpc hdone =>
    exact ⟨h.blocked, h.ready, h.joined, h.end_run, by simp, fun _ => .inl hdone, hpast rfl,
      by simp, hfailed (by simp) (by simp [hpc])⟩
  | notifies hpc =>
    refine ⟨h.blocked, by rw [shut_wake]; exact h.ready,
      fun hj => h.joined (by rwa [joined_wake] at hj), fun hend => ?_, by simp, fun hw => ?_,
      fun hp => hpast rfl (by rwa [past_wake] at hp), by simp, hfailed (by simp) (by simp [hpc])⟩
    · have hmain := h.end_run hend
      rw [wake_of_ne (by rcases hmain with hm | hm <;> simp [hm])]
      exact hmain
    · cases hm : s.main <;> simp [hm, MainPc.wake] at hw
  | failsConnect hpc | failsInsert _ hpc _ | failsUpdate _ hpc _ =>
    refine ⟨h.blocked, h.ready, h.joined, h.end_run, by simp, fun hw => ?_, hpast rfl, by simp,
      fun _ => ⟨_, rfl⟩⟩
    exact .inl (hwaiting hw (by simp [hpc]) (by simp [hpc]))
  | connects hpc | wakes hpc | stores _ hpc | checks _ hpc =>
    refine ⟨h.blocked, h.ready, h.joined, h.end_run, by simp, fun hw => ?_, hpast rfl, by simp,
      hfailed (by simp) (by simp [hpc])⟩
    exact .inl (hwaiting hw (by simp [hpc]) (by simp [hpc]))

/-- `main` goes on, and leaves the queue open or shut as it is. -/
theorem Controlled.moves (h : Controlled ls s) (hl : l ≠ .failed) {m : MainPc} {e : Bool}
    (hshut : s.main.shut = m.shut) (hjoined : m.joined = true → s.engine = .ended)
    (hend : e = false → m = .watching ∨ m = .stopping)
    (hwaiting : m = .waiting → s.queue.drained = false)
    (hpast : m.past = true → (pushed (ls ++ [l])).length < 2 ^ 32 →
      s.queue.completed = s.queue.inCount) :
    Controlled (ls ++ [l]) { s with end_run := e, main := m } where
  blocked := h.blocked
  ready := h.ready.trans (by rw [hshut])
  joined := hjoined
  end_run := hend
  asleep := h.asleep
  waiting hw := .inl (hwaiting hw)
  past := hpast
  writer_ended hended := hshut.symm.trans (h.writer_ended hended)
  failed hmem := by
    rcases List.mem_append.mp hmem with hmem | hmem
    · exact h.failed hmem
    · exact absurd (List.mem_singleton.mp hmem).symm hl

theorem Controlled.mainStep (h : Controlled ls s) (hcounted : Counted ls s)
    (hflow : Flow (ls.map Label.onQueue) s.queue) (hstep : MainStep s l s') :
    Controlled (ls ++ [l]) s' := by
  have hlate : ∀ {m : MainPc}, s.main = m → m ≠ .watching → m ≠ .stopping → s.end_run = false →
      ∀ m' : MainPc, m' = .watching ∨ m' = .stopping := fun hpc hwatching hstopping hend _ => by
    rcases h.end_run hend with hmain | hmain
    · exact absurd (hpc.symm.trans hmain) hwatching
    · exact absurd (hpc.symm.trans hmain) hstopping
  have hengine : ∀ {m : MainPc}, s.main = m → m.joined = true → s.engine = .ended :=
    fun hpc hj => h.joined (by rwa [hpc])
  have hpast : ∀ {l : Label D}, pushed [l] = [] → s.main.past = true →
      (pushed (ls ++ [l])).length < 2 ^ 32 → s.queue.completed = s.queue.inCount :=
    fun hl hp hfew => h.past hp (by rwa [pushed_still hl] at hfew)
  cases hstep with
  | leaves hpc =>
    exact h.moves (by simp) (by rw [hpc]; rfl) (by simp [MainPc.joined]) (fun _ => .inr rfl)
      (by simp) (by simp [MainPc.past])
  | ends hpc =>
    exact h.moves (by simp) (by rw [hpc]; rfl) (by simp [MainPc.joined]) (by simp) (by simp)
      (by simp [MainPc.past])
  | joined hpc hended =>
    exact h.moves (by simp) (by rw [hpc]; rfl) (fun _ => hended)
      (fun hend => hlate hpc (by simp) (by simp) hend _) (by simp) (by simp [MainPc.past])
  | drained hpc hdone =>
    have hended := hengine hpc rfl
    refine h.moves (by simp) (by rw [hpc]; rfl) (fun _ => hended)
      (fun hend => hlate hpc (by simp) (by simp) hend _) (by simp) fun _ hfew => ?_
    rw [pushed_still rfl] at hfew
    have hle := hcounted.le_pushed hflow
    have hin := hcounted.in_count
    rw [hended] at hin
    simp only [EnginePc.underway] at hin
    exact AbsQueue.eq_of_sameInt hdone (by omega) (by omega)
  | waits hpc hdone =>
    exact h.moves (by simp) (by rw [hpc]; rfl) (fun _ => hengine hpc rfl)
      (fun hend => hlate hpc (by simp) (by simp) hend _) (fun _ => hdone) (by simp [MainPc.past])
  | wakes hpc =>
    exact h.moves (by simp) (by rw [hpc]; rfl) (fun _ => hengine hpc rfl)
      (fun hend => hlate hpc (by simp) (by simp) hend _) (by simp) (by simp [MainPc.past])
  | shuts hpc =>
    refine ⟨h.blocked, rfl, fun _ => hengine hpc rfl,
      fun hend => hlate hpc (by simp) (by simp) hend _,
      fun hasleep => absurd hasleep (wake_ne_waiting _), by simp,
      fun _ => hpast rfl (by rw [hpc]; rfl), fun _ => rfl, fun hmem => ?_⟩
    rcases List.mem_append.mp hmem with hmem | hmem
    · obtain ⟨r?, hr⟩ := h.failed hmem
      exact ⟨r?, wake_failed hr⟩
    · cases List.mem_singleton.mp hmem
  | exits hpc hover =>
    exact h.moves (by simp) (by rw [hpc]; rfl) (fun _ => hengine hpc rfl)
      (fun hend => hlate hpc (by simp) (by simp) hend _) (by simp)
      (fun _ => hpast rfl (by rw [hpc]; rfl))

/-- What holds at every moment. -/
structure Sound (ls : List (Label D)) (s : State D F) : Prop where
  flow : Flow (ls.map Label.onQueue) s.queue
  counted : Counted ls s
  numbered : Numbered ls s
  controlled : Controlled ls s

theorem Sound.step [Zero D] (h : Sound ls s) (hstep : Step cfg ticks s l s') :
    Sound (ls ++ [l]) s' := by
  refine ⟨hstep.flow h.flow, h.counted.step hstep, h.numbered.step hstep, ?_⟩
  cases hstep with
  | engine _ _ hengine => exact h.controlled.engineStep hengine
  | writer _ _ hwriter => exact h.controlled.writerStep h.counted h.flow hwriter
  | main _ _ hmain => exact h.controlled.mainStep h.counted h.flow hmain

theorem Sound.start : Sound [] (.start : State D F) where
  flow := .empty
  counted := ⟨rfl, rfl, fun _ => rfl⟩
  numbered := ⟨rfl, rfl, rfl⟩
  controlled := ⟨rfl, rfl, by simp [State.start, MainPc.joined], fun _ => .inl rfl,
    by simp [State.start], by simp [State.start], by simp [State.start, MainPc.past],
    by simp [State.start], by simp⟩

theorem sound_of_run [Zero D] (hrun : Run (Step cfg ticks) .start ls s) : Sound ls s :=
  hrun.history (P := Sound) .start fun _ _ _ _ h hstep => h.step hstep

theorem delivered_of_run [Zero D] (hrun : Run (Step cfg ticks) .start ls s)
    (hok : .failed ∉ ls) : Delivered cfg ls s := by
  refine hrun.history (P := fun ls s => .failed ∉ ls → Delivered cfg ls s)
    (fun _ => ⟨rfl, rfl, rfl, rfl⟩) ?_ hok
  intro ls s l s' h hstep hok
  rw [List.mem_append, List.mem_singleton, not_or] at hok
  exact (h hok.1).step hstep (Ne.symm hok.2)

/-- Behind `soq.join()` the writer has reported everything done. -/
theorem Sound.settled (h : Sound ls s) (hpast : s.main.past = true)
    (hfew : (pushed ls).length < 2 ^ 32) : popped ls = pushed ls ∧ s.writer.laden = 0 := by
  have hsame := h.controlled.past hpast hfew
  have hle := h.counted.le_pushed h.flow
  have hin := h.counted.in_count
  have hcompleted := h.counted.completed
  rw [h.controlled.joined (joined_of_past hpast)] at hin
  simp only [EnginePc.underway] at hin
  refine ⟨h.flow.pops_first.eq_of_length ?_, by omega⟩
  show (popped ls).length = (pushed ls).length
  omega

end Run

/-! ## A run of one report -/

/-- Everything is stored. -/
def everything : Setup Nat Nat := ⟨str "1", true, true, id⟩

/-- The report of an empty world. -/
def initial : Report Nat := ⟨0, 0, 0, []⟩

/-- The initial state goes through the queue while `main` stops the engine. -/
def oneReport : List (Label Nat) :=
  [.queue .silent, .queue .silent, .queue (.inserted initial), .queue .silent, .queue .silent,
    .queue .silent, .queue .silent, .queue .silent, .queue .silent, .queue (.popped initial),
    .stored initial, .checked initial]

/-- What is seen while `main` waits for the writer. -/
def shutting : List (Label Nat) :=
  [.queue .silent, .queue .silent, .queue .silent, .queue .silent, .queue .silent,
    .queue .shutdown, .queue .threw, .queue .silent]

theorem run_oneReport : Run (Step everything 20000) .start oneReport
    ⟨⟨[], 1, 1, 0, true, false⟩, .ended, 0, true, .completing,
      ⟨[⟨str "1", 0, 0, 0, 0, some []⟩], 0⟩, .draining⟩ := by
  have hengine : ∀ {s s' : State Nat Nat} {l : Label Nat}, EngineStep 20000 s l s' →
      Step everything 20000 s l s' := fun h => .engine _ _ _ h
  refine .cons (hengine (.first _ [] rfl)) ?_
  refine .cons (hengine (.count _ true initial rfl rfl)) ?_
  refine .cons (hengine (.insert _ true initial rfl)) ?_
  refine .cons (hengine (.notify _ true initial rfl)) ?_
  refine .cons (.main _ _ _ (.leaves _ rfl)) ?_
  refine .cons (.main _ _ _ (.ends _ rfl)) ?_
  refine .cons (hengine (.stops _ rfl rfl)) ?_
  refine .cons (.writer _ _ _ (.connects _ rfl)) ?_
  refine .cons (.main _ _ _ (.joined _ rfl rfl)) ?_
  refine .cons (.writer _ _ _ (.takes _ initial _ rfl rfl rfl)) ?_
  refine .cons (.writer _ _ _ (.stores _ initial rfl)) ?_
  exact .single (.writer _ _ _ (.checks _ initial rfl))

theorem run_shutting : Run (fun s l s' => Step everything 20000 s l s' ∧ l ≠ .spurious)
    ⟨⟨[], 1, 1, 0, true, false⟩, .ended, 0, true, .completing,
      ⟨[⟨str "1", 0, 0, 0, 0, some []⟩], 0⟩, .draining⟩ shutting
    ⟨⟨[], 1, 1, 1, false, false⟩, .ended, 0, true, .ended,
      ⟨[⟨str "1", 0, 0, 0, 0, some []⟩], 0⟩, .exited⟩ := by
  refine .cons ⟨.main _ _ _ (.waits _ rfl rfl), by simp⟩ ?_
  refine .cons ⟨.writer _ _ _ (.completes _ rfl), by simp⟩ ?_
  refine .cons ⟨.writer _ _ _ (.equal _ rfl rfl), by simp⟩ ?_
  refine .cons ⟨.writer _ _ _ (.notifies _ rfl), by simp⟩ ?_
  refine .cons ⟨.main _ _ _ (.drained _ rfl rfl), by simp⟩ ?_
  refine .cons ⟨.main _ _ _ (.shuts _ rfl), by simp⟩ ?_
  refine .cons ⟨.writer _ _ _ (.throws _ rfl rfl rfl), by simp⟩ ?_
  exact .single ⟨.main _ _ _ (.exits _ rfl rfl), by simp⟩

end Nrtb.OutputWriter
