import Nrtb.OutputWriter.Complete

/-!
# The shutdown comes to its end

`cpp/sim_engine/main/simengine.cpp`, lines 221–240: every step of the three threads, once the engine
has been told to stop, brings the end nearer.

`Complete` says what is so when `main` has come to its end; here it comes there. The engine finishes
the turn that it is in, the writer works off what is in the queue, and `main` waits for the one and
then for the other. Each of them has a number of steps left, into which the reports in the queue are
counted for the writer. A step uses up one of its own thread and gives none to the others. And no
thread waits for one that waits for it: the last completion wakes `main`, the shutdown wakes the
writer.

* `Step.left`: how many steps there still are.
* `Sound.goes`: there is one more until `main` exits.
* `shutdown_ends`: when the database does not fail, the shutdown comes to its end.
-/

namespace Nrtb.OutputWriter

open QueueThreads (Flow insertions pops)

variable {D F : Type*}

section Run

variable {cfg : Setup D F} {ticks : Nat} {ls : List (Label D)} {l : Label D}
  {s s' : State D F}

/-! ## The shutdown -/

/-- More than the steps that a thread has still to do, when the engine begins no turn. -/
def EnginePc.left : EnginePc D → Nat
  | starting => 15
  | inTurn => 15
  | counting _ _ => 14
  | inserting _ _ => 13
  | notifying _ _ => 4
  | judging _ => 2
  | looping => 1
  | ended => 0

def WriterPc.left : WriterPc D → Nat
  | storing _ => 7
  | checking _ => 6
  | completing => 5
  | comparing => 4
  | notifying => 3
  | connecting => 2
  | popping => 1
  | _ => 0

def MainPc.left : MainPc → Nat
  | watching => 12
  | stopping => 11
  | joining => 10
  | draining => 9
  | waiting => 8
  | shutting => 7
  | closing => 4
  | exited => 0

def State.left (s : State D F) : Nat :=
  8 * s.queue.buffer.length + s.engine.left + s.writer.left + s.main.left

theorem left_wake (w : WriterPc D) : w.wake.left ≤ w.left + 1 := by
  cases w <;> simp [WriterPc.wake, WriterPc.left]

theorem left_main_wake (m : MainPc) : m.wake.left ≤ m.left + 1 := by
  cases m <;> simp [MainPc.wake, MainPc.left]

theorem EngineStep.left [Zero D] (hend : s.end_run = true) (hstep : EngineStep ticks s l s') :
    s'.left < s.left ∧ s'.end_run = true := by
  cases hstep with
  | turn hpc hgo => exact absurd (hgo.symm.trans hend) (by simp)
  | insert first r hpc =>
    refine ⟨?_, hend⟩
    simp only [State.left, hpc, EnginePc.left, AbsQueue.insert, List.length_append,
      List.length_singleton]
    omega
  | notify first r hpc =>
    refine ⟨?_, hend⟩
    have hwake := left_wake s.writer
    have hnext : (if first then (.looping : EnginePc D) else .judging r.duration).left ≤ 2 := by
      cases first <;> simp [EnginePc.left]
    simp only [State.left, hpc, EnginePc.left] at hnext ⊢
    omega
  | first _ hpc | failsFirst hpc | count _ _ hpc _ | throws _ _ hpc _ | overruns _ hpc _
  | sleeps _ hpc _ | stops hpc _ | fails hpc | report _ _ _ hpc =>
    refine ⟨?_, hend⟩
    simp only [State.left, hpc, EnginePc.left, AbsQueue.countIn]
    omega

theorem WriterStep.left (hend : s.end_run = true) (hstep : WriterStep cfg s l s')
    (hl : l ≠ .spurious) : s'.left < s.left ∧ s'.end_run = true := by
  cases hstep with
  | wakes => exact absurd rfl hl
  | takes r q hpc hwait htake =>
    refine ⟨?_, hend⟩
    have hbuffer := congrArg List.length (AbsQueue.take?_eq_some htake).1
    simp only [State.left, hpc, WriterPc.left, List.length_cons] at hbuffer ⊢
    omega
  | notifies hpc =>
    refine ⟨?_, hend⟩
    have hwake := left_main_wake s.main
    simp only [State.left, hpc, WriterPc.left]
    omega
  | connects hpc | failsConnect hpc | waits hpc _ | throws hpc _ _ | stores _ hpc
  | failsInsert _ hpc _ | checks _ hpc | failsUpdate _ hpc _ | completes hpc | equal hpc _
  | notEqual hpc _ =>
    refine ⟨?_, hend⟩
    simp only [State.left, hpc, WriterPc.left, AbsQueue.complete]
    omega

theorem MainStep.left (hend : s.end_run = true) (hstep : MainStep s l s') (hl : l ≠ .spurious) :
    s'.left < s.left ∧ s'.end_run = true := by
  cases hstep with
  | wakes => exact absurd rfl hl
  | ends hpc =>
    refine ⟨?_, rfl⟩
    simp only [State.left, hpc, MainPc.left]
    omega
  | shuts hpc =>
    refine ⟨?_, hend⟩
    have hwake := left_wake s.writer
    simp only [State.left, hpc, MainPc.left, AbsQueue.shutdown, List.length_nil]
    omega
  | leaves hpc | joined hpc _ | drained hpc _ | waits hpc _ | exits hpc _ =>
    refine ⟨?_, hend⟩
    simp only [State.left, hpc, MainPc.left]
    omega

/-- Once `end_run` is set, every step brings the end nearer. -/
theorem Step.left [Zero D] (hend : s.end_run = true) (hstep : Step cfg ticks s l s')
    (hl : l ≠ .spurious) : s'.left < s.left ∧ s'.end_run = true := by
  cases hstep with
  | engine _ _ hengine => exact hengine.left hend
  | writer _ _ hwriter => exact hwriter.left hend hl
  | main _ _ hmain => exact hmain.left hend hl

/-- A step that is neither a failure of the database nor a wait that ends by itself. -/
def CanGo [Zero D] (cfg : Setup D F) (ticks : Nat) (s : State D F) : Prop :=
  ∃ l s', Step cfg ticks s l s' ∧ l ≠ .spurious ∧ l ≠ .failed

theorem engine_goes [Zero D] (hne : s.engine ≠ .ended) : CanGo cfg ticks s := by
  have hgo : ∀ {l s'}, EngineStep ticks s l s' → l ≠ .spurious → l ≠ .failed →
      CanGo cfg ticks s := fun h hl hl' => ⟨_, _, .engine _ _ _ h, hl, hl'⟩
  cases hpc : s.engine with
  | starting => exact hgo (.first s [] hpc) (by simp) (by simp)
  | counting first r =>
    cases hready : s.queue.ready with
    | true => exact hgo (.count s first r hpc hready) (by simp) (by simp)
    | false => exact hgo (.throws s first r hpc hready) (by simp) (by simp)
  | inserting first r => exact hgo (.insert s first r hpc) (by simp) (by simp)
  | notifying first r => exact hgo (.notify s first r hpc) (by simp) (by simp)
  | judging elapsed =>
    rcases Nat.lt_or_ge elapsed ticks with hin | hover
    · exact hgo (.sleeps s elapsed hpc hin) (by simp) (by simp)
    · exact hgo (.overruns s elapsed hpc hover) (by simp) (by simp)
  | looping =>
    cases hend : s.end_run with
    | true => exact hgo (.stops s hpc hend) (by simp) (by simp)
    | false => exact hgo (.turn s hpc hend) (by simp) (by simp)
  | inTurn => exact hgo (.report s 0 0 [] hpc) (by simp) (by simp)
  | ended => exact absurd hpc hne

theorem writer_goes [Zero D] (hblocked : s.queue.blocked = false) (hwaiting : s.writer ≠ .waiting)
    (hover : s.writer.isOver = false) : CanGo cfg ticks s := by
  have hgo : ∀ {l s'}, WriterStep cfg s l s' → l ≠ .spurious → l ≠ .failed →
      CanGo cfg ticks s := fun h hl hl' => ⟨_, _, .writer _ _ _ h, hl, hl'⟩
  cases hpc : s.writer with
  | connecting => exact hgo (.connects s hpc) (by simp) (by simp)
  | popping =>
    cases hwait : s.queue.mustWait with
    | true => exact hgo (.waits s hpc hwait) (by simp) (by simp)
    | false =>
      cases hready : s.queue.ready with
      | false => exact hgo (.throws s hpc hwait hready) (by simp) (by simp)
      | true =>
        rw [AbsQueue.mustWait_eq hready hblocked] at hwait
        cases hbuffer : s.queue.buffer with
        | nil => simp [hbuffer] at hwait
        | cons r rest =>
          obtain ⟨q, htake⟩ : ∃ q, s.queue.take? = some (r, q) :=
            ⟨_, by rw [AbsQueue.take?, if_pos hready, hbuffer]⟩
          refine hgo (.takes s r q hpc ?_ htake) (by simp) (by simp)
          rw [AbsQueue.mustWait_eq hready hblocked, hwait]
  | waiting => exact absurd hpc hwaiting
  | storing r => exact hgo (.stores s r hpc) (by simp) (by simp)
  | checking r => exact hgo (.checks s r hpc) (by simp) (by simp)
  | completing => exact hgo (.completes s hpc) (by simp) (by simp)
  | comparing =>
    cases hdone : s.queue.drained with
    | true => exact hgo (.equal s hpc hdone) (by simp) (by simp)
    | false => exact hgo (.notEqual s hpc hdone) (by simp) (by simp)
  | notifying => exact hgo (.notifies s hpc) (by simp) (by simp)
  | ended => simp [hpc, WriterPc.isOver] at hover
  | failed r? => simp [hpc, WriterPc.isOver] at hover

/-- Until `main` exits, some thread can go on, unless the database has failed. -/
theorem Sound.goes [Zero D] (h : Sound ls s)
    (hfailed : ∀ r?, s.writer ≠ .failed r?) (hmain : s.main ≠ .exited) : CanGo cfg ticks s := by
  obtain ⟨hblocked, hready, hjoined, _, hasleep, hwaiting, _, hover, _⟩ := h.controlled
  have hgo : ∀ {l s'}, MainStep s l s' → l ≠ .spurious → l ≠ .failed → CanGo cfg ticks s :=
    fun h hl hl' => ⟨_, _, .main _ _ _ h, hl, hl'⟩
  -- a writer that is over has left the loop, on a queue that has been shut down
  have hwriter : s.main.shut = false → s.writer.isOver = false := fun hshut => by
    cases hw : s.writer with
    | ended => rw [hover hw] at hshut; cases hshut
    | failed r? => exact absurd hw (hfailed r?)
    | _ => rfl
  cases hpc : s.main with
  | watching => exact hgo (.leaves s hpc) (by simp) (by simp)
  | stopping => exact hgo (.ends s hpc) (by simp) (by simp)
  | joining =>
    by_cases hengine : s.engine = .ended
    · exact hgo (.joined s hpc hengine) (by simp) (by simp)
    · exact engine_goes hengine
  | draining =>
    cases hdone : s.queue.drained with
    | true => exact hgo (.drained s hpc hdone) (by simp) (by simp)
    | false => exact hgo (.waits s hpc hdone) (by simp) (by simp)
  | waiting =>
    by_cases hasleep' : s.writer = .waiting
    · -- everything has been done, and nobody is to say so
      obtain ⟨hopen, hbuffer⟩ := hasleep hasleep'
      have hengine := hjoined (by rw [hpc]; rfl)
      have hempty : s.queue.buffer = [] := by
        rcases hbuffer with hempty | ⟨first, r, hnotifying⟩
        · exact hempty
        · cases hengine.symm.trans hnotifying
      have horder : pushed ls = popped ls ++ s.queue.buffer := h.flow.order hopen
      have hin := h.counted.in_count
      have hcompleted := h.counted.completed
      rw [hengine] at hin
      rw [hasleep'] at hcompleted
      rw [horder, hempty, List.append_nil, ← hcompleted] at hin
      have hdone : s.queue.drained = true := by
        rw [AbsQueue.drained, hin]
        exact beq_self_eq_true _
      rcases hwaiting hpc with hnot | hw | hw
      · cases hnot.symm.trans hdone
      · cases hasleep'.symm.trans hw
      · cases hasleep'.symm.trans hw
    · exact writer_goes hblocked hasleep' (hwriter (by rw [hpc]; rfl))
  | shutting => exact hgo (.shuts s hpc) (by simp) (by simp)
  | closing =>
    cases hw : s.writer.isOver with
    | true => exact hgo (.exits s hpc hw) (by simp) (by simp)
    | false =>
      refine writer_goes hblocked (fun hasleep' => ?_) hw
      have hopen := (hasleep hasleep').1
      rw [hready, hpc] at hopen
      cases hopen
  | exited => exact absurd hpc hmain

theorem eq_failed_of_wake {w : WriterPc D} {r? : Option (Report D)} (h : w.wake = .failed r?) :
    w = .failed r? := by
  cases w <;> first | exact h | cases h

theorem not_failed_of_run [Zero D] (hrun : Run (Step cfg ticks) .start ls s) (hok : .failed ∉ ls)
    (r? : Option (Report D)) : s.writer ≠ .failed r? := by
  refine fun hr => hok (hrun.history (P := fun ls s => s.writer = .failed r? → .failed ∈ ls)
    (fun hstart => by cases hstart) ?_ hr)
  intro ls s l s' h hstep hr
  rw [List.mem_append]
  cases hstep with
  | engine _ _ hengine =>
    cases hengine with
    | notify => exact .inl (h (eq_failed_of_wake hr))
    | _ => exact .inl (h hr)
  | writer _ _ hwriter =>
    cases hwriter with
    | failsConnect => exact .inr (by simp)
    | failsInsert => exact .inr (by simp)
    | failsUpdate => exact .inr (by simp)
    | _ => cases hr
  | main _ _ hmain =>
    cases hmain with
    | shuts => exact .inl (h (eq_failed_of_wake hr))
    | _ => exact .inl (h hr)

end Run

end Nrtb.OutputWriter
