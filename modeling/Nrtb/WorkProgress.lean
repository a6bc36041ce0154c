import Nrtb.WorkPhase
import Mathlib.Algebra.Order.BigOperators.Group.List

/-!
# Progress of a phase

A phase whose methods return comes to its end, however the threads are scheduled. There are two
halves to that. No wake-up is lost: whenever there is a packet in the buffer some worker is awake to
see it, and when the last packet is done some worker still has to find the counters equal and to
notify `join` (`Awake`). And nothing goes on for ever: every thread has a number of steps left,
which every step but a spurious wake-up makes smaller.

* `Awake.step`: no wake-up is lost, neither of a worker by `push` nor of `join` by `task_done`.
* `progress`: until `join` has returned, somebody can go on.
* `effort_step`: every step that is no spurious wake-up uses up some of the remaining effort; a
  spurious one adds at most itself and one more test.
* `Sound.step`: all of this together with the accounts, for the phases of a `tick()`.
-/

namespace Nrtb.WorkPhase

variable {ι : Type*}

/-! ## No wake-up is lost -/

namespace WorkerPc

/-- The worker is in its loop. -/
def running : WorkerPc ι → Bool
  | exited => false
  | failed _ => false
  | _ => true

/-- The worker is about to find the counters of the queue equal, or has found them so. -/
def reports (q : AbsQueue (List ι)) : WorkerPc ι → Prop
  | comparing c n => (c = none ∨ c = some q.completed) ∧ (n = none ∨ n = some q.inCount)
  | notifying => True
  | _ => False

end WorkerPc

/-- The workers are in their loops, one of them will see what is in the buffer, and one of them
will tell the waiting thread that the queue is drained. -/
structure Awake (p : Phase ι) : Prop where
  running : ∀ w ∈ p.workers, w.running = true
  somebody : p.workers ≠ []
  seen : p.shared.queue.buffer ≠ [] →
    (∃ rest, p.shared.main = .notify rest) ∨ ∃ w ∈ p.workers, w ≠ .waiting
  told : p.shared.main = .waiting → p.shared.queue.drained = true →
    ∃ w ∈ p.workers, w.reports p.shared.queue

section Awake

variable {packets : List (List ι)} {records : ι → Bool → Bool} {s s' : Shared ι}
  {w w' : WorkerPc ι} {l : Label ι} {p p' : Phase ι}

/-- The flags that no phase changes. -/
def Open (s : Shared ι) : Prop :=
  s.queue.ready = true ∧ s.queue.blocked = false ∧ s.out.ready = true

theorem WorkerPc.reports_congr {q q' : AbsQueue (List ι)} (hcompleted : q'.completed = q.completed)
    (hcount : q'.inCount = q.inCount) (h : w.reports q) : w.reports q' := by
  cases w with
  | comparing c n =>
    rw [WorkerPc.reports, hcompleted, hcount]
    exact h
  | notifying => trivial
  | _ => exact h

theorem WorkerStep.running (h : WorkerStep records (fun _ => False) s w l s' w') (hopen : Open s) :
    w'.running = true := by
  obtain ⟨hready, _, hout⟩ := hopen
  cases h with
  | popThrows _ hnot =>
    rw [hready] at hnot
    cases hnot
  | finish i todo answer => split <;> rfl
  | throw i todo hthrows => exact hthrows.elim
  | foundThrows i todo hnot =>
    rw [hout] at hnot
    cases hnot
  | _ => rfl

/-- A worker goes to wait only when the buffer is empty. -/
theorem WorkerStep.seen (h : WorkerStep records (fun _ => False) s w l s' w') (hopen : Open s)
    (hbuffer : s'.queue.buffer ≠ []) : w' ≠ .waiting := by
  obtain ⟨hready, hblocked, _⟩ := hopen
  cases h with
  | popWaits hwait =>
    rw [AbsQueue.mustWait_eq hready hblocked] at hwait
    exact absurd (List.isEmpty_iff.mp hwait) hbuffer
  | finish i todo answer => split <;> exact nofun
  | _ => exact nofun

/-- When the waiting thread has to be told, the worker that moved is going to do it, or it was
not the one. -/
theorem WorkerStep.told (h : WorkerStep records (fun _ => False) s w l s' w')
    (hmain : s'.main = .waiting) (hdrained : s'.queue.drained = true) :
    w'.reports s'.queue ∨ s.main = .waiting ∧ s'.queue.completed = s.queue.completed
      ∧ s'.queue.inCount = s.queue.inCount ∧ ¬ w.reports s.queue := by
  cases h with
  | popTakes pk q _ htake =>
    obtain ⟨_, hq⟩ := AbsQueue.take?_eq_some htake
    rw [hq]
    exact .inr ⟨hmain, rfl, rfl, fun h => h⟩
  | taskDone => exact .inl ⟨.inl rfl, .inl rfl⟩
  | loadCompleted n =>
    by_cases hreports : WorkerPc.reports s.queue (.comparing none n)
    · exact .inl ⟨.inr rfl, hreports.2⟩
    · exact .inr ⟨hmain, rfl, rfl, hreports⟩
  | loadInCount c =>
    by_cases hreports : WorkerPc.reports s.queue (.comparing c none)
    · exact .inl ⟨hreports.1, .inr rfl⟩
    · exact .inr ⟨hmain, rfl, rfl, hreports⟩
  | equal c n _ => exact .inl trivial
  | notEqual c n hsame =>
    -- current values that differ contradict the drained queue
    refine .inr ⟨hmain, rfl, rfl, fun hreports => ?_⟩
    obtain ⟨hc | hc, hn | hn⟩ := hreports
    · cases hc
    · cases hc
    · cases hn
    · obtain rfl := Option.some.inj hc
      obtain rfl := Option.some.inj hn
      rw [AbsQueue.drained, hsame] at hdrained
      cases hdrained
  | notifyAll hwaiting => cases hmain
  | notifyNobody hnot => exact absurd hmain hnot
  | _ => exact .inr ⟨hmain, rfl, rfl, fun h => h⟩

theorem Awake.worker {pre post : List (WorkerPc ι)} (h : Awake ⟨s, pre ++ w :: post⟩)
    (hopen : Open s) (hstep : WorkerStep records (fun _ => False) s w l s' w') :
    Awake ⟨s', pre ++ w' :: post⟩ := by
  constructor
  · intro v hv
    rcases List.mem_append.mp hv with hv | hv
    · exact h.running v (List.mem_append_left _ hv)
    · rcases List.mem_cons.mp hv with rfl | hv
      · exact hstep.running hopen
      · exact h.running v (List.mem_append_right _ (List.mem_cons_of_mem _ hv))
  · simp
  · exact fun hbuffer => .inr ⟨w', by simp, hstep.seen hopen hbuffer⟩
  · intro hmain hdrained
    rcases hstep.told hmain hdrained with hw' | ⟨hwaiting, hcompleted, hcount, hw⟩
    · exact ⟨w', by simp, hw'⟩
    · have hdrained' : s.queue.drained = true := by
        rw [AbsQueue.drained, ← hcompleted, ← hcount]
        exact hdrained
      obtain ⟨v, hv, hreports⟩ := h.told hwaiting hdrained'
      have hne : v ≠ w := fun heq => hw (heq ▸ hreports)
      have hothers : v ∈ pre ∨ v ∈ post := by simpa [hne] using hv
      refine ⟨v, ?_, WorkerPc.reports_congr hcompleted hcount hreports⟩
      rcases hothers with hv | hv <;> simp [hv]

theorem Awake.main (h : Awake p) (hopen : Open p.shared) (hstep : MainStep packets p l p') :
    Awake p' := by
  obtain ⟨hrunning, hsomebody, hseen, _⟩ := h
  have hnone : ∀ {q : AbsQueue (List ι)} {ws : List (WorkerPc ι)} {main : MainPc ι},
      main ≠ .waiting → main = .waiting → q.drained = true → ∃ w ∈ ws, w.reports q :=
    fun hne heq => absurd heq hne
  have hseen' : (∀ rest, p.shared.main ≠ .notify rest) → p.shared.queue.buffer ≠ [] →
      ∃ w ∈ p.workers, w ≠ .waiting := fun hmain hbuffer =>
    (hseen hbuffer).resolve_left fun ⟨rest, hrest⟩ => hmain rest hrest
  cases hstep with
  | insert q out ws pk rest =>
    exact ⟨hrunning, hsomebody, fun _ => .inl ⟨rest, rfl⟩, hnone nofun⟩
  | notifyOne q out pre post rest =>
    refine ⟨fun w hw => ?_, by simp, fun _ => .inr ⟨.pop, by simp, nofun⟩, hnone nofun⟩
    rcases List.mem_append.mp hw with hw | hw
    · exact hrunning w (List.mem_append_left _ hw)
    · rcases List.mem_cons.mp hw with rfl | hw
      · rfl
      · exact hrunning w (List.mem_append_right _ (List.mem_cons_of_mem _ hw))
  | notifyNone q out ws rest hnobody =>
    have hblocked : q.blocked = false := hopen.2.1
    have hwaiting : .waiting ∉ ws := hnobody.resolve_right (by rw [hblocked]; exact nofun)
    obtain ⟨w, hw⟩ := List.exists_mem_of_ne_nil ws hsomebody
    exact ⟨hrunning, hsomebody, fun _ => .inr ⟨w, hw, fun heq => hwaiting (heq ▸ hw)⟩, hnone nofun⟩
  | joinWaits q out ws hdone =>
    refine ⟨hrunning, hsomebody, fun hbuffer => .inr (hseen' nofun hbuffer), fun _ hdrained => ?_⟩
    rw [hdone] at hdrained
    cases hdrained
  | _ => exact ⟨hrunning, hsomebody, fun hbuffer => .inr (hseen' nofun hbuffer), hnone nofun⟩

theorem Awake.step (h : Awake p) (hopen : Open p.shared)
    (hstep : Step packets records (fun _ => False) p l p') : Awake p' := by
  cases hstep with
  | main _ _ _ hmain => exact h.main hopen hmain
  | worker s s' pre post w w' _ hworker => exact h.worker hopen hworker

end Awake

/-! ## Somebody can go on -/

section Progress

variable [DecidableEq ι] {packets : List (List ι)} {records : ι → Bool → Bool} {base : Nat}
  {ls : List (Label ι)} {p p' : Phase ι}

omit [DecidableEq ι] in
/-- A worker in its loop that does not wait has a step. -/
theorem WorkerPc.goes {s : Shared ι} {w : WorkerPc ι} (hrunning : w.running = true)
    (hopen : Open s) (hw : w ≠ .waiting) :
    ∃ l s' w', WorkerStep records (fun _ => False) s w l s' w' ∧ l ≠ .spurious := by
  obtain ⟨hready, hblocked, hout⟩ := hopen
  cases w with
  | pop =>
    have hwait := AbsQueue.mustWait_eq hready hblocked
    cases hbuffer : s.queue.buffer with
    | nil => exact ⟨_, _, _, .popWaits s (by rw [hwait, hbuffer]; rfl), by simp⟩
    | cons pk rest =>
      have htake : s.queue.take?
          = some (pk, { s.queue with buffer := rest, outCount := s.queue.outCount + 1 }) := by
        simp [AbsQueue.take?, hready, hbuffer]
      exact ⟨_, _, _, .popTakes s pk _ (by rw [hwait, hbuffer]; rfl) htake, by simp⟩
  | waiting => exact absurd rfl hw
  | work todo =>
    cases todo with
    | nil => exact ⟨_, _, _, .taskDone s, by simp⟩
    | cons i todo => exact ⟨_, _, _, .begin s i todo, by simp⟩
  | call i todo => exact ⟨_, _, _, .finish s i todo true, by simp⟩
  | found i todo => exact ⟨_, _, _, .foundCount s i todo hout, by simp⟩
  | foundInsert i todo => exact ⟨_, _, _, .foundInsert s i todo, by simp⟩
  | foundNotify todo => exact ⟨_, _, _, .foundNotify s todo, by simp⟩
  | comparing c n =>
    cases c with
    | none => exact ⟨_, _, _, .loadCompleted s n, by simp⟩
    | some c =>
      cases n with
      | none => exact ⟨_, _, _, .loadInCount s (some c), by simp⟩
      | some n =>
        cases hsame : AbsQueue.sameInt c n with
        | true => exact ⟨_, _, _, .equal s c n hsame, by simp⟩
        | false => exact ⟨_, _, _, .notEqual s c n hsame, by simp⟩
  | notifying =>
    by_cases hmain : s.main = .waiting
    · exact ⟨_, _, _, .notifyAll s hmain, by simp⟩
    · exact ⟨_, _, _, .notifyNobody s hmain, by simp⟩
  | exited => cases hrunning
  | failed todo => cases hrunning

omit [DecidableEq ι] in
/-- The pushing thread has a step until it waits in `join` or is through. -/
theorem MainPc.goes (hready : p.shared.queue.ready = true) (hwaiting : p.shared.main ≠ .waiting)
    (hreturned : p.shared.main ≠ .returned) :
    ∃ l p', MainStep packets p l p' ∧ l ≠ .spurious := by
  obtain ⟨⟨main, q, out⟩, ws⟩ := p
  cases main with
  | idle => exact ⟨_, _, .start q out ws, nofun⟩
  | push rest =>
    cases rest with
    | nil => exact ⟨_, _, .toJoin q out ws, nofun⟩
    | cons pk rest => exact ⟨_, _, .count q out ws pk rest hready, nofun⟩
  | insert pk rest => exact ⟨_, _, .insert q out ws pk rest, nofun⟩
  | notify rest =>
    by_cases hmem : .waiting ∈ ws
    · obtain ⟨pre, post, rfl⟩ := List.append_of_mem hmem
      exact ⟨_, _, .notifyOne q out pre post rest, nofun⟩
    · exact ⟨_, _, .notifyNone q out ws rest (.inl hmem), nofun⟩
  | join =>
    cases hdone : q.drained with
    | true => exact ⟨_, _, .joinReturns q out ws hdone, nofun⟩
    | false => exact ⟨_, _, .joinWaits q out ws hdone, nofun⟩
  | waiting => exact absurd rfl hwaiting
  | returned => exact absurd rfl hreturned

omit [DecidableEq ι] in
theorem exists_of_total {f : WorkerPc ι → Nat} {ws : List (WorkerPc ι)} (h : total f ws ≠ 0) :
    ∃ w ∈ ws, f w ≠ 0 := by
  by_contra hnone
  exact h (total_eq_zero fun w hw => by_contra fun hne => hnone ⟨w, hw, hne⟩)

/-- While `join` waits, some worker does not: one has a packet, one will see the buffer, or one
is about to notify. -/
theorem Awake.worker_of_waiting (h : Awake p) (haccounts : Accounts packets records base ls p)
    (hmain : p.shared.main = .waiting) : ∃ w ∈ p.workers, w ≠ .waiting := by
  cases hdrained : p.shared.queue.drained with
  | true =>
    obtain ⟨w, hw, hreports⟩ := h.told hmain hdrained
    refine ⟨w, hw, fun heq => ?_⟩
    rw [heq] at hreports
    exact hreports
  | false =>
    have hload := haccounts.load
    rw [hmain] at hload
    by_cases hbuffer : p.shared.queue.buffer = []
    · have hladen : total WorkerPc.laden p.workers ≠ 0 := fun hzero => by
        rw [hbuffer, hzero] at hload
        simp [AbsQueue.drained, AbsQueue.sameInt, hload, MainPc.inserting] at hdrained
      obtain ⟨w, hw, hne⟩ := exists_of_total hladen
      exact ⟨w, hw, fun heq => hne (heq ▸ rfl)⟩
    · rcases h.seen hbuffer with ⟨rest, hrest⟩ | hw
      · rw [hmain] at hrest
        cases hrest
      · exact hw

/-- Until `join` has returned, there is a step that is no spurious wake-up. -/
theorem progress (hawake : Awake p) (haccounts : Accounts packets records base ls p)
    (hreturned : p.shared.main ≠ .returned) :
    ∃ l p', Step packets records (fun _ => False) p l p' ∧ l ≠ .spurious := by
  by_cases hmain : p.shared.main = .waiting
  · obtain ⟨w, hw, hne⟩ := hawake.worker_of_waiting haccounts hmain
    have hgoes : ∃ l s' w', WorkerStep records (fun _ => False) p.shared w l s' w'
        ∧ l ≠ .spurious := WorkerPc.goes (hawake.running w hw) haccounts.flags hne
    obtain ⟨l, s', w', hstep, hl⟩ := hgoes
    obtain ⟨pre, post, hws⟩ := List.append_of_mem hw
    have hp : p = ⟨p.shared, pre ++ w :: post⟩ := by rw [← hws]
    rw [hp]
    exact ⟨l, _, .worker _ s' pre post w w' l hstep, hl⟩
  · obtain ⟨l, p', hstep, hl⟩ := MainPc.goes haccounts.flags.1 hmain hreturned
    exact ⟨l, p', .main _ _ _ hstep, hl⟩

end Progress

/-! ## The remaining effort -/

section Effort

variable {packets : List (List ι)} {records : ι → Bool → Bool} {throws : ι → Prop}
  {l : Label ι} {p p' : Phase ι}

/-- The steps that a packet in the buffer still takes. -/
def packetEffort (pk : List ι) : Nat := 7 + 5 * pk.length

/-- The steps that packets still take which are not counted yet. -/
def sendEffort (rest : List (List ι)) : Nat := (rest.map fun pk => packetEffort pk + 4).sum

/-- The steps the pushing thread still causes, the waking of workers included. -/
def MainPc.effort (packets : List (List ι)) : MainPc ι → Nat
  | idle => sendEffort packets + 3
  | push rest => sendEffort rest + 2
  | insert pk rest => sendEffort rest + 5 + packetEffort pk
  | notify rest => sendEffort rest + 4
  | join => 1
  | waiting => 0
  | returned => 0

/-- The steps that a worker still takes before it waits, the waking of `join` included. -/
def WorkerPc.effort : WorkerPc ι → Nat
  | pop => 1
  | waiting => 0
  | work todo => 7 + 5 * todo.length
  | call _ todo => 11 + 5 * todo.length
  | found _ todo => 10 + 5 * todo.length
  | foundInsert _ todo => 9 + 5 * todo.length
  | foundNotify todo => 8 + 5 * todo.length
  | comparing c n => 4 + (if c.isNone then 1 else 0) + (if n.isNone then 1 else 0)
  | notifying => 3
  | exited => 0
  | failed _ => 0

def Phase.effort (packets : List (List ι)) (p : Phase ι) : Nat :=
  p.shared.main.effort packets + (p.shared.queue.buffer.map packetEffort).sum
    + total WorkerPc.effort p.workers

def Label.isSpurious : Label ι → Bool
  | spurious => true
  | _ => false

/-- What a spurious wake-up adds: itself and one more test. -/
def Label.slack (l : Label ι) : Nat := if l.isSpurious then 2 else 0

theorem WorkerStep.effort {s s' : Shared ι} {w w' : WorkerPc ι}
    (h : WorkerStep records throws s w l s' w') :
    s'.main.effort packets + (s'.queue.buffer.map packetEffort).sum + w'.effort + 1
      ≤ s.main.effort packets + (s.queue.buffer.map packetEffort).sum + w.effort + l.slack := by
  cases h with
  | popTakes pk q _ htake =>
    obtain ⟨hbuffer, _⟩ := AbsQueue.take?_eq_some htake
    simp [hbuffer, WorkerPc.effort, packetEffort, Label.slack, Label.isSpurious]
    omega
  | finish i todo answer =>
    split <;> simp only [WorkerPc.effort, Label.slack, Label.isSpurious] <;> omega
  | notifyAll hmain =>
    rw [hmain]
    simp only [MainPc.effort, WorkerPc.effort, Label.slack, Label.isSpurious]
    omega
  | taskDone => simp [WorkerPc.effort, Label.slack, Label.isSpurious, AbsQueue.complete]
  | _ => simp [WorkerPc.effort, Label.slack, Label.isSpurious] <;> omega

theorem MainStep.effort (h : MainStep packets p l p') :
    p'.effort packets + 1 ≤ p.effort packets + l.slack := by
  cases h with
  | notifyOne q out pre post rest =>
    simp only [Phase.effort, MainPc.effort, total_split, WorkerPc.effort]
    omega
  | count q out ws pk rest hready =>
    simp [Phase.effort, MainPc.effort, sendEffort, AbsQueue.countIn, Label.slack, Label.isSpurious]
    omega
  | insert q out ws pk rest =>
    simp [Phase.effort, MainPc.effort, AbsQueue.insert, Label.slack, Label.isSpurious]
    omega
  | _ =>
    simp [Phase.effort, MainPc.effort, sendEffort, Label.slack, Label.isSpurious]
    try omega

theorem effort_step (h : Step packets records throws p l p') :
    p'.effort packets + 1 ≤ p.effort packets + l.slack := by
  cases h with
  | main _ _ _ hmain => exact hmain.effort
  | worker s s' pre post w w' _ hworker =>
    have heffort : s'.main.effort packets + (s'.queue.buffer.map packetEffort).sum + w'.effort
        + 1 ≤ s.main.effort packets + (s.queue.buffer.map packetEffort).sum + w.effort
          + l.slack := hworker.effort
    simp only [Phase.effort, total_split]
    omega

end Effort

/-! ## Phases whose methods return -/

section Sound

variable [DecidableEq ι] {packets : List (List ι)} {records : ι → Bool → Bool} {base : Nat}
  {ls : List (Label ι)} {l : Label ι} {p p' : Phase ι}

/-- What holds all along a phase whose methods return. -/
structure Sound (packets : List (List ι)) (records : ι → Bool → Bool) (base : Nat)
    (ls : List (Label ι)) (p : Phase ι) : Prop where
  accounts : Accounts packets records base ls p
  awake : Awake p
  unthrown : ls.flatMap Label.thrown = []

omit [DecidableEq ι] in
theorem Step.unthrown (h : Step packets records (fun _ => False) p l p') : l.thrown = [] := by
  cases h with
  | main _ _ _ hmain => cases hmain <;> rfl
  | worker s s' pre post w w' _ hworker =>
    cases hworker with
    | throw i todo hthrows => exact hthrows.elim
    | _ => rfl

theorem Sound.step (hfew : packets.length < 2 ^ 32) (h : Sound packets records base ls p)
    (hstep : Step packets records (fun _ => False) p l p') :
    Sound packets records base (ls ++ [l]) p' := by
  refine ⟨h.accounts.step hfew hstep, h.awake.step h.accounts.flags hstep, ?_⟩
  rw [List.flatMap_append, List.flatMap_singleton, h.unthrown, hstep.unthrown]
  rfl

theorem Begins.sound (h : Begins p) (hrunning : ∀ w ∈ p.workers, w.running = true)
    (hsomebody : p.workers ≠ []) : Sound packets records p.shared.queue.inCount [] p := by
  refine ⟨h.accounts, ⟨hrunning, hsomebody, fun hbuffer => absurd h.buffer hbuffer, ?_⟩, rfl⟩
  intro hmain
  rw [h.main] at hmain
  cases hmain

/-- The phase at its next use, when the second queue has been emptied. -/
def Phase.next (p : Phase ι) : Phase ι :=
  ⟨⟨.idle, p.shared.queue, { p.shared.out with buffer := [] }⟩, p.workers⟩

/-- The end of a phase is the beginning of its next use. -/
theorem Sound.next (h : Sound packets records base ls p) (hreturned : p.shared.main = .returned) :
    Begins p.next := by
  have hdrained := h.accounts.settled (.inr hreturned)
  obtain ⟨_, hbuffer, hladen⟩ := h.accounts.unladen hdrained
  exact ⟨rfl, h.accounts.flags, hbuffer, hdrained, rfl, hladen⟩

theorem Sound.returned (h : Sound packets records base ls p) (hmain : p.shared.main = .returned)
    (x : ι) : (ls.flatMap Label.begun).count x = packets.flatten.count x
      ∧ (ls.flatMap Label.finished).count x = packets.flatten.count x :=
  have hcounts := h.accounts.returned hmain h.unthrown x
  ⟨hcounts.2.1, hcounts.1⟩

/-- No item is worked on more often than it is in the packets. -/
theorem Sound.begun_le (h : Sound packets records base ls p) (x : ι) :
    (ls.flatMap Label.begun).count x ≤ packets.flatten.count x := by
  have hcalling : ∀ w : WorkerPc ι, w.calling.count x ≤ w.held.count x := fun w => by
    cases w with
    | call i todo => simp [WorkerPc.calling, WorkerPc.held, List.count_cons]
    | _ => exact Nat.zero_le _
  have htotal : total (fun w => w.calling.count x) p.workers
      ≤ total (fun w => w.held.count x) p.workers :=
    List.sum_le_sum fun w _ => hcalling w
  have hitems := h.accounts.items x
  have hbegun := h.accounts.begun x
  rw [h.unthrown, List.count_nil] at hbegun
  omega

/-- After its end a phase makes no more calls. -/
theorem Sound.over (h : Sound packets records base ls p) (hmain : p.shared.main = .returned)
    {ms : List (Label ι)} (hend : Sound packets records base (ls ++ ms) p') :
    (∀ x, (ls.flatMap Label.finished).count x = packets.flatten.count x)
      ∧ ms.flatMap Label.begun = [] := by
  refine ⟨fun x => (h.returned hmain x).2, List.eq_nil_iff_forall_not_mem.mpr fun x hx => ?_⟩
  have hpos := List.count_pos_iff.mpr hx
  have hbefore := (h.returned hmain x).1
  have hall := hend.begun_le x
  rw [List.flatMap_append, List.count_append] at hall
  omega

/-- Before its beginning and after its end a phase has no call that runs. -/
theorem Sound.quiet (h : Sound packets records base ls p)
    (hmain : p.shared.main = .idle ∨ p.shared.main = .returned) (x : ι) :
    (ls.flatMap Label.begun).count x = (ls.flatMap Label.finished).count x := by
  have hunladen := (h.accounts.unladen (h.accounts.settled hmain)).2.2
  have hcalling : ∀ w ∈ p.workers, w.calling.count x = 0 := fun w hw => by
    rw [(WorkerPc.of_unladen (hunladen w hw)).2.1]
    rfl
  have hbegun := h.accounts.begun x
  rw [h.unthrown, total_eq_zero hcalling] at hbegun
  exact hbegun

/-- A call runs between the beginning and the end of its phase, and it has begun. -/
theorem Sound.calling (h : Sound packets records base ls p) {w : WorkerPc ι} (hw : w ∈ p.workers)
    {x : ι} (hx : x ∈ w.calling) :
    p.shared.main ≠ .idle ∧ p.shared.main ≠ .returned ∧ x ∈ packets.flatten := by
  have hopen : ¬ (p.shared.main = .idle ∨ p.shared.main = .returned) := fun hmain => by
    have hladen := (h.accounts.unladen (h.accounts.settled hmain)).2.2 w hw
    rw [(WorkerPc.of_unladen hladen).2.1] at hx
    cases hx
  refine ⟨fun hmain => hopen (.inl hmain), fun hmain => hopen (.inr hmain), ?_⟩
  by_contra hnot
  have hle := h.begun_le x
  rw [List.count_eq_zero.mpr hnot] at hle
  have hbegun := h.accounts.begun x
  have hpos : w.calling.count x = 0 :=
    eq_zero_of_total (f := fun w => w.calling.count x) (by omega) hw
  exact List.count_eq_zero.mp hpos hx

/-- A method returns between the beginning and the end of its phase. -/
theorem Sound.finishes (h : Sound packets records base ls p) {i : ι} {answer : Bool}
    (hstep : Step packets records (fun _ => False) p (.finish i answer) p') :
    p.shared.main ≠ .idle ∧ p.shared.main ≠ .returned ∧ i ∈ packets.flatten := by
  cases hstep with
  | main _ _ _ hmain => cases hmain
  | worker s s' pre post w w' _ hworker =>
    cases hworker with
    | finish _ todo =>
      exact h.calling (w := .call i todo) (by simp) (by simp [WorkerPc.calling])

end Sound

/-! ## Its beginning and its end -/

section Ends

variable {packets : List (List ι)} {records : ι → Bool → Bool} {throws : ι → Prop}
  {l : Label ι} {p p' : Phase ι}

theorem WorkerStep.main {s s' : Shared ι} {w w' : WorkerPc ι}
    (h : WorkerStep records throws s w l s' w') :
    s'.main = s.main ∨ s.main = .waiting ∧ s'.main = .join := by
  cases h with
  | notifyAll hmain => exact .inr ⟨hmain, rfl⟩
  | _ => exact .inl rfl

theorem Step.returned (h : Step packets records throws p l p')
    (hmain : p.shared.main = .returned) : p'.shared.main = .returned := by
  cases h with
  | main _ _ _ hstep => cases hstep <;> cases hmain
  | worker s s' pre post w w' _ hworker =>
    rcases hworker.main with heq | ⟨hwaiting, _⟩
    · exact heq.trans hmain
    · cases hwaiting.symm.trans hmain

theorem Step.idle (h : Step packets records throws p l p') (hl : l ≠ .start)
    (hmain : p.shared.main = .idle) : p'.shared.main = .idle := by
  cases h with
  | main _ _ _ hstep =>
    cases hstep with
    | start => exact absurd rfl hl
    | _ => cases hmain
  | worker s s' pre post w w' _ hworker =>
    rcases hworker.main with heq | ⟨hwaiting, _⟩
    · exact heq.trans hmain
    · cases hwaiting.symm.trans hmain

theorem Step.length_workers (h : Step packets records throws p l p') :
    p'.workers.length = p.workers.length := by
  cases h with
  | main _ _ _ hstep =>
    cases hstep with
    | notifyOne => simp
    | _ => rfl
  | worker s s' pre post w w' _ hworker => simp

end Ends

end Nrtb.WorkPhase
