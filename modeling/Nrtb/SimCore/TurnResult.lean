import Nrtb.Lib.Cells
import Nrtb.SimCore.Tick

/-!
# What `tick()` computes

`cpp/sim_engine/sim_core/sim_core.cpp`, lines 122–172 and 493–537, with the fields of the objects.
The workers call `tick`, `check_collision` and `apply` on objects that have no locks; a call reads
and stores in its object while it runs, and `check_collision` reads two of them. The methods are
functions of the fields of the objects they are called on.

The threads are those of `Tick`, and the objects are the cells of `Lib.Cells`: a call is a step that
begins and a step that ends, and what it stores is visible in between. As every object gets one call
in a phase and the phases do not overlap, no two calls meet on an object, so that each of them is as
good as one step. What is left of the interleaving is the order of the recorded collisions.

* `turn`: the same calls made by one thread, in the order of `all_objects`.
* `ExecHistory.step`: what holds of the objects at every moment.
* `tick_eq_turn`: no call runs beside another on the same object, and what `tick()` leaves behind is
  what `turn` computes.
-/

namespace Nrtb.SimCore

open WorkPhase Cells

/-! ## One thread -/

/-- `tick(quanta)`, `check_collision(o, quanta)` and `apply(quanta)` as functions of the fields of
the objects. -/
structure Methods (β : Type*) where
  tick : Object → β → β × Bool
  check : Object × Object → β → β → Bool
  apply : Object → β → β × Bool

inductive Method where
  | tick
  | apply
deriving DecidableEq

section Turn

variable {β : Type*} (m : Methods β)

/-- `o->alive = !o->tick(quanta_duration)` and the same with `apply`, on the fields and `alive`. -/
def Methods.call : Method → Object → β × Bool → (β × Bool) × Bool
  | .tick, o, x => (((m.tick o x.1).1, !(m.tick o x.1).2), (m.tick o x.1).2)
  | .apply, o, x => (((m.apply o x.1).1, !(m.apply o x.1).2), (m.apply o x.1).2)

/-- One method on one object after the other. -/
def Methods.each (method : Method) (objs : List Object) (memory : Object → β × Bool) :
    Object → β × Bool :=
  objs.foldl (fun memory o => Function.update memory o (m.call method o (memory o)).1) memory

/-- The turn of a single thread: what it leaves of the objects, and the collisions. -/
def Methods.turn (objs : List Object) (memory : Object → β × Bool) :
    (Object → β × Bool) × List (Object × Object) :=
  let ticked := m.each .tick objs memory
  (m.each .apply objs ticked,
    (pairs objs).filter fun r => m.check r (ticked r.1).1 (ticked r.2).1)

theorem Methods.each_apply (method : Method) {objs : List Object} (hnodup : objs.Nodup)
    (memory : Object → β × Bool) (o : Object) :
    m.each method objs memory o
      = if o ∈ objs then (m.call method o (memory o)).1 else memory o := by
  induction objs generalizing memory with
  | nil => rfl
  | cons a rest ih =>
    obtain ⟨ha, hrest⟩ := List.nodup_cons.mp hnodup
    show m.each method rest (Function.update memory a (m.call method a (memory a)).1) o = _
    rw [ih hrest]
    by_cases hoa : o = a
    · subst hoa
      rw [if_neg ha, if_pos (List.mem_cons_self ..), Function.update_self]
    · rw [Function.update_of_ne hoa]
      simp only [List.mem_cons, hoa, false_or]

end Turn

/-! ## The workers -/

section Exec

variable {β : Type*}

inductive ExecLabel (β : Type*) where
  -- a step of the threads
  | control (l : TickLabel)
  -- a `tick` or `apply` that runs on the object stores in it
  | store (o : Object) (x : β × Bool)
  -- a `check_collision` that runs on the pair reads one of its objects
  | loadFirst (r : Object × Object) (x : β × Bool)
  | loadSecond (r : Object × Object) (x : β × Bool)

namespace ExecLabel

def toControl : ExecLabel β → Option TickLabel
  | control l => some l
  | _ => none

/-- What the step is to the objects. -/
def access : ExecLabel β → Option (Access Object Method (β × Bool) Bool)
  | control (.tick (.begin o)) => some (.enter .tick o)
  | control (.tick (.finish o v)) => some (.leave .tick o v)
  | control (.apply (.begin o)) => some (.enter .apply o)
  | control (.apply (.finish o v)) => some (.leave .apply o v)
  | control _ => none
  | store o x => some (.store o x)
  | loadFirst r x => some (.load r.1 x)
  | loadSecond r x => some (.load r.2 x)

end ExecLabel

def controls (ls : List (ExecLabel β)) : List TickLabel := ls.filterMap ExecLabel.toControl

def accesses (ls : List (ExecLabel β)) : List (Access Object Method (β × Bool) Bool) :=
  ls.filterMap ExecLabel.access

/-- The threads, the objects, and what each `check_collision` has read. -/
structure Exec (β : Type*) where
  control : TickState
  cells : Object → Cell (β × Bool)
  seen : Object × Object → List β × List β

/-- A `check_collision` of the pair runs. -/
def Exec.Checking (e : Exec β) (r : Object × Object) : Prop :=
  ∃ w ∈ e.control.checks.workers, r ∈ w.calling

/-- The answer of a `check_collision` that has read both objects, each in one state. -/
def Exec.Answers (m : Methods β) (e : Exec β) (r : Object × Object) (v : Bool) : Prop :=
  (e.seen r).1 ≠ [] ∧ (e.seen r).2 ≠ []
    ∧ ∀ x y, (∀ x' ∈ (e.seen r).1, x' = x) → (∀ y' ∈ (e.seen r).2, y' = y) → v = m.check r x y

inductive ExecStep (m : Methods β) (packets : List (List Object))
    (clsnPackets : List (List (Object × Object))) : Exec β → ExecLabel β → Exec β → Prop
  | control (e : Exec β) (l : TickLabel) (s : TickState) (c : Object → Cell (β × Bool))
      (hcontrol : TickStep packets clsnPackets .never e.control l s)
      (hcells : Moves m.call e.cells (ExecLabel.control l : ExecLabel β).access c)
      (hanswer : ∀ r v, l = .check (.finish r v) → e.Answers m r v) :
      ExecStep m packets clsnPackets e (.control l) ⟨s, c, e.seen⟩
  | store (e : Exec β) (o : Object) (x : β × Bool) (c : Object → Cell (β × Bool))
      (hcells : Cells.Step m.call e.cells (.store o x) c) :
      ExecStep m packets clsnPackets e (.store o x) { e with cells := c }
  | loadFirst (e : Exec β) (r : Object × Object) (x : β × Bool) (hchecking : e.Checking r)
      (hcells : Cells.Step m.call e.cells (.load r.1 x) e.cells) :
      ExecStep m packets clsnPackets e (.loadFirst r x)
        { e with seen := Function.update e.seen r ((e.seen r).1 ++ [x.1], (e.seen r).2) }
  | loadSecond (e : Exec β) (r : Object × Object) (x : β × Bool) (hchecking : e.Checking r)
      (hcells : Cells.Step m.call e.cells (.load r.2 x) e.cells) :
      ExecStep m packets clsnPackets e (.loadSecond r x)
        { e with seen := Function.update e.seen r ((e.seen r).1, (e.seen r).2 ++ [x.1]) }

end Exec

/-! ## The calls on one object -/

section Logs

variable {β : Type*}

/-- The calls of `tick` and `apply` that began on an object. -/
def begunOn (o : Object) (ls : List TickLabel) : Nat :=
  ((tickLog ls).flatMap Label.begun).count o + ((applyLog ls).flatMap Label.begun).count o

/-- Those that returned, the ticks first. -/
def returnedOn (o : Object) (ls : List TickLabel) : List Method :=
  List.replicate (((tickLog ls).flatMap Label.finished).count o) .tick
    ++ List.replicate (((applyLog ls).flatMap Label.finished).count o) .apply

theorem tickLog_append (ls ms : List TickLabel) : tickLog (ls ++ ms) = tickLog ls ++ tickLog ms :=
  List.filterMap_append

theorem applyLog_append (ls ms : List TickLabel) :
    applyLog (ls ++ ms) = applyLog ls ++ applyLog ms :=
  List.filterMap_append

theorem begunOn_append (o : Object) (ls ms : List TickLabel) :
    begunOn o (ls ++ ms) = begunOn o ls + begunOn o ms := by
  simp only [begunOn, tickLog_append, applyLog_append, List.flatMap_append, List.count_append]
  omega

theorem count_one (i o : Object) : [i].count o = if i = o then 1 else 0 := by
  by_cases hi : i = o <;> simp [hi]

theorem entered_access (o : Object) (l : TickLabel) :
    entered o (ExecLabel.control l : ExecLabel β).access.toList = begunOn o [l] := by
  cases l with
  | check l => rfl
  | tick l =>
    cases l with
    | begin i => exact (congrArg (· + 0) (count_one i o)).symm
    | _ => rfl
  | apply l =>
    cases l with
    | begin i =>
      show (if i = o then 1 else 0) + 0 = 0 + [i].count o
      rw [count_one, Nat.add_comm]
    | _ => rfl

theorem left_access (o : Object) (l : TickLabel) :
    left o (ExecLabel.control l : ExecLabel β).access.toList = returnedOn o [l] := by
  cases l with
  | check l => rfl
  | tick l =>
    cases l with
    | finish i v =>
      show (if i = o then [Method.tick] else []) ++ [] = List.replicate ([i].count o) _ ++ []
      rw [count_one]
      split <;> rfl
    | _ => rfl
  | apply l =>
    cases l with
    | finish i v =>
      show (if i = o then [Method.apply] else []) ++ [] = [] ++ List.replicate ([i].count o) _
      rw [count_one]
      split <;> rfl
    | _ => rfl

/-- What is entered in the log of the objects is what begins in the log of the threads. -/
theorem entered_accesses (o : Object) (ls : List (ExecLabel β)) :
    entered o (accesses ls) = begunOn o (controls ls) := by
  induction ls with
  | nil => rfl
  | cons l rest ih =>
    cases l with
    | control l =>
      have haccesses : accesses (.control l :: rest)
          = (ExecLabel.control l : ExecLabel β).access.toList ++ accesses rest := by
        rw [accesses, List.filterMap_cons]
        cases (ExecLabel.control l : ExecLabel β).access <;> rfl
      rw [haccesses, entered_append, entered_access, ih, ← begunOn_append]
      rfl
    | _ => exact (Nat.zero_add _).trans ih

/-- A return on the object comes after those before it, when no tick returns after an apply. -/
theorem returnedOn_append {o : Object} {ls : List TickLabel} {l : TickLabel}
    (hlast : (∃ i v, l = .tick (.finish i v)) →
      ((applyLog ls).flatMap Label.finished).count o = 0) :
    returnedOn o (ls ++ [l]) = returnedOn o ls ++ returnedOn o [l] := by
  simp only [returnedOn, tickLog_append, applyLog_append, List.flatMap_append, List.count_append,
    List.replicate_add]
  by_cases hfinish : ∃ i v, l = .tick (.finish i v)
  · rw [hlast hfinish]
    obtain ⟨i, v, rfl⟩ := hfinish
    have happly : applyLog [.tick (.finish i v)] = [] := rfl
    simp only [happly, List.flatMap_nil, List.count_nil, List.replicate_zero, List.append_nil]
  · have hnone : ((tickLog [l]).flatMap Label.finished) = [] := by
      cases l with
      | tick l =>
        cases l with
        | finish i v => exact absurd ⟨i, v, rfl⟩ hfinish
        | _ => rfl
      | _ => rfl
    simp [hnone]

end Logs

/-! ## Every moment -/

section History

variable {β : Type*} {m : Methods β} {packets : List (List Object)}
  {clsnPackets : List (List (Object × Object))} {baseTick baseCheck baseApply : Nat}

section Threads

variable {ls : List TickLabel} {l : TickLabel} {s s' : TickState}

theorem TickHistory.idle (h : TickHistory packets clsnPackets baseTick baseCheck baseApply ls s)
    (hticks : s.ticks.shared.main ≠ .returned) :
    s.checks.shared.main = .idle ∧ s.applies.shared.main = .idle := by
  have hchecks : s.checks.shared.main = .idle := by
    by_contra hmain
    exact hticks (h.checked hmain)
  refine ⟨hchecks, ?_⟩
  by_contra hmain
  cases hchecks.symm.trans (h.applied hmain)

theorem length_returnedOn (o : Object) (ls : List TickLabel) :
    (returnedOn o ls).length = ((tickLog ls).flatMap Label.finished).count o
      + ((applyLog ls).flatMap Label.finished).count o := by
  simp [returnedOn]

/-- No call begins on an object that another call has. -/
theorem TickHistory.free (hpackets : packets.length < 2 ^ 32)
    (hclsnPackets : clsnPackets.length < 2 ^ 32) (hone : ∀ o, packets.flatten.count o ≤ 1)
    (h : TickHistory packets clsnPackets baseTick baseCheck baseApply ls s)
    (hstep : TickStep packets clsnPackets .never s l s') {o : Object}
    (hl : l = .tick (.begin o) ∨ l = .apply (.begin o)) :
    begunOn o ls = (returnedOn o ls).length := by
  have hnext := h.step hpackets hclsnPackets hstep
  have hfinishedTicks := h.ticks.accounts.begun o
  have hfinishedApplies := h.applies.accounts.begun o
  rw [length_returnedOn, begunOn]
  cases hstep with
  | tick l p hphase =>
    obtain rfl : l = .begin o := by simpa using hl
    -- the ticks are not over, so there have been no applies
    have happlies := h.applies.quiet
      (.inl (h.idle (h.ticks.accounts.begins hphase).2).2) o
    have hle := hnext.ticks.begun_le o
    rw [tickLog_append, List.flatMap_append, List.count_append] at hle
    have hthis : ((tickLog [.tick (.begin o)]).flatMap Label.begun).count o = 1 := by
      show [o].count o = 1
      simp
    have := hone o
    omega
  | check l p hturn hphase => rcases hl with hl | hl <;> cases hl
  | apply l p hturn hphase =>
    obtain rfl : l = .begin o := by simpa using hl
    -- the ticks are over
    have hchecks := h.applied (h.applies.accounts.begins hphase).1
    have hticks := h.ticks.quiet
      (.inr (h.checked (by rw [hchecks]; exact nofun))) o
    have hle := hnext.applies.begun_le o
    rw [applyLog_append, List.flatMap_append, List.count_append] at hle
    have hthis : ((applyLog [.apply (.begin o)]).flatMap Label.begun).count o = 1 := by
      show [o].count o = 1
      simp
    have := hone o
    omega

/-- No tick returns after an apply. -/
theorem TickHistory.ticks_first
    (h : TickHistory packets clsnPackets baseTick baseCheck baseApply ls s)
    (hstep : TickStep packets clsnPackets .never s l s') (o : Object)
    (hl : ∃ i v, l = .tick (.finish i v)) :
    ((applyLog ls).flatMap Label.finished).count o = 0 := by
  obtain ⟨i, v, rfl⟩ := hl
  cases hstep with
  | tick _ p hphase =>
    exact h.applies.accounts.idle (h.idle (h.ticks.finishes hphase).2.1).2 o

/-- While a pair is checked, its objects have had their ticks, and nobody has them. -/
theorem TickHistory.checking {objs : List Object} (hobjs : packets.flatten.Perm objs)
    (hpairs : clsnPackets.flatten.Perm (pairs objs)) (hnodup : objs.Nodup)
    (h : TickHistory packets clsnPackets baseTick baseCheck baseApply ls s)
    {r : Object × Object} {w : WorkerPc (Object × Object)} (hw : w ∈ s.checks.workers)
    (hr : r ∈ w.calling) {o : Object} (ho : o = r.1 ∨ o = r.2) :
    begunOn o ls = 1 ∧ returnedOn o ls = [.tick] := by
  have hcalling := h.checks.calling hw hr
  have hticks := h.checked hcalling.1
  have happlies : s.applies.shared.main = .idle := by
    by_contra hmain
    exact hcalling.2.1 (h.applied hmain)
  have hmem := mem_of_mem_pairs (hpairs.subset hcalling.2.2)
  have ho' : o ∈ objs := by
    rcases ho with rfl | rfl
    · exact hmem.1
    · exact hmem.2
  have hone : packets.flatten.count o = 1 := by
    rw [hobjs.count_eq]
    exact List.count_eq_one_of_mem hnodup ho'
  obtain ⟨hbegun, hfinished⟩ := h.ticks.returned hticks o
  have hbegunApply := h.applies.quiet (.inl happlies) o
  have hfinishedApply := h.applies.accounts.idle happlies o
  constructor
  · rw [begunOn, hbegun, hbegunApply, hfinishedApply, hone]
  · rw [returnedOn, hfinished, hfinishedApply, hone]
    rfl

end Threads

variable {start : Object → β × Bool} {ls : List (ExecLabel β)} {l : ExecLabel β} {e e' : Exec β}

/-- The fields of an object when all ticks have returned. -/
def Methods.ticked (m : Methods β) (start : Object → β × Bool) (o : Object) : β :=
  (m.tick o (start o).1).1

/-- What holds of the threads and the objects at every moment of a call. -/
structure ExecHistory (m : Methods β) (packets : List (List Object))
    (clsnPackets : List (List (Object × Object))) (baseTick baseCheck baseApply : Nat)
    (start : Object → β × Bool) (ls : List (ExecLabel β)) (e : Exec β) : Prop where
  control : TickHistory packets clsnPackets baseTick baseCheck baseApply (controls ls) e.control
  cells : Serial m.call start (accesses ls) e.cells
  left : ∀ o, left o (accesses ls) = returnedOn o (controls ls)
  seen : ∀ r, (∀ x ∈ (e.seen r).1, x = m.ticked start r.1)
    ∧ ∀ y ∈ (e.seen r).2, y = m.ticked start r.2
  answers : ∀ r v, TickLabel.check (.finish r v) ∈ controls ls →
    v = m.check r (m.ticked start r.1) (m.ticked start r.2)

/-- An object that nobody enters or has. -/
theorem ExecHistory.running_eq_zero
    (h : ExecHistory m packets clsnPackets baseTick baseCheck baseApply start ls e) {o : Object}
    (hquiet : begunOn o (controls ls) = (returnedOn o (controls ls)).length) :
    (e.cells o).running = 0 := by
  have hcount := (h.cells o).count
  rw [entered_accesses, h.left, hquiet] at hcount
  omega

/-- What a `check_collision` reads of one of its objects. -/
theorem ExecHistory.load {objs : List Object} (hobjs : packets.flatten.Perm objs)
    (hpairs : clsnPackets.flatten.Perm (pairs objs)) (hnodup : objs.Nodup)
    (h : ExecHistory m packets clsnPackets baseTick baseCheck baseApply start ls e)
    {r : Object × Object} (hchecking : e.Checking r) {o : Object} (ho : o = r.1 ∨ o = r.2) :
    (e.cells o).running = 0
      ∧ ∀ x c, Cells.Step m.call e.cells (.load o x) c → x.1 = m.ticked start o := by
  obtain ⟨w, hw, hr⟩ := hchecking
  obtain ⟨hbegun, hreturned⟩ := h.control.checking hobjs hpairs hnodup hw hr ho
  have hidle : (e.cells o).running = 0 :=
    h.running_eq_zero (by rw [hbegun, hreturned]; rfl)
  refine ⟨hidle, fun x c hload => ?_⟩
  rw [h.cells.load hload hidle, h.left, hreturned]
  rfl

theorem controls_snoc (ls : List (ExecLabel β)) (l : ExecLabel β) :
    controls (ls ++ [l]) = controls ls ++ l.toControl.toList := by
  rw [controls, List.filterMap_append]
  cases hl : l.toControl <;> simp [controls, hl]

theorem accesses_snoc (ls : List (ExecLabel β)) (l : ExecLabel β) :
    accesses (ls ++ [l]) = accesses ls ++ l.access.toList := by
  rw [accesses, List.filterMap_append]
  cases hl : l.access <;> simp [accesses, hl]

/-- A store or a load of a call that runs. -/
theorem ExecHistory.inside
    (h : ExecHistory m packets clsnPackets baseTick baseCheck baseApply start ls e)
    {a : Access Object Method (β × Bool) Bool} {c : Object → Cell (β × Bool)}
    {seen : Object × Object → List β × List β} (hl : l.toControl = none)
    (haccess : l.access = some a) (hcells : Cells.Step m.call e.cells a c)
    (hleft : ∀ o, a.left o = []) (henter : ∀ method o, a ≠ .enter method o)
    (hseen : ∀ r, (∀ x ∈ (seen r).1, x = m.ticked start r.1)
      ∧ ∀ y ∈ (seen r).2, y = m.ticked start r.2) :
    ExecHistory m packets clsnPackets baseTick baseCheck baseApply start (ls ++ [l])
      ⟨e.control, c, seen⟩ := by
  have hcontrols : controls (ls ++ [l]) = controls ls := by
    rw [controls_snoc, hl, Option.toList_none, List.append_nil]
  have haccesses : accesses (ls ++ [l]) = accesses ls ++ [a] := by
    rw [accesses_snoc, haccess, Option.toList_some]
  refine ⟨hcontrols ▸ h.control, ?_, fun o => ?_, hseen, hcontrols ▸ h.answers⟩
  · rw [haccesses]
    exact h.cells.step hcells fun method o ha => absurd ha (henter method o)
  · rw [haccesses, hcontrols, left_append, left_singleton, hleft, List.append_nil, h.left]

theorem ExecHistory.step {objs : List Object} (hpackets : packets.length < 2 ^ 32)
    (hclsnPackets : clsnPackets.length < 2 ^ 32) (hobjs : packets.flatten.Perm objs)
    (hpairs : clsnPackets.flatten.Perm (pairs objs)) (hnodup : objs.Nodup)
    (h : ExecHistory m packets clsnPackets baseTick baseCheck baseApply start ls e)
    (hstep : ExecStep m packets clsnPackets e l e') :
    ExecHistory m packets clsnPackets baseTick baseCheck baseApply start (ls ++ [l]) e' := by
  have hone : ∀ o, packets.flatten.count o ≤ 1 := fun o => by
    rw [hobjs.count_eq]
    exact List.nodup_iff_count_le_one.mp hnodup o
  cases hstep with
  | control l s c hcontrol hcells hanswer =>
    have hlog : controls (ls ++ [.control l]) = controls ls ++ [l] := controls_snoc ls _
    refine ⟨?_, ?_, fun o => ?_, h.seen, fun r v hmem => ?_⟩
    · rw [hlog]
      exact h.control.step hpackets hclsnPackets hcontrol
    · rw [accesses_snoc]
      refine h.cells.moves hcells fun method o henter => h.running_eq_zero ?_
      refine h.control.free hpackets hclsnPackets hone hcontrol ?_
      cases l with
      | check l => cases henter
      | tick l =>
        cases l <;> cases henter
        exact .inl rfl
      | apply l =>
        cases l <;> cases henter
        exact .inr rfl
    · rw [accesses_snoc, hlog, left_append, left_access, h.left,
        returnedOn_append (h.control.ticks_first hcontrol o)]
    · rw [hlog, List.mem_append, List.mem_singleton] at hmem
      rcases hmem with hmem | hmem
      · exact h.answers r v hmem
      · obtain ⟨_, _, hboth⟩ := hanswer r v hmem.symm
        exact hboth _ _ (h.seen r).1 (h.seen r).2
  | store o x c hcells =>
    exact h.inside rfl rfl hcells (fun _ => rfl) (fun _ _ => by simp) h.seen
  | loadFirst r x hchecking hcells =>
    have hx := (h.load hobjs hpairs hnodup hchecking (.inl rfl)).2 _ _ hcells
    refine h.inside rfl rfl hcells (fun _ => rfl) (fun _ _ => by simp) fun r' => ?_
    by_cases hr' : r' = r
    · subst hr'
      simp only [Function.update_self, List.forall_mem_append, List.forall_mem_singleton]
      exact ⟨⟨(h.seen r').1, hx⟩, (h.seen r').2⟩
    · rw [Function.update_of_ne hr']
      exact h.seen r'
  | loadSecond r x hchecking hcells =>
    have hx := (h.load hobjs hpairs hnodup hchecking (.inr rfl)).2 _ _ hcells
    refine h.inside rfl rfl hcells (fun _ => rfl) (fun _ _ => by simp) fun r' => ?_
    by_cases hr' : r' = r
    · subst hr'
      simp only [Function.update_self, List.forall_mem_append, List.forall_mem_singleton]
      exact ⟨(h.seen r').1, (h.seen r').2, hx⟩
    · rw [Function.update_of_ne hr']
      exact h.seen r'

end History

/-! ## The whole call -/

section Call

variable {β : Type*} {m : Methods β} {objs : List Object} {packets : List (List Object)}
  {clsnPackets : List (List (Object × Object))} {baseTick baseCheck baseApply : Nat}
  {start : Object → β × Bool} {ls : List (ExecLabel β)} {e : Exec β}

/-- `tick()` is called: no method has been called yet. -/
def Exec.called (s : TickState) (memory : Object → β × Bool) : Exec β :=
  ⟨s, fun o => Cell.idle (memory o), fun _ => ([], [])⟩

theorem ExecHistory.called {s : TickState} (m : Methods β) (memory : Object → β × Bool)
    (h : TickHistory packets clsnPackets baseTick baseCheck baseApply [] s) :
    ExecHistory m packets clsnPackets baseTick baseCheck baseApply memory [] (.called s memory) :=
  ⟨h, Serial.nil m.call memory, fun _ => rfl, fun _ => ⟨by simp [Exec.called],
    by simp [Exec.called]⟩, fun _ _ hmem => by cases hmem⟩

theorem ExecHistory.run {e₀ : Exec β} (hpackets : packets.length < 2 ^ 32)
    (hclsnPackets : clsnPackets.length < 2 ^ 32) (hobjs : packets.flatten.Perm objs)
    (hpairs : clsnPackets.flatten.Perm (pairs objs)) (hnodup : objs.Nodup)
    (hbegin : ExecHistory m packets clsnPackets baseTick baseCheck baseApply start [] e₀)
    (hrun : Run (ExecStep m packets clsnPackets) e₀ ls e) :
    ExecHistory m packets clsnPackets baseTick baseCheck baseApply start ls e :=
  hrun.history hbegin fun _ _ _ _ =>
    ExecHistory.step hpackets hclsnPackets hobjs hpairs hnodup

/-- The objects when the last `join` has returned. -/
theorem ExecHistory.memory (hobjs : packets.flatten.Perm objs) (hnodup : objs.Nodup)
    (h : ExecHistory m packets clsnPackets baseTick baseCheck baseApply start ls e)
    (hreturned : e.control.applies.shared.main = .returned) (o : Object) :
    (e.cells o).running = 0 ∧ (e.cells o).memory = (m.turn objs start).1 o := by
  have hchecks := h.control.applied (by rw [hreturned]; exact nofun)
  have hticks := h.control.checked (by rw [hchecks]; exact nofun)
  obtain ⟨hbegunTick, hfinishedTick⟩ := h.control.ticks.returned hticks o
  obtain ⟨hbegunApply, hfinishedApply⟩ := h.control.applies.returned hreturned o
  have hidle : (e.cells o).running = 0 := h.running_eq_zero (by
    rw [length_returnedOn, begunOn, hbegunTick, hbegunApply, hfinishedTick, hfinishedApply])
  refine ⟨hidle, ?_⟩
  rw [(h.cells o).settled hidle, h.left, returnedOn, hfinishedTick, hfinishedApply,
    hobjs.count_eq]
  show _ = m.each .apply objs (m.each .tick objs start) o
  rw [m.each_apply .apply hnodup, m.each_apply .tick hnodup]
  by_cases ho : o ∈ objs
  · rw [List.count_eq_one_of_mem hnodup ho, if_pos ho, if_pos ho]
    rfl
  · rw [List.count_eq_zero.mpr ho, if_neg ho, if_neg ho]
    rfl

/-- The collisions when the last `join` has returned. -/
theorem ExecHistory.collisions (hobjs : packets.flatten.Perm objs)
    (hpairs : clsnPackets.flatten.Perm (pairs objs)) (hnodup : objs.Nodup)
    (h : ExecHistory m packets clsnPackets baseTick baseCheck baseApply start ls e)
    (hreturned : e.control.applies.shared.main = .returned) :
    e.control.checks.shared.out.buffer.Perm (m.turn objs start).2 := by
  have hticked : ∀ o ∈ objs, (m.each .tick objs start o).1 = m.ticked start o := fun o ho => by
    rw [m.each_apply .tick hnodup, if_pos ho]
    rfl
  have hchecksMain := h.control.applied (by rw [hreturned]; exact nofun)
  have honce := h.control.exactlyOnce hobjs hpairs hnodup hreturned
  have hfound : ∀ r,
      TickLabel.check (.finish r true) ∈ controls ls ↔ r ∈ (m.turn objs start).2 := by
    intro r
    have hfinished := (h.control.checks.returned hchecksMain r).2
    rw [beq_pair] at hfinished
    have hmem : r ∈ pairs objs ↔ ∃ v, TickLabel.check (.finish r v) ∈ controls ls := by
      rw [← hpairs.mem_iff, ← List.count_pos_iff, ← hfinished, List.count_pos_iff,
        List.mem_flatMap]
      constructor
      · rintro ⟨l, hl, hr⟩
        cases l with
        | finish i v =>
          obtain rfl := List.mem_singleton.mp hr
          exact ⟨v, mem_checkLog_iff.mp hl⟩
        | _ => cases hr
      · rintro ⟨v, hv⟩
        exact ⟨_, mem_checkLog_iff.mpr hv, List.mem_singleton_self r⟩
    show _ ↔ r ∈ (pairs objs).filter fun r =>
      m.check r (m.each .tick objs start r.1).1 (m.each .tick objs start r.2).1
    rw [List.mem_filter]
    constructor
    · intro htrue
      have hr := hmem.mpr ⟨true, htrue⟩
      refine ⟨hr, ?_⟩
      rw [hticked _ (mem_of_mem_pairs hr).1, hticked _ (mem_of_mem_pairs hr).2]
      exact (h.answers r true htrue).symm
    · rintro ⟨hr, hhit⟩
      rw [hticked _ (mem_of_mem_pairs hr).1, hticked _ (mem_of_mem_pairs hr).2] at hhit
      obtain ⟨v, hv⟩ := hmem.mp hr
      obtain rfl : v = true := (h.answers r v hv).trans hhit
      exact hv
  have hnodupPairs : (m.turn objs start).2.Nodup :=
    (List.nodup_iff_count_le_one.mpr (count_pairs_le hnodup)).filter _
  rw [List.perm_iff_count]
  intro r
  rw [honce.recorded]
  split
  · next hr => exact (List.count_eq_one_of_mem hnodupPairs ((hfound r).mp hr)).symm
  · next hr => exact (List.count_eq_zero.mpr fun hmem => hr ((hfound r).mpr hmem)).symm

/-- Every run of `tick()` has its history. -/
theorem exec_history (m : Methods β) {s : State} (hkeyed : Keyed s.objects) {workerCount : Nat}
    (hworkers : 0 < workerCount) (hint : workerCount < 2 ^ 31)
    (hcount : s.stored.length * (s.stored.length - 1) / 2 < 2 ^ 31) :
    ∃ packets clsnPackets, deal workerCount s.stored = some packets
      ∧ deal workerCount (pairs s.stored) = some clsnPackets
      ∧ packets.flatten.Perm s.stored ∧ clsnPackets.flatten.Perm (pairs s.stored)
      ∧ ∀ control memory, TickStart workerCount control → ∀ ls e,
        Run (ExecStep m packets clsnPackets) (.called control memory) ls e →
          ExecHistory m packets clsnPackets control.ticks.shared.queue.inCount
            control.checks.shared.queue.inCount control.applies.shared.queue.inCount
            memory ls e := by
  obtain ⟨packets, hdeal, hlength, hperm⟩ := deal_eq_some hworkers (lt_of_pairs_lt hcount)
  have hcount' : (pairs s.stored).length < 2 ^ 31 := by rwa [length_pairs]
  obtain ⟨clsnPackets, hclsnDeal, hclsnLength, hclsnPerm⟩ := deal_eq_some hworkers hcount'
  refine ⟨packets, clsnPackets, hdeal, hclsnDeal, hperm, hclsnPerm,
    fun control memory hstart ls e hrun => ?_⟩
  have hbegin := ExecHistory.called m memory (hstart.history hworkers packets clsnPackets)
  exact hbegin.run (by omega) (by omega) hperm hclsnPerm (stored_nodup hkeyed) hrun

/-- One call of `tick()` by any number of workers under any scheduling of them, on objects whose
methods return and depend on the fields of the objects they are called on: no `tick` or `apply`
runs beside another on the same object, nor while a `check_collision` reads it, and the objects
and the collisions it leaves are those of one thread that makes the calls one after the other. -/
theorem tick_eq_turn (m : Methods β) {s : State} (hkeyed : Keyed s.objects) {workerCount : Nat}
    (hworkers : 0 < workerCount) (hint : workerCount < 2 ^ 31)
    (hcount : s.stored.length * (s.stored.length - 1) / 2 < 2 ^ 31) :
    ∃ packets clsnPackets, deal workerCount s.stored = some packets
      ∧ deal workerCount (pairs s.stored) = some clsnPackets
      ∧ ∀ control memory, TickStart workerCount control → ∀ ls e,
        Run (ExecStep m packets clsnPackets) (.called control memory) ls e →
          (∀ o, (e.cells o).running ≤ 1)
          ∧ (∀ r, e.Checking r → (e.cells r.1).running = 0 ∧ (e.cells r.2).running = 0)
          ∧ (e.control.applies.shared.main = .returned →
            (fun o => (e.cells o).memory) = (m.turn s.stored memory).1
              ∧ e.control.checks.shared.out.buffer.Perm (m.turn s.stored memory).2) := by
  have hnodup : s.stored.Nodup := stored_nodup hkeyed
  obtain ⟨packets, clsnPackets, hdeal, hclsnDeal, hperm, hclsnPerm, hruns⟩ :=
    exec_history m hkeyed hworkers hint hcount
  refine ⟨packets, clsnPackets, hdeal, hclsnDeal, fun control memory hstart ls e hrun => ?_⟩
  have hend := hruns control memory hstart ls e hrun
  refine ⟨fun o => (hend.cells o).alone, fun r hchecking => ⟨?_, ?_⟩, fun hreturned => ⟨?_, ?_⟩⟩
  · exact (hend.load hperm hclsnPerm hnodup hchecking (.inl rfl)).1
  · exact (hend.load hperm hclsnPerm hnodup hchecking (.inr rfl)).1
  · funext o
    exact (hend.memory hperm hnodup hreturned o).2
  · exact hend.collisions hperm hclsnPerm hnodup hreturned

/-- Two objects that count their calls, and collide when their counts are equal. -/
def counting : Methods Nat where
  tick := fun _ n => (n + 1, false)
  check := fun _ n n' => n == n'
  apply := fun _ n => (n + 1, n == 5)

theorem tick_eq_turn_twoObjects :
    ∃ packets clsnPackets, deal 2 twoObjects.stored = some packets
      ∧ deal 2 (pairs twoObjects.stored) = some clsnPackets
      ∧ ∀ ls e, Run (ExecStep counting packets clsnPackets)
          (.called ⟨newPool Object 2, newPool (Object × Object) 2, newPool Object 2⟩
            fun o => (o.id, true)) ls e →
        e.control.applies.shared.main = .returned →
          (e.cells ⟨10, 1⟩).memory = (3, true) ∧ e.control.checks.shared.out.buffer = [] := by
  have hkeyed : Keyed twoObjects.objects :=
    Keyed.insert (Keyed.insert (by intro k o h; simp at h) ⟨10, 1⟩) ⟨11, 2⟩
  obtain ⟨packets, clsnPackets, hdeal, hclsnDeal, hruns⟩ :=
    tick_eq_turn counting hkeyed (show 0 < 2 by decide) (by decide) (by decide)
  have hstart : TickStart 2 ⟨newPool Object 2, newPool (Object × Object) 2, newPool Object 2⟩ :=
    ⟨newPool_ready Object 2, newPool_ready (Object × Object) 2, newPool_ready Object 2⟩
  refine ⟨packets, clsnPackets, hdeal, hclsnDeal, fun ls e hrun hreturned => ?_⟩
  obtain ⟨hmemory, hcollisions⟩ := (hruns _ _ hstart ls e hrun).2.2 hreturned
  refine ⟨(congrFun hmemory ⟨10, 1⟩).trans (by decide), ?_⟩
  exact List.Perm.eq_nil (hcollisions.trans (List.Perm.of_eq (by decide)))

end Call

end Nrtb.SimCore
