import Nrtb.BaseObject
import Nrtb.Lib.TransitionSystem

/-!
# `panopticon`

`cpp/sim_engine/sim_core/sim_core.cpp`, lines 36–62 and 434–441: the engine fills `t_list` turn by
turn and copies it to `c_list`, while other threads copy `c_list` out. A copy takes one step for
each record. `std::unique_lock<std::mutex>(list_lock);` declares a new `unique_lock` of the name
`list_lock` and locks nothing, so that the copies of `get` and `done_adding` run into each other.

What a reader should get is one list of the engine as a whole. The condition under which it does is
about the schedule, as nothing in the code sees to it: no record of `c_list` is assigned while a
`get` copies, and no `get` begins in the middle of an assignment (`Apart`).

* `Tidy.step`: how far the engine has got with the list of its turn, which no reader changes.
* `Faithful.step`: what the copies under way hold, as long as no copy of `get` meets one of
  `done_adding`: the first records of a list that is whole.
* `snapshots_whole`: what `get` returns then. `mixture_returned` is a run of two turns after which
  it returns the first record of one and the second record of the other.
-/

namespace Nrtb.SimCore.Panopticon

variable {K : Type*}

/-- `struct sensor_rec` -/
structure SensorRec (K : Type*) where
  type : Int
  id : Nat
  location : Triad K
  velocity : Triad K
  radius : K
deriving DecidableEq, Repr

/-- The fields of a `base_object` that a record is made of. -/
structure Visible (K : Type*) extends BaseObject K where
  object_type : Int
  id : Nat

/-- The record that `add` appends. -/
def sense (o : Visible K) : SensorRec K where
  type := o.object_type
  id := o.id
  location := o.location
  velocity := o.velocity
  radius := o.boundingSphere.radius

/-- Where the thread of `run_sim` is. -/
inductive EnginePc (K : Type*) where
  | idle
  -- in the loop over the objects of the turn, with these to go
  | adding (objects rest : List (Visible K))
  -- in `c_list = t_list`, with this many records assigned
  | assigning (objects : List (Visible K)) (i : Nat)

/-- A thread that calls `get`. -/
inductive ReaderPc (K : Type*) where
  | idle
  -- in the copy of a list of `n` records
  | copying (n : Nat) (copied : List (SensorRec K))

structure State (K : Type*) where
  c_list : List (SensorRec K)
  t_list : List (SensorRec K)
  engine : EnginePc K
  readers : List (ReaderPc K)

inductive Label (K : Type*) where
  | startNew
  | add
  | doneAdding
  -- a record of `c_list` is assigned
  | assign
  -- `c_list` gets its new length: the list of the turn is finished
  | finish (objects : List (Visible K))
  | get
  | copy
  | returned (list : List (SensorRec K))

/-- The assignment of one record: over an old one, or behind the last. -/
def assignRecord (c_list : List (SensorRec K)) (i : Nat) (r : SensorRec K) : List (SensorRec K) :=
  if i < c_list.length then c_list.set i r else c_list ++ [r]

inductive EngineStep : State K → Label K → State K → Prop
  | startNew (s : State K) (objects : List (Visible K)) (hpc : s.engine = .idle) :
      EngineStep s .startNew { s with t_list := [], engine := .adding objects objects }
  | add (s : State K) (objects rest : List (Visible K)) (o : Visible K)
      (hpc : s.engine = .adding objects (o :: rest)) :
      EngineStep s .add
        { s with t_list := s.t_list ++ [sense o], engine := .adding objects rest }
  | doneAdding (s : State K) (objects : List (Visible K)) (hpc : s.engine = .adding objects []) :
      EngineStep s .doneAdding { s with engine := .assigning objects 0 }
  | assign (s : State K) (objects : List (Visible K)) (i : Nat) (r : SensorRec K)
      (hpc : s.engine = .assigning objects i) (hr : s.t_list[i]? = some r) :
      EngineStep s .assign
        { s with c_list := assignRecord s.c_list i r, engine := .assigning objects (i + 1) }
  | finish (s : State K) (objects : List (Visible K)) (i : Nat)
      (hpc : s.engine = .assigning objects i) (hi : i = s.t_list.length) :
      EngineStep s (.finish objects) { s with c_list := s.c_list.take i, engine := .idle }

inductive ReaderStep : List (SensorRec K) → ReaderPc K → Label K → ReaderPc K → Prop
  | get (c_list : List (SensorRec K)) :
      ReaderStep c_list .idle .get (.copying c_list.length [])
  -- a record that is not there any more may read as anything
  | copy (c_list : List (SensorRec K)) (n : Nat) (copied : List (SensorRec K)) (r : SensorRec K)
      (hmore : copied.length < n) (hr : ∀ x, c_list[copied.length]? = some x → r = x) :
      ReaderStep c_list (.copying n copied) .copy (.copying n (copied ++ [r]))
  | returns (c_list : List (SensorRec K)) (n : Nat) (copied : List (SensorRec K))
      (hdone : copied.length = n) :
      ReaderStep c_list (.copying n copied) (.returned copied) .idle

inductive Step : State K → Label K → State K → Prop
  | engine {s s' : State K} {l : Label K} (h : EngineStep s l s') : Step s l s'
  | reader (c_list t_list : List (SensorRec K)) (engine : EnginePc K)
      (pre post : List (ReaderPc K)) (t t' : ReaderPc K) (l : Label K)
      (h : ReaderStep c_list t l t') :
      Step ⟨c_list, t_list, engine, pre ++ t :: post⟩ l ⟨c_list, t_list, engine, pre ++ t' :: post⟩

/-! ## Copies that do not meet -/

/-- Some records of `c_list` have been assigned, but the list is not finished. -/
def EnginePc.midway : EnginePc K → Bool
  | assigning _ (_ + 1) => true
  | _ => false

/-- The step changes `c_list`. -/
def Label.assigns : Label K → Bool
  | assign => true
  | finish _ => true
  | _ => false

/-- `c_list` changes only while no `get` copies it, and no `get` begins midway. -/
def Apart (s : State K) (l : Label K) : Prop :=
  (l.assigns = true → ∀ t ∈ s.readers, t = .idle) ∧ (l = .get → s.engine.midway = false)

/-- The list is the initial one, or the complete one of a finished turn. -/
def Whole (ls : List (Label K)) (list : List (SensorRec K)) : Prop :=
  list = [] ∨ ∃ objects, .finish objects ∈ ls ∧ list = objects.map sense

variable {ls : List (Label K)} {l : Label K} {s s' : State K} {list : List (SensorRec K)}

theorem Whole.later (h : Whole ls list) (l : Label K) : Whole (ls ++ [l]) list := by
  rcases h with h | ⟨objects, hfinish, h⟩
  · exact .inl h
  · exact .inr ⟨objects, List.mem_append_left _ hfinish, h⟩

/-! ## The engine's lists -/

/-- How far the engine has got with the list of its turn. -/
def Tidy (s : State K) : Prop :=
  match s.engine with
  | .idle => True
  | .adding objects rest => ∃ added, objects = added ++ rest ∧ s.t_list = added.map sense
  | .assigning objects i => s.t_list = objects.map sense ∧ i ≤ s.t_list.length
      ∧ s.c_list.take i = s.t_list.take i

theorem take_assignRecord {c_list t_list : List (SensorRec K)} {i : Nat} {r : SensorRec K}
    (htake : c_list.take i = t_list.take i) (hr : t_list[i]? = some r) :
    (assignRecord c_list i r).take (i + 1) = t_list.take (i + 1) := by
  obtain ⟨hlt, hget⟩ := List.getElem?_eq_some_iff.mp hr
  have hlength : i ≤ c_list.length := by
    have hlen := congrArg List.length htake
    rw [List.length_take, List.length_take] at hlen
    omega
  have htail : t_list.take (i + 1) = t_list.take i ++ [r] := by
    rw [← hget, List.take_succ_eq_append_getElem hlt]
  rw [htail, assignRecord]
  split
  · next hi => rw [List.take_succ_eq_append_getElem (by simpa using hi), List.take_set_of_le le_rfl,
      List.getElem_set_self, htake]
  · next hi =>
    have hsame : c_list.length = i := by omega
    rw [← htake, List.take_of_length_le (by simp [hsame]), List.take_of_length_le hsame.le]

theorem Tidy.step (h : Tidy s) (hstep : Step s l s') : Tidy s' := by
  cases hstep with
  | reader c_list t_list engine pre post t t' l _ => exact h
  | engine hstep =>
    cases hstep with
    | startNew objects _ => exact ⟨[], rfl, rfl⟩
    | add objects rest o hpc =>
      rw [Tidy, hpc] at h
      obtain ⟨added, hobjects, hlist⟩ := h
      exact ⟨added ++ [o], by simp [hobjects], by simp [hlist]⟩
    | doneAdding objects hpc =>
      rw [Tidy, hpc] at h
      obtain ⟨added, hobjects, hlist⟩ := h
      rw [List.append_nil] at hobjects
      exact ⟨hobjects ▸ hlist, Nat.zero_le _, rfl⟩
    | assign objects i r hpc hr =>
      rw [Tidy, hpc] at h
      obtain ⟨hlist, _, htake⟩ := h
      obtain ⟨hlt, _⟩ := List.getElem?_eq_some_iff.mp hr
      exact ⟨hlist, hlt, take_assignRecord htake hr⟩
    | finish objects i _ _ => trivial

/-! ## The copies of `get` -/

/-- What the copies hold while they do not meet. -/
structure Faithful (ls : List (Label K)) (s : State K) : Prop where
  current : s.engine.midway = false → Whole ls s.c_list
  copies : ∀ n copied, .copying n copied ∈ s.readers →
    s.engine.midway = false ∧ n = s.c_list.length ∧ copied = s.c_list.take copied.length
  returned : ∀ list, .returned list ∈ ls → Whole ls list

/-- A step that returns no list and leaves `c_list` and the copies alone. -/
theorem Faithful.still (h : Faithful ls s) (hlabel : ∀ list, l ≠ .returned list)
    (hlist : s'.c_list = s.c_list) (hreaders : s'.readers = s.readers)
    (hengine : s'.engine.midway = s.engine.midway) : Faithful (ls ++ [l]) s' where
  current := by
    rw [hengine, hlist]
    exact fun hmidway => (h.current hmidway).later l
  copies := by
    rw [hengine, hlist, hreaders]
    exact h.copies
  returned list hmem := by
    rcases List.mem_append.mp hmem with hmem | hmem
    · exact (h.returned list hmem).later l
    · exact absurd (List.mem_singleton.mp hmem).symm (hlabel list)

theorem Faithful.engineStep (h : Faithful ls s) (htidy : Tidy s) (hstep : EngineStep s l s')
    (hapart : Apart s l) : Faithful (ls ++ [l]) s' := by
  have hnone : l.assigns = true → ∀ n copied, .copying n copied ∉ s.readers :=
    fun hassigns n copied hmem => nomatch hapart.1 hassigns _ hmem
  cases hstep with
  | startNew objects hpc => exact h.still nofun rfl rfl (by rw [hpc]; rfl)
  | add objects rest o hpc => exact h.still nofun rfl rfl (by rw [hpc]; rfl)
  | doneAdding objects hpc => exact h.still nofun rfl rfl (by rw [hpc]; rfl)
  | assign objects i r hpc hr =>
    refine ⟨nofun, fun n copied hmem => absurd hmem (hnone rfl n copied), fun list hmem => ?_⟩
    have hmem' : .returned list ∈ ls := by simpa using hmem
    exact (h.returned list hmem').later _
  | finish objects i hpc hi =>
    rw [Tidy, hpc] at htidy
    obtain ⟨hlist, _, htake⟩ := htidy
    refine ⟨fun _ => .inr ⟨objects, by simp, ?_⟩,
      fun n copied hmem => absurd hmem (hnone rfl n copied), fun list hmem => ?_⟩
    · rw [htake, hi, List.take_length, hlist]
    · have hmem' : .returned list ∈ ls := by simpa using hmem
      exact (h.returned list hmem').later _

theorem Faithful.readerStep {c_list t_list : List (SensorRec K)} {engine : EnginePc K}
    {pre post : List (ReaderPc K)} {t t' : ReaderPc K}
    (h : Faithful ls ⟨c_list, t_list, engine, pre ++ t :: post⟩)
    (hstep : ReaderStep c_list t l t') (hget : l = .get → engine.midway = false) :
    Faithful (ls ++ [l]) ⟨c_list, t_list, engine, pre ++ t' :: post⟩ := by
  have hothers : ∀ n copied, .copying n copied ∈ pre ++ t' :: post → t' = .copying n copied
      ∨ engine.midway = false ∧ n = c_list.length ∧ copied = c_list.take copied.length := by
    intro n copied hmem
    rcases List.mem_append.mp hmem with hmem | hmem
    · exact .inr (h.copies n copied (List.mem_append_left _ hmem))
    · rcases List.mem_cons.mp hmem with heq | hmem
      · exact .inl heq.symm
      · exact .inr (h.copies n copied (List.mem_append_right _ (List.mem_cons_of_mem _ hmem)))
  have hcurrent : engine.midway = false → Whole (ls ++ [l]) c_list :=
    fun hmidway => (h.current hmidway).later l
  have hreturned : (∀ list, l ≠ .returned list) →
      ∀ list, .returned list ∈ ls ++ [l] → Whole (ls ++ [l]) list := by
    intro hlabel list hmem
    rcases List.mem_append.mp hmem with hmem | hmem
    · exact (h.returned list hmem).later l
    · exact absurd (List.mem_singleton.mp hmem).symm (hlabel list)
  cases hstep with
  | get =>
    refine ⟨hcurrent, fun n copied hmem => ?_, hreturned nofun⟩
    rcases hothers n copied hmem with heq | hold
    · obtain ⟨rfl, rfl⟩ := ReaderPc.copying.inj heq
      exact ⟨hget rfl, rfl, rfl⟩
    · exact hold
  | copy n copied r hmore hr =>
    obtain ⟨hmidway, hn, hcopied⟩ := h.copies n copied (by simp)
    refine ⟨hcurrent, fun m copies hmem => ?_, hreturned nofun⟩
    rcases hothers m copies hmem with heq | hold
    · obtain ⟨rfl, rfl⟩ := ReaderPc.copying.inj heq
      have hlt : copied.length < c_list.length := hn ▸ hmore
      refine ⟨hmidway, hn, ?_⟩
      rw [hr _ (List.getElem?_eq_getElem hlt), List.length_append, List.length_singleton,
        List.take_succ_eq_append_getElem hlt, ← hcopied]
    · exact hold
  | returns n copied hdone =>
    obtain ⟨hmidway, hn, hcopied⟩ := h.copies n copied (by simp)
    refine ⟨hcurrent, fun m copies hmem => (hothers m copies hmem).resolve_left nofun,
      fun list hmem => ?_⟩
    rcases List.mem_append.mp hmem with hmem | hmem
    · exact (h.returned list hmem).later _
    · obtain rfl := Label.returned.inj (List.mem_singleton.mp hmem)
      rw [hdone, hn] at hcopied
      have hall : list = c_list := hcopied.trans List.take_length
      exact (congrArg (Whole _) hall).mpr (hcurrent hmidway)

theorem Faithful.step (h : Faithful ls s) (htidy : Tidy s) (hstep : Step s l s')
    (hapart : Apart s l) : Faithful (ls ++ [l]) s' := by
  cases hstep with
  | engine hstep => exact h.engineStep htidy hstep hapart
  | reader c_list t_list engine pre post t t' l hstep => exact h.readerStep hstep hapart.2

/-- The lists empty, the engine between turns, and no thread in `get`. -/
def start (K : Type*) (readers : Nat) : State K :=
  ⟨[], [], .idle, List.replicate readers .idle⟩

/-- While no copy of `get` meets one of `done_adding`, every list returned is the initial one or the
complete list of one finished turn: a copy has begun when `c_list` was whole, and has not been
overtaken since. -/
theorem snapshots_whole {readers : Nat}
    (hrun : Run (fun s l s' => Step s l s' ∧ Apart s l) (start K readers) ls s) :
    ∀ list, .returned list ∈ ls → Whole ls list := by
  have hinit : Faithful [] (start K readers) ∧ Tidy (start K readers) := by
    refine ⟨⟨fun _ => .inl rfl, fun n copied hmem => ?_, nofun⟩, trivial⟩
    cases List.eq_of_mem_replicate hmem
  have hend := hrun.history (P := fun ls s => Faithful ls s ∧ Tidy s) hinit
    fun ls s l s' h hstep => ⟨h.1.step h.2 hstep.1 hstep.2, h.2.step hstep.1⟩
  exact hend.1.returned

/-- An object on the `x` axis. -/
def onAxis (id : Nat) (x : Int) : Visible Int :=
  ⟨⟨⟨x, 0, 0⟩, ⟨0, 0, 0⟩, ⟨1⟩⟩, 100, id⟩

/-- Two objects, in two successive turns. -/
def firstTurn : List (Visible Int) := [onAxis 1 0, onAxis 2 10]

def secondTurn : List (Visible Int) := [onAxis 1 5, onAxis 2 15]

def turnLog (objects : List (Visible Int)) : List (Label Int) :=
  [.startNew, .add, .add, .doneAdding, .assign, .assign, .finish objects]

/-- The first turn, and a copy of its list. -/
def wholeLog : List (Label Int) :=
  turnLog firstTurn ++ [.get, .copy, .copy, .returned (firstTurn.map sense)]

theorem run_wholeLog : Run (fun s l s' => Step s l s' ∧ Apart s l) (start Int 1) wholeLog
    ⟨firstTurn.map sense, firstTurn.map sense, .idle, [.idle]⟩ := by
  refine .cons ⟨.engine (.startNew _ firstTurn rfl), nofun, nofun⟩ ?_
  refine .cons ⟨.engine (.add _ _ _ _ rfl), nofun, nofun⟩ ?_
  refine .cons ⟨.engine (.add _ _ _ _ rfl), nofun, nofun⟩ ?_
  refine .cons ⟨.engine (.doneAdding _ _ rfl), nofun, nofun⟩ ?_
  refine .cons ⟨.engine (.assign _ _ _ _ rfl rfl), fun _ => by simp [start], nofun⟩ ?_
  refine .cons ⟨.engine (.assign _ _ _ _ rfl rfl), fun _ => by simp [start], nofun⟩ ?_
  refine .cons ⟨.engine (.finish _ _ _ rfl rfl), fun _ => by simp [start], nofun⟩ ?_
  refine .cons ⟨.reader _ _ _ [] [] _ _ _ (.get _), nofun, fun _ => rfl⟩ ?_
  refine .cons ⟨.reader _ _ _ [] [] _ _ _ (.copy _ _ _ _ (by decide)
    fun x hx => Option.some.inj hx), nofun, nofun⟩ ?_
  refine .cons ⟨.reader _ _ _ [] [] _ _ _ (.copy _ _ _ _ (by decide)
    fun x hx => Option.some.inj hx), nofun, nofun⟩ ?_
  exact .single ⟨.reader _ _ _ [] [] _ _ _ (.returns _ _ _ rfl), nofun, nofun⟩

theorem snapshots_whole_firstTurn : Whole wholeLog (firstTurn.map sense) :=
  snapshots_whole run_wholeLog _ (by simp [wholeLog])

/-- The first record of the first turn, and the second one of the second. -/
def mixed : List (SensorRec Int) := [sense (onAxis 1 0), sense (onAxis 2 15)]

/-- A copy that begins before the assignment and ends after it. -/
def mixedLog : List (Label Int) :=
  wholeLog ++ [.startNew, .add, .add, .doneAdding, .get, .copy, .assign, .assign,
    .finish secondTurn, .copy, .returned mixed]

theorem run_mixedLog : Run Step (start Int 1) mixedLog
    ⟨secondTurn.map sense, secondTurn.map sense, .idle, [.idle]⟩ := by
  refine (Run.mono (fun _ _ _ h => h.1) run_wholeLog).append ?_
  refine .cons (.engine (.startNew _ secondTurn rfl)) ?_
  refine .cons (.engine (.add _ _ _ _ rfl)) ?_
  refine .cons (.engine (.add _ _ _ _ rfl)) ?_
  refine .cons (.engine (.doneAdding _ _ rfl)) ?_
  refine .cons (.reader _ _ _ [] [] _ _ _ (.get _)) ?_
  refine .cons (.reader _ _ _ [] [] _ _ _
    (.copy _ _ _ _ (by decide) fun x hx => Option.some.inj hx)) ?_
  refine .cons (.engine (.assign _ _ _ _ rfl rfl)) ?_
  refine .cons (.engine (.assign _ _ _ _ rfl rfl)) ?_
  refine .cons (.engine (.finish _ _ _ rfl rfl)) ?_
  refine .cons (.reader _ _ _ [] [] _ _ _
    (.copy _ _ _ _ (by decide) fun x hx => Option.some.inj hx)) ?_
  exact .single (.reader _ _ _ [] [] _ _ _ (.returns _ _ _ rfl))

/-- `get` returns a mixture of the lists of two turns. -/
theorem mixture_returned : ∃ ls s, Run Step (start Int 1) ls s ∧ .returned mixed ∈ ls
    ∧ ¬ Whole ls mixed := by
  refine ⟨mixedLog, _, run_mixedLog, by simp [mixedLog], ?_⟩
  rintro (hnil | ⟨objects, hfinish, hmixed⟩)
  · cases hnil
  · have hturn : objects = firstTurn ∨ objects = secondTurn := by
      simpa [mixedLog, wholeLog, turnLog] using hfinish
    rcases hturn with rfl | rfl <;> revert hmixed <;> decide

end Nrtb.SimCore.Panopticon
