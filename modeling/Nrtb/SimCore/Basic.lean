import Nrtb.Lib.CInt
import Nrtb.Lib.OrdMap
import Mathlib.Data.List.TakeDrop
import Mathlib.Data.Nat.Basic
import Mathlib.Logic.Function.Basic

/-!
# `sim_core`: the population between turns

`cpp/sim_engine/sim_core/sim_core.cpp`: `add_object`, `remove_obj` (lines 331–361) and `turn_init`
(lines 174–284). While the simulation runs both calls only queue a message; `turn_init` works the
queue off and then sweeps out the objects that are not alive.

An object is a pointer with the id it was constructed with, and its `alive` flag lives in the state,
because every holder of the pointer shares it.

Two things keep `turn_init` from doing what it looks like. Its loop counts the messages in an `int`,
so that of a queue of `2 ^ 31` messages or more it works off a part, or nothing (`processed`). And
the range-for of the sweep erases the element that its own iterator refers to. The language does not
say what `++` does on such an iterator; compiled, it follows the pointers that the freed node still
holds, and these lead to the next entry, past it, or back. So a `Dangling` is any answer that can be
given, and what the sweep erases is stated in terms of it. A result about a dead object is then for
every such answer, or names the ones that it needs.

* `processed_eq_iff`: which queues are worked off as a whole.
* `sweep_cases`: the sweep erases the dead objects that it comes to, and nothing else.
* `sweep_next`: if `++` leads on to the next entry, it comes to all of them.
* `turnInit_eq_next`: if nobody is dead, it does not matter where `++` leads.
* `forall_turnInit_iff`: a `turn_init` has an outcome whatever `++` does only if nobody is dead.
-/

namespace Nrtb

/-- `object_p`: which object is pointed to, and the id it was constructed with. -/
structure Object where
  addr : Nat
  id : Nat
deriving DecidableEq, Repr

namespace SimCore

/-! ## Messages -/

/-- What the `void_p` of a message points to. -/
inductive Data where
  | null
  | object (o : Object)
  | oid (id : Nat)
deriving DecidableEq, Repr

/-- `gp_sim_message` -/
structure Message where
  msgType : Int
  noun : Int
  verb : Int
  data : Data
deriving DecidableEq, Repr

/-- The exceptions of `turn_init`, with the message their text quotes. -/
inductive TurnError where
  | badMsg (msg : Message)
  | unhandledObjectVerb (msg : Message)
  | unhandledControlVerb (msg : Message)
  | badNoun (msg : Message)
  | nullPointer
deriving DecidableEq, Repr

/-! ## The state -/

/-- The part of `sim_core` that `turn_init` works on. -/
structure State where
  -- `all_objects`
  objects : OrdMap Nat Object
  -- The `alive` flag of every object, in the map or not.
  alive : Object → Bool
  messages : List Message
  collisions : List (Object × Object)
  endRun : Bool
  isRunning : Bool

/-- `o->alive = b` -/
def State.setAlive (s : State) (o : Object) (b : Bool) : State :=
  { s with alive := Function.update s.alive o b }

/-- What a call comes to: it returns, it throws, or it leaves the defined behaviour. -/
inductive Outcome where
  | done (s : State)
  | throws (e : TurnError) (s : State)
  | undefined

namespace Outcome

def bind (r : Outcome) (f : State → Outcome) : Outcome :=
  match r with
  | done s => f s
  | throws e s => throws e s
  | undefined => undefined

@[simp] theorem bind_done (s : State) (f : State → Outcome) : (done s).bind f = f s := rfl

@[simp] theorem bind_undefined (f : State → Outcome) : undefined.bind f = undefined := rfl

end Outcome

/-! ## The calls -/

/-- The message of `add_object`. -/
def addMessage (obj : Object) : Message := ⟨0, 1, 1, .object obj⟩

/-- The message of `remove_obj`. -/
def removeMessage (oid : Nat) : Message := ⟨0, 1, 2, .oid oid⟩

/-- `put_message` -/
def putMessage (m : Message) (s : State) : State := { s with messages := s.messages ++ [m] }

/-- `add_object` -/
def addObject (obj : Object) (s : State) : State :=
  if s.isRunning then putMessage (addMessage obj) s
  else { s with objects := s.objects.insert obj.id obj }

/-- `remove_obj` -/
def removeObj (oid : Nat) (s : State) : State :=
  if s.isRunning then putMessage (removeMessage oid) s
  else { s with objects := s.objects.erase oid }

theorem addObject_running (obj : Object) {s : State} (h : s.isRunning = true) :
    addObject obj s = putMessage (addMessage obj) s := if_pos h

theorem removeObj_running (oid : Nat) {s : State} (h : s.isRunning = true) :
    removeObj oid s = putMessage (removeMessage oid) s := if_pos h

/-! ## `turn_init` -/

/-- One round of the message loop, the message already taken off the queue. -/
def processMessage (msg : Message) (s : State) : Outcome :=
  if msg.msgType ≠ 0 then .throws (.badMsg msg) s
  else if msg.noun = 1 then
    if msg.verb = 1 then
      match msg.data with
      | .null => .throws .nullPointer s
      | .object newObj => .done { s with objects := s.objects.insert newObj.id newObj }
      | .oid _ => .undefined
    else if msg.verb = 2 then
      match msg.data with
      | .null => .throws .nullPointer s
      | .oid did =>
        match s.objects.find? did with
        -- `operator[]` stores a null pointer under the unknown id, and `->alive` follows it
        | none => .undefined
        | some o => .done (s.setAlive o false)
      | .object _ => .undefined
    else .throws (.unhandledObjectVerb msg) s
  else if msg.noun = 2 then
    -- the `break` of the inner switch falls into the outer `default`
    if msg.verb = 1 then .throws (.badNoun msg) { s with endRun := true }
    else .throws (.unhandledControlVerb msg) s
  else .throws (.badNoun msg) s

/-- The rounds of `for (int i = messages.size(); i > 0; i--)`. -/
@[irreducible] def rounds (queue : List Message) : Nat := (CInt.toInt queue.length).toNat

/-- The messages that the loop takes off a queue. -/
def processed (queue : List Message) : List Message := queue.take (rounds queue)

/-- The messages that it leaves there. -/
def leftOver (queue : List Message) : List Message := queue.drop (rounds queue)

/-- The message loop over some messages, with others behind them in the queue. -/
def processMessages : List Message → List Message → State → Outcome
  | [], _, s => .done s
  | msg :: rest, later, s =>
    (processMessage msg { s with messages := rest ++ later }).bind (processMessages rest later)

def messageLoop (s : State) : Outcome :=
  processMessages (processed s.messages) (leftOver s.messages) s

/-- Where `++` leads on an iterator whose element has been erased, by the map without the element
and the element: to an entry, given by its place in the map, or to `end()`, or nowhere (`none`).
The language leaves it undefined. -/
abbrev Dangling := OrdMap Nat Object → Nat × Object → Option Nat

/-- It leads nowhere. -/
def Dangling.undefined : Dangling := fun _ _ => none

/-- The freed node still leads to its successor. -/
def Dangling.next : Dangling := fun left a => some (left.entries.countP fun b => b.1 < a.1)

/-- The first of some entries whose object is not alive. -/
def firstDead (alive : Object → Bool) (entries : List (Nat × Object)) : Option (Nat × Object) :=
  entries.find? fun a => !alive a.2

/-- The range-for that erases the dead, from one position on: it goes on to the first dead entry,
erases it, and is where `++` then leads. `none`: that is nowhere. The first argument is the number
of entries in the map, of which every erasure takes one. -/
def sweepLoop (d : Dangling) (alive : Object → Bool) :
    Nat → List (Nat × Object) → OrdMap Nat Object → Option (OrdMap Nat Object)
  | 0, _, objects => some objects
  | size + 1, rest, objects =>
    match firstDead alive rest with
    | none => some objects
    | some a =>
      let left := objects.erase a.1
      (d left a).bind fun i => sweepLoop d alive size (left.entries.drop i) left

/-- The cleanup of `turn_init`: clear the collisions, then sweep. -/
def sweep (d : Dangling) (s : State) : Outcome :=
  match sweepLoop d s.alive s.objects.size s.objects.entries s.objects with
  | none => .undefined
  | some objects => .done { s with objects := objects, collisions := [] }

/-- `turn_init` -/
def turnInit (d : Dangling) (s : State) : Outcome := (messageLoop s).bind (sweep d)

/-! ## The count of the messages -/

theorem rounds_of_lt {queue : List Message} (h : queue.length < 2 ^ 31) :
    rounds queue = queue.length := by
  unfold rounds
  rw [CInt.toInt_of_range (by omega) (by omega), Int.toNat_natCast]

theorem rounds_lt (queue : List Message) : rounds queue < 2 ^ 31 := by
  have := CInt.toInt_lt queue.length
  unfold rounds
  omega

theorem processed_append_leftOver (queue : List Message) :
    processed queue ++ leftOver queue = queue := List.take_append_drop _ _

theorem processed_eq_iff {queue : List Message} :
    processed queue = queue ↔ queue.length < 2 ^ 31 := by
  have hlt := rounds_lt queue
  rw [processed, List.take_eq_self_iff]
  exact ⟨fun hle => hle.trans_lt hlt, fun h => (rounds_of_lt h).ge⟩

theorem leftOver_eq_nil_iff {queue : List Message} :
    leftOver queue = [] ↔ queue.length < 2 ^ 31 := by
  have hlt := rounds_lt queue
  rw [leftOver, List.drop_eq_nil_iff]
  exact ⟨fun hle => hle.trans_lt hlt, fun h => (rounds_of_lt h).ge⟩

/-- A queue that is not too long is worked off as a whole. -/
theorem turnInit_of_lt (d : Dangling) {s : State} (h : s.messages.length < 2 ^ 31) :
    turnInit d s = (processMessages s.messages [] s).bind (sweep d) := by
  rw [turnInit, messageLoop, processed_eq_iff.mpr h, leftOver_eq_nil_iff.mpr h]

theorem turnInit_done_iff {d : Dangling} {s after : State} :
    turnInit d s = .done after ↔ ∃ t, messageLoop s = .done t ∧ sweep d t = .done after := by
  rw [turnInit]
  cases messageLoop s with
  | done t => simp
  | throws e t => simp [Outcome.bind]
  | undefined => simp

/-! ## What the sweep does -/

/-- From some position on the sweep comes to a dead entry: it is the first one there, or the
iterator of the first one leads to where the sweep comes to it. -/
inductive ComesTo (d : Dangling) (alive : Object → Bool) :
    List (Nat × Object) → OrdMap Nat Object → Nat × Object → Prop
  | first {rest : List (Nat × Object)} {objects : OrdMap Nat Object} {a : Nat × Object}
      (h : firstDead alive rest = some a) : ComesTo d alive rest objects a
  | later {rest : List (Nat × Object)} {objects : OrdMap Nat Object} {a b : Nat × Object} {i : Nat}
      (h : firstDead alive rest = some b) (hleads : d (objects.erase b.1) b = some i)
      (hfurther : ComesTo d alive ((objects.erase b.1).entries.drop i) (objects.erase b.1) a) :
      ComesTo d alive rest objects a

/-- The sweep of a map erases the entry. -/
def Erases (d : Dangling) (alive : Object → Bool) (objects : OrdMap Nat Object)
    (a : Nat × Object) : Prop :=
  ComesTo d alive objects.entries objects a

/-- The sweep passes over the entry: it is never where the iterator is. -/
def PassesOver (d : Dangling) (alive : Object → Bool) (objects : OrdMap Nat Object)
    (a : Nat × Object) : Prop :=
  alive a.2 = false ∧ ¬ Erases d alive objects a

section Sweep

variable {d : Dangling} {alive : Object → Bool} {rest : List (Nat × Object)}
  {objects after : OrdMap Nat Object} {a : Nat × Object}

theorem firstDead_eq_none_iff : firstDead alive rest = none ↔ ∀ a ∈ rest, alive a.2 = true := by
  simp [firstDead, List.find?_eq_none]

theorem dead_of_firstDead (h : firstDead alive rest = some a) : alive a.2 = false := by
  simpa using List.find?_some h

theorem mem_of_firstDead (h : firstDead alive rest = some a) : a ∈ rest :=
  List.mem_of_find?_eq_some h

theorem ComesTo.dead (h : ComesTo d alive rest objects a) : alive a.2 = false := by
  induction h with
  | first h => exact dead_of_firstDead h
  | later _ _ _ ih => exact ih

theorem size_erase (h : a ∈ objects.entries) : (objects.erase a.1).size + 1 = objects.size := by
  obtain ⟨pre, post, hentries⟩ := List.append_of_mem h
  rw [OrdMap.size, OrdMap.size, OrdMap.entries_erase hentries, hentries]
  simp only [List.length_append, List.length_cons]
  omega

theorem sweepLoop_of_alive (h : ∀ a ∈ rest, alive a.2 = true) (size : Nat) :
    sweepLoop d alive size rest objects = some objects := by
  cases size with
  | zero => rfl
  | succ size => rw [sweepLoop, firstDead_eq_none_iff.mpr h]

theorem not_comesTo_of_living (h : firstDead alive rest = none) :
    ¬ ComesTo d alive rest objects a := by
  intro hcomes
  cases hcomes with
  | first hfirst => cases h.symm.trans hfirst
  | later hfirst _ _ => cases h.symm.trans hfirst

/-- The sweep comes to the first dead entry, and then to what it comes to from where the iterator
leads. -/
theorem comesTo_iff {b : Nat × Object} {i : Nat} (hfirst : firstDead alive rest = some b)
    (hleads : d (objects.erase b.1) b = some i) :
    ComesTo d alive rest objects a ↔ a = b ∨
      ComesTo d alive ((objects.erase b.1).entries.drop i) (objects.erase b.1) a := by
  constructor
  · intro hcomes
    cases hcomes with
    | first h => exact .inl (Option.some.inj (h.symm.trans hfirst))
    | later h hleads' hfurther =>
      obtain rfl := Option.some.inj (hfirst.symm.trans h)
      obtain rfl := Option.some.inj (hleads.symm.trans hleads')
      exact .inr hfurther
  · rintro (rfl | hfurther)
    · exact .first hfirst
    · exact .later hfirst hleads hfurther

/-- What is left is what the sweep does not come to. -/
theorem find?_sweepLoop (hrest : ∀ a ∈ rest, a ∈ objects.entries)
    (h : sweepLoop d alive objects.size rest objects = some after) (k : Nat) (o : Object) :
    after.find? k = some o
      ↔ objects.find? k = some o ∧ ¬ ComesTo d alive rest objects (k, o) := by
  generalize hsize : objects.size = size at h
  induction size generalizing rest objects with
  | zero =>
    obtain rfl := Option.some.inj h
    obtain rfl : rest = [] := List.eq_nil_iff_forall_not_mem.mpr fun a ha => by
      have hpos : 0 < objects.size := List.length_pos_of_mem (hrest a ha)
      omega
    rw [and_iff_left (not_comesTo_of_living rfl)]
  | succ size ih =>
    rw [sweepLoop] at h
    cases hfirst : firstDead alive rest with
    | none =>
      rw [hfirst] at h
      obtain rfl := Option.some.inj h
      rw [and_iff_left (not_comesTo_of_living hfirst)]
    | some b =>
      rw [hfirst] at h
      obtain ⟨i, hleads, hloop⟩ := Option.bind_eq_some_iff.mp h
      have hb : b ∈ objects.entries := hrest b (mem_of_firstDead hfirst)
      have hleft : (objects.erase b.1).size = size := by
        have := size_erase hb
        omega
      rw [ih (fun a ha => List.mem_of_mem_drop ha) hleft hloop, OrdMap.find?_erase,
        comesTo_iff hfirst hleads]
      by_cases hk : b.1 = k
      · -- the entry of a key is unique
        have hgone : ∀ (hfind : objects.find? k = some o), (k, o) = b := fun hfind => by
          have hentry := OrdMap.mem_entries_iff.mp hb
          rw [hk, hfind, Option.some.injEq] at hentry
          exact Prod.ext hk.symm hentry
        rw [if_pos hk]
        exact iff_of_false (fun h => by cases h.1) fun h => h.2 (.inl (hgone h.1))
      · have hother : (k, o) ≠ b := fun h => hk (congrArg Prod.fst h).symm
        rw [if_neg hk, or_iff_right hother]

/-- Where the successor of an erased entry is in the map. -/
theorem next_erase {pre : List (Nat × Object)} (h : objects.entries = pre ++ a :: rest) :
    ∃ i, Dangling.next (objects.erase a.1) a = some i
      ∧ (objects.erase a.1).entries.drop i = rest := by
  have hentries := OrdMap.entries_erase h
  have hsorted := objects.sorted
  rw [h, List.pairwise_append, List.pairwise_cons] at hsorted
  obtain ⟨_, ⟨hbehind, _⟩, hbefore⟩ := hsorted
  have hpre : pre.countP (fun b => b.1 < a.1) = pre.length := by
    rw [List.countP_eq_length]
    exact fun b hb => decide_eq_true (hbefore b hb a List.mem_cons_self)
  have hrest : rest.countP (fun b => b.1 < a.1) = 0 := by
    rw [List.countP_eq_zero]
    exact fun b hb => by simpa using (hbehind b hb).le
  refine ⟨_, rfl, ?_⟩
  rw [hentries, List.countP_append, hpre, hrest]
  exact List.drop_left

/-- If `++` leads to the next entry, the sweep comes to an end and to every dead entry. -/
theorem sweepLoop_next {pre : List (Nat × Object)} (h : objects.entries = pre ++ rest) :
    (∃ after, sweepLoop .next alive objects.size rest objects = some after)
      ∧ ∀ a ∈ rest, alive a.2 = false → ComesTo .next alive rest objects a := by
  generalize hsize : objects.size = size
  induction size generalizing pre rest objects with
  | zero =>
    obtain rfl : rest = [] := by
      have hlength := congrArg List.length h
      rw [List.length_append] at hlength
      exact List.eq_nil_of_length_eq_zero (by rw [OrdMap.size] at hsize; omega)
    exact ⟨⟨objects, rfl⟩, nofun⟩
  | succ size ih =>
    cases hfirst : firstDead alive rest with
    | none =>
      have halive := firstDead_eq_none_iff.mp hfirst
      refine ⟨⟨objects, sweepLoop_of_alive halive _⟩, fun a ha hdead => ?_⟩
      rw [halive a ha] at hdead
      cases hdead
    | some b =>
      obtain ⟨_, front, post, rfl, hfront⟩ := List.find?_eq_some_iff_append.mp hfirst
      have hentries : objects.entries = (pre ++ front) ++ b :: post := by
        rw [h, List.append_assoc]
      obtain ⟨i, hleads, hdrop⟩ := next_erase hentries
      have hb : b ∈ objects.entries := by
        rw [hentries]
        simp
      have hleft : (objects.erase b.1).size = size := by
        have := size_erase hb
        omega
      obtain ⟨⟨after, hloop⟩, hall⟩ := ih (OrdMap.entries_erase hentries) hleft
      refine ⟨⟨after, ?_⟩, fun a ha hdead => ?_⟩
      · rw [sweepLoop, hfirst]
        dsimp only
        rw [hleads, Option.bind_some, hdrop]
        exact hloop
      · rcases List.mem_append.mp ha with ha | ha
        · have halive : alive a.2 = true := by simpa using hfront a ha
          exact absurd (hdead.symm.trans halive) Bool.false_ne_true
        · rcases List.mem_cons.mp ha with rfl | ha
          · exact .first hfirst
          · exact .later hfirst hleads (by rw [hdrop]; exact hall a ha hdead)

/-- An entry is left because its object is alive, or because the sweep passes over it. -/
theorem not_erases_iff : ¬ Erases d alive objects a
    ↔ alive a.2 = true ∨ PassesOver d alive objects a := by
  cases halive : alive a.2 with
  | true =>
    exact iff_of_true (fun hcomes => absurd (hcomes.dead.symm.trans halive) Bool.false_ne_true)
      (.inl rfl)
  | false => simp [PassesOver, halive]

/-- If `++` leads to the next entry, the sweep leaves the living. -/
theorem not_erases_next_iff {k : Nat} {o : Object} (hk : objects.find? k = some o) :
    ¬ Erases .next alive objects (k, o) ↔ alive o = true := by
  constructor
  · intro hnot
    by_contra hdead
    exact hnot ((sweepLoop_next (List.nil_append objects.entries).symm).2 (k, o)
      (OrdMap.mem_entries_iff.mpr hk) (Bool.not_eq_true _ ▸ hdead))
  · exact fun halive hcomes =>
      absurd (hcomes.dead.symm.trans halive) Bool.false_ne_true

end Sweep

/-- The sweep erases the dead objects that it comes to, if it comes to an end. -/
theorem sweep_cases (d : Dangling) (s : State) :
    (sweep d s = .undefined ∧ ∃ k o, s.objects.find? k = some o ∧ s.alive o = false)
      ∨ ∃ objects, sweep d s = .done { s with objects := objects, collisions := [] }
        ∧ ∀ k o, objects.find? k = some o
          ↔ s.objects.find? k = some o ∧ ¬ Erases d s.alive s.objects (k, o) := by
  unfold sweep
  cases hloop : sweepLoop d s.alive s.objects.size s.objects.entries s.objects with
  | none =>
    refine .inl ⟨rfl, ?_⟩
    by_contra hnone
    have halive : ∀ a ∈ s.objects.entries, s.alive a.2 = true := fun a ha => by
      by_contra hdead
      exact hnone ⟨a.1, a.2, OrdMap.mem_entries_iff.mp ha, Bool.not_eq_true _ ▸ hdead⟩
    cases (sweepLoop_of_alive halive _).symm.trans hloop
  | some objects => exact .inr ⟨objects, rfl, find?_sweepLoop (fun _ ha => ha) hloop⟩

/-- If `++` leads to the next entry, the living objects are left. -/
theorem sweep_next (s : State) :
    ∃ objects, sweep .next s = .done { s with objects := objects, collisions := [] }
      ∧ ∀ k o, objects.find? k = some o ↔ s.objects.find? k = some o ∧ s.alive o = true := by
  obtain ⟨⟨after, hloop⟩, _⟩ := sweepLoop_next (List.nil_append s.objects.entries).symm
  refine ⟨after, by rw [sweep, hloop], fun k o => ?_⟩
  rw [find?_sweepLoop (fun _ ha => ha) hloop]
  exact and_congr_right fun hk => not_erases_next_iff hk

theorem sweep_of_alive (d : Dangling) {s : State}
    (h : ∀ k o, s.objects.find? k = some o → s.alive o = true) :
    sweep d s = .done { s with collisions := [] } := by
  have hentries : ∀ a ∈ s.objects.entries, s.alive a.2 = true :=
    fun a ha => h a.1 a.2 (OrdMap.mem_entries_iff.mp ha)
  rw [sweep, sweepLoop_of_alive hentries]

/-- If somebody is dead and `++` leads nowhere, nothing can be said of the sweep. -/
theorem sweep_undefined {s : State} (h : ∃ k o, s.objects.find? k = some o ∧ s.alive o = false) :
    sweep .undefined s = .undefined := by
  obtain ⟨k, o, hfind, hdead⟩ := h
  have hmem : (k, o) ∈ s.objects.entries := OrdMap.mem_entries_iff.mpr hfind
  obtain ⟨size, hsize⟩ : ∃ size, s.objects.size = size + 1 :=
    Nat.exists_eq_succ_of_ne_zero (List.length_pos_of_mem hmem).ne'
  cases hfirst : firstDead s.alive s.objects.entries with
  | none =>
    have halive := firstDead_eq_none_iff.mp hfirst (k, o) hmem
    exact absurd (hdead.symm.trans halive) Bool.false_ne_true
  | some a =>
    rw [sweep, hsize, sweepLoop, hfirst]
    rfl

/-! ## Where `++` leads -/

/-- Nobody is dead when the sweep begins. -/
def NobodyDead (s : State) : Prop :=
  ∀ t, messageLoop s = .done t → ∀ k o, t.objects.find? k = some o → t.alive o = true

theorem turnInit_eq_next (d : Dangling) {s : State} (h : NobodyDead s) :
    turnInit d s = turnInit .next s := by
  unfold turnInit
  cases hloop : messageLoop s with
  | done t =>
    have halive := h t hloop
    exact (sweep_of_alive d halive).trans (sweep_of_alive .next halive).symm
  | throws e t => rfl
  | undefined => rfl

/-- What holds of a `turn_init` whatever `++` does on an iterator whose element has been erased:
what holds of it if that leads to the next entry, provided that nobody is dead. -/
theorem forall_turnInit_iff {P : Outcome → Prop} (hdefined : ¬ P .undefined) (s : State) :
    (∀ d, P (turnInit d s)) ↔ P (turnInit .next s) ∧ NobodyDead s := by
  constructor
  · refine fun h => ⟨h .next, fun t hloop k o hfind => ?_⟩
    by_contra hdead
    have hundefined : turnInit .undefined s = .undefined := by
      rw [turnInit, hloop, Outcome.bind_done]
      exact sweep_undefined ⟨k, o, hfind, Bool.not_eq_true _ ▸ hdead⟩
    exact hdefined (hundefined ▸ h .undefined)
  · rintro ⟨hnext, hnobody⟩ d
    rwa [turnInit_eq_next d hnobody]

end SimCore

end Nrtb
