import Nrtb.SimCore.Population
import Nrtb.Lib.CInt
import Nrtb.Lib.TransitionSystem

/-!
# `bcp_listener` and the population limit

`bcp_listener::processor()` (`cpp/sim_engine/bcp_server/bcp_server.cpp`, lines 70–96) next to a
running engine: the listener compares `engine.size()` with `pop_limit` and queues a new object, the
engine works its queue off message by message and sweeps entry by entry. `bcp_server.h` calls the
limit the number of objects after which no bot is accepted, but `engine.size()` knows nothing of the
objects that wait in the queue.

What is kept is a sum: the objects in the map, the adds in the queue and the one in the hands of the
listener. No step makes it larger but the acceptance of a connection. Bots leave by way of the
sweep, which makes it smaller, however the iterator goes on behind an erased element. In a run that
keeps to the limit the queue is short, so that the `int` which counts its messages is right.

* `Inv.step`: as long as a connection is accepted only where there is room for everything on its way
  to the map, there is room for it afterwards.
* `population_le`: the population stays within the limit in every run of such steps.
-/

namespace Nrtb.BcpServer

open SimCore

/-- Where the engine's thread is, as far as the population is concerned. -/
inductive EnginePc where
  -- outside of `turn_init`
  | turn
  -- in the message loop, with this many messages to go
  | messages (left : Nat)
  -- in the sweep, with these entries to go
  | sweep (rest : List (Nat × Object))
deriving DecidableEq, Repr

/-- Where the thread of `processor()` is. -/
inductive ListenerPc where
  -- in `get_sock()`
  | waiting
  -- past the test, with the bot made for the connection
  | adding (bot : Object)
deriving DecidableEq, Repr

structure System where
  core : SimCore.State
  engine : EnginePc
  listener : ListenerPc
  popLimit : Int

inductive Label where
  -- `get_sock()` returns and the test passes; the bot is made
  | accept (bot : Object)
  -- `get_sock()` returns and the test fails
  | reject
  -- `engine.add_object(...)`
  | add
  -- `turn_init` begins: `i = messages.size()`
  | turnInit
  | message
  -- the message loop is over
  | cleanup
  | sweepEntry
  | turnInitDone
  -- a `tick` or `apply` sets a flag
  | verdict (o : Object) (alive : Bool)
  -- `remove_obj`, for a collision or from outside
  | kill (oid : Nat)
deriving DecidableEq, Repr

/-- `sim_core::size()`: the count as an `int`. -/
def size (s : SimCore.State) : Int := CInt.toInt s.objects.size

/-- The state a step leads to, if it is possible and `++` leads where `d` has it. -/
def next? (d : Dangling) (s : System) : Label → Option System
  | .accept bot =>
    match s.listener with
    | .waiting =>
      if size s.core < s.popLimit then some { s with listener := .adding bot } else none
    | .adding _ => none
  | .reject =>
    match s.listener with
    | .waiting => if size s.core < s.popLimit then none else some s
    | .adding _ => none
  | .add =>
    match s.listener with
    | .waiting => none
    | .adding bot => some { s with core := addObject bot s.core, listener := .waiting }
  | .turnInit =>
    match s.engine with
    | .turn => some { s with engine := .messages (rounds s.core.messages) }
    | _ => none
  | .message =>
    match s.engine, s.core.messages with
    | .messages (left + 1), msg :: rest =>
      match processMessage msg { s.core with messages := rest } with
      | .done core => some { s with core := core, engine := .messages left }
      | _ => none
    | _, _ => none
  | .cleanup =>
    match s.engine with
    | .messages 0 =>
      some { s with
        core := { s.core with collisions := [] }
        engine := .sweep s.core.objects.entries }
    | _ => none
  | .sweepEntry =>
    match s.engine with
    | .sweep (a :: rest) =>
      if s.core.alive a.2 then some { s with engine := .sweep rest }
      else
        let left := s.core.objects.erase a.1
        (d left a).map fun i =>
          { s with
            core := { s.core with objects := left }
            engine := .sweep (left.entries.drop i) }
    | _ => none
  | .turnInitDone =>
    match s.engine with
    | .sweep [] => some { s with engine := .turn }
    | _ => none
  | .verdict o alive =>
    match s.engine with
    | .turn => some { s with core := s.core.setAlive o alive }
    | _ => none
  | .kill oid => some { s with core := removeObj oid s.core }

/-- One step, wherever `++` leads on the iterator of an erased element. -/
def Step (s : System) (l : Label) (s' : System) : Prop := ∃ d, next? d s l = some s'

/-- A running engine without objects, and the listener waiting. -/
def System.initial (popLimit : Int) : System where
  core :=
    { objects := .empty, alive := fun _ => true, messages := [], collisions := [],
      endRun := false, isRunning := true }
  engine := .turn
  listener := .waiting
  popLimit := popLimit

/-! ## The objects on their way -/

/-- The message adds an object. -/
def isAdd (msg : Message) : Bool :=
  msg.msgType == 0 && msg.noun == 1 && msg.verb == 1

/-- The adds in the queue. -/
def queuedAdds (s : System) : Nat := s.core.messages.countP isAdd

/-- The object that the listener is about to add. -/
def inFlight (s : System) : Nat :=
  match s.listener with
  | .waiting => 0
  | .adding _ => 1

/-- The condition: a connection is accepted only while the map and the queue leave room. -/
def WithinLimit (s : System) : Label → Prop
  | .accept _ => (s.core.objects.size + queuedAdds s : Int) < s.popLimit
  | _ => True

/-! ## The limit -/

/-- There is room for everything on its way, and the engine runs. -/
structure Inv (s : System) : Prop where
  running : s.core.isRunning = true
  room : (s.core.objects.size + queuedAdds s + inFlight s : Int) ≤ s.popLimit

/-- A message that the loop works off stores one object at most, and only an add stores one. -/
theorem processMessage_size {msg : Message} {s s' : SimCore.State}
    (h : processMessage msg s = .done s') :
    s'.isRunning = s.isRunning ∧ s'.messages = s.messages
      ∧ s'.objects.size ≤ s.objects.size + (if isAdd msg then 1 else 0) := by
  obtain ⟨msgType, noun, verb, data⟩ := msg
  simp only [processMessage] at h
  split_ifs at h with htype hnoun hverb hverb
  · -- an add
    cases data with
    | object newObj =>
      obtain rfl := Outcome.done.inj h
      have hadd : isAdd ⟨msgType, noun, verb, .object newObj⟩ = true := by
        simp [isAdd, not_not.mp htype, hnoun, hverb]
      rw [if_pos hadd]
      exact ⟨rfl, rfl, OrdMap.size_insert_le _ _ _⟩
    | null => cases h
    | oid n => cases h
  · -- a removal marks an object
    cases data with
    | oid did =>
      dsimp only at h
      split at h
      · cases h
      · obtain rfl := Outcome.done.inj h
        exact ⟨rfl, rfl, Nat.le_add_right _ _⟩
    | null => cases h
    | object o => cases h

/-- A call of the running engine puts its message into the queue. -/
theorem queuedAdds_put (core : SimCore.State) (c : Call) (s : System) :
    queuedAdds { s with core := putMessage c.message core }
      = queuedAdds { s with core := core } + (if isAdd c.message then 1 else 0) := by
  rw [queuedAdds, queuedAdds, putMessage, List.countP_append]
  simp [List.countP_cons]

/-- The object moves from the listener into the queue. -/
theorem Inv.add {s : System} (h : Inv s) {bot : Object} (hadding : s.listener = .adding bot) :
    Inv { s with core := addObject bot s.core, listener := .waiting } := by
  obtain ⟨hrunning, hinv⟩ := h
  have hput : addObject bot s.core = putMessage (Call.add bot).message s.core :=
    addObject_running bot hrunning
  have hqueued : queuedAdds { s with core := addObject bot s.core, listener := .waiting }
      = queuedAdds s + 1 := by
    rw [hput]
    exact queuedAdds_put s.core (.add bot) s
  have hflight : inFlight s = 1 := by rw [inFlight, hadding]
  have hcore : (addObject bot s.core).objects = s.core.objects := by rw [hput]; rfl
  refine ⟨by rw [hput]; exact hrunning, ?_⟩
  rw [hqueued]
  show ((addObject bot s.core).objects.size + _ + (0 : Nat) : Int) ≤ s.popLimit
  rw [hcore]
  omega

/-- What leaves the queue makes room for what it stores. -/
theorem Inv.message {s : System} (h : Inv s) {msg : Message} {rest : List Message} {left : Nat}
    {core : SimCore.State} (hmsgs : s.core.messages = msg :: rest)
    (hcore : processMessage msg { s.core with messages := rest } = .done core) :
    Inv { s with core := core, engine := .messages left } := by
  obtain ⟨hrunning, hinv⟩ := h
  obtain ⟨hrun, hms, hsize⟩ := processMessage_size hcore
  have hqueued : queuedAdds s = rest.countP isAdd + (if isAdd msg then 1 else 0) := by
    rw [queuedAdds, hmsgs, List.countP_cons]
  have hqueued' : queuedAdds { s with core := core, engine := .messages left }
      = rest.countP isAdd := by
    rw [queuedAdds, hms]
  refine ⟨hrun.trans hrunning, ?_⟩
  rw [hqueued']
  show (core.objects.size + _ + inFlight s : Int) ≤ s.popLimit
  have hsize : core.objects.size ≤ s.core.objects.size + (if isAdd msg then 1 else 0) := hsize
  omega

theorem Inv.kill {s : System} (h : Inv s) (oid : Nat) :
    Inv { s with core := removeObj oid s.core } := by
  obtain ⟨hrunning, hinv⟩ := h
  have hput : removeObj oid s.core = putMessage (Call.remove oid).message s.core :=
    removeObj_running oid hrunning
  have hqueued : queuedAdds { s with core := removeObj oid s.core } = queuedAdds s := by
    rw [hput]
    exact queuedAdds_put s.core (.remove oid) s
  have hcore : (removeObj oid s.core).objects = s.core.objects := by rw [hput]; rfl
  refine ⟨by rw [hput]; exact hrunning, ?_⟩
  rw [hqueued]
  show ((removeObj oid s.core).objects.size + _ + inFlight s : Int) ≤ s.popLimit
  rw [hcore]
  exact hinv

theorem Inv.step {s s' : System} {l : Label} (h : Inv s) (hstep : Step s l s')
    (hroom : WithinLimit s l) : Inv s' ∧ s'.popLimit = s.popLimit := by
  obtain ⟨hrunning, hinv⟩ := h
  obtain ⟨d, hstep⟩ := hstep
  cases l with
  | accept bot =>
    simp only [next?] at hstep
    split at hstep
    · obtain ⟨_, hs'⟩ := Option.ite_none_right_eq_some.mp hstep
      obtain rfl := Option.some.inj hs'
      have hroom : (s.core.objects.size + queuedAdds s : Int) < s.popLimit := hroom
      refine ⟨⟨hrunning, ?_⟩, rfl⟩
      show (s.core.objects.size + queuedAdds s + (1 : Nat) : Int) ≤ s.popLimit
      omega
    · cases hstep
  | reject =>
    simp only [next?] at hstep
    split at hstep
    · split_ifs at hstep
      obtain rfl := Option.some.inj hstep
      exact ⟨⟨hrunning, hinv⟩, rfl⟩
    · cases hstep
  | add =>
    simp only [next?] at hstep
    split at hstep
    · cases hstep
    · next bot hadding =>
      obtain rfl := Option.some.inj hstep
      exact ⟨Inv.add ⟨hrunning, hinv⟩ hadding, rfl⟩
  | message =>
    simp only [next?] at hstep
    split at hstep
    · next left msg rest _ hmsgs =>
      split at hstep
      · next core hcore =>
        obtain rfl := Option.some.inj hstep
        exact ⟨Inv.message ⟨hrunning, hinv⟩ hmsgs hcore, rfl⟩
      · cases hstep
    · cases hstep
  | sweepEntry =>
    simp only [next?] at hstep
    split at hstep
    · next a rest _ =>
      split_ifs at hstep
      · obtain rfl := Option.some.inj hstep
        exact ⟨⟨hrunning, hinv⟩, rfl⟩
      · obtain ⟨i, _, rfl⟩ := Option.map_eq_some_iff.mp hstep
        have hsize : (s.core.objects.erase a.1).size ≤ s.core.objects.size :=
          OrdMap.size_filter_le _ _
        refine ⟨⟨hrunning, ?_⟩, rfl⟩
        show ((s.core.objects.erase a.1).size + queuedAdds s + inFlight s : Int) ≤ s.popLimit
        omega
    · cases hstep
  | kill oid =>
    obtain rfl := Option.some.inj hstep
    exact ⟨Inv.kill ⟨hrunning, hinv⟩ oid, rfl⟩
  | _ =>
    -- neither the map nor the queue changes
    simp only [next?] at hstep
    split at hstep
    · obtain rfl := Option.some.inj hstep
      exact ⟨⟨hrunning, hinv⟩, rfl⟩
    · cases hstep

/-- In every run in which a connection is accepted only while the map and the queue leave room, the
population never exceeds a limit that is not negative. Wherever the iterator of the sweep goes, each
step keeps `Inv`, and what is in the map is part of the sum that `Inv` bounds. -/
theorem population_le (popLimit : Int) (log : List Label) (t : System) (hlimit : 0 ≤ popLimit)
    (hrun : Run (fun s l s' => Step s l s' ∧ WithinLimit s l) (.initial popLimit) log t) :
    (t.core.objects.size : Int) ≤ popLimit := by
  have hstart : Inv (.initial popLimit) :=
    ⟨rfl, by simpa [System.initial, queuedAdds, inFlight] using hlimit⟩
  have hinv : Inv t ∧ t.popLimit = popLimit := by
    refine hrun.invariant (I := fun t => Inv t ∧ t.popLimit = popLimit)
      ⟨hstart, rfl⟩ fun t l u hinv hlast => ?_
    obtain ⟨hinv', hsame⟩ := hinv.1.step hlast.1 hlast.2
    exact ⟨hinv', hsame.trans hinv.2⟩
  have hroom := hinv.1.room
  rw [hinv.2] at hroom
  omega

instance (s : System) (l : Label) : Decidable (WithinLimit s l) := by
  cases l <;> dsimp only [WithinLimit] <;> infer_instance

/-- The state a step leads to, if it is possible and within the limit. -/
def nextWithin? (d : Dangling) (s : System) (l : Label) : Option System :=
  if WithinLimit s l then next? d s l else none

theorem step_of_nextWithin? (d : Dangling) (s : System) (l : Label) (s' : System)
    (h : nextWithin? d s l = some s') : Step s l s' ∧ WithinLimit s l := by
  obtain ⟨hwithin, hnext⟩ := Option.ite_none_right_eq_some.mp h
  exact ⟨⟨d, hnext⟩, hwithin⟩

/-- Two bots come and one of them dies, which makes room for a third one. -/
def twoPlaces : List Label :=
  [.accept ⟨100, 1⟩, .add, .accept ⟨200, 2⟩, .add, .turnInit, .message, .message, .cleanup,
    .sweepEntry, .sweepEntry, .turnInitDone, .reject, .verdict ⟨100, 1⟩ false, .turnInit, .cleanup,
    .sweepEntry, .sweepEntry, .turnInitDone, .accept ⟨300, 3⟩, .add, .turnInit, .message]

/-- `population_le` on a limit of two. -/
theorem population_le_two :
    ∃ t, Run (fun s l s' => Step s l s' ∧ WithinLimit s l) (.initial 2) twoPlaces t
      ∧ (t.core.objects.size : Int) ≤ 2 := by
  obtain ⟨t, ht⟩ : ∃ t, Run.exec (nextWithin? .next) (.initial 2) twoPlaces = some t :=
    Option.isSome_iff_exists.mp (by decide +kernel)
  have hrun := Run.of_exec (step_of_nextWithin? .next) ht
  exact ⟨t, hrun, population_le 2 _ t (by decide) hrun⟩

/-- Two connections in the same turn with a limit of one: both are accepted, and the next
`turn_init` stores both objects. -/
theorem population_exceeds :
    ∃ t, Run Step (.initial 1)
        [.accept ⟨100, 1⟩, .add, .accept ⟨200, 2⟩, .add, .turnInit, .message, .message] t
      ∧ 1 < (t.core.objects.size : Int) := by
  have hexec : (Run.exec (next? .undefined) (.initial 1) [.accept ⟨100, 1⟩, .add, .accept ⟨200, 2⟩,
      .add, .turnInit, .message, .message]).map (fun t => t.core.objects.size) = some 2 := by
    decide +kernel
  obtain ⟨t, ht, hsize⟩ := Option.map_eq_some_iff.mp hexec
  refine ⟨t, .of_exec (fun s l s' h => ⟨.undefined, h⟩) ht, ?_⟩
  rw [hsize]
  decide

end Nrtb.BcpServer
