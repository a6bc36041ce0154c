import Nrtb.SimCore.Basic

/-!
# Queued and direct population changes

A sequence of `add_object` and `remove_obj` calls, performed while the simulation runs and consumed
by one `turn_init`, against the same sequence performed while it does not run
(`cpp/sim_engine/sim_core/sim_core.cpp`, lines 174–284 and 331–361). A caller does not know which of
the two he gets, so that they should come to the same.

The two ways differ in what a remove does: performed directly it takes the entry out, queued it
clears the flag of the object that is stored when its message is worked off, and the sweep takes out
whatever is dead then. An add behind it finds the flag of a new object up, or the flag of the old
one down.

* `processMessages_calls`: the message loop stores every added object (`withAdds`), marks the
  `struck` ones, and stays defined exactly if `RemovesPresent`. By induction on the calls.
* `turnInit_done`, `turnInit_throws`: what a call of `turn_init` says about its queue.
* `stored_cases`: who is stored under an id is decided by the last call about it, for both ways.
* `queued_eq_direct_iff`: both ways leave the same `all_objects` exactly for a sequence that is
  `Agreeing`, and whatever `++` does on a dangling iterator exactly if no id is removed last. Two
  maps are compared by their look-ups (`OrdMap.ext_find?`), id by id.
-/

namespace Nrtb.SimCore

/-! ## Calls -/

/-- A call from outside. -/
inductive Call where
  | add (obj : Object)
  | remove (oid : Nat)
deriving DecidableEq, Repr

namespace Call

/-- The id a call is about. -/
def about : Call → Nat
  | add obj => obj.id
  | remove oid => oid

def perform : Call → State → State
  | add obj => addObject obj
  | remove oid => removeObj oid

def message : Call → Message
  | add obj => addMessage obj
  | remove oid => removeMessage oid

end Call

/-- The calls of a sequence, one after the other. -/
def performAll (calls : List Call) (s : State) : State :=
  calls.foldl (fun s c => c.perform s) s

/-- The calls on the map itself. -/
def direct (objects : OrdMap Nat Object) : List Call → OrdMap Nat Object
  | [] => objects
  | .add obj :: calls => direct (objects.insert obj.id obj) calls
  | .remove oid :: calls => direct (objects.erase oid) calls

/-- The map once only the adds of a sequence are done. -/
def withAdds (objects : OrdMap Nat Object) : List Call → OrdMap Nat Object
  | [] => objects
  | .add obj :: calls => withAdds (objects.insert obj.id obj) calls
  | .remove _ :: calls => withAdds objects calls

/-- Every remove names an id that is present at the start or added before it. -/
def RemovesPresent (objects : OrdMap Nat Object) : List Call → Prop
  | [] => True
  | .add obj :: calls => RemovesPresent (objects.insert obj.id obj) calls
  | .remove oid :: calls => objects.find? oid ≠ none ∧ RemovesPresent objects calls

/-- The object is stored under its id when a remove of that id comes. -/
def struck (objects : OrdMap Nat Object) : List Call → Object → Bool
  | [], _ => false
  | .add obj :: calls, o => struck (objects.insert obj.id obj) calls o
  | .remove oid :: calls, o => objects.find? oid == some o || struck objects calls o

/-- The last call of a sequence about an id. -/
def lastAbout (oid : Nat) : List Call → Option Call
  | [] => none
  | c :: calls => (lastAbout oid calls).or (if c.about = oid then some c else none)

/-- Every object is stored under its own id. -/
def Keyed (objects : OrdMap Nat Object) : Prop :=
  ∀ k o, objects.find? k = some o → o.id = k

/-! ## The two ways of performing a sequence -/

/-- The call is queued when the engine runs. -/
theorem Call.perform_running {c : Call} {s : State} (h : s.isRunning = true) :
    c.perform s = putMessage c.message s := by
  cases c with
  | add obj => exact addObject_running obj h
  | remove oid => exact removeObj_running oid h

theorem performAll_running (calls : List Call) {s : State} (h : s.isRunning = true) :
    performAll calls s = { s with messages := s.messages ++ calls.map Call.message } := by
  induction calls generalizing s with
  | nil => simp [performAll]
  | cons c calls ih =>
    rw [performAll, List.foldl_cons, ← performAll, c.perform_running h, ih (by exact h)]
    simp [putMessage]

theorem performAll_stopped (calls : List Call) {s : State} (h : s.isRunning = false) :
    performAll calls s = { s with objects := direct s.objects calls } := by
  have hnot : ¬ s.isRunning = true := by simp [h]
  induction calls generalizing s with
  | nil => rfl
  | cons c calls ih =>
    rw [performAll, List.foldl_cons, ← performAll]
    cases c with
    | add obj =>
      have hperform : (Call.add obj).perform s
          = { s with objects := s.objects.insert obj.id obj } := if_neg hnot
      rw [hperform]
      exact ih h hnot
    | remove oid =>
      have hperform : (Call.remove oid).perform s
          = { s with objects := s.objects.erase oid } := if_neg hnot
      rw [hperform]
      exact ih h hnot

/-- The flags when the messages of a sequence of calls have been worked off. -/
def aliveBehind (objects : OrdMap Nat Object) (alive : Object → Bool) (calls : List Call)
    (o : Object) : Bool :=
  alive o && !struck objects calls o

theorem aliveBehind_iff {objects : OrdMap Nat Object} {alive : Object → Bool} {calls : List Call}
    {o : Object} : aliveBehind objects alive calls o = true
      ↔ alive o = true ∧ struck objects calls o = false := by
  simp [aliveBehind]

theorem aliveBehind_nil (objects : OrdMap Nat Object) (alive : Object → Bool) :
    aliveBehind objects alive [] = alive := by
  funext o
  rw [aliveBehind, struck, Bool.not_false, Bool.and_true]

/-- A remove takes the flag of the stored object down. -/
theorem aliveBehind_remove {s : State} {oid : Nat} {o : Object}
    (hfind : s.objects.find? oid = some o) (calls : List Call) :
    aliveBehind s.objects (s.setAlive o false).alive calls
      = aliveBehind s.objects s.alive (.remove oid :: calls) := by
  funext x
  rw [aliveBehind, aliveBehind, struck, hfind, State.setAlive]
  by_cases hx : x = o
  · subst hx
    simp
  · have hne : (some o == some x) = false := by simpa using Ne.symm hx
    rw [hne, Bool.false_or]
    simp [Function.update_of_ne hx]

theorem processMessage_add (obj : Object) (s : State) :
    processMessage (Call.add obj).message s
      = .done { s with objects := s.objects.insert obj.id obj } := by
  simp [processMessage, Call.message, addMessage]

theorem processMessage_remove {oid : Nat} {s : State} {o : Object}
    (hfind : s.objects.find? oid = some o) (queue : List Message) :
    processMessage (Call.remove oid).message { s with messages := queue }
      = .done { s.setAlive o false with messages := queue } := by
  simp [processMessage, Call.message, removeMessage, hfind, State.setAlive]

/-- A remove of an absent id follows a null pointer. -/
theorem processMessage_remove_absent {oid : Nat} {s : State} (hfind : s.objects.find? oid = none)
    (queue : List Message) :
    processMessage (Call.remove oid).message { s with messages := queue } = .undefined := by
  simp [processMessage, Call.message, removeMessage, hfind]

/-- The message loop on the messages of a sequence of calls. -/
theorem processMessages_calls (calls : List Call) (later : List Message) {s : State}
    (h : s.messages = calls.map Call.message ++ later) :
    (RemovesPresent s.objects calls
        ∧ processMessages (calls.map Call.message) later s
          = .done { s with
              objects := withAdds s.objects calls
              alive := aliveBehind s.objects s.alive calls
              messages := later })
      ∨ (¬ RemovesPresent s.objects calls
        ∧ processMessages (calls.map Call.message) later s = .undefined) := by
  induction calls generalizing s with
  | nil =>
    refine .inl ⟨trivial, ?_⟩
    have hnil : s.messages = later := h
    rw [List.map_nil, processMessages, aliveBehind_nil, ← hnil]
    rfl
  | cons c calls ih =>
    rw [List.map_cons, processMessages]
    cases c with
    | add obj =>
      rw [processMessage_add, Outcome.bind_done]
      exact ih (s := { s with
        objects := s.objects.insert obj.id obj
        messages := calls.map Call.message ++ later }) rfl
    | remove oid =>
      cases hfind : s.objects.find? oid with
      | none =>
        rw [processMessage_remove_absent hfind, Outcome.bind_undefined]
        exact .inr ⟨fun hpresent => hpresent.1 hfind, rfl⟩
      | some o =>
        rw [processMessage_remove hfind, Outcome.bind_done]
        rcases ih (s := { s.setAlive o false with
            messages := calls.map Call.message ++ later }) rfl with
          ⟨hpresent, hdone⟩ | ⟨habsent, hundef⟩
        · refine .inl ⟨⟨by simp [hfind], hpresent⟩, hdone.trans ?_⟩
          rw [← aliveBehind_remove hfind]
          rfl
        · exact .inr ⟨fun hpresent => habsent hpresent.2, hundef⟩

/-- The whole loop, if the messages that it counts are those of some calls. -/
theorem messageLoop_calls {calls : List Call} {s : State}
    (h : processed s.messages = calls.map Call.message) :
    (RemovesPresent s.objects calls
        ∧ messageLoop s = .done { s with
            objects := withAdds s.objects calls
            alive := aliveBehind s.objects s.alive calls
            messages := leftOver s.messages })
      ∨ (¬ RemovesPresent s.objects calls ∧ messageLoop s = .undefined) := by
  have hqueue := (processed_append_leftOver s.messages).symm
  rw [messageLoop, h]
  rw [h] at hqueue
  exact processMessages_calls calls _ hqueue

/-! ## What `turn_init` says about its queue -/

/-- The queue holds messages of `add_object` and `remove_obj` only. -/
def CallsOnly (queue : List Message) : Prop := ∃ calls : List Call, queue = calls.map Call.message

theorem message_injective : Function.Injective Call.message := by
  intro c c' h
  cases c <;> cases c' <;> simp_all [Call.message, addMessage, removeMessage]

theorem processMessage_done {msg : Message} {s s' : State}
    (h : processMessage msg s = .done s') : ∃ c : Call, msg = c.message := by
  obtain ⟨msgType, noun, verb, data⟩ := msg
  unfold processMessage at h
  dsimp only at h
  split_ifs at h with htype hnoun hadd hrm hctl hstop
  · cases data with
    | null => cases h
    | object obj => exact ⟨.add obj, by simp_all [Call.message, addMessage]⟩
    | oid did => cases h
  · cases data with
    | null => cases h
    | object obj => cases h
    | oid did => exact ⟨.remove did, by simp_all [Call.message, removeMessage]⟩

theorem processMessages_done {queue later : List Message} {s s' : State}
    (h : processMessages queue later s = .done s') : CallsOnly queue := by
  induction queue generalizing s with
  | nil => exact ⟨[], rfl⟩
  | cons msg rest ih =>
    rw [processMessages] at h
    cases hmsg : processMessage msg { s with messages := rest ++ later } with
    | throws e t => rw [hmsg] at h; cases h
    | undefined => rw [hmsg] at h; cases h
    | done t =>
      rw [hmsg] at h
      obtain ⟨c, rfl⟩ := processMessage_done hmsg
      obtain ⟨calls, rfl⟩ := ih h
      exact ⟨c :: calls, rfl⟩

/-- The map that `turn_init` leaves when it finds the queue, if it works off calls. -/
def Prepared (d : Dangling) (s : State) (queue : List Message) (objects : OrdMap Nat Object) :
    Prop :=
  ∃ calls : List Call, processed queue = calls.map Call.message ∧ RemovesPresent s.objects calls
    ∧ ∀ k o, objects.find? k = some o ↔ (withAdds s.objects calls).find? k = some o
      ∧ ¬ Erases d (aliveBehind s.objects s.alive calls) (withAdds s.objects calls) (k, o)

/-- The calls of a queue are determined by its messages. -/
theorem Prepared.find?_iff {d : Dangling} {s : State} {queue : List Message}
    {objects : OrdMap Nat Object} (h : Prepared d s queue objects) {calls : List Call}
    (hcalls : processed queue = calls.map Call.message) {k : Nat} {o : Object} :
    objects.find? k = some o ↔ (withAdds s.objects calls).find? k = some o
      ∧ ¬ Erases d (aliveBehind s.objects s.alive calls) (withAdds s.objects calls) (k, o) := by
  obtain ⟨calls', hcalls', _, hobjects⟩ := h
  obtain rfl : calls' = calls :=
    List.map_injective_iff.mpr message_injective (hcalls'.symm.trans hcalls)
  exact hobjects k o

theorem turnInit_done {d : Dangling} {s after : State} (h : turnInit d s = .done after) :
    Prepared d s s.messages after.objects ∧ after.isRunning = s.isRunning
      ∧ after.messages = leftOver s.messages := by
  obtain ⟨t, hloop, hsweep⟩ := turnInit_done_iff.mp h
  obtain ⟨calls, hcalls⟩ := processMessages_done hloop
  rcases messageLoop_calls hcalls with ⟨hpresent, hdone⟩ | ⟨_, hundefined⟩
  · obtain rfl := Outcome.done.inj (hdone.symm.trans hloop)
    rcases sweep_cases d _ with ⟨hnone, _⟩ | ⟨objects, hleft, hobjects⟩
    · cases hnone.symm.trans hsweep
    · obtain rfl := Outcome.done.inj (hleft.symm.trans hsweep)
      exact ⟨⟨calls, hcalls, hpresent, hobjects⟩, rfl, rfl⟩
  · cases hundefined.symm.trans hloop

theorem turnInit_throws {d : Dangling} {s after : State} {e : TurnError}
    (h : turnInit d s = .throws e after) : ¬ CallsOnly (processed s.messages) := by
  rintro ⟨calls, hcalls⟩
  rw [turnInit] at h
  rcases messageLoop_calls hcalls with ⟨_, hloop⟩ | ⟨_, hloop⟩
  · rw [hloop, Outcome.bind_done] at h
    rcases sweep_cases d _ with ⟨hsweep, _⟩ | ⟨objects, hsweep, _⟩
    · cases hsweep.symm.trans h
    · cases hsweep.symm.trans h
  · rw [hloop] at h
    cases h

/-- The calls of a queue whose messages `turn_init` counts. -/
def counted (calls : List Call) : List Call := calls.take (rounds (calls.map Call.message))

theorem processed_calls (calls : List Call) :
    processed (calls.map Call.message) = (counted calls).map Call.message :=
  List.map_take.symm

theorem counted_subset (calls : List Call) : counted calls ⊆ calls := List.take_subset _ _

theorem counted_of_lt {calls : List Call} (h : calls.length < 2 ^ 31) : counted calls = calls := by
  rw [counted, rounds_of_lt (by rwa [List.length_map]), List.length_map, List.take_length]

theorem callsOnly_leftOver {queue : List Message} (h : CallsOnly queue) :
    CallsOnly (leftOver queue) := by
  obtain ⟨calls, rfl⟩ := h
  exact ⟨calls.drop _, List.map_drop.symm⟩

/-! ## What decides about one id -/

theorem find?_direct (objects : OrdMap Nat Object) (calls : List Call) (k : Nat) :
    (direct objects calls).find? k
      = match lastAbout k calls with
        | none => objects.find? k
        | some (.add obj) => some obj
        | some (.remove _) => none := by
  induction calls generalizing objects with
  | nil => rfl
  | cons c calls ih =>
    cases c with
    | add obj =>
      rw [direct, ih, lastAbout]
      cases lastAbout k calls with
      | some last => cases last <;> rfl
      | none =>
        rw [Option.none_or, OrdMap.find?_insert]
        by_cases hk : obj.id = k
        · simp [Call.about, hk]
        · simp [Call.about, hk]
    | remove oid =>
      rw [direct, ih, lastAbout]
      cases lastAbout k calls with
      | some last => cases last <;> rfl
      | none =>
        rw [Option.none_or, OrdMap.find?_erase]
        by_cases hk : oid = k
        · simp [Call.about, hk]
        · simp [Call.about, hk]

theorem Keyed.insert {objects : OrdMap Nat Object} (h : Keyed objects) (obj : Object) :
    Keyed (objects.insert obj.id obj) := by
  intro k o hk
  rw [OrdMap.find?_insert] at hk
  split_ifs at hk with hid
  · rw [← Option.some.inj hk, hid]
  · exact h k o hk

theorem Keyed.withAdds {objects : OrdMap Nat Object} (h : Keyed objects) (calls : List Call) :
    Keyed (withAdds objects calls) := by
  induction calls generalizing objects with
  | nil => exact h
  | cons c calls ih =>
    cases c with
    | add obj => exact ih (h.insert obj)
    | remove oid => exact ih h

theorem Prepared.keyed {d : Dangling} {s : State} {queue : List Message}
    {objects : OrdMap Nat Object} (h : Prepared d s queue objects) (hkeyed : Keyed s.objects) :
    Keyed objects := by
  obtain ⟨calls, _, _, hobjects⟩ := h
  exact fun k o hk => hkeyed.withAdds calls k o ((hobjects k o).mp hk).1

/-- An id that no call is about keeps its entry. -/
theorem find?_withAdds_of_none {objects : OrdMap Nat Object} {calls : List Call} {k : Nat}
    (h : lastAbout k calls = none) : (withAdds objects calls).find? k = objects.find? k := by
  induction calls generalizing objects with
  | nil => rfl
  | cons c calls ih =>
    rw [lastAbout, Option.or_eq_none_iff] at h
    cases c with
    | add obj =>
      have hk : ¬ obj.id = k := fun hk => by simp [Call.about, hk] at h
      rw [withAdds, ih h.1, OrdMap.find?_insert, if_neg hk]
    | remove oid => exact ih h.1

/-- The last add of an id stores its object for good. -/
theorem find?_withAdds_of_add {objects : OrdMap Nat Object} {calls : List Call} {k : Nat}
    {obj : Object} (h : lastAbout k calls = some (.add obj)) :
    (withAdds objects calls).find? k = some obj := by
  induction calls generalizing objects with
  | nil => cases h
  | cons c calls ih =>
    rw [lastAbout] at h
    cases hlast : lastAbout k calls with
    | some c' =>
      rw [hlast, Option.some_or] at h
      cases c with
      | add obj' => exact ih (hlast.trans h)
      | remove oid => exact ih (hlast.trans h)
    | none =>
      rw [hlast, Option.none_or] at h
      split_ifs at h with hk
      obtain rfl := Option.some.inj h
      have hid : obj.id = k := hk
      rw [withAdds, find?_withAdds_of_none hlast, OrdMap.find?_insert, if_pos hid]

/-- What is stored behind the adds was stored before or has been added. -/
theorem mem_of_find?_withAdds {objects : OrdMap Nat Object} {calls : List Call} {k : Nat}
    {o : Object} (h : (withAdds objects calls).find? k = some o) :
    objects.find? k = some o ∨ .add o ∈ calls := by
  induction calls generalizing objects with
  | nil => exact .inl h
  | cons c calls ih =>
    cases c with
    | add obj =>
      rcases ih h with hfind | hmem
      · rw [OrdMap.find?_insert] at hfind
        split_ifs at hfind
        · exact .inr (Option.some.inj hfind ▸ List.mem_cons_self)
        · exact .inl hfind
      · exact .inr (List.mem_cons_of_mem _ hmem)
    | remove oid => exact (ih h).imp_right (List.mem_cons_of_mem _)

/-- Without calls about its id an object is not struck. -/
theorem struck_of_none {objects : OrdMap Nat Object} (hkeyed : Keyed objects)
    {calls : List Call} {o : Object} (h : lastAbout o.id calls = none) :
    struck objects calls o = false := by
  induction calls generalizing objects with
  | nil => rfl
  | cons c calls ih =>
    rw [lastAbout, Option.or_eq_none_iff] at h
    cases c with
    | add obj => exact ih (hkeyed.insert obj) h.1
    | remove oid =>
      have hne : ¬ oid = o.id := fun hk => by simp [Call.about, hk] at h
      have hfind : (objects.find? oid == some o) = false :=
        beq_false_of_ne fun hfind => hne (hkeyed oid o hfind).symm
      rw [struck, hfind, Bool.false_or]
      exact ih hkeyed h.1

/-- An id whose last call is a remove keeps a struck object. -/
theorem struck_of_remove {objects : OrdMap Nat Object} {calls : List Call} {k oid : Nat}
    (hpresent : RemovesPresent objects calls) (h : lastAbout k calls = some (.remove oid)) :
    ∃ o, (withAdds objects calls).find? k = some o ∧ struck objects calls o = true := by
  induction calls generalizing objects with
  | nil => cases h
  | cons c calls ih =>
    rw [lastAbout] at h
    cases hlast : lastAbout k calls with
    | some c' =>
      rw [hlast, Option.some_or] at h
      cases c with
      | add obj => exact ih hpresent (hlast.trans h)
      | remove oid' =>
        obtain ⟨o, hfind, hstruck⟩ := ih hpresent.2 (hlast.trans h)
        exact ⟨o, hfind, by rw [struck, hstruck, Bool.or_true]⟩
    | none =>
      rw [hlast, Option.none_or] at h
      split_ifs at h with hk
      obtain rfl := Option.some.inj h
      obtain ⟨o, ho⟩ := Option.ne_none_iff_exists'.mp hpresent.1
      have hid : oid = k := hk
      refine ⟨o, ?_, by rw [struck, ho]; simp⟩
      rw [withAdds, find?_withAdds_of_none hlast, ← hid, ho]

theorem about_of_lastAbout {calls : List Call} {k : Nat} {c : Call}
    (h : lastAbout k calls = some c) : c.about = k := by
  induction calls with
  | nil => cases h
  | cons c' calls ih =>
    rw [lastAbout, Option.or_eq_some_iff] at h
    rcases h with h | ⟨_, h⟩
    · exact ih h
    · split_ifs at h with hk
      rwa [← Option.some.inj h]

theorem mem_of_lastAbout {calls : List Call} {k : Nat} {c : Call}
    (h : lastAbout k calls = some c) : c ∈ calls := by
  induction calls with
  | nil => cases h
  | cons c' calls ih =>
    rw [lastAbout, Option.or_eq_some_iff] at h
    rcases h with h | ⟨_, h⟩
    · exact List.mem_cons_of_mem _ (ih h)
    · split_ifs at h
      simp [Option.some.inj h]

/-- The object stored under an id at the end of the messages, by the last call about the id. -/
theorem stored_cases {objects : OrdMap Nat Object} (hkeyed : Keyed objects) {calls : List Call}
    (hpresent : RemovesPresent objects calls) {k : Nat} {o : Object}
    (hfind : (withAdds objects calls).find? k = some o) :
    (lastAbout k calls = none ∧ objects.find? k = some o ∧ struck objects calls o = false)
      ∨ lastAbout k calls = some (.add o)
      ∨ ∃ oid, lastAbout k calls = some (.remove oid) ∧ struck objects calls o = true := by
  cases hlast : lastAbout k calls with
  | none =>
    rw [find?_withAdds_of_none hlast] at hfind
    have hid : o.id = k := hkeyed k o hfind
    exact .inl ⟨rfl, hfind, struck_of_none hkeyed (hid ▸ hlast)⟩
  | some c =>
    cases c with
    | add obj =>
      rw [find?_withAdds_of_add hlast] at hfind
      exact .inr (.inl (by rw [Option.some.inj hfind]))
    | remove oid =>
      obtain ⟨o', hfind', hstruck⟩ := struck_of_remove hpresent hlast
      obtain rfl : o' = o := Option.some.inj (hfind'.symm.trans hfind)
      exact .inr (.inr ⟨oid, rfl, hstruck⟩)

/-! ## Agreement -/

/-- The sequence, performed while the simulation runs and consumed by one `turn_init`, leaves the
same `all_objects` as performed directly, without leaving the defined behaviour. -/
def Agrees (d : Dangling) (s : State) (calls : List Call) : Prop :=
  ∃ after, turnInit d (performAll calls { s with isRunning := true }) = .done after
    ∧ after.messages = []
    ∧ after.objects = (performAll calls { s with isRunning := false }).objects

/-- When the queued calls come to the same as the direct ones: not more of them than one
`turn_init` consumes; no remove of an absent id; and no object added for good that was dead before
or had been removed while it was stored. -/
structure Agreeing (objects : OrdMap Nat Object) (alive : Object → Bool) (calls : List Call) :
    Prop where
  short : calls.length < 2 ^ 31
  present : RemovesPresent objects calls
  readded : ∀ obj, lastAbout obj.id calls = some (.add obj) →
    alive obj = true ∧ struck objects calls obj = false

section Agree

variable {objects : OrdMap Nat Object} {alive : Object → Bool} {calls : List Call}
  (hkeyed : Keyed objects) (halive : ∀ k o, objects.find? k = some o → alive o = true)

include hkeyed halive

/-- After agreeing calls, what is dead in the map is what was removed for good. -/
theorem Agreeing.dead_iff (h : Agreeing objects alive calls) {k : Nat} {o : Object}
    (hfind : (withAdds objects calls).find? k = some o) :
    aliveBehind objects alive calls o = false
      ↔ ∃ oid, lastAbout k calls = some (.remove oid) := by
  rw [aliveBehind]
  rcases stored_cases hkeyed h.present hfind with ⟨hlast, hstart, hstruck⟩ | hlast
    | ⟨oid, hlast, hstruck⟩
  · simp [hlast, hstruck, halive k o hstart]
  · have hid : o.id = k := about_of_lastAbout hlast
    obtain ⟨ha, hs⟩ := h.readded o (by rw [hid]; exact hlast)
    simp [hlast, ha, hs]
  · simp [hlast, hstruck]

/-- The living objects of the queued way are the objects of the direct way, for agreeing calls
only. -/
theorem living_eq_direct_iff (hshort : calls.length < 2 ^ 31)
    (hpresent : RemovesPresent objects calls) :
    (∀ k o, (direct objects calls).find? k = some o
        ↔ (withAdds objects calls).find? k = some o
          ∧ aliveBehind objects alive calls o = true)
      ↔ Agreeing objects alive calls := by
  constructor
  · intro heq
    refine ⟨hshort, hpresent, fun obj hlast => ?_⟩
    have hdirect : (direct objects calls).find? obj.id = some obj := by
      rw [find?_direct, hlast]
    exact aliveBehind_iff.mp ((heq obj.id obj).mp hdirect).2
  · intro h k o
    rw [find?_direct]
    cases hlast : lastAbout k calls with
    | none =>
      rw [find?_withAdds_of_none hlast]
      refine ⟨fun hfind => ⟨hfind, ?_⟩, fun hfind => hfind.1⟩
      have hstored : (withAdds objects calls).find? k = some o :=
        (find?_withAdds_of_none hlast).trans hfind
      have hdead := h.dead_iff hkeyed halive hstored
      simpa [hlast] using hdead
    | some c =>
      cases c with
      | add obj =>
        rw [find?_withAdds_of_add hlast]
        refine ⟨fun hobj => ⟨hobj, ?_⟩, fun hobj => hobj.1⟩
        obtain rfl := Option.some.inj hobj
        have hdead := h.dead_iff hkeyed halive (find?_withAdds_of_add hlast)
        simpa [hlast] using hdead
      | remove oid =>
        refine ⟨fun hnone => (Option.some_ne_none _ hnone.symm).elim, fun hfind => ?_⟩
        have hdead := (h.dead_iff hkeyed halive hfind.1).mpr ⟨oid, hlast⟩
        exact absurd (hfind.2.symm.trans hdead) Bool.true_eq_false.mp

end Agree

/-- `queued_eq_direct_iff` where `++` leads to the next entry. -/
theorem agrees_next_iff (s : State) (calls : List Call) (hkeyed : Keyed s.objects)
    (halive : ∀ k o, s.objects.find? k = some o → s.alive o = true) (hmsgs : s.messages = []) :
    Agrees .next s calls ↔ Agreeing s.objects s.alive calls := by
  obtain ⟨t, ht⟩ : ∃ t, t = performAll calls { s with isRunning := true } := ⟨_, rfl⟩
  have hqueued : t = { s with messages := calls.map Call.message, isRunning := true } := by
    rw [ht, performAll_running calls rfl]
    simp only [hmsgs, List.nil_append]
  have hlength : t.messages.length = calls.length := by rw [hqueued]; exact List.length_map _
  have hprocessed (hshort : calls.length < 2 ^ 31) :
      processed t.messages = calls.map Call.message := by
    rw [processed_eq_iff.mpr (hlength ▸ hshort), hqueued]
  unfold Agrees
  rw [← ht, performAll_stopped calls rfl]
  constructor
  · rintro ⟨after, hdone, hempty, heq⟩
    obtain ⟨hprepared, _, hleft⟩ := turnInit_done hdone
    have hshort : calls.length < 2 ^ 31 := hlength ▸ leftOver_eq_nil_iff.mp (hleft ▸ hempty)
    obtain ⟨calls', hcalls', hpresent, hobjects⟩ := hprepared
    obtain rfl : calls' = calls :=
      List.map_injective_iff.mpr message_injective (hcalls'.symm.trans (hprocessed hshort))
    rw [hqueued] at hpresent hobjects
    refine (living_eq_direct_iff hkeyed halive hshort hpresent).mp fun k o => ?_
    have hdirect : after.objects.find? k = (direct s.objects calls').find? k := by rw [heq]
    rw [← hdirect, hobjects]
    exact and_congr_right fun hk => not_erases_next_iff hk
  · intro h
    rcases messageLoop_calls (hprocessed h.short) with ⟨_, hloop⟩ | ⟨habsent, _⟩
    swap
    · rw [hqueued] at habsent
      exact absurd h.present habsent
    obtain ⟨objects, hsweep, hobjects⟩ := sweep_next { t with
      objects := withAdds t.objects calls
      alive := aliveBehind t.objects t.alive calls
      messages := leftOver t.messages }
    refine ⟨_, turnInit_done_iff.mpr ⟨_, hloop, hsweep⟩,
      leftOver_eq_nil_iff.mpr (hlength ▸ h.short), OrdMap.ext_find? fun k => Option.ext fun o => ?_⟩
    rw [hqueued] at hobjects
    exact (hobjects k o).trans
      ((living_eq_direct_iff hkeyed halive h.short h.present).mpr h k o).symm

/-- The queued calls come to the same as the direct ones if and only if they are `Agreeing`, where
`++` leads to the next entry; and whatever `++` does on the iterator of an erased element if and
only if, besides, no id has a remove as its last call. -/
theorem queued_eq_direct_iff (s : State) (calls : List Call) (hkeyed : Keyed s.objects)
    (halive : ∀ k o, s.objects.find? k = some o → s.alive o = true) (hmsgs : s.messages = []) :
    (Agrees .next s calls ↔ Agreeing s.objects s.alive calls)
      ∧ ((∀ d, Agrees d s calls) ↔ Agreeing s.objects s.alive calls
        ∧ ∀ k oid, lastAbout k calls ≠ some (.remove oid)) := by
  have hnext := agrees_next_iff s calls hkeyed halive hmsgs
  refine ⟨hnext, ?_⟩
  have hforall := forall_turnInit_iff (P := fun r => ∃ after, r = .done after ∧ after.messages = []
    ∧ after.objects = (performAll calls { s with isRunning := false }).objects)
    (by rintro ⟨_, h, _⟩; cases h) (performAll calls { s with isRunning := true })
  refine hforall.trans (Iff.trans (and_congr_left' hnext) (and_congr_right fun h => ?_))
  -- what is dead when the sweep begins is what was removed for good
  have hqueued : performAll calls { s with isRunning := true }
      = { s with messages := calls.map Call.message, isRunning := true } := by
    rw [performAll_running calls rfl]
    simp only [hmsgs, List.nil_append]
  have hprocessed : processed (performAll calls { s with isRunning := true }).messages
      = calls.map Call.message := by
    rw [hqueued, processed_eq_iff]
    simpa using h.short
  rcases messageLoop_calls hprocessed with ⟨_, hloop⟩ | ⟨habsent, _⟩
  swap
  · rw [hqueued] at habsent
    exact absurd h.present habsent
  rw [hqueued] at hloop ⊢
  constructor
  · intro hnobody k oid hlast
    obtain ⟨o, hfind, _⟩ := struck_of_remove h.present hlast
    have hup := hnobody _ hloop k o hfind
    exact absurd (hup.symm.trans ((h.dead_iff hkeyed halive hfind).mpr ⟨oid, hlast⟩))
      Bool.true_eq_false.mp
  · intro hnone t ht k o hfind
    obtain rfl := Outcome.done.inj (hloop.symm.trans ht)
    by_contra hdead
    obtain ⟨oid, hlast⟩ := (h.dead_iff hkeyed halive hfind).mp (Bool.not_eq_true _ ▸ hdead)
    exact hnone k oid hlast

/-! ## Some populations -/

/-- An engine that does not run, with the objects of a list, alive. -/
def populated (objs : List Object) : State where
  objects := objs.foldl (fun objects o => objects.insert o.id o) .empty
  alive := fun _ => true
  messages := []
  collisions := []
  endRun := false
  isRunning := false

theorem keyed_populated (objs : List Object) : Keyed (populated objs).objects := by
  have hfold : ∀ {objects : OrdMap Nat Object}, Keyed objects →
      Keyed (objs.foldl (fun objects o => objects.insert o.id o) objects) := by
    induction objs with
    | nil => exact fun h => h
    | cons o objs ih => exact fun h => ih (h.insert o)
  exact hfold fun k o hk => by cases hk

/-- `queued_eq_direct_iff` on two objects, of which one is replaced and the other one removed. -/
theorem queued_eq_direct_replace :
    Agrees .next (populated [⟨100, 1⟩, ⟨101, 2⟩]) [.remove 1, .add ⟨200, 1⟩, .remove 2]
      ∧ ∀ d, Agrees d (populated [⟨100, 1⟩, ⟨101, 2⟩]) [.remove 1, .add ⟨200, 1⟩] := by
  have hreplaced : ∀ {calls : List Call} {obj : Object},
      calls = [.remove 1, .add ⟨200, 1⟩, .remove 2] ∨ calls = [.remove 1, .add ⟨200, 1⟩] →
      lastAbout obj.id calls = some (.add obj) → obj = ⟨200, 1⟩ := by
    rintro calls obj hcalls hlast
    have hmem := mem_of_lastAbout hlast
    rcases hcalls with rfl | rfl <;> simpa using hmem
  have hnone : ∀ k oid, lastAbout k [.remove 1, .add ⟨200, 1⟩] ≠ some (.remove oid) := by
    intro k oid
    by_cases hk : 1 = k <;> simp [lastAbout, Call.about, hk]
  refine ⟨(queued_eq_direct_iff _ _ (keyed_populated _) (fun _ _ _ => rfl) rfl).1.mpr ?_,
    (queued_eq_direct_iff _ _ (keyed_populated _) (fun _ _ _ => rfl) rfl).2.mpr ⟨?_, hnone⟩⟩
  · refine ⟨show 3 < 2 ^ 31 by decide, ⟨by decide, by decide, trivial⟩, fun obj hlast => ?_⟩
    rw [hreplaced (.inl rfl) hlast]
    decide
  · refine ⟨show 2 < 2 ^ 31 by decide, ⟨by decide, trivial⟩, fun obj hlast => ?_⟩
    rw [hreplaced (.inr rfl) hlast]
    decide

/-- The queued remove of an unknown id follows a null pointer, and an object that is removed and
added again stays in the map when performed directly but is swept when queued. -/
theorem queued_ne_direct :
    (∀ d, ¬ Agrees d (populated [⟨100, 1⟩]) [.remove 7])
      ∧ ∀ d, ¬ Agrees d (populated [⟨100, 1⟩]) [.remove 1, .add ⟨100, 1⟩] := by
  constructor
  · rintro d ⟨after, hdone, _⟩
    have hundefined : turnInit d (performAll [.remove 7]
        { populated [⟨100, 1⟩] with isRunning := true }) = .undefined :=
      turnInit_of_lt d (show 1 < 2 ^ 31 by decide)
    cases hundefined.symm.trans hdone
  · rintro d ⟨after, hdone, _, heq⟩
    have hcalls : processed [removeMessage 1, addMessage ⟨100, 1⟩]
        = [Call.remove 1, .add ⟨100, 1⟩].map Call.message :=
      processed_eq_iff.mpr (show 2 < 2 ^ 31 by decide)
    have hin : after.objects.find? 1 = some ⟨100, 1⟩ := by rw [heq]; rfl
    -- the object is dead when the sweep comes to it
    refine ((turnInit_done hdone).1.find?_iff hcalls).mp hin |>.2 (.first ?_)
    decide

end Nrtb.SimCore
