import Nrtb.SimCore.Basic

/-!
# The messages of a turn

What `turn_init` does with the queue that it finds (`cpp/sim_engine/sim_core/sim_core.cpp`, lines
174–284), for messages of any kind. The comments and constants of the function name three of them,
an add, a removal and a control stop, and call everything else a hard error.

`Applied` says what an accepted queue asks of the engine, without the code: the objects that are
added and not removed any more, and the run ended if there is a stop. `Rejects` then speaks of the
whole `turn_init`: the state that it leaves must be that one, and where some message is of another
kind it must throw. The queue decides which of the two is asked.

* `processMessage_cases`: a message has its effect, is refused, or leaves the defined behaviour.
* `processMessages_cases`: the same for a queue, by induction on it.
* `rejects_iff`: when a whole `turn_init` leaves what the messages of the three kinds ask for, and
  throws when there is another one. That the stop is refused comes from its `case`, which has no
  `break` and runs into the default; a removal of an id that is not there follows a null pointer.
-/

namespace Nrtb.SimCore

/-! ## Messages -/

namespace Message

/-- The kinds that the comments and constants of `turn_init` name: an add, a removal, a stop. -/
def Known (msg : Message) : Prop :=
  msg.msgType = 0 ∧ (msg.noun = 1 ∧ (msg.verb = 1 ∨ msg.verb = 2) ∨ msg.noun = 2 ∧ msg.verb = 1)

/-- A control stop. -/
def Stop (msg : Message) : Prop := msg.msgType = 0 ∧ msg.noun = 2 ∧ msg.verb = 1

/-- An add of an object, a removal of a present id, or a control stop. -/
def Accepted (msg : Message) (objects : OrdMap Nat Object) : Prop :=
  msg.msgType = 0 ∧
    ((msg.noun = 1 ∧ msg.verb = 1 ∧ ∃ o, msg.data = .object o)
      ∨ (msg.noun = 1 ∧ msg.verb = 2 ∧ ∃ oid o, msg.data = .oid oid ∧ objects.find? oid = some o)
      ∨ (msg.noun = 2 ∧ msg.verb = 1))

/-- An add or a removal with the data of the other, or the removal of an unknown id. -/
def Undefined (msg : Message) (objects : OrdMap Nat Object) : Prop :=
  msg.msgType = 0 ∧ msg.noun = 1 ∧
    ((msg.verb = 1 ∧ ∃ oid, msg.data = .oid oid)
      ∨ (msg.verb = 2 ∧ ∃ o, msg.data = .object o)
      ∨ (msg.verb = 2 ∧ ∃ oid, msg.data = .oid oid ∧ objects.find? oid = none))

/-- What an accepted message asks for. -/
def effect (msg : Message) (s : State) : State :=
  if msg.noun = 2 then { s with endRun := true }
  else
    match msg.data with
    | .object o => { s with objects := s.objects.insert o.id o }
    | .oid oid => (s.objects.find? oid).elim s fun o => s.setAlive o false
    | .null => s

instance (msg : Message) : Decidable msg.Known := inferInstanceAs (Decidable (_ ∧ _))

instance (msg : Message) : Decidable msg.Stop := inferInstanceAs (Decidable (_ ∧ _))

theorem Accepted.known {msg : Message} {objects : OrdMap Nat Object} (h : msg.Accepted objects) :
    msg.Known := by
  obtain ⟨htype, ⟨hnoun, hverb, _⟩ | ⟨hnoun, hverb, _⟩ | ⟨hnoun, hverb⟩⟩ := h
  · exact ⟨htype, .inl ⟨hnoun, .inl hverb⟩⟩
  · exact ⟨htype, .inl ⟨hnoun, .inr hverb⟩⟩
  · exact ⟨htype, .inr ⟨hnoun, hverb⟩⟩

theorem Accepted.not_undefined {msg : Message} {objects : OrdMap Nat Object}
    (h : msg.Accepted objects) : ¬ msg.Undefined objects := by
  rintro ⟨_, _, h'⟩
  obtain ⟨_, ⟨_, _, o, hdata⟩ | ⟨_, _, oid, o, hdata, hfind⟩ | ⟨hnoun, _⟩⟩ := h <;> simp_all

/-- The effect does not depend on the queue. -/
theorem effect_withMessages (msg : Message) (s : State) (queue : List Message) :
    msg.effect { s with messages := queue } = { msg.effect s with messages := queue } := by
  rw [effect, effect]
  split
  · rfl
  · cases msg.data with
    | object o => rfl
    | null => rfl
    | oid oid => cases hfind : s.objects.find? oid <;> simp [hfind, State.setAlive]

end Message

/-- A message has its effect, leaves the defined behaviour, or is refused; a control stop is
refused. -/
theorem processMessage_cases (msg : Message) (s : State) :
    (msg.Accepted s.objects ∧ ¬ msg.Stop ∧ processMessage msg s = .done (msg.effect s))
      ∨ (msg.Undefined s.objects ∧ processMessage msg s = .undefined)
      ∨ ((msg.Accepted s.objects → msg.Stop) ∧ ¬ msg.Undefined s.objects
        ∧ ∃ e s', processMessage msg s = .throws e s') := by
  obtain ⟨msgType, noun, verb, data⟩ := msg
  by_cases htype : msgType = 0
  swap
  · exact .inr (.inr ⟨fun h => absurd h.1 htype, fun h => htype h.1, _, _, if_pos htype⟩)
  subst htype
  by_cases hobject : noun = 1
  · subst hobject
    by_cases hadd : verb = 1
    · subst hadd
      cases data with
      | object o => exact .inl ⟨⟨rfl, .inl ⟨rfl, rfl, o, rfl⟩⟩, by simp [Message.Stop], rfl⟩
      | oid oid => exact .inr (.inl ⟨⟨rfl, rfl, .inl ⟨rfl, oid, rfl⟩⟩, rfl⟩)
      | null =>
        exact .inr (.inr ⟨by simp [Message.Accepted], by simp [Message.Undefined], _, _, rfl⟩)
    by_cases hremove : verb = 2
    · subst hremove
      cases data with
      | object o => exact .inr (.inl ⟨⟨rfl, rfl, .inr (.inl ⟨rfl, o, rfl⟩)⟩, rfl⟩)
      | oid oid =>
        cases hfind : s.objects.find? oid with
        | none =>
          refine .inr (.inl ⟨⟨rfl, rfl, .inr (.inr ⟨rfl, oid, rfl, hfind⟩)⟩, ?_⟩)
          simp [processMessage, hfind]
        | some o =>
          refine .inl ⟨⟨rfl, .inr (.inl ⟨rfl, rfl, oid, o, rfl, hfind⟩)⟩,
            by simp [Message.Stop], ?_⟩
          simp [processMessage, Message.effect, hfind]
      | null =>
        exact .inr (.inr ⟨by simp [Message.Accepted], by simp [Message.Undefined], _, _, rfl⟩)
    · refine .inr (.inr ⟨by simp [Message.Accepted, hadd, hremove],
        by simp [Message.Undefined, hadd, hremove], .unhandledObjectVerb ⟨0, 1, verb, data⟩, s, ?_⟩)
      simp [processMessage, hadd, hremove]
  by_cases hcontrol : noun = 2
  · subst hcontrol
    by_cases hstop : verb = 1
    · -- the case has no `break`
      subst hstop
      exact .inr (.inr ⟨fun _ => ⟨rfl, rfl, rfl⟩, by simp [Message.Undefined], _, _, rfl⟩)
    · refine .inr (.inr ⟨by simp [Message.Accepted, hstop], by simp [Message.Undefined],
        .unhandledControlVerb ⟨0, 2, verb, data⟩, s, ?_⟩)
      simp [processMessage, hstop]
  · refine .inr (.inr ⟨by simp [Message.Accepted, hobject, hcontrol],
      by simp [Message.Undefined, hobject], .badNoun ⟨0, noun, verb, data⟩, s, ?_⟩)
    simp [processMessage, hobject, hcontrol]

/-! ## The queue -/

/-- Every message is accepted when its turn comes. -/
def AllAccepted : List Message → State → Prop
  | [], _ => True
  | msg :: rest, s => msg.Accepted s.objects ∧ AllAccepted rest (msg.effect s)

/-- The first message without an effect leaves the defined behaviour. -/
def Derails : List Message → State → Prop
  | [], _ => False
  | msg :: rest, s =>
    msg.Undefined s.objects
      ∨ (msg.Accepted s.objects ∧ ¬ msg.Stop ∧ Derails rest (msg.effect s))

/-- The effects of a queue, in its order; nothing is left of it. -/
def effects (queue : List Message) (s : State) : State :=
  queue.foldl (fun s msg => msg.effect s) { s with messages := [] }

theorem effects_cons (msg : Message) (rest : List Message) (s : State) :
    effects (msg :: rest) s = effects rest (msg.effect s) := by
  rw [effects, effects, List.foldl_cons, Message.effect_withMessages]

theorem AllAccepted.known {queue : List Message} {s : State} (h : AllAccepted queue s) :
    ∀ msg ∈ queue, msg.Known := by
  induction queue generalizing s with
  | nil => exact nofun
  | cons msg rest ih =>
    intro m hm
    rcases List.mem_cons.mp hm with rfl | hm
    · exact h.1.known
    · exact ih h.2 m hm

theorem Message.effect_endRun {msg : Message} {s : State} (h : msg.Accepted s.objects) :
    (msg.effect s).endRun = true ↔ s.endRun = true ∨ msg.Stop := by
  obtain ⟨htype, ⟨hnoun, _, o, hdata⟩ | ⟨hnoun, _, oid, o, hdata, hfind⟩ | ⟨hnoun, hverb⟩⟩ := h
  · simp [Message.effect, Message.Stop, hnoun, hdata]
  · simp [Message.effect, Message.Stop, hnoun, hdata, hfind, State.setAlive]
  · simp [Message.effect, Message.Stop, htype, hnoun, hverb]

/-- The end of the run is asked for when there is a stop. -/
theorem effects_endRun (queue : List Message) (s : State) (hall : AllAccepted queue s) :
    (effects queue s).endRun = true ↔ s.endRun = true ∨ ∃ msg ∈ queue, msg.Stop := by
  induction queue generalizing s with
  | nil => simp [effects]
  | cons msg rest ih =>
    rw [effects_cons, ih (msg.effect s) hall.2, Message.effect_endRun hall.1]
    simp [or_assoc]

theorem effects_messages (queue : List Message) (s : State) : (effects queue s).messages = [] := by
  induction queue generalizing s with
  | nil => rfl
  | cons msg rest ih =>
    rw [effects_cons]
    exact ih _

theorem allAccepted_withMessages (queue more : List Message) (s : State) :
    AllAccepted queue { s with messages := more } ↔ AllAccepted queue s := by
  induction queue generalizing s with
  | nil => exact Iff.rfl
  | cons msg rest ih => rw [AllAccepted, AllAccepted, Message.effect_withMessages, ih]

theorem derails_withMessages (queue more : List Message) (s : State) :
    Derails queue { s with messages := more } ↔ Derails queue s := by
  induction queue generalizing s with
  | nil => exact Iff.rfl
  | cons msg rest ih => rw [Derails, Derails, Message.effect_withMessages, ih]

theorem Derails.not_allAccepted {queue : List Message} {s : State} (h : Derails queue s) :
    ¬ AllAccepted queue s := by
  induction queue generalizing s with
  | nil => exact h.elim
  | cons msg rest ih =>
    rintro ⟨haccepted, hall⟩
    rcases h with hundefined | ⟨_, _, h⟩
    · exact haccepted.not_undefined hundefined
    · exact ih h hall

/-- A queue has its effects, leaves the defined behaviour, or is refused. -/
theorem processMessages_cases (queue later : List Message) (s : State)
    (hqueue : s.messages = queue ++ later) :
    (AllAccepted queue s ∧ (∀ msg ∈ queue, ¬ msg.Stop)
        ∧ processMessages queue later s = .done { effects queue s with messages := later })
      ∨ (Derails queue s ∧ processMessages queue later s = .undefined)
      ∨ ((AllAccepted queue s → ∃ msg ∈ queue, msg.Stop) ∧ ¬ Derails queue s
        ∧ ∃ e s', processMessages queue later s = .throws e s') := by
  induction queue generalizing s with
  | nil =>
    cases s
    cases hqueue
    exact .inl ⟨trivial, nofun, rfl⟩
  | cons msg rest ih =>
    have heffect := Message.effect_withMessages msg s (rest ++ later)
    rw [processMessages]
    rcases processMessage_cases msg { s with messages := rest ++ later } with
      ⟨haccepted, hstop, hdone⟩ | ⟨hundefined, hloop⟩ | ⟨hrefused, hdefined, e, s', hthrows⟩
    · rw [hdone, heffect, Outcome.bind_done]
      have hrest := ih { msg.effect s with messages := rest ++ later } rfl
      rw [allAccepted_withMessages, derails_withMessages] at hrest
      rcases hrest with ⟨hall, hstops, hrun⟩ | ⟨hderails, hrun⟩ | ⟨hall, hderails, hrun⟩
      · refine .inl ⟨⟨haccepted, hall⟩, ?_, ?_⟩
        · intro m hm
          rcases List.mem_cons.mp hm with rfl | hm
          · exact hstop
          · exact hstops m hm
        · rw [hrun, effects_cons]
          rfl
      · exact .inr (.inl ⟨.inr ⟨haccepted, hstop, hderails⟩, hrun⟩)
      · refine .inr (.inr ⟨fun h => ?_, ?_, hrun⟩)
        · obtain ⟨m, hm, hmstop⟩ := hall h.2
          exact ⟨m, List.mem_cons_of_mem _ hm, hmstop⟩
        · rintro (hundefined | ⟨_, _, h⟩)
          · exact haccepted.not_undefined hundefined
          · exact hderails h
    · rw [hloop]
      exact .inr (.inl ⟨.inl hundefined, rfl⟩)
    · rw [hthrows]
      refine .inr (.inr ⟨fun h => ⟨msg, List.mem_cons_self, hrefused h.1⟩, ?_, e, s', rfl⟩)
      rintro (hundefined | ⟨haccepted, hstop, _⟩)
      · exact hdefined hundefined
      · exact hstop (hrefused haccepted)

/-! ## `turn_init` -/

theorem sweep_ne_throws (d : Dangling) (s s' : State) (e : TurnError) :
    sweep d s ≠ .throws e s' := by
  rw [sweep]
  cases sweepLoop d s.alive s.objects.size s.objects.entries s.objects <;> rintro ⟨⟩

/-- The engine as the messages of a queue ask for it: every message consumed, the objects that are
alive behind their effects, and the end of the run if there is a stop. -/
def Applied (s after : State) : Prop :=
  after.messages = []
    ∧ (∀ k o, after.objects.find? k = some o
      ↔ (effects s.messages s).objects.find? k = some o
        ∧ (effects s.messages s).alive o = true)
    ∧ (after.endRun = true ↔ s.endRun = true ∨ ∃ msg ∈ s.messages, msg.Stop)

/-- Of a queue of adds, removals of present ids and stops, `turn_init` consumes and applies every
message, and it returns; a message of another type, noun or verb makes it throw. -/
def Rejects (d : Dangling) (s : State) : Prop :=
  (AllAccepted s.messages s → ∃ after, turnInit d s = .done after ∧ Applied s after)
    ∧ ((∃ msg ∈ s.messages, ¬ msg.Known) → ∃ e s', turnInit d s = .throws e s')

/-- What the queue must be like. Without a malformed message it is not too long for its count and
has no stop in it. With one, the messages that are counted get as far as an exception. -/
structure WellQueued (s : State) : Prop where
  accepted : AllAccepted s.messages s →
    s.messages.length < 2 ^ 31 ∧ ∀ msg ∈ s.messages, ¬ msg.Stop
  refused : (∃ msg ∈ s.messages, ¬ msg.Known) → ¬ Derails (processed s.messages) s
    ∧ (AllAccepted (processed s.messages) s → ∃ msg ∈ processed s.messages, msg.Stop)

theorem messageLoop_cases (s : State) :
    (AllAccepted (processed s.messages) s ∧ (∀ msg ∈ processed s.messages, ¬ msg.Stop)
        ∧ messageLoop s = .done { effects (processed s.messages) s with
            messages := leftOver s.messages })
      ∨ (Derails (processed s.messages) s ∧ messageLoop s = .undefined)
      ∨ ((AllAccepted (processed s.messages) s → ∃ msg ∈ processed s.messages, msg.Stop)
        ∧ ¬ Derails (processed s.messages) s ∧ ∃ e s', messageLoop s = .throws e s') :=
  processMessages_cases _ _ s (processed_append_leftOver s.messages).symm

theorem AllAccepted.of_append {queue more : List Message} {s : State}
    (h : AllAccepted (queue ++ more) s) : AllAccepted queue s := by
  induction queue generalizing s with
  | nil => trivial
  | cons msg rest ih => exact ⟨h.1, ih h.2⟩

theorem AllAccepted.processed {s : State} (h : AllAccepted s.messages s) :
    AllAccepted (processed s.messages) s := by
  rw [← processed_append_leftOver s.messages] at h
  exact h.of_append

/-- It throws when the messages that are counted are refused. -/
theorem turnInit_throws_iff (d : Dangling) (s : State) :
    (∃ e s', turnInit d s = .throws e s') ↔ ¬ Derails (processed s.messages) s
      ∧ (AllAccepted (processed s.messages) s → ∃ msg ∈ processed s.messages, msg.Stop) := by
  rcases messageLoop_cases s with
    ⟨hall, hstops, hloop⟩ | ⟨hderails, hloop⟩ | ⟨hrefused, hdefined, e, s', hloop⟩
  · refine iff_of_false ?_ ?_
    · rintro ⟨e, s', hthrows⟩
      rw [turnInit, hloop, Outcome.bind_done] at hthrows
      exact sweep_ne_throws d _ s' e hthrows
    · rintro ⟨_, hstop⟩
      obtain ⟨msg, hmsg, hmstop⟩ := hstop hall
      exact hstops msg hmsg hmstop
  · refine iff_of_false ?_ fun h => h.1 hderails
    rintro ⟨e, s', hthrows⟩
    rw [turnInit, hloop] at hthrows
    cases hthrows
  · exact iff_of_true ⟨e, s', by rw [turnInit, hloop]; rfl⟩ ⟨hdefined, hrefused⟩

/-- A loop that has consumed everything has had every effect. -/
theorem eq_effects {s t : State} (hloop : messageLoop s = .done t) (hempty : t.messages = []) :
    t = effects s.messages s ∧ s.messages.length < 2 ^ 31 ∧ ∀ msg ∈ s.messages, ¬ msg.Stop := by
  rcases messageLoop_cases s with ⟨_, hstops, hdone⟩ | ⟨_, hundefined⟩ | ⟨_, _, e, s', hthrows⟩
  · obtain rfl := Outcome.done.inj (hdone.symm.trans hloop)
    have hlength := leftOver_eq_nil_iff.mp hempty
    have hprocessed := processed_eq_iff.mpr hlength
    dsimp only at hempty
    rw [hempty, hprocessed, ← effects_messages s.messages s]
    exact ⟨rfl, hlength, hprocessed ▸ hstops⟩
  · cases hundefined.symm.trans hloop
  · cases hthrows.symm.trans hloop

/-- A queue of accepted messages is consumed when it is short and has no stop in it. -/
theorem messageLoop_accepted {s : State} (hall : AllAccepted s.messages s)
    (hlength : s.messages.length < 2 ^ 31) (hstops : ∀ msg ∈ s.messages, ¬ msg.Stop) :
    messageLoop s = .done (effects s.messages s) := by
  have hprocessed := processed_eq_iff.mpr hlength
  have hempty := leftOver_eq_nil_iff.mpr hlength
  rcases messageLoop_cases s with ⟨_, _, hdone⟩ | ⟨hderails, _⟩ | ⟨hrefused, _⟩
  · rw [hdone, hempty, hprocessed, ← effects_messages s.messages s]
  · exact absurd hall.processed hderails.not_allAccepted
  · obtain ⟨msg, hmsg, hstop⟩ := hrefused hall.processed
    exact absurd hstop (hstops msg (hprocessed ▸ hmsg))

/-- The part about the accepted messages, if `++` leads to the next entry. -/
theorem applied_next_iff {s : State} (hall : AllAccepted s.messages s) :
    (∃ after, turnInit .next s = .done after ∧ Applied s after)
      ↔ s.messages.length < 2 ^ 31 ∧ ∀ msg ∈ s.messages, ¬ msg.Stop := by
  constructor
  · rintro ⟨after, hdone, hempty, _⟩
    obtain ⟨t, hloop, hsweep⟩ := turnInit_done_iff.mp hdone
    obtain ⟨objects, hleft, _⟩ := sweep_next t
    obtain rfl := Outcome.done.inj (hleft.symm.trans hsweep)
    exact (eq_effects hloop hempty).2
  · rintro ⟨hlength, hstops⟩
    obtain ⟨objects, hsweep, hobjects⟩ := sweep_next (effects s.messages s)
    exact ⟨_, turnInit_done_iff.mpr ⟨_, messageLoop_accepted hall hlength hstops, hsweep⟩,
      effects_messages s.messages s, hobjects, effects_endRun s.messages s hall⟩

/-- When `turn_init` rejects exactly the malformed messages: if the queue is well formed in this
sense. It does so whatever `++` does on the iterator of an erased element if, besides, the accepted
messages leave nobody dead to be erased. -/
theorem rejects_iff (s : State) :
    (Rejects .next s ↔ WellQueued s)
      ∧ ((∀ d, Rejects d s) ↔ WellQueued s ∧ (AllAccepted s.messages s → ∀ k o,
        (effects s.messages s).objects.find? k = some o
          → (effects s.messages s).alive o = true)) := by
  have hnext : Rejects .next s ↔ WellQueued s := by
    constructor
    · rintro ⟨haccepted, hrefused⟩
      exact ⟨fun hall => (applied_next_iff hall).mp (haccepted hall),
        fun hunknown => (turnInit_throws_iff .next s).mp (hrefused hunknown)⟩
    · rintro ⟨haccepted, hrefused⟩
      exact ⟨fun hall => (applied_next_iff hall).mpr (haccepted hall),
        fun hunknown => (turnInit_throws_iff .next s).mpr (hrefused hunknown)⟩
  refine ⟨hnext, fun h => ⟨hnext.mp (h .next), fun hall k o hfind => ?_⟩, fun h d => ⟨?_, ?_⟩⟩
  · -- where `++` leads nowhere there is an outcome only if nobody is dead
    obtain ⟨hlength, hstops⟩ := (hnext.mp (h .next)).accepted hall
    obtain ⟨after, hdone, _⟩ := (h .undefined).1 hall
    obtain ⟨t, hloop, hsweep⟩ := turnInit_done_iff.mp hdone
    obtain rfl := Outcome.done.inj ((messageLoop_accepted hall hlength hstops).symm.trans hloop)
    by_contra hdead
    cases (sweep_undefined ⟨k, o, hfind, Bool.not_eq_true _ ▸ hdead⟩).symm.trans hsweep
  · intro hall
    obtain ⟨hlength, hstops⟩ := h.1.accepted hall
    have hnobody : NobodyDead s := fun t hloop => by
      obtain rfl := Outcome.done.inj ((messageLoop_accepted hall hlength hstops).symm.trans hloop)
      exact h.2 hall
    rw [turnInit_eq_next d hnobody]
    exact (applied_next_iff hall).mpr ⟨hlength, hstops⟩
  · exact fun hunknown => (turnInit_throws_iff d s).mpr (h.1.refused hunknown)

/-- A turn that finds a control stop, and nothing else. -/
def stopQueued : State := ⟨.empty, fun _ => true, [⟨0, 2, 1, .null⟩], [], false, true⟩

theorem stop_throws :
    AllAccepted stopQueued.messages stopQueued
      ∧ ∀ d, turnInit d stopQueued
          = .throws (.badNoun ⟨0, 2, 1, .null⟩) { stopQueued with messages := [], endRun := true }
        ∧ ¬ Rejects d stopQueued := by
  have hall : AllAccepted stopQueued.messages stopQueued :=
    ⟨⟨rfl, .inr (.inr ⟨rfl, rfl⟩)⟩, trivial⟩
  refine ⟨hall, fun d => ?_⟩
  have hthrows : turnInit d stopQueued
      = .throws (.badNoun ⟨0, 2, 1, .null⟩) { stopQueued with messages := [], endRun := true } :=
    turnInit_of_lt d (show 1 < 2 ^ 31 by decide)
  refine ⟨hthrows, fun h => ?_⟩
  obtain ⟨after, hdone, _⟩ := h.1 hall
  cases hthrows.symm.trans hdone

end Nrtb.SimCore
