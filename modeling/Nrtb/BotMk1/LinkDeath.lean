import Nrtb.SimCore.Verdicts
import Nrtb.BotMk1.Session

/-!
# A bot whose link dies

`tick` and `apply` of `bot_mk1` (`cpp/sim_engine/bot_mk1/bot_mk1.cpp`, lines 84–108) read `ImAlive`,
which the receiver, the transmitter or the destructor may clear at any time. The threads of one bot
against the turns of the engine: a call reads the flag when it begins and has its verdict stored in
`alive` when it returns. As both methods ask the flag first, `apply` cannot take back what `tick`
has found out, and the bot goes into the sweep of the next `turn_init` dead.

The flag may fall in the middle of a turn, between the two reads or behind them. Then this turn may
still leave the bot alive, and the next one does not: it begins with the flag down. That gives the
two turns that a dead link takes at most. The turns are those of `Verdicts`, without the `int` that
counts the pairs in `collision_check`, which overflows from 65537 objects on.

* `dead_of_step`: no thread of the bot sets `ImAlive`.
* `Dying.step`: a turn that began with the flag down leaves the bot marked, step by step.
* `dead_link_removed_iff`: the bot is gone behind the second `turn_init` exactly if its sweep does
  not pass over it. Where somebody else dies at the same time it may: the range-for goes on from the
  iterator of an element that has been erased.
-/

namespace Nrtb.BotMk1

open SimCore (Dangling Engine Event Phase TurnStep Call)

/-! ## The calls of the engine -/

/-- The verdict of a method that asks `ImAlive` first, with what the base class answers. -/
def verdict (imAlive base : Bool) : Bool := if imAlive then base else true

/-- `bot_mk1::tick` -/
def tick (imAlive base : Bool) : Bool := verdict imAlive base

/-- `bot_mk1::apply` -/
def apply (imAlive base : Bool) : Bool := verdict imAlive base

/-- The engine and the threads of one of its bots. -/
structure Linked where
  engine : Engine
  session : Session
  -- what the call of `tick` or `apply` in progress has read from `ImAlive`
  saw : Option Bool

inductive LinkLabel where
  | bot (l : Label)
  -- a worker enters `tick` or `apply` of the bot
  | enter
  | turn (ev : Event)
  | turnInit

/-- The objects whose method a worker is still to return from. -/
def todo : Phase → List Object
  | .ticking todo => todo
  | .applying todo => todo
  | _ => []

/-- One step of the engine or of a thread of the bot `o`. -/
inductive LinkStep (d : Dangling) (o : Object) : Linked → LinkLabel → Linked → Prop
  | bot (c : Linked) (s' : Session) (l : Label) (h : Step c.session l s') :
      LinkStep d o c (.bot l) { c with session := s' }
  | enter (c : Linked) (hphase : o ∈ todo c.engine.phase) (hidle : c.saw = none) :
      LinkStep d o c .enter { c with saw := some c.session.imAlive }
  | tick (c : Linked) (e' : Engine) (imAlive base : Bool) (hsaw : c.saw = some imAlive)
      (h : TurnStep c.engine (.tick o (tick imAlive base)) e') :
      LinkStep d o c (.turn (.tick o (tick imAlive base))) { c with engine := e', saw := none }
  | apply (c : Linked) (e' : Engine) (imAlive base : Bool) (hsaw : c.saw = some imAlive)
      (h : TurnStep c.engine (.apply o (apply imAlive base)) e') :
      LinkStep d o c (.turn (.apply o (apply imAlive base))) { c with engine := e', saw := none }
  -- everything else that happens in a turn
  | other (c : Linked) (ev : Event) (e' : Engine)
      (hev : ∀ v, ev ≠ .tick o v ∧ ev ≠ .apply o v) (h : TurnStep c.engine ev e') :
      LinkStep d o c (.turn ev) { c with engine := e' }
  | turnInit (c : Linked) (e' : Engine) (h : SimCore.EngineStep d c.engine none e') :
      LinkStep d o c .turnInit { c with engine := e' }

/-- One step, wherever `++` leads on the iterator of an erased element. -/
def AnyStep (o : Object) (c : Linked) (l : LinkLabel) (c' : Linked) : Prop :=
  ∃ d, LinkStep d o c l c'

/-- The states that an engine and a bot can come to, from the constructor of the bot on. -/
def LinkReachable (o : Object) (c : Linked) : Prop :=
  ∃ start log, SimCore.Start start.engine ∧ start.session = .start ∧ start.saw = none
    ∧ Run (AnyStep o) start log c

/-! ## The flag -/

theorem dead_of_step {s s' : Session} {l : Label} (h : Step s l s') (hdead : s.imAlive = false) :
    s'.imAlive = false := by
  cases h with
  | owner h => cases h <;> first | exact hdead | rfl
  | receiver h => cases h <;> first | exact hdead | rfl
  | transmitter h => cases h <;> first | exact hdead | rfl
  | router h => cases h <;> exact hdead
  | engine h => cases h <;> exact hdead

section Link

variable {d : Dangling} {o : Object} {c c' : Linked} {l : LinkLabel} {log : List LinkLabel}

theorem LinkStep.dead (h : LinkStep d o c l c') (hdead : c.session.imAlive = false) :
    c'.session.imAlive = false := by
  cases h with
  | bot s' l hstep => exact dead_of_step hstep hdead
  | _ => exact hdead

/-- What every state satisfies: the engine is well formed, and a call in progress is one that the
phase still waits for. -/
structure LinkInv (o : Object) (c : Linked) : Prop where
  wellformed : SimCore.Wellformed c.engine.state
  entered : c.saw ≠ none → o ∈ todo c.engine.phase

theorem mem_of_mem_removed {pre post : List Object} {x : Object} (hne : x ≠ o)
    (h : o ∈ pre ++ x :: post) : o ∈ pre ++ post := by
  rcases List.mem_append.mp h with hpre | hpost
  · exact List.mem_append_left _ hpre
  · exact List.mem_append_right _ ((List.mem_cons.mp hpost).resolve_left hne.symm)

/-- Only the return of a call takes an object off the list. -/
theorem mem_todo_of_turnStep {e e' : Engine} {ev : Event} (h : TurnStep e ev e')
    (hev : ∀ v, ev ≠ .tick o v ∧ ev ≠ .apply o v) (hmem : o ∈ todo e.phase) :
    o ∈ todo e'.phase := by
  cases h with
  | tick s pre post x v => exact mem_of_mem_removed (fun heq => (hev v).1 (by rw [heq])) hmem
  | apply s pre post x v => exact mem_of_mem_removed (fun heq => (hev v).2 (by rw [heq])) hmem
  | call s phase call => exact hmem
  | _ => cases hmem

theorem LinkInv.step (h : LinkInv o c) (hstep : LinkStep d o c l c') : LinkInv o c' := by
  obtain ⟨hwf, hentered⟩ := h
  cases hstep with
  | bot s' l _ => exact ⟨hwf, hentered⟩
  | enter hphase _ => exact ⟨hwf, fun _ => hphase⟩
  | tick e' imAlive base _ hturn => exact ⟨hwf.turnStep hturn, fun hsaw => absurd rfl hsaw⟩
  | apply e' imAlive base _ hturn => exact ⟨hwf.turnStep hturn, fun hsaw => absurd rfl hsaw⟩
  | other ev e' hev hturn =>
    exact ⟨hwf.turnStep hturn, fun hsaw => mem_todo_of_turnStep hturn hev (hentered hsaw)⟩
  | turnInit e' hengine =>
    obtain ⟨engine, session, saw⟩ := c
    cases hengine with
    | turnInit s after hdone =>
      -- between two turns no call is in progress
      exact ⟨hwf.turnInit hdone, fun hsaw => by cases hentered hsaw⟩

theorem LinkReachable.inv (h : LinkReachable o c) : LinkInv o c := by
  obtain ⟨start, log, ⟨hphase, hrunning, hkeyed, hqueued⟩, _, hsaw, hrun⟩ := h
  exact hrun.invariant (I := LinkInv o)
    ⟨⟨hrunning, hkeyed, hqueued⟩, fun hsome => absurd hsaw hsome⟩
    fun _ _ _ hinv ⟨_, hstep⟩ => hinv.step hstep

/-! ## The turn after its death -/

/-- The bot is marked, or `apply` is still to mark it. -/
def Marked (o : Object) (e : Engine) : Prop :=
  match e.phase with
  | .ticking _ => True
  | .applying todo => o ∈ todo ∨ e.state.alive o = false
  | _ => e.state.alive o = false

/-- A turn that began with the flag down. -/
structure Dying (o : Object) (c : Linked) : Prop where
  inv : LinkInv o c
  dead : c.session.imAlive = false
  saw : c.saw ≠ some true
  marked : o ∈ c.engine.state.stored → Marked o c.engine

/-- An event that is no return of a call on the bot keeps its mark. -/
theorem marked_of_turnStep {e e' : Engine} {ev : Event} (h : TurnStep e ev e')
    (hrunning : e.state.isRunning = true) (hev : ∀ v, ev ≠ .apply o v)
    (hmarked : o ∈ e.state.stored → Marked o e) (hstored : o ∈ e'.state.stored) :
    Marked o e' := by
  cases h with
  | tick s pre post x v => trivial
  | check s hits _ => exact .inl hstored
  | apply s pre post x v =>
    have hne : x ≠ o := fun heq => hev v (by rw [heq])
    rcases hmarked hstored with hmem | hdown
    · exact .inl (mem_of_mem_removed hne hmem)
    · exact .inr ((Function.update_of_ne hne.symm _ _).trans hdown)
  | applied s => exact (hmarked hstored).resolve_left List.not_mem_nil
  | collide s a b rest killa killb _ => exact hmarked hstored
  | removed s oid ids =>
    rw [SimCore.removeObj_running oid hrunning] at hstored ⊢
    exact hmarked hstored
  | recordDone s => exact hmarked hstored
  | resolved s _ => exact hmarked hstored
  | call s phase call =>
    rw [Call.perform_running hrunning] at hstored ⊢
    exact hmarked hstored

theorem Dying.step (h : Dying o c) (hstep : LinkStep d o c l c') (hturn : l ≠ .turnInit) :
    Dying o c' := by
  have hinv : LinkInv o c' := h.inv.step hstep
  have hdead : c'.session.imAlive = false := hstep.dead h.dead
  have hrunning : c.engine.state.isRunning = true := h.inv.wellformed.running
  cases hstep with
  | bot s' l _ => exact ⟨hinv, hdead, h.saw, h.marked⟩
  | enter hphase _ =>
    -- the call reads the flag after its death
    refine ⟨hinv, hdead, ?_, h.marked⟩
    rw [hdead]
    exact nofun
  | tick e' imAlive base hsaw hturnStep =>
    exact ⟨hinv, hdead, nofun, marked_of_turnStep hturnStep hrunning nofun h.marked⟩
  | apply e' imAlive base hsaw hturnStep =>
    refine ⟨hinv, hdead, nofun, fun _ => ?_⟩
    have hread : imAlive = false := by
      cases imAlive with
      | false => rfl
      | true => exact absurd hsaw h.saw
    subst hread
    obtain ⟨engine, session, saw⟩ := c
    cases hturnStep with
    | apply s pre post _ v => exact .inr (Function.update_self _ _ _)
  | other ev e' hev hturnStep =>
    exact ⟨hinv, hdead, h.saw, marked_of_turnStep hturnStep hrunning (fun v => (hev v).2) h.marked⟩
  | turnInit e' _ => exact absurd rfl hturn

theorem dying_of_turnInit (h : LinkInv o c) (hdead : c.session.imAlive = false)
    (hstep : LinkStep d o c .turnInit c') : Dying o c' := by
  have hinv : LinkInv o c' := h.step hstep
  obtain ⟨engine, session, saw⟩ := c
  cases hstep with
  | turnInit e' hengine =>
    cases hengine with
    | turnInit s after hdone =>
      refine ⟨hinv, hdead, fun hsaw => ?_, fun _ => trivial⟩
      -- between two turns no call is in progress
      have hnone : saw ≠ none := fun hnone => by cases hnone.symm.trans hsaw
      cases h.entered hnone

/-- The sweep of the coming `turn_init` does not pass over the object, if it finds it dead. -/
def Met (d : Dangling) (s : SimCore.State) (o : Object) : Prop :=
  let calls := SimCore.counted s.queued
  let objects := SimCore.withAdds s.objects calls
  objects.find? o.id = some o →
    ¬ SimCore.PassesOver d (SimCore.aliveBehind s.objects s.alive calls) objects (o.id, o)

/-- Where `++` leads to the next entry nobody is passed over. -/
theorem met_next (s : SimCore.State) (o : Object) : Met .next s o := by
  rintro hfind ⟨hdead, hnot⟩
  rw [SimCore.not_erases_next_iff hfind, hdead] at hnot
  cases hnot

/-- The next `turn_init` sweeps the bot out, or does not find it at all, unless the sweep passes
over it. -/
theorem Dying.gone_iff (h : Dying o c)
    (hadd : SimCore.addMessage o ∉ SimCore.processed c.engine.state.messages)
    (hstep : LinkStep d o c .turnInit c') :
    o ∉ c'.engine.state.stored ↔ Met d c.engine.state o := by
  obtain ⟨engine, session, saw⟩ := c
  cases hstep with
  | turnInit e' hengine =>
    cases hengine with
    | turnInit s after hdone =>
      have hwf : SimCore.Wellformed s := h.inv.wellformed
      have hprocessed : SimCore.processed s.messages
          = (SimCore.counted s.queued).map Call.message := by
        obtain ⟨calls, hcalls⟩ := hwf.queued
        rw [SimCore.queued_eq hcalls, hcalls, SimCore.processed_calls]
      obtain ⟨hprepared, _⟩ := SimCore.turnInit_done hdone
      show o ∉ after.stored ↔ _
      rw [SimCore.mem_stored_iff (hprepared.keyed hwf.keyed), hprepared.find?_iff hprocessed,
        SimCore.not_erases_iff, not_and]
      refine imp_congr_right fun hfind => not_congr (or_iff_right fun halive => ?_)
      rcases SimCore.mem_of_find?_withAdds hfind with hold | hnew
      · -- it went through the turn and came out marked
        have hdown : s.alive o = false := h.marked ((SimCore.mem_stored_iff hwf.keyed).mpr hold)
        have hup := (SimCore.aliveBehind_iff.mp halive).1
        exact absurd (hdown.symm.trans hup) Bool.false_ne_true
      · refine hadd ?_
        show SimCore.addMessage o ∈ SimCore.processed s.messages
        rw [hprocessed]
        exact List.mem_map_of_mem (f := Call.message) hnew

end Link

/-- Nothing sets `ImAlive` again. Once it is cleared, at the end of a turn or earlier, the bot is
not in `all_objects` behind the second `turn_init` from there, which does not add it again, if and
only if the sweep of that `turn_init` does not pass over it. -/
theorem dead_link_removed_iff (o : Object) :
    (∀ c log c', Run (AnyStep o) c log c' → c.session.imAlive = false →
        c'.session.imAlive = false)
      ∧ ∀ c before c₁ d₁ c₂ turn c₃ d₂ c', LinkReachable o c → c.session.imAlive = false →
        Run (AnyStep o) c before c₁ → LinkStep d₁ o c₁ .turnInit c₂ →
        Run (AnyStep o) c₂ turn c₃ → .turnInit ∉ turn → LinkStep d₂ o c₃ .turnInit c' →
        SimCore.addMessage o ∉ SimCore.processed c₃.engine.state.messages →
        (o ∉ c'.engine.state.stored ↔ Met d₂ c₃.engine.state o) := by
  have hmono : ∀ c log c', Run (AnyStep o) c log c' → c.session.imAlive = false →
      c'.session.imAlive = false := fun c log c' hrun hdead =>
    hrun.invariant (I := fun c => c.session.imAlive = false) hdead
      fun _ _ _ hdead ⟨_, hstep⟩ => hstep.dead hdead
  refine ⟨hmono, fun c before c₁ d₁ c₂ turn c₃ d₂ c' hreach hdead hbefore hfirst hduring hturn
    hsecond hadd => ?_⟩
  have hinv : LinkInv o c₁ := hbefore.invariant (I := LinkInv o) hreach.inv
    fun _ _ _ hinv ⟨_, hstep⟩ => hinv.step hstep
  have hstart : Dying o c₂ := dying_of_turnInit hinv (hmono c before c₁ hbefore hdead) hfirst
  have hdying : .turnInit ∉ turn → Dying o c₃ := by
    refine hduring.history (P := fun log c => .turnInit ∉ log → Dying o c) (fun _ => hstart) ?_
    rintro log t l u h ⟨d, hstep⟩ hnone
    rw [List.mem_append, List.mem_singleton, not_or] at hnone
    exact (h hnone.1).step hstep (Ne.symm hnone.2)
  exact (hdying hturn).gone_iff hadd hsecond

/-! ## Two links that fail in one turn -/

/-- The first `getln` has thrown. -/
def failedSession : Session :=
  { Session.start with owner := .startingTransmitter, receiver := .ended, imAlive := false }

def five : List Object := [⟨101, 1⟩, ⟨102, 2⟩, ⟨103, 3⟩, ⟨104, 4⟩, ⟨105, 5⟩]

/-- The engine between two turns, with five objects. The third one is the bot. -/
def failedLink : Linked := ⟨⟨SimCore.running five, .init⟩, failedSession, none⟩

/-- A turn after the failure, in which the second object dies as well. -/
def dyingTurn : List LinkLabel :=
  [.turn (.tick ⟨101, 1⟩ false), .turn (.tick ⟨102, 2⟩ true), .enter, .turn (.tick ⟨103, 3⟩ true),
    .turn (.tick ⟨104, 4⟩ false), .turn (.tick ⟨105, 5⟩ false), .turn (.check []),
    .turn (.apply ⟨101, 1⟩ false), .turn (.apply ⟨102, 2⟩ true), .enter,
    .turn (.apply ⟨103, 3⟩ true), .turn (.apply ⟨104, 4⟩ false), .turn (.apply ⟨105, 5⟩ false),
    .turn .applied, .turn .resolved]

/-- The flags behind `tick` or `apply` of the five. -/
def twoDead (s : SimCore.State) : SimCore.State :=
  ((((s.setAlive ⟨101, 1⟩ true).setAlive ⟨102, 2⟩ false).setAlive ⟨103, 3⟩ false).setAlive
    ⟨104, 4⟩ true).setAlive ⟨105, 5⟩ true

/-- What the turn leaves. -/
def dying : SimCore.State := twoDead (twoDead (SimCore.running five))

theorem reachable_failedLink : LinkReachable ⟨103, 3⟩ failedLink := by
  refine ⟨⟨⟨SimCore.running five, .init⟩, .start, none⟩, [.bot .silent, .bot .silent, .bot .silent],
    ⟨rfl, rfl, SimCore.keyed_populated five, [], rfl⟩, rfl, rfl, ?_⟩
  exact .cons ⟨.next, .bot _ _ _ (.owner (.startReceiver _ rfl))⟩
    (.cons ⟨.next, .bot _ _ _ (.receiver (.test _ rfl))⟩
      (.single ⟨.next, .bot _ _ _ (.receiver (.fails _ rfl))⟩))

theorem turnInit_failedLink (d : Dangling) : LinkStep d ⟨103, 3⟩ failedLink .turnInit
    ⟨⟨SimCore.running five, .ticking five⟩, failedSession, none⟩ :=
  .turnInit _ _ (.turnInit _ _ (SimCore.turnInit_running d five))

theorem run_dyingTurn :
    Run (AnyStep ⟨103, 3⟩) ⟨⟨SimCore.running five, .ticking five⟩, failedSession, none⟩ dyingTurn
      ⟨⟨dying, .init⟩, failedSession, none⟩ := by
  have hother : ∀ {c : Linked} {ev : Event} {e' : Engine},
      (∀ v, ev ≠ .tick ⟨103, 3⟩ v ∧ ev ≠ .apply ⟨103, 3⟩ v) → TurnStep c.engine ev e' →
      AnyStep ⟨103, 3⟩ c (.turn ev) { c with engine := e' } :=
    fun hev h => ⟨.next, .other _ _ _ hev h⟩
  have hne : ∀ {x : Object} {w : Bool}, x ≠ ⟨103, 3⟩ → ∀ v,
      Event.tick x w ≠ .tick ⟨103, 3⟩ v ∧ Event.tick x w ≠ .apply ⟨103, 3⟩ v :=
    fun hx v => ⟨fun h => hx (Event.tick.inj h).1, nofun⟩
  have hne' : ∀ {x : Object} {w : Bool}, x ≠ ⟨103, 3⟩ → ∀ v,
      Event.apply x w ≠ .tick ⟨103, 3⟩ v ∧ Event.apply x w ≠ .apply ⟨103, 3⟩ v :=
    fun hx v => ⟨nofun, fun h => hx (Event.apply.inj h).1⟩
  refine .cons (hother (hne (by decide)) (.tick _ [] [⟨102, 2⟩, ⟨103, 3⟩, ⟨104, 4⟩, ⟨105, 5⟩] _ _))
    (.cons (hother (hne (by decide)) (.tick _ [] [⟨103, 3⟩, ⟨104, 4⟩, ⟨105, 5⟩] _ _))
    (.cons ⟨.next, .enter _ (by decide) rfl⟩
    (.cons ⟨.next, .tick _ _ false false rfl (.tick _ [] [⟨104, 4⟩, ⟨105, 5⟩] _ _)⟩
    (.cons (hother (hne (by decide)) (.tick _ [] [⟨105, 5⟩] _ _))
    (.cons (hother (hne (by decide)) (.tick _ [] [] _ _)) ?_)))))
  refine .cons (hother (fun _ => ⟨nofun, nofun⟩) (.check _ [] (by simp)))
    (.cons (hother (hne' (by decide)) (.apply _ [] [⟨102, 2⟩, ⟨103, 3⟩, ⟨104, 4⟩, ⟨105, 5⟩] _ _))
    (.cons (hother (hne' (by decide)) (.apply _ [] [⟨103, 3⟩, ⟨104, 4⟩, ⟨105, 5⟩] _ _))
    (.cons ⟨.next, .enter _ (by decide) rfl⟩
    (.cons ⟨.next, .apply _ _ false false rfl (.apply _ [] [⟨104, 4⟩, ⟨105, 5⟩] _ _)⟩
    (.cons (hother (hne' (by decide)) (.apply _ [] [⟨105, 5⟩] _ _))
    (.cons (hother (hne' (by decide)) (.apply _ [] [] _ _)) ?_))))))
  exact .cons (hother (fun _ => ⟨nofun, nofun⟩) (.applied _))
    (.single (hother (fun _ => ⟨nofun, nofun⟩) (.resolved _ rfl)))

/-- `dead_link_removed_iff` where `++` leads to the next entry: the bot is gone. -/
theorem dead_link_removed_next :
    ∃ c, LinkStep .next ⟨103, 3⟩ ⟨⟨dying, .init⟩, failedSession, none⟩ .turnInit c
      ∧ (⟨103, 3⟩ : Object) ∈ dying.stored ∧ ⟨103, 3⟩ ∉ c.engine.state.stored := by
  obtain ⟨after, hafter⟩ : ∃ after, SimCore.turnInit .next dying = .done after :=
    ⟨_, (SimCore.turnInit_of_lt .next (s := dying) (show 0 < 2 ^ 31 by decide)).trans rfl⟩
  have hsecond : LinkStep .next ⟨103, 3⟩ ⟨⟨dying, .init⟩, failedSession, none⟩ .turnInit
      ⟨⟨after, .ticking after.stored⟩, failedSession, none⟩ := .turnInit _ _ (.turnInit _ _ hafter)
  refine ⟨_, hsecond, by decide, ?_⟩
  exact ((dead_link_removed_iff ⟨103, 3⟩).2 failedLink [] failedLink .next _ dyingTurn _ .next _
    reachable_failedLink rfl .nil (turnInit_failedLink .next) run_dyingTurn (by simp [dyingTurn])
    hsecond (fun hmem => nomatch List.mem_of_mem_take hmem)).mpr (met_next _ _)

/-- The freed node of the second entry leads past the third one. -/
def past : Dangling := fun _ _ => some 2

/-- The second object is erased, and the bot is passed over. -/
theorem dead_link_passed_over :
    LinkReachable ⟨103, 3⟩ failedLink ∧ failedLink.session.imAlive = false
      ∧ ∃ c₂ c₃ c', LinkStep past ⟨103, 3⟩ failedLink .turnInit c₂
        ∧ Run (AnyStep ⟨103, 3⟩) c₂ dyingTurn c₃ ∧ c₃.engine.state.messages = []
        ∧ LinkStep past ⟨103, 3⟩ c₃ .turnInit c' ∧ ⟨102, 2⟩ ∉ c'.engine.state.stored
        ∧ ⟨103, 3⟩ ∈ c'.engine.state.stored := by
  have hafter : SimCore.turnInit past dying
      = .done { dying with objects := dying.objects.erase 2 } :=
    (SimCore.turnInit_of_lt past (s := dying) (show 0 < 2 ^ 31 by decide)).trans rfl
  exact ⟨reachable_failedLink, rfl, _, _, _, turnInit_failedLink past, run_dyingTurn, rfl,
    .turnInit _ _ (.turnInit _ _ hafter), by decide, by decide⟩

end Nrtb.BotMk1
