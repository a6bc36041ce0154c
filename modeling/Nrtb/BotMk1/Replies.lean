import Nrtb.BotMk1.Session

/-!
# Lines and answers

What a bot pushes onto `to_BCP` (`cpp/sim_engine/bot_mk1/bot_mk1.cpp`, lines 38–55 and 129–233): the
greeting of the constructor, which runs next to the threads that it has started, and the answers of
`msg_router`.

A line goes through a queue, a handler and a second queue on its way, and there are other commands
in the first queue and another writer of the second one. The proof follows it in stages. Each of
them is an invariant that relates two lists of the log, with what is in the hands of a thread
between them, and each is a prefix of the one before: the lines received, those inserted, those
taken, those answered, and the answers pushed.

* `flow_of_run`, `queued_of_run`: the router gets the lines in the order in which they came.
* `served_of_run`: it handles every one of them and pushes the answers in that order.
* `Greeting.step`: what the constructor adds to that, as long as it comes first.
* `answers_in_order`: what the program at the other end gets to see. The constructor starts the
  threads before it pushes its greeting, so that an answer may come before it
  (`answer_before_greeting`).
-/

namespace Nrtb.BotMk1

open QueueThreads (Pc PushStep ThreadStep Flow insertions pops)

/-! ## Logs -/

/-- The lines that `getln` has returned. -/
def received (ls : List Label) : List Str :=
  ls.filterMap fun
    | .received line => some line
    | _ => none

/-- The part of a log that belongs to `from_BCP`. -/
def fromLog (ls : List Label) : List (QueueThreads.Label Cmd) :=
  ls.filterMap fun
    | .fromBcp l => some l
    | .lock => some .silent
    | .unlock => some .silent
    | _ => none

/-- The commands that were executed, with their answers. -/
def handled (ls : List Label) : List (Cmd × List Str) :=
  ls.filterMap fun
    | .handled cmd replies => some (cmd, replies)
    | _ => none

/-- What was pushed onto `to_BCP`. -/
def pushes (ls : List Label) : List Str :=
  ls.filterMap fun
    | .toBcp _ (.inserted r) => some r
    | _ => none

/-- What `msg_router` pushed onto `to_BCP`. -/
def routerPushes (ls : List Label) : List Str :=
  ls.filterMap fun
    | .toBcp .router (.inserted r) => some r
    | _ => none

/-- The lines among some commands. -/
def lines (cmds : List Cmd) : List Str :=
  (cmds.filter fun cmd => cmd.origin == .link).map Cmd.text

/-- The lines that were executed, with their answers. -/
def answered (ls : List Label) : List (Str × List Str) :=
  ((handled ls).filter fun a => a.1.origin == .link).map fun a => (a.1.text, a.2)

section Append

variable (ls ms : List Label)

@[simp] theorem received_append : received (ls ++ ms) = received ls ++ received ms :=
  List.filterMap_append

@[simp] theorem fromLog_append : fromLog (ls ++ ms) = fromLog ls ++ fromLog ms :=
  List.filterMap_append

@[simp] theorem handled_append : handled (ls ++ ms) = handled ls ++ handled ms :=
  List.filterMap_append

@[simp] theorem pushes_append : pushes (ls ++ ms) = pushes ls ++ pushes ms :=
  List.filterMap_append

@[simp] theorem routerPushes_append :
    routerPushes (ls ++ ms) = routerPushes ls ++ routerPushes ms :=
  List.filterMap_append

end Append

@[simp] theorem lines_append (cmds cmds' : List Cmd) :
    lines (cmds ++ cmds') = lines cmds ++ lines cmds' := by
  simp [lines]

theorem lines_mono {cmds cmds' : List Cmd} (h : cmds <+: cmds') : lines cmds <+: lines cmds' := by
  obtain ⟨rest, rfl⟩ := h
  rw [lines_append]
  exact List.prefix_append _ _

/-! ## What the threads have in hand -/

/-- The item of a push that is not inserted yet. -/
def pending {α : Type*} : Pc α → List α
  | .pushTest item => [item]
  | .pushCount item => [item]
  | .pushInsert item => [item]
  | _ => []

/-- A step of a push inserts its item or keeps it. -/
theorem pending_of_push {α : Type*} {q q' : AbsQueue α} {t t' : Pc α} {l : QueueThreads.Label α}
    (h : PushStep q t l q' t') : pending t = insertions [l] ++ pending t' := by
  cases h <;> rfl

theorem pops_of_push {α : Type*} {q q' : AbsQueue α} {t t' : Pc α} {l : QueueThreads.Label α}
    (h : PushStep q t l q' t') : pops [l] = [] := by
  cases h <;> rfl

def ReceiverPc.inHand : ReceiverPc → List Cmd
  | pushing pc => pending pc
  | _ => []

def EnginePc.inHand : EnginePc → List Cmd
  | ticking pc => pending pc
  | _ => []

/-- The command that the router has taken and whose answers are not chosen yet. -/
def RouterPc.inHand : RouterPc → List Cmd
  | took cmd => [cmd]
  | executing cmd => [cmd]
  | _ => []

/-- The commands that `gonculate` still has to queue. -/
def RouterPc.unqueued : RouterPc → List Cmd
  | gonculating pc rest => pending pc ++ rest.map (⟨.autopilot, ·⟩)
  | _ => []

/-- The answers that the router still has to push. -/
def RouterPc.unsent : RouterPc → List Str
  | replying pc rest => pending pc ++ rest
  | _ => []

@[simp] theorem inHand_reply (replies : List Str) : (RouterPc.reply replies).inHand = [] := by
  cases replies <;> rfl

@[simp] theorem inHand_gonculate (cmds : List Str) : (RouterPc.gonculate cmds).inHand = [] := by
  cases cmds <;> rfl

@[simp] theorem unsent_reply (replies : List Str) : (RouterPc.reply replies).unsent = replies := by
  cases replies <;> rfl

@[simp] theorem unsent_gonculate (cmds : List Str) : (RouterPc.gonculate cmds).unsent = [] := by
  cases cmds <;> rfl

@[simp] theorem unqueued_reply (replies : List Str) : (RouterPc.reply replies).unqueued = [] := by
  cases replies <;> rfl

@[simp] theorem unqueued_gonculate (cmds : List Str) :
    (RouterPc.gonculate cmds).unqueued = cmds.map (⟨.autopilot, ·⟩) := by
  cases cmds <;> rfl

/-! ## `from_BCP` is first in, first out -/

variable {ls : List Label} {l : Label} {s s' : Session}

/-- A step leaves `from_BCP` alone or is a step of a thread on it. -/
theorem Step.fromBcp (h : Step s l s') :
    (s'.fromBcp = s.fromBcp ∧ fromLog [l] = [])
      ∨ ∃ t m t', ThreadStep s.fromBcp t m s'.fromBcp t' ∧ fromLog [l] = [m] := by
  cases h with
  | owner h =>
    cases h with
    | closeIn _ => exact .inr ⟨_, _, _, .shutdown _, rfl⟩
    | _ => exact .inl ⟨rfl, rfl⟩
  | receiver h =>
    cases h with
    | push pc pc' l q _ hpush => exact .inr ⟨_, _, _, hpush.thread, rfl⟩
    | _ => exact .inl ⟨rfl, rfl⟩
  | transmitter h => cases h <;> exact .inl ⟨rfl, rfl⟩
  | router h =>
    cases h with
    | popTakes cmd q _ hwait htake => exact .inr ⟨_, _, _, .popTakes _ q cmd hwait htake, rfl⟩
    | queue pc pc' l q rest _ hpush => exact .inr ⟨_, _, _, hpush.thread, rfl⟩
    | _ => exact .inl ⟨rfl, rfl⟩
  | engine h =>
    cases h with
    | lock _ _ => exact .inr ⟨_, _, _, .hold _, rfl⟩
    | unlock _ _ => exact .inr ⟨_, _, _, .release _, rfl⟩
    | tick pc pc' l q _ hpush => exact .inr ⟨_, _, _, hpush.thread, rfl⟩
    | _ => exact .inl ⟨rfl, rfl⟩

theorem flow_of_run (hrun : Run Step .start ls s) : Flow (fromLog ls) s.fromBcp := by
  have hinit : Flow (fromLog []) Session.start.fromBcp := .empty
  refine hrun.history (P := fun ls s => Flow (fromLog ls) s.fromBcp) hinit ?_
  intro ls s l s' h hstep
  rw [fromLog_append]
  rcases hstep.fromBcp with ⟨hqueue, hlog⟩ | ⟨t, m, t', hthread, hlog⟩
  · rwa [hlog, List.append_nil, hqueue]
  · rw [hlog]
    exact h.step hthread

/-! ## Threads that do not run yet -/

namespace OwnerPc

def receiverRuns : OwnerPc → Bool
  | starting => false
  | _ => true

def routerRuns : OwnerPc → Bool
  | starting => false
  | startingTransmitter => false
  | startingRouter => false
  | _ => true

end OwnerPc

structure Unborn (s : Session) : Prop where
  receiver : s.owner.receiverRuns = false → s.receiver = .unborn
  router : s.owner.routerRuns = false → s.router = .unborn

theorem Unborn.step (h : Unborn s) (hstep : Step s l s') : Unborn s' := by
  obtain ⟨hreceiver, hrouter⟩ := h
  cases hstep with
  | owner hstep =>
    cases hstep with
    | startReceiver hpc => exact ⟨nofun, fun _ => hrouter (by rw [hpc]; rfl)⟩
    | startTransmitter hpc => exact ⟨nofun, fun _ => hrouter (by rw [hpc]; rfl)⟩
    | _ => exact ⟨nofun, nofun⟩
  | receiver hstep =>
    refine ⟨fun hruns => ?_, ?_⟩
    · cases hstep <;> simp_all
    · cases hstep <;> exact hrouter
  | transmitter hstep => cases hstep <;> exact ⟨hreceiver, hrouter⟩
  | router hstep =>
    refine ⟨?_, fun hruns => ?_⟩
    · cases hstep <;> exact hreceiver
    · cases hstep <;> simp_all
  | engine hstep => cases hstep <;> exact ⟨hreceiver, hrouter⟩

theorem unborn_of_run (hrun : Run Step .start ls s) : Unborn s :=
  hrun.invariant (I := Unborn) ⟨fun _ => rfl, fun _ => rfl⟩ fun _ _ _ => Unborn.step

/-! ## The lines on their way to the router -/

/-- The bot has no answer to the text. -/
def Quiet (text : Str) : Prop := ∀ v, reply v text = []

theorem lines_of_link {cmds : List Cmd} (h : ∀ cmd ∈ cmds, cmd.origin = .link) :
    lines cmds = cmds.map Cmd.text := by
  rw [lines, List.filter_eq_self.mpr fun cmd hcmd => by rw [h cmd hcmd]; rfl]

theorem lines_of_own {cmds : List Cmd} (h : ∀ cmd ∈ cmds, cmd.origin ≠ .link) :
    lines cmds = [] := by
  rw [lines, List.filter_eq_nil_iff.mpr fun cmd hcmd => by simpa using h cmd hcmd]
  rfl

/-- The commands under way to `from_BCP` and those that have arrived: the lines are those received,
in their order, and the bot's own commands have no answer. -/
structure Queued (ls : List Label) (s : Session) : Prop where
  receiver : ∀ cmd ∈ s.receiver.inHand, cmd.origin = .link
  engine : ∀ cmd ∈ s.engine.inHand, cmd.origin ≠ .link ∧ Quiet cmd.text
  router : ∀ cmd ∈ s.router.unqueued, cmd.origin ≠ .link ∧ Quiet cmd.text
  inserted : ∀ cmd ∈ insertions (fromLog ls), cmd.origin ≠ .link → Quiet cmd.text
  order : lines (insertions (fromLog ls)) ++ s.receiver.inHand.map Cmd.text <+: received ls
  -- nothing is lost before the receiver ends
  all : s.receiver ≠ .ended →
    lines (insertions (fromLog ls)) ++ s.receiver.inHand.map Cmd.text = received ls

/-- A step that has nothing to do with the way to `from_BCP`. -/
theorem Queued.still (h : Queued ls s) (hlog : insertions (fromLog [l]) = [])
    (hreceived : received [l] = []) (hreceiver : s'.receiver.inHand = s.receiver.inHand)
    (hended : s'.receiver ≠ .ended → s.receiver ≠ .ended)
    (hengine : s'.engine.inHand = s.engine.inHand ∨ s'.engine.inHand = [⟨.engine, str "tick"⟩])
    (hrouter : s'.router.unqueued = s.router.unqueued ∨ ∀ cmd ∈ s'.router.unqueued,
      cmd.origin ≠ .link ∧ Quiet cmd.text) : Queued (ls ++ [l]) s' := by
  constructor
  · rw [hreceiver]
    exact h.receiver
  · rcases hengine with hengine | hengine <;> rw [hengine]
    · exact h.engine
    · intro cmd hcmd
      rw [List.mem_singleton.mp hcmd]
      exact ⟨nofun, fun v => reply_tick v⟩
  · rcases hrouter with hrouter | hrouter
    · rw [hrouter]
      exact h.router
    · exact hrouter
  · simpa [hlog] using h.inserted
  · simpa [hlog, hreceived, hreceiver] using h.order
  · intro hne
    simpa [hlog, hreceived, hreceiver] using h.all (hended hne)

/-- An insertion of one of the bot's own commands. -/
theorem Queued.insertOwn (h : Queued ls s) {m : QueueThreads.Label Cmd} {queue : AbsQueue Cmd}
    {engine : EnginePc} {router : RouterPc}
    (hown : ∀ cmd ∈ insertions [m], cmd.origin ≠ .link ∧ Quiet cmd.text)
    (hengine : ∀ cmd ∈ engine.inHand, cmd ∈ s.engine.inHand)
    (hrouter : ∀ cmd ∈ router.unqueued, cmd ∈ s.router.unqueued) :
    Queued (ls ++ [.fromBcp m])
      { s with engine := engine, router := router, fromBcp := queue } := by
  have hlines : lines (insertions [m]) = [] := lines_of_own fun cmd hcmd => (hown cmd hcmd).1
  have hlog : insertions (fromLog (ls ++ [.fromBcp m]))
      = insertions (fromLog ls) ++ insertions [m] := by
    rw [fromLog_append, QueueThreads.insertions_append]
    rfl
  have hreceived : received (ls ++ [.fromBcp m]) = received ls := by simp [received]
  constructor
  · exact h.receiver
  · exact fun cmd hcmd => h.engine cmd (hengine cmd hcmd)
  · exact fun cmd hcmd => h.router cmd (hrouter cmd hcmd)
  · intro cmd hcmd horigin
    rw [hlog] at hcmd
    rcases List.mem_append.mp hcmd with hcmd | hcmd
    · exact h.inserted cmd hcmd horigin
    · exact (hown cmd hcmd).2
  · rw [hlog, lines_append, hlines, List.append_nil, hreceived]
    exact h.order
  · rw [hlog, lines_append, hlines, List.append_nil, hreceived]
    exact h.all

theorem Queued.receiverStep (h : Queued ls s) (hstep : ReceiverStep s l s') :
    Queued (ls ++ [l]) s' := by
  have hkeep : ∀ {pc}, s.receiver = pc → pc ≠ .ended → s.receiver ≠ .ended :=
    fun hpc hne => hpc ▸ hne
  cases hstep with
  | test hpc =>
    refine h.still rfl rfl ?_ (fun _ => hkeep hpc nofun) (.inl rfl) (.inl rfl)
    rw [hpc]
    dsimp only
    split <;> rfl
  | line raw line hpc _ _ =>
    have hall := h.all (hkeep hpc nofun)
    rw [hpc] at hall
    have hsame : lines (insertions (fromLog (ls ++ [.received line]))) ++ [line]
        = received (ls ++ [.received line]) := by
      simpa [fromLog, received, ReceiverPc.inHand] using hall
    exact ⟨by simp [ReceiverPc.inHand, pending], h.engine, h.router,
      by simpa [fromLog] using h.inserted, hsame ▸ List.prefix_rfl, fun _ => hsame⟩
  | emptyLine raw hpc _ =>
    exact h.still rfl rfl (by rw [hpc]; rfl) (fun _ => hkeep hpc nofun) (.inl rfl) (.inl rfl)
  | fails hpc =>
    exact h.still rfl rfl (by rw [hpc]; rfl) (fun hne => absurd rfl hne) (.inl rfl) (.inl rfl)
  | push pc pc' m q hpc hpush =>
    have hhand : s.receiver.inHand = insertions [m] ++ pending pc' := by
      rw [hpc]
      exact pending_of_push hpush
    have hlink := h.receiver
    have hall := h.all (hkeep hpc nofun)
    rw [hhand] at hlink hall
    have hmlink : ∀ cmd ∈ insertions [m], cmd.origin = .link := fun cmd hcmd =>
      hlink cmd (List.mem_append_left _ hcmd)
    have hlog : insertions (fromLog (ls ++ [.fromBcp m]))
        = insertions (fromLog ls) ++ insertions [m] := by
      rw [fromLog_append, QueueThreads.insertions_append]
      rfl
    have hsame : lines (insertions (fromLog (ls ++ [.fromBcp m]))) ++ (pending pc').map Cmd.text
        = received (ls ++ [.fromBcp m]) := by
      rw [hlog, lines_append, lines_of_link hmlink, List.append_assoc, ← List.map_append, hall]
      simp [received]
    refine ⟨fun cmd hcmd => hlink cmd (List.mem_append_right _ hcmd), h.engine, h.router, ?_,
      hsame ▸ List.prefix_rfl, fun _ => hsame⟩
    intro cmd hcmd horigin
    rw [hlog] at hcmd
    rcases List.mem_append.mp hcmd with hcmd | hcmd
    · exact h.inserted cmd hcmd horigin
    · exact absurd (hmlink cmd hcmd) horigin
  | pushed hpc =>
    exact h.still rfl rfl (by rw [hpc]; rfl) (fun _ => hkeep hpc nofun) (.inl rfl) (.inl rfl)
  | pushThrows cmd hpc _ =>
    -- the line in hand is lost
    have horder := h.order
    rw [hpc] at horder
    refine ⟨nofun, h.engine, h.router, by simpa [fromLog] using h.inserted, ?_,
      fun hne => absurd rfl hne⟩
    have hpre := (List.prefix_append _ _).trans horder
    simpa [fromLog, received, ReceiverPc.inHand] using hpre

theorem Queued.step (h : Queued ls s) (hunborn : Unborn s) (hstep : Step s l s') :
    Queued (ls ++ [l]) s' := by
  cases hstep with
  | receiver hstep => exact h.receiverStep hstep
  | owner hstep =>
    cases hstep with
    | startReceiver hpc =>
      have hreceiver : s.receiver = .unborn := hunborn.receiver (by rw [hpc]; rfl)
      exact h.still rfl rfl (by rw [hreceiver]; rfl) (fun _ => hreceiver ▸ nofun) (.inl rfl)
        (.inl rfl)
    | startRouter hpc =>
      have hrouter : s.router = .unborn := hunborn.router (by rw [hpc]; rfl)
      exact h.still rfl rfl rfl id (.inl rfl) (.inl (by rw [hrouter]; rfl))
    | _ => exact h.still rfl rfl rfl id (.inl rfl) (.inl rfl)
  | transmitter hstep =>
    cases hstep <;> exact h.still rfl rfl rfl id (.inl rfl) (.inl rfl)
  | engine hstep =>
    cases hstep with
    | released hpc => exact h.still rfl rfl rfl id (.inr rfl) (.inl rfl)
    | tick pc pc' m q hpc hpush =>
      have hhand : s.engine.inHand = insertions [m] ++ pending pc' := by
        rw [hpc]
        exact pending_of_push hpush
      refine h.insertOwn (fun cmd hcmd => ?_) (fun cmd hcmd => ?_) fun cmd hcmd => hcmd
      · exact h.engine cmd (hhand ▸ List.mem_append_left _ hcmd)
      · exact hhand ▸ List.mem_append_right _ hcmd
    | ticked hpc => exact h.still rfl rfl rfl id (.inl (by rw [hpc]; rfl)) (.inl rfl)
    | unlock hpc _ => exact h.still rfl rfl rfl id (.inl (by rw [hpc]; rfl)) (.inl rfl)
    | lock _ _ => exact h.still rfl rfl rfl id (.inl rfl) (.inl rfl)
  | router hstep =>
    have hnone : ∀ {s' : Session}, s'.router.unqueued = [] → ∀ cmd ∈ s'.router.unqueued,
        cmd.origin ≠ .link ∧ Quiet cmd.text := fun hnil cmd hcmd => by
      rw [hnil] at hcmd
      cases hcmd
    cases hstep with
    | tick v cmd hpc _ =>
      refine h.still rfl rfl rfl id (.inl rfl) (.inr fun cmd hcmd => ?_)
      rw [unqueued_gonculate] at hcmd
      obtain ⟨text, htext, rfl⟩ := List.mem_map.mp hcmd
      exact ⟨nofun, fun w => reply_gonculate htext⟩
    | queue pc pc' m q rest hpc hpush =>
      have hhand : s.router.unqueued
          = insertions [m] ++ (pending pc' ++ rest.map (⟨.autopilot, ·⟩)) := by
        rw [hpc, ← List.append_assoc, ← pending_of_push hpush]
        rfl
      refine h.insertOwn (fun cmd hcmd => ?_) (fun cmd hcmd => hcmd) fun cmd hcmd => ?_
      · exact h.router cmd (hhand ▸ List.mem_append_left _ hcmd)
      · exact hhand ▸ List.mem_append_right _ hcmd
    | queued rest hpc =>
      refine h.still rfl rfl rfl id (.inl rfl) (.inl ?_)
      rw [hpc, unqueued_gonculate]
      rfl
    | handle v cmd hpc _ =>
      exact h.still rfl rfl rfl id (.inl rfl) (.inr (hnone (unqueued_reply _)))
    | replied rest hpc =>
      exact h.still rfl rfl rfl id (.inl rfl) (.inr (hnone (unqueued_reply _)))
    | reply pc pc' m q rest hpc hpush =>
      exact h.still rfl rfl rfl id (.inl rfl) (.inr (hnone rfl))
    | _ => exact h.still rfl rfl rfl id (.inl rfl) (.inr (hnone rfl))

theorem queued_of_run (hrun : Run Step .start ls s) : Queued ls s := by
  have hinit : Queued [] .start :=
    ⟨nofun, nofun, nofun, nofun, List.prefix_rfl, fun _ => rfl⟩
  have hboth : Queued ls s ∧ Unborn s :=
    hrun.history (P := fun ls s => Queued ls s ∧ Unborn s)
      ⟨hinit, unborn_of_run .nil⟩ fun _ _ _ _ h hstep => ⟨h.1.step h.2 hstep, h.2.step hstep⟩
  exact hboth.1

/-! ## The router -/

/-- What the router has taken it handles, and what it answers it pushes. -/
structure Served (ls : List Label) (s : Session) : Prop where
  popped : (handled ls).map Prod.fst ++ s.router.inHand = pops (fromLog ls)
  views : ∀ a ∈ handled ls, ∃ v, a.2 = reply v a.1.text
  order : routerPushes ls ++ s.router.unsent <+: (handled ls).flatMap Prod.snd
  -- nothing is lost before the process ends
  all : s.router ≠ .terminated →
    routerPushes ls ++ s.router.unsent = (handled ls).flatMap Prod.snd

/-- A step that neither takes a command nor answers one. -/
theorem Served.still (h : Served ls s) (hlog : pops (fromLog [l]) = [])
    (hhandled : handled [l] = [])
    (hpushes : routerPushes [l] = []) (hhand : s'.router.inHand = s.router.inHand)
    (hunsent : s'.router.unsent = s.router.unsent)
    (hend : s'.router ≠ .terminated → s.router ≠ .terminated) : Served (ls ++ [l]) s' where
  popped := by simpa [hlog, hhandled, hhand] using h.popped
  views := by simpa [hhandled] using h.views
  order := by simpa [hhandled, hpushes, hunsent] using h.order
  all hne := by simpa [hhandled, hpushes, hunsent] using h.all (hend hne)

/-- The answers to a command are chosen. -/
theorem Served.handle (h : Served ls s) {cmd : Cmd} (hpc : s.router = .executing cmd) (v : View)
    {router : RouterPc} (hhand : router.inHand = []) (hunsent : router.unsent = reply v cmd.text) :
    Served (ls ++ [.handled cmd (reply v cmd.text)]) { s with router := router } := by
  have hpopped := h.popped
  have hall := h.all (by rw [hpc]; exact nofun)
  rw [hpc] at hpopped hall
  have hhandled : handled (ls ++ [.handled cmd (reply v cmd.text)])
      = handled ls ++ [(cmd, reply v cmd.text)] := by
    rw [handled_append]
    rfl
  have hsame : routerPushes (ls ++ [.handled cmd (reply v cmd.text)]) ++ router.unsent
      = (handled (ls ++ [.handled cmd (reply v cmd.text)])).flatMap Prod.snd := by
    rw [hhandled, List.flatMap_append, ← hall, hunsent]
    simp [routerPushes, RouterPc.unsent]
  refine ⟨?_, ?_, hsame ▸ List.prefix_rfl, fun _ => hsame⟩
  · rw [hhandled, hhand]
    simpa [fromLog, RouterPc.inHand] using hpopped
  · intro a ha
    rw [hhandled] at ha
    rcases List.mem_append.mp ha with ha | ha
    · exact h.views a ha
    · rw [List.mem_singleton.mp ha]
      exact ⟨v, rfl⟩

theorem Served.routerStep (h : Served ls s) (hstep : RouterStep s l s') :
    Served (ls ++ [l]) s' := by
  have hgoes : ∀ {pc}, s.router = pc → pc ≠ .terminated → s.router ≠ .terminated :=
    fun hpc hne => hpc ▸ hne
  cases hstep with
  | popTakes cmd q hpc _ _ =>
    have hpopped := h.popped
    have hall := h.all (hgoes hpc (by simp))
    rw [hpc] at hpopped hall
    have hsame : routerPushes (ls ++ [.fromBcp (.popped cmd)]) ++ []
        = (handled (ls ++ [.fromBcp (.popped cmd)])).flatMap Prod.snd := by
      simpa [handled, routerPushes, RouterPc.unsent] using hall
    refine ⟨?_, by simpa [handled] using h.views, hsame ▸ List.prefix_rfl, fun _ => hsame⟩
    rw [fromLog_append, QueueThreads.pops_append, ← hpopped]
    simp [handled, fromLog, pops, RouterPc.inHand]
  | execute cmd hpc =>
    exact h.still rfl rfl rfl (by rw [hpc]; rfl) (by rw [hpc]; rfl) fun _ => hgoes hpc (by simp)
  | tick v cmd hpc htick =>
    refine h.handle hpc v (inHand_gonculate _) ?_
    rw [unsent_gonculate, htick, reply_tick]
  | handle v cmd hpc _ => exact h.handle hpc v (inHand_reply _) (unsent_reply _)
  | queue pc pc' m q rest hpc hpush =>
    exact h.still (pops_of_push hpush) rfl rfl (by rw [hpc]; rfl) (by rw [hpc]; rfl)
      fun _ => hgoes hpc (by simp)
  | queued rest hpc =>
    exact h.still rfl rfl rfl (by rw [hpc, inHand_gonculate]; rfl)
      (by rw [hpc, unsent_gonculate]; rfl) fun _ => hgoes hpc (by simp)
  | reply pc pc' m q rest hpc hpush =>
    have hpopped := h.popped
    have hall := h.all (hgoes hpc (by simp))
    rw [hpc] at hpopped hall
    have hpushes : routerPushes [.toBcp .router m] = insertions [m] := by
      cases m <;> rfl
    have hsame : routerPushes (ls ++ [.toBcp .router m]) ++ (pending pc' ++ rest)
        = (handled (ls ++ [.toBcp .router m])).flatMap Prod.snd := by
      rw [routerPushes_append, hpushes, handled_append]
      simpa [handled, RouterPc.unsent, pending_of_push hpush] using hall
    refine ⟨?_, by simpa [handled] using h.views, hsame ▸ List.prefix_rfl, fun _ => hsame⟩
    simpa [handled, fromLog, RouterPc.inHand] using hpopped
  | replied rest hpc =>
    exact h.still rfl rfl rfl (by rw [hpc, inHand_reply]; rfl) (by rw [hpc, unsent_reply]; rfl)
      fun _ => hgoes hpc (by simp)
  | pushThrows hpc =>
    -- the answers left are lost
    have hhand : s.router.inHand = [] := by
      rcases hpc with ⟨r, rest, hpc, _⟩ | ⟨cmd, rest, hpc, _⟩ <;> rw [hpc] <;> rfl
    have hpopped := h.popped
    rw [hhand] at hpopped
    refine ⟨by simpa [handled, fromLog, RouterPc.inHand] using hpopped,
      by simpa [handled] using h.views, ?_, fun hne => absurd rfl hne⟩
    have hpre := (List.prefix_append _ _).trans h.order
    simpa [handled, routerPushes, RouterPc.unsent] using hpre
  | popWaits hpc _ =>
    exact h.still rfl rfl rfl (by rw [hpc]; rfl) (by rw [hpc]; rfl) fun _ => hgoes hpc (by simp)
  | wake hpc =>
    exact h.still rfl rfl rfl (by rw [hpc]; rfl) (by rw [hpc]; rfl) fun _ => hgoes hpc (by simp)
  | popThrows hpc _ _ =>
    exact h.still rfl rfl rfl (by rw [hpc]; rfl) (by rw [hpc]; rfl) fun _ => hgoes hpc (by simp)

theorem Served.step (h : Served ls s) (hunborn : Unborn s) (hstep : Step s l s') :
    Served (ls ++ [l]) s' := by
  cases hstep with
  | router hstep => exact h.routerStep hstep
  | owner hstep =>
    cases hstep with
    | startRouter hpc =>
      have hrouter : s.router = .unborn := hunborn.router (by rw [hpc]; rfl)
      exact h.still rfl rfl rfl (by rw [hrouter]; rfl) (by rw [hrouter]; rfl)
        fun _ => hrouter ▸ nofun
    | _ => exact h.still rfl rfl rfl rfl rfl id
  | receiver hstep =>
    cases hstep with
    | push pc pc' m q _ hpush => exact h.still (pops_of_push hpush) rfl rfl rfl rfl id
    | _ => exact h.still rfl rfl rfl rfl rfl id
  | transmitter hstep => cases hstep <;> exact h.still rfl rfl rfl rfl rfl id
  | engine hstep =>
    cases hstep with
    | tick pc pc' m q _ hpush => exact h.still (pops_of_push hpush) rfl rfl rfl rfl id
    | _ => exact h.still rfl rfl rfl rfl rfl id

theorem served_of_run (hrun : Run Step .start ls s) : Served ls s := by
  have hinit : Served [] .start := ⟨rfl, nofun, List.prefix_rfl, fun _ => rfl⟩
  have hboth : Served ls s ∧ Unborn s :=
    hrun.history (P := fun ls s => Served ls s ∧ Unborn s)
      ⟨hinit, unborn_of_run .nil⟩ fun _ _ _ _ h hstep => ⟨h.1.step h.2 hstep, h.2.step hstep⟩
  exact hboth.1

/-! ## The greeting -/

/-- `"READY"` is in `to_BCP`, or has been. -/
def OwnerPc.greeted : OwnerPc → Bool
  | starting => false
  | startingTransmitter => false
  | startingRouter => false
  | greeting .pushNotify => true
  | greeting _ => false
  | _ => true

/-- The router inserts no answer before the constructor has inserted `"READY"`. -/
def GreetsFirst (s : Session) (l : Label) : Prop :=
  ∀ r, l = .toBcp .router (.inserted r) → s.owner.greeted = true

/-- What the constructor has pushed, and that it came first. -/
structure Greeting (ls : List Label) (s : Session) : Prop where
  item : ∀ pc, s.owner = .greeting pc → pc = .pushNotify ∨ pending pc = [str "READY"]
  before : s.owner.greeted = false → pushes ls = [] ∧ routerPushes ls = []
  after : s.owner.greeted = true → pushes ls = str "READY" :: routerPushes ls

/-- A step that pushes nothing onto `to_BCP`. -/
theorem Greeting.still (h : Greeting ls s) (hpushes : pushes [l] = [])
    (hrouter : routerPushes [l] = [])
    (hitem : ∀ pc, s'.owner = .greeting pc → pc = .pushNotify ∨ pending pc = [str "READY"])
    (hgreeted : s'.owner.greeted = s.owner.greeted) : Greeting (ls ++ [l]) s' where
  item := hitem
  before := by simpa [hpushes, hrouter, hgreeted] using h.before
  after := by simpa [hpushes, hrouter, hgreeted] using h.after

theorem Greeting.ownerStep (h : Greeting ls s) (hstep : OwnerStep s l s') :
    Greeting (ls ++ [l]) s' := by
  cases hstep with
  | startReceiver hpc => exact h.still rfl rfl nofun (by rw [hpc]; rfl)
  | startTransmitter hpc => exact h.still rfl rfl nofun (by rw [hpc]; rfl)
  | startRouter hpc =>
    refine h.still rfl rfl (fun pc heq => .inr ?_) (by rw [hpc]; rfl)
    rw [← OwnerPc.greeting.inj heq]
    rfl
  | greet pc pc' m q hpc hpush =>
    have hready : pc = .pushNotify ∨ pending pc = [str "READY"] := h.item pc hpc
    cases hpush with
    | ready item _ =>
      refine h.still rfl rfl (fun pc heq => .inr ?_) (by rw [hpc]; rfl)
      rw [← OwnerPc.greeting.inj heq]
      exact hready.resolve_left nofun
    | count item =>
      refine h.still rfl rfl (fun pc heq => .inr ?_) (by rw [hpc]; rfl)
      rw [← OwnerPc.greeting.inj heq]
      exact hready.resolve_left nofun
    | insert item =>
      obtain rfl : item = str "READY" := List.singleton_inj.mp (hready.resolve_left nofun)
      obtain ⟨hnone, hrouter⟩ := h.before (by rw [hpc]; rfl)
      refine ⟨fun pc heq => .inl (OwnerPc.greeting.inj heq).symm, nofun, fun _ => ?_⟩
      rw [pushes_append, routerPushes_append, hnone, hrouter]
      rfl
  | greeted hpc => exact h.still rfl rfl nofun (by rw [hpc]; rfl)
  | destroy hpc _ => exact h.still rfl rfl nofun (by rw [hpc]; rfl)
  | closeOut hpc => exact h.still rfl rfl nofun (by rw [hpc]; rfl)
  | closeIn hpc => exact h.still rfl rfl nofun (by rw [hpc]; rfl)

theorem Greeting.step (h : Greeting ls s) (hstep : Step s l s') (hfirst : GreetsFirst s l) :
    Greeting (ls ++ [l]) s' := by
  cases hstep with
  | owner hstep => exact h.ownerStep hstep
  | receiver hstep => cases hstep <;> exact h.still rfl rfl h.item rfl
  | transmitter hstep => cases hstep <;> exact h.still rfl rfl h.item rfl
  | engine hstep => cases hstep <;> exact h.still rfl rfl h.item rfl
  | router hstep =>
    cases hstep with
    | reply pc pc' m q rest hpc hpush =>
      cases hpush with
      | insert item =>
        have hgreeted := hfirst item rfl
        refine ⟨h.item, fun hnot => ?_, fun _ => ?_⟩
        · cases hgreeted.symm.trans hnot
        · rw [pushes_append, routerPushes_append, h.after hgreeted]
          rfl
      | _ => exact h.still rfl rfl h.item rfl
    | _ => exact h.still rfl rfl h.item rfl

/-! ## Lines and answers -/

theorem lines_handled (ls : List Label) :
    (answered ls).map Prod.fst = lines ((handled ls).map Prod.fst) := by
  simp only [answered, lines, List.map_map, List.filter_map]
  rfl

/-- The bot's own commands add nothing to the answers. -/
theorem answers_handled {answers : List (Cmd × List Str)}
    (hquiet : ∀ a ∈ answers, a.1.origin ≠ .link → a.2 = []) :
    ((answers.filter fun a => a.1.origin == .link).map fun a => (a.1.text, a.2)).flatMap Prod.snd
      = answers.flatMap Prod.snd := by
  induction answers with
  | nil => rfl
  | cons a rest ih =>
    have hrest := ih fun b hb => hquiet b (List.mem_cons_of_mem a hb)
    by_cases horigin : a.1.origin = .link
    · rw [List.filter_cons_of_pos (by simpa using horigin), List.map_cons, List.flatMap_cons,
        List.flatMap_cons, hrest]
    · rw [List.filter_cons_of_neg (by simpa using horigin), List.flatMap_cons, hrest,
        hquiet a List.mem_cons_self horigin]
      rfl

/-- The commands handled are the first of those inserted. -/
theorem handled_inserted (hrun : Run Step .start ls s) :
    (handled ls).map Prod.fst <+: insertions (fromLog ls) := by
  have htaken : (handled ls).map Prod.fst <+: pops (fromLog ls) := by
    rw [← (served_of_run hrun).popped]
    exact List.prefix_append _ _
  exact htaken.trans (flow_of_run hrun).pops_first

theorem answers_of_run (hrun : Run Step .start ls s) :
    (answered ls).map Prod.fst <+: received ls ∧ (∀ a ∈ answered ls, ∃ v, a.2 = reply v a.1)
      ∧ (answered ls).flatMap Prod.snd = (handled ls).flatMap Prod.snd := by
  have hqueued := queued_of_run hrun
  have hserved := served_of_run hrun
  have hpops := handled_inserted hrun
  refine ⟨?_, ?_, answers_handled fun a ha horigin => ?_⟩
  · rw [lines_handled]
    exact (lines_mono hpops).trans ((List.prefix_append _ _).trans hqueued.order)
  · intro b hb
    obtain ⟨a, ha, rfl⟩ := List.mem_map.mp hb
    exact hserved.views a (List.mem_filter.mp ha).1
  · obtain ⟨v, hv⟩ := hserved.views a ha
    have hinserted := hpops.subset (List.mem_map_of_mem ha)
    rw [hv]
    exact hqueued.inserted a.1 hinserted horigin v

/-- While the constructor's `"READY"` comes before the first answer, the program at the other end
gets `"READY"` and then the answers to its lines, in the order of the lines, and nothing else; and
an answer before it, unless it is `"READY"` itself, breaks that order. -/
theorem answers_in_order
    (hrun : Run (fun s l s' => Step s l s' ∧ GreetsFirst s l) .start ls s) :
    (answered ls).map Prod.fst <+: received ls
      ∧ (∀ a ∈ answered ls, ∃ v, a.2 = reply v a.1)
      ∧ pushes ls <+: str "READY" :: (answered ls).flatMap Prod.snd
      ∧ (s.owner.greeted = true → s.router ≠ .terminated → s.router.unsent = [] →
        pushes ls = str "READY" :: (answered ls).flatMap Prod.snd)
      ∧ ∀ r s', Step s (.toBcp .router (.inserted r)) s' → s.owner.greeted = false →
        r ≠ str "READY" → ∀ rest, ¬ pushes (ls ++ [.toBcp .router (.inserted r)])
          <+: str "READY" :: rest := by
  have hplain : Run Step .start ls s := Run.mono (fun _ _ _ h => h.1) hrun
  obtain ⟨hlines, hviews, hanswers⟩ := answers_of_run hplain
  have hserved := served_of_run hplain
  have hinit : Greeting [] .start :=
    ⟨fun _ h => (by cases h), fun _ => ⟨rfl, rfl⟩, fun h => (by cases h)⟩
  have hgreeting : Greeting ls s :=
    hrun.history (P := Greeting) hinit fun _ _ _ _ h hstep => h.step hstep.1 hstep.2
  rw [hanswers]
  refine ⟨hlines, hviews, ?_, fun hgreeted hend hunsent => ?_, ?_⟩
  · cases hgreeted : s.owner.greeted with
    | false =>
      rw [(hgreeting.before hgreeted).1]
      exact List.nil_prefix
    | true =>
      rw [hgreeting.after hgreeted]
      exact (List.prefix_cons_inj _).mpr ((List.prefix_append _ _).trans hserved.order)
  · have hall := hserved.all hend
    rw [hunsent, List.append_nil] at hall
    rw [hgreeting.after hgreeted, hall]
  · intro r s' _ hgreeted hne rest hpre
    rw [pushes_append, (hgreeting.before hgreeted).1] at hpre
    exact hne (List.cons_prefix_cons.mp hpre).1

theorem stripLine_health : stripLine (str "bot health\r") = .ok (str "bot health") := by
  have hnewline : gsub (str "bot health\r") (str "\n") [] = .ok (str "bot health\r") := by
    rw [gsub_eq _ (by decide) (by decide)]
    exact congrArg _ (by decide)
  have hreturn : gsub (str "bot health\r") (str "\r") [] = .ok (str "bot health") := by
    rw [gsub_eq _ (by decide) (by decide)]
    exact congrArg _ (by decide)
  rw [stripLine, hnewline]
  exact hreturn

def healthCmd : Cmd := ⟨.link, str "bot health"⟩

/-- A view of a bot at rest. -/
def atRest : View :=
  ⟨([], [], [], []), false, [], [], [], [], [], [], ([], [], []), []⟩

/-- The threads run, and nothing has come in yet. -/
def listening (owner : OwnerPc) (toBcp : AbsQueue Str) : Session :=
  ⟨.empty, toBcp, true, owner, .loop, .loop, .popping, .idle, false⟩

def startLog : List Label := [.silent, .silent, .silent]

theorem run_start : Run (fun s l s' => Step s l s' ∧ GreetsFirst s l) .start startLog
    (listening (.greeting (.pushTest (str "READY"))) .empty) := by
  refine .cons ⟨.owner (.startReceiver _ rfl), nofun⟩ ?_
  refine .cons ⟨.owner (.startTransmitter _ rfl), nofun⟩ ?_
  exact .single ⟨.owner (.startRouter _ rfl), nofun⟩

/-- `"READY"` is pushed. -/
def greetLog : List Label :=
  [.toBcp .owner .silent, .toBcp .owner .silent, .toBcp .owner (.inserted (str "READY"))]

theorem run_greet {s : Session} (hpc : s.owner = .greeting (.pushTest (str "READY")))
    (hready : s.toBcp.ready = true) :
    Run (fun s l s' => Step s l s' ∧ GreetsFirst s l) s greetLog
      { s with owner := .greeting .pushNotify, toBcp := s.toBcp.countIn.insert (str "READY") } := by
  refine .cons ⟨.owner (.greet s _ _ _ _ hpc (.ready _ _ hready)), nofun⟩ ?_
  refine .cons ⟨.owner (.greet _ _ _ _ _ rfl (.count _ _)), nofun⟩ ?_
  exact .single ⟨.owner (.greet _ _ _ _ _ rfl (.insert _ _)), nofun⟩

/-- A line comes in and is answered. -/
def healthLog : List Label :=
  [.silent, .received (str "bot health"), .fromBcp .silent, .fromBcp .silent,
    .fromBcp (.inserted healthCmd), .fromBcp (.popped healthCmd), .silent,
    .handled healthCmd [health], .toBcp .router .silent, .toBcp .router .silent,
    .toBcp .router (.inserted health)]

def healthAnswered (owner : OwnerPc) (toBcp : AbsQueue Str) : Session :=
  ⟨⟨[], 1, 1, 0, true, false⟩, toBcp.countIn.insert health, true, owner, .pushing .pushNotify,
    .loop, .replying .pushNotify [], .idle, false⟩

theorem run_health {P : Session → Label → Prop} {owner : OwnerPc} {toBcp : AbsQueue Str}
    (hready : toBcp.ready = true) (hP : ∀ s l, s.owner = owner → P s l) :
    Run (fun s l s' => Step s l s' ∧ P s l) (listening owner toBcp) healthLog
      (healthAnswered owner toBcp) := by
  refine .cons ⟨.receiver (.test _ rfl), hP _ _ rfl⟩ ?_
  refine .cons ⟨.receiver (.line _ _ _ rfl stripLine_health (by decide)), hP _ _ rfl⟩ ?_
  refine .cons ⟨.receiver (.push _ _ _ _ _ rfl (.ready _ _ rfl)), hP _ _ rfl⟩ ?_
  refine .cons ⟨.receiver (.push _ _ _ _ _ rfl (.count _ _)), hP _ _ rfl⟩ ?_
  refine .cons ⟨.receiver (.push _ _ _ _ _ rfl (.insert _ _)), hP _ _ rfl⟩ ?_
  refine .cons ⟨.router (.popTakes _ healthCmd _ rfl rfl rfl), hP _ _ rfl⟩ ?_
  refine .cons ⟨.router (.execute _ healthCmd rfl), hP _ _ rfl⟩ ?_
  refine .cons ⟨.router (.handle _ atRest healthCmd rfl (by decide)), hP _ _ rfl⟩ ?_
  refine .cons ⟨.router (.reply _ _ _ _ _ _ rfl (.ready _ _ hready)), hP _ _ rfl⟩ ?_
  refine .cons ⟨.router (.reply _ _ _ _ _ _ rfl (.count _ _)), hP _ _ rfl⟩ ?_
  exact .single ⟨.router (.reply _ _ _ _ _ _ rfl (.insert _ _)), hP _ _ rfl⟩

/-- The answer to the first line is in `to_BCP` before `"READY"`. -/
theorem answer_before_greeting : ∃ ls s, Run Step .start ls s
    ∧ received ls = [str "bot health"] ∧ pushes ls = [health, str "READY"]
    ∧ ∀ rest, ¬ pushes ls <+: str "READY" :: rest := by
  have hhealth : Run (fun s l s' => Step s l s' ∧ True)
      (listening (.greeting (.pushTest (str "READY"))) .empty) healthLog _ :=
    run_health rfl fun _ _ _ => trivial
  have hrun : Run Step .start (startLog ++ healthLog ++ greetLog) _ :=
    ((Run.mono (fun _ _ _ h => h.1) run_start).append
      (Run.mono (fun _ _ _ h => h.1) hhealth)).append
      (Run.mono (fun _ _ _ h => h.1) (run_greet rfl rfl))
  have hpushes : pushes (startLog ++ healthLog ++ greetLog) = [health, str "READY"] := rfl
  refine ⟨_, _, hrun, rfl, hpushes, fun rest hpre => ?_⟩
  rw [hpushes] at hpre
  have hhead : health = str "READY" := (List.cons_prefix_cons.mp hpre).1
  revert hhead
  decide

/-- The greeting, and then the answer. -/
theorem answers_in_order_health : ∃ s, Run Step .start (startLog ++ greetLog ++ healthLog) s
    ∧ pushes (startLog ++ greetLog ++ healthLog)
      = str "READY" :: (answered (startLog ++ greetLog ++ healthLog)).flatMap Prod.snd
    ∧ (answered (startLog ++ greetLog ++ healthLog)).map Prod.fst
      <+: received (startLog ++ greetLog ++ healthLog) := by
  have hgreet : Run (fun s l s' => Step s l s' ∧ GreetsFirst s l) _ greetLog
      (listening (.greeting .pushNotify) (AbsQueue.empty.countIn.insert (str "READY"))) :=
    run_greet (s := listening (.greeting (.pushTest (str "READY"))) .empty) rfl rfl
  have hrun := (run_start.append hgreet).append
    (run_health (P := GreetsFirst) rfl fun s l howner r _ => by rw [howner]; rfl)
  obtain ⟨hlines, _, _, hall, _⟩ := answers_in_order hrun
  exact ⟨_, Run.mono (fun _ _ _ h => h.1) hrun, hall rfl nofun rfl, hlines⟩

end Nrtb.BotMk1
