import Nrtb.BotMk1.Replies
import Nrtb.BotMk1.TurnLock

/-!
# The engine's notifications

`cpp/sim_engine/bot_mk1/bot_mk1.cpp`, lines 129–281. `unlock` notifies the router of a turn with the
text `"tick"`, in the same queue as the lines of the program at the other end and the commands of
`gonculate`. The router tells them apart by their text only, so that whoever writes `"tick"` is the
engine to it.

An item of the model has its origin with it, which the code does not see. The invariant counts by
origin: what the engine has put into the queue, or is about to, it has called `unlock` for, and the
commands of `gonculate` are never `"tick"`. What the router takes for a notification is then one of
the engine's or a line of that text.

* `credited_of_run`: what the engine has queued it owes to a call of `unlock`, and the autopilot
  queues no notification; an invariant over every step of the four threads.
* `gonculations_le`: how many lines can be taken for notifications.
* `ticks_from_engine`: as long as no line is `"tick"`, the bot acts on the turns of the engine only
  and answers every line. `line_gonculates` is a run with such a line and without a turn.
-/

namespace Nrtb.BotMk1

open QueueThreads (Pc PushStep insertions)

/-! ## The test in `msg_router` -/

/-- What `msg_router` takes a command for. -/
inductive Route where
  | notification
  | command
deriving DecidableEq

/-- `s == "tick"` -/
def route (s : Str) : Route := if s = str "tick" then .notification else .command

theorem route_eq_command {s : Str} : route s = .command ↔ s ≠ str "tick" := by
  rw [route]
  split <;> simp [*]

variable {ls : List Label} {l : Label} {s s' : Session}

/-- A notification executes `gonculate`, another command is answered. -/
theorem RouterStep.route {cmd : Cmd} {replies : List Str}
    (h : RouterStep s (.handled cmd replies) s') :
    ∃ v, replies = BotMk1.reply v cmd.text
      ∧ (BotMk1.route cmd.text = .notification
          ∧ s' = { s with router := .gonculate (BotMk1.gonculate v) }
        ∨ BotMk1.route cmd.text = .command ∧ s' = { s with router := .reply replies }) := by
  cases h with
  | tick v cmd _ htick => exact ⟨v, rfl, .inl ⟨if_pos htick, rfl⟩⟩
  | handle v cmd _ htick => exact ⟨v, rfl, .inr ⟨if_neg htick, rfl⟩⟩

/-! ## Counting -/

def Label.isUnlock : Label → Bool
  | unlock => true
  | _ => false

/-- The calls of `unlock`. -/
def unlocks (ls : List Label) : Nat := ls.countP Label.isUnlock

/-- The executions of `gonculate`. -/
def gonculations (ls : List Label) : Nat :=
  (handled ls).countP fun a => BotMk1.route a.1.text = .notification

@[simp] theorem unlocks_append (ls ms : List Label) :
    unlocks (ls ++ ms) = unlocks ls + unlocks ms :=
  List.countP_append

def Cmd.isTick (cmd : Cmd) : Bool := BotMk1.route cmd.text = .notification

def Cmd.ofEngine (cmd : Cmd) : Bool := cmd.origin == .engine

/-- The engine's part of `unlock` that is still to come. -/
def EnginePc.owed : EnginePc → Nat
  | idle => 0
  | releasing => 1
  | ticking pc => (pending pc).length

theorem autopilot_no_tick {v : View} {cmd : Str} (h : cmd ∈ gonculate v) :
    route cmd = .command := by
  rw [gonculate] at h
  split at h
  · rw [route_eq_command]
    rcases List.mem_pair.mp h with rfl | rfl <;> exact fun heq => by cases congrArg List.head? heq
  · cases h

/-- The engine's notifications are paid for, and the autopilot sends none. -/
structure Credited (ls : List Label) (s : Session) : Prop where
  engine : ∀ cmd ∈ s.engine.inHand, cmd.origin = .engine
  router : ∀ cmd ∈ s.router.unqueued, cmd.origin = .autopilot ∧ cmd.isTick = false
  own : ∀ cmd ∈ insertions (fromLog ls), cmd.origin = .autopilot → cmd.isTick = false
  count : (insertions (fromLog ls)).countP Cmd.ofEngine + s.engine.owed = unlocks ls

/-- A step that inserts `cmds`. -/
theorem Credited.next (h : Credited ls s) (cmds : List Cmd)
    (hlog : insertions (fromLog [l]) = cmds)
    (hengine : ∀ cmd ∈ s'.engine.inHand, cmd.origin = .engine)
    (hrouter : ∀ cmd ∈ s'.router.unqueued, cmd.origin = .autopilot ∧ cmd.isTick = false)
    (hown : ∀ cmd ∈ cmds, cmd.origin = .autopilot → cmd.isTick = false)
    (hcount : cmds.countP Cmd.ofEngine + s'.engine.owed = s.engine.owed + unlocks [l]) :
    Credited (ls ++ [l]) s' := by
  have hsame : insertions (fromLog (ls ++ [l])) = insertions (fromLog ls) ++ cmds := by
    rw [fromLog_append, QueueThreads.insertions_append, hlog]
  refine ⟨hengine, hrouter, ?_, ?_⟩
  · intro cmd hcmd horigin
    rw [hsame] at hcmd
    rcases List.mem_append.mp hcmd with hcmd | hcmd
    · exact h.own cmd hcmd horigin
    · exact hown cmd hcmd horigin
  · have hbefore := h.count
    rw [hsame, List.countP_append, unlocks_append]
    omega

/-- A step of a thread that is neither the engine's nor the router's and inserts nothing. -/
theorem Credited.still (h : Credited ls s) (hlog : insertions (fromLog [l]) = [])
    (hunlock : unlocks [l] = 0) (hengine : s'.engine = s.engine)
    (hrouter : ∀ cmd ∈ s'.router.unqueued, cmd.origin = .autopilot ∧ cmd.isTick = false) :
    Credited (ls ++ [l]) s' := by
  refine h.next [] hlog ?_ hrouter nofun ?_
  · rw [hengine]
    exact h.engine
  · rw [hengine, hunlock]
    exact Nat.zero_add _

theorem countP_ofEngine {cmds : List Cmd} {origin : Origin} (h : ∀ cmd ∈ cmds, cmd.origin = origin)
    (hne : origin ≠ .engine) : cmds.countP Cmd.ofEngine = 0 := by
  rw [List.countP_eq_zero]
  intro cmd hcmd
  simpa [Cmd.ofEngine, h cmd hcmd] using hne

theorem Credited.engineStep (h : Credited ls s) (hstep : EngineStep s l s') :
    Credited (ls ++ [l]) s' := by
  cases hstep with
  | lock hpc _ => exact h.still rfl rfl rfl h.router
  | unlock hpc _ => exact h.next [] rfl nofun h.router nofun (by rw [hpc]; rfl)
  | released hpc =>
    refine h.next [] rfl (fun cmd hcmd => ?_) h.router nofun (by rw [hpc]; rfl)
    rw [List.mem_singleton.mp hcmd]
  | tick pc pc' m q hpc hpush =>
    have hpending := pending_of_push hpush
    have hengine : ∀ cmd ∈ pending pc, cmd.origin = .engine := fun cmd hcmd =>
      h.engine cmd (by rw [hpc]; exact hcmd)
    rw [hpending] at hengine
    have hcmds : ∀ cmd ∈ insertions [m], cmd.origin = .engine := fun cmd hcmd =>
      hengine cmd (List.mem_append_left _ hcmd)
    refine h.next (insertions [m]) rfl (fun cmd hcmd => hengine cmd (List.mem_append_right _ hcmd))
      h.router (fun cmd hcmd horigin => ?_) ?_
    · cases (hcmds cmd hcmd).symm.trans horigin
    · -- what is inserted is no longer owed
      have hall : (insertions [m]).countP Cmd.ofEngine = (insertions [m]).length := by
        rw [List.countP_eq_length]
        intro cmd hcmd
        simp [Cmd.ofEngine, hcmds cmd hcmd]
      have howed : s.engine.owed = (insertions [m] ++ pending pc').length := by
        rw [hpc, ← hpending]
        rfl
      rw [hall, howed, List.length_append]
      rfl
  | ticked hpc => exact h.next [] rfl nofun h.router nofun (by rw [hpc]; rfl)

theorem Credited.routerStep (h : Credited ls s) (hstep : RouterStep s l s') :
    Credited (ls ++ [l]) s' := by
  cases hstep with
  | tick v cmd hpc _ =>
    refine h.still rfl rfl rfl fun cmd hcmd => ?_
    rw [unqueued_gonculate] at hcmd
    obtain ⟨text, htext, rfl⟩ := List.mem_map.mp hcmd
    have hroute := autopilot_no_tick htext
    exact ⟨rfl, by simp [Cmd.isTick, hroute]⟩
  | handle v cmd hpc _ =>
    refine h.still rfl rfl rfl ?_
    rw [unqueued_reply]
    exact nofun
  | queue pc pc' m q rest hpc hpush =>
    have hhand : s.router.unqueued
        = insertions [m] ++ (pending pc' ++ rest.map (⟨.autopilot, ·⟩)) := by
      rw [hpc, ← List.append_assoc, ← pending_of_push hpush]
      rfl
    have hrouter := h.router
    rw [hhand] at hrouter
    have hcmds : ∀ cmd ∈ insertions [m], cmd.origin = .autopilot ∧ cmd.isTick = false :=
      fun cmd hcmd => hrouter cmd (List.mem_append_left _ hcmd)
    have hcount : (insertions [m]).countP Cmd.ofEngine = 0 :=
      countP_ofEngine (fun cmd hcmd => (hcmds cmd hcmd).1) nofun
    refine h.next (insertions [m]) rfl h.engine
      (fun cmd hcmd => hrouter cmd (List.mem_append_right _ hcmd))
      (fun cmd hcmd _ => (hcmds cmd hcmd).2) ?_
    rw [hcount]
    exact Nat.zero_add _
  | queued rest hpc =>
    refine h.still rfl rfl rfl ?_
    have hrouter := h.router
    rw [hpc] at hrouter
    rw [unqueued_gonculate]
    exact hrouter
  | replied rest hpc =>
    refine h.still rfl rfl rfl ?_
    rw [unqueued_reply]
    exact nofun
  | _ => exact h.still rfl rfl rfl nofun

theorem Credited.step (h : Credited ls s) (hqueued : Queued ls s) (hstep : Step s l s') :
    Credited (ls ++ [l]) s' := by
  cases hstep with
  | engine hstep => exact h.engineStep hstep
  | router hstep => exact h.routerStep hstep
  | owner hstep =>
    cases hstep with
    | startRouter hpc => exact h.still rfl rfl rfl (List.forall_mem_nil _)
    | _ => exact h.still rfl rfl rfl h.router
  | transmitter hstep => cases hstep <;> exact h.still rfl rfl rfl h.router
  | receiver hstep =>
    cases hstep with
    | push pc pc' m q hpc hpush =>
      have hlink : ∀ cmd ∈ insertions [m], cmd.origin = .link := fun cmd hcmd =>
        hqueued.receiver cmd (by
          rw [hpc, ReceiverPc.inHand, pending_of_push hpush]
          exact List.mem_append_left _ hcmd)
      refine h.next (insertions [m]) rfl h.engine h.router (fun cmd hcmd horigin => ?_) ?_
      · cases (hlink cmd hcmd).symm.trans horigin
      · rw [countP_ofEngine hlink (by rintro ⟨⟩)]
        exact Nat.zero_add _
    | _ => exact h.still rfl rfl rfl h.router

theorem credited_of_run (hrun : Run Step .start ls s) : Credited ls s := by
  have hinit : Credited [] .start := ⟨nofun, nofun, nofun, rfl⟩
  have hboth : Run Step .start ls s ∧ Credited ls s :=
    hrun.history (P := fun ls s => Run Step .start ls s ∧ Credited ls s) ⟨.nil, hinit⟩
      fun _ _ _ _ h hstep => ⟨h.1.snoc hstep, h.2.step (queued_of_run h.1) hstep⟩
  exact hboth.2

/-! ## What a line can do -/

/-- A notification comes from the engine or is a line. -/
theorem countP_isTick {cmds : List Cmd}
    (hown : ∀ cmd ∈ cmds, cmd.origin = .autopilot → cmd.isTick = false) :
    cmds.countP Cmd.isTick ≤ cmds.countP Cmd.ofEngine + (lines cmds).count (str "tick") := by
  induction cmds with
  | nil => exact Nat.zero_le _
  | cons cmd cmds ih =>
    have hrest := ih fun cmd' hcmd' => hown cmd' (List.mem_cons_of_mem _ hcmd')
    have hfirst := hown cmd List.mem_cons_self
    have hsplit : lines (cmd :: cmds) = lines [cmd] ++ lines cmds := lines_append [cmd] cmds
    rw [List.countP_cons, List.countP_cons, hsplit, List.count_append]
    cases horigin : cmd.origin with
    | engine =>
      have hengine : cmd.ofEngine = true := by simp [Cmd.ofEngine, horigin]
      rw [if_pos hengine]
      split <;> omega
    | autopilot =>
      rw [hfirst horigin, if_neg Bool.false_ne_true]
      omega
    | link =>
      have hline : lines [cmd] = [cmd.text] := by simp [lines, horigin]
      by_cases htick : cmd.text = str "tick"
      · rw [hline, htick, List.count_singleton_self]
        split <;> omega
      · have hno : cmd.isTick = false := by simp [Cmd.isTick, route_eq_command.mpr htick]
        rw [hno, if_neg Bool.false_ne_true]
        omega

/-- `gonculate` is executed once for a call of `unlock` and once for a line `"tick"`, at most. -/
theorem gonculations_le (hrun : Run Step .start ls s) :
    gonculations ls ≤ unlocks ls + (received ls).count (str "tick") := by
  have hcredited := credited_of_run hrun
  have hsame : gonculations ls = ((handled ls).map Prod.fst).countP Cmd.isTick := by
    rw [List.countP_map]
    rfl
  have hhandled : ((handled ls).map Prod.fst).countP Cmd.isTick
      ≤ (insertions (fromLog ls)).countP Cmd.isTick :=
    (handled_inserted hrun).sublist.countP_le
  have hinserted := countP_isTick hcredited.own
  have hlines : (lines (insertions (fromLog ls))).count (str "tick")
      ≤ (received ls).count (str "tick") :=
    ((List.prefix_append _ _).trans (queued_of_run hrun).order).sublist.count_le _
  have hunlocks := hcredited.count
  omega

/-- As long as no line is `"tick"`, the executions of `gonculate` are at most the calls of `unlock`,
and every line is answered as a command. So the program at the other end can neither make the
autopilot act between two turns nor lose an answer to it. The first part is `gonculations_le`
without lines to be taken for notifications, the second one the route of a text that is not
`"tick"`. -/
theorem ticks_from_engine (hrun : Run Step .start ls s)
    (hlines : ∀ line ∈ received ls, line ≠ str "tick") :
    gonculations ls ≤ unlocks ls
      ∧ ∀ a ∈ handled ls, a.1.origin = .link →
        route a.1.text = .command ∧ ∃ v, a.2 = reply v a.1.text := by
  constructor
  · have hle := gonculations_le hrun
    have hnone : (received ls).count (str "tick") = 0 :=
      List.count_eq_zero.mpr fun htick => hlines _ htick rfl
    omega
  · intro a ha horigin
    have hline : a.1.text ∈ (answered ls).map Prod.fst :=
      List.mem_map.mpr ⟨(a.1.text, a.2), List.mem_map.mpr
        ⟨a, List.mem_filter.mpr ⟨ha, by simpa using horigin⟩, rfl⟩, rfl⟩
    have hreceived := (answers_of_run hrun).1.subset hline
    exact ⟨route_eq_command.mpr (hlines _ hreceived), (served_of_run hrun).views a ha⟩

/-! ## A line that is taken for a notification -/

theorem stripLine_tick : stripLine (str "tick\r") = .ok (str "tick") := by
  have hnewline : gsub (str "tick\r") (str "\n") [] = .ok (str "tick\r") := by
    rw [gsub_eq _ (by decide) (by decide)]
    exact congrArg _ (by decide)
  have hreturn : gsub (str "tick\r") (str "\r") [] = .ok (str "tick") := by
    rw [gsub_eq _ (by decide) (by decide)]
    exact congrArg _ (by decide)
  rw [stripLine, hnewline]
  exact hreturn

def forgedCmd : Cmd := ⟨.link, str "tick"⟩

def forgedLog : List Label :=
  [.silent, .received (str "tick"), .fromBcp .silent, .fromBcp .silent,
    .fromBcp (.inserted forgedCmd), .fromBcp (.popped forgedCmd), .silent, .handled forgedCmd []]

/-- The router has executed `gonculate` for the line. -/
def forged (owner : OwnerPc) (toBcp : AbsQueue Str) : Session :=
  ⟨⟨[], 1, 1, 0, true, false⟩, toBcp, true, owner, .pushing .pushNotify, .loop, .popping, .idle,
    false⟩

theorem run_forged (owner : OwnerPc) (toBcp : AbsQueue Str) :
    Run Step (listening owner toBcp) forgedLog (forged owner toBcp) := by
  refine .cons (.receiver (.test _ rfl)) ?_
  refine .cons (.receiver (.line _ _ _ rfl stripLine_tick (by decide))) ?_
  refine .cons (.receiver (.push _ _ _ _ _ rfl (.ready _ _ rfl))) ?_
  refine .cons (.receiver (.push _ _ _ _ _ rfl (.count _ _))) ?_
  refine .cons (.receiver (.push _ _ _ _ _ rfl (.insert _ _))) ?_
  refine .cons (.router (.popTakes _ forgedCmd _ rfl rfl rfl)) ?_
  refine .cons (.router (.execute _ forgedCmd rfl)) ?_
  exact .single (.router (.tick _ atRest forgedCmd rfl rfl))

/-- No turn has begun, and the bot executes `gonculate`. -/
theorem line_gonculates : ∃ ls s, Run Step .start ls s ∧ unlocks ls = 0 ∧ gonculations ls = 1
    ∧ ∃ a ∈ handled ls, a.1.origin = .link ∧ route a.1.text = .notification := by
  have hstart : Run Step .start startLog _ := Run.mono (fun _ _ _ h => h.1) run_start
  have hrun := hstart.append (run_forged _ _)
  exact ⟨_, _, hrun, rfl, rfl, (forgedCmd, []), List.mem_singleton_self _, rfl, rfl⟩

/-- The first turn, behind an answered line, and its notification. -/
def turnLog : List Label :=
  [.silent, .silent, .lock, .unlock, .silent, .fromBcp .silent, .fromBcp .silent,
    .fromBcp (.inserted tickCmd), .fromBcp (.popped tickCmd), .silent, .handled tickCmd []]

/-- The turn is over, and `gonculate` has been executed. -/
def turned (toBcp : AbsQueue Str) : Session :=
  ⟨⟨[], 2, 2, 0, true, false⟩, toBcp.countIn.insert health, true, .built, .pushing .pushNotify,
    .loop, .gonculate (gonculate atRest), .ticking .pushNotify, false⟩

theorem run_turn (toBcp : AbsQueue Str) :
    Run Step (healthAnswered (.greeting .pushNotify) toBcp) turnLog (turned toBcp) := by
  refine .cons (.owner (.greeted _ rfl)) ?_
  refine .cons (.router (.replied _ [] rfl)) ?_
  refine .cons (.engine (.lock _ rfl rfl)) ?_
  refine .cons (.engine (.unlock _ rfl rfl)) ?_
  refine .cons (.engine (.released _ rfl)) ?_
  refine .cons (.engine (.tick _ _ _ _ _ rfl (.ready _ _ rfl))) ?_
  refine .cons (.engine (.tick _ _ _ _ _ rfl (.count _ _))) ?_
  refine .cons (.engine (.tick _ _ _ _ _ rfl (.insert _ _))) ?_
  refine .cons (.router (.popTakes _ tickCmd _ rfl rfl rfl)) ?_
  refine .cons (.router (.execute _ tickCmd rfl)) ?_
  exact .single (.router (.tick _ atRest tickCmd rfl rfl))

/-- A bot that is asked for its health and is notified of a turn. -/
def servedLog : List Label := startLog ++ greetLog ++ healthLog ++ turnLog

/-- The line is answered, and the one notification that is handled is the engine's. -/
theorem ticks_from_engine_served :
    received servedLog = [str "bot health"] ∧ gonculations servedLog = 1 ∧ unlocks servedLog = 1
      ∧ gonculations servedLog ≤ unlocks servedLog
      ∧ ∀ a ∈ handled servedLog, a.1.origin = .link →
        route a.1.text = .command ∧ ∃ v, a.2 = reply v a.1.text := by
  have hgreet : Run (fun s l s' => Step s l s' ∧ GreetsFirst s l) _ greetLog
      (listening (.greeting .pushNotify) (AbsQueue.empty.countIn.insert (str "READY"))) :=
    run_greet (s := listening (.greeting (.pushTest (str "READY"))) .empty) rfl rfl
  have hhealth := (run_start.append hgreet).append
    (run_health (P := GreetsFirst) rfl fun s l howner r _ => by rw [howner]; rfl)
  have hrun : Run Step .start servedLog _ :=
    (Run.mono (fun _ _ _ h => h.1) hhealth).append
      (run_turn (AbsQueue.empty.countIn.insert (str "READY")))
  have hlines : ∀ line ∈ received servedLog, line ≠ str "tick" := by decide
  obtain ⟨hle, hcommands⟩ := ticks_from_engine hrun hlines
  exact ⟨rfl, rfl, rfl, hle, hcommands⟩

end Nrtb.BotMk1
