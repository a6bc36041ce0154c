import Nrtb.Bcp.Lvar
import Nrtb.BotMk1.Replies
import Nrtb.Lib.Conversation

/-!
# A bot control program and its bot

The programs of `cpp/BCPs` hold a conversation with a bot: they wait for its greeting, and then for
the answer to each of their requests. The lines they send wait in `from_BCP` among the notifications
of the engine and the commands that `gonculate` queues, and the router takes one after the other.

Nothing in the answers says which request they belong to. A program can only count on it that it has
asked one question and gets one answer, although other commands without an answer are on their way
at the same time. `Lib.Conversation` has this in general: a client that asks one question at a time,
and a server that answers some messages and keeps silent about others. Here the router is the
server, and the bot's own commands are steps that the conversation does not see.

* `LinkStep.talk`: seen from the program, a step is one of a conversation, or nothing.
* `Linked.run`: a program that is polite gets the answers to its own requests, and the autopilot is
  as the program has set it when nothing is under way.
* `Linked.progress`: the program, the receiver or the router can go on.
-/

namespace Nrtb.Bcp

open BotMk1 BotMk1.Robot Conversation

/-- A program as a reaction to what it receives: its variables, and the lines it sends before it
waits for the next answer. -/
abbrev Program (σ : Type*) := Client σ Str Str

variable {σ K : Type*} [Field K] [LinearOrder K]

structure Link (σ K : Type*) where
  program : σ
  -- the lines that the receiver has not queued yet
  wire : List Str
  robot : Robot K
  fromBcp : List Cmd
  -- what `gonculate` has still to push
  queueing : List Str
  -- the answers that the program has not read yet
  toProgram : List Str

/-- The router and the program start when the bot has been built, with its greeting on the way. -/
def Link.start (program : σ) (robot : Robot K) : Link σ K :=
  ⟨program, [], robot, [], [], [str "READY"]⟩

inductive LinkLabel (σ K : Type*) where
  | moves
  | tick
  | arrives
  -- the router takes a command, when the bot is this
  | handles (b : Robot K) (cmd : Cmd)
  | queues
  -- the program reads an answer, in this state
  | receives (s : σ) (r : Str)

/-- What the bot was when it handled the last command of the program. -/
def LinkLabel.seen (b : Robot K) : LinkLabel σ K → Robot K
  | handles b' cmd => if cmd.origin = .link then b' else b
  | _ => b

inductive LinkStep (d : Dialect K) (fl : FloatOps K) (program : Program σ) :
    Link σ K → LinkLabel σ K → Link σ K → Prop
  -- the engine, in a turn
  | moves (w : Link σ K) (location velocity attitude rotation : Triad K) (r : Radar K)
      (c_list : List (SimCore.Panopticon.SensorRec K)) :
      LinkStep d fl program w .moves { w with
        robot := ⟨location, velocity, attitude, rotation, Radar.get_contacts fl d.print r c_list,
          w.robot.auto, w.robot.drive⟩ }
  -- `unlock`
  | tick (w : Link σ K) :
      LinkStep d fl program w .tick { w with fromBcp := w.fromBcp ++ [⟨.engine, str "tick"⟩] }
  | arrives (w : Link σ K) (line : Str) (wire : List Str) (hwire : w.wire = line :: wire) :
      LinkStep d fl program w .arrives
        { w with wire := wire, fromBcp := w.fromBcp ++ [⟨.link, line⟩] }
  | handles (w : Link σ K) (garbage : Ieee K) (cmd : Cmd) (rest : List Cmd)
      (hqueueing : w.queueing = []) (hfrom : w.fromBcp = cmd :: rest) :
      LinkStep d fl program w (.handles w.robot cmd) { w with
        robot := (w.robot.handle d garbage cmd.text).robot
        fromBcp := rest
        queueing := (w.robot.handle d garbage cmd.text).queued
        toProgram := w.toProgram ++ (w.robot.handle d garbage cmd.text).replies }
  | queues (w : Link σ K) (cmd : Str) (queueing : List Str)
      (hqueueing : w.queueing = cmd :: queueing) :
      LinkStep d fl program w .queues
        { w with fromBcp := w.fromBcp ++ [⟨.autopilot, cmd⟩], queueing := queueing }
  | receives (w : Link σ K) (r : Str) (rest : List Str) (hto : w.toProgram = r :: rest) :
      LinkStep d fl program w (.receives w.program r) { w with
        program := (program.react w.program r).1
        wire := w.wire ++ (program.react w.program r).2
        toProgram := rest }

/-! ## Commands of the autopilot -/

/-- A text that is read as a number. -/
structure Literal (d : Dialect K) (s : Str) (v : K) : Prop where
  no_space : ∀ c ∈ s, isspace c = false
  ne_nil : s ≠ []
  reads : d.scan s = .good v s.length

/-- A bot that the programs can talk to: what it writes can be read, and it reads the numbers in
their commands. -/
structure Speaks (d : Dialect K) (reread : K → K) : Prop extends Rereads d reread where
  print_zero : d.print 0 = str "0"
  literal : ∀ n : ℕ, n ≤ 1000 → Literal d (Decimal.print n) n

/-- A command that sets a variable of the autopilot. -/
def setting (verb value : Str) : Str := str "bot autopilot " ++ verb ++ 32 :: value

/-- The variable of a verb. -/
def assign (d : Dialect K) (verb : Str) : Option (Autopilot K → K → Autopilot K) :=
  if verb = str "power" then some fun ap v => { ap with power_limit := v }
  else if verb = str "speed" then some fun ap v => { ap with set_speed := v }
  else if verb = str "turn_rate" then some fun ap v => { ap with turn_limit := v }
  else if verb = str "heading" then some fun ap v => ap.heading d.ar v
  else none

section Commands

variable {d : Dialect K} {verb value : Str} {set : Autopilot K → K → Autopilot K}

/-- A number, as the programs write it. -/
theorem Rereads.literal {reread : K → K} (h : Rereads d reread) (v : K) :
    Literal d (d.print v) (reread v) where
  no_space := h.no_space v
  ne_nil := by
    rw [← h.print_reread]
    exact (h.numeral v).ne_nil
  reads := by
    rw [← h.print_reread]
    exact (h.numeral v).reads

theorem readInto_literal {v : K} (h : Literal d value v) (old : K) :
    readInto d (32 :: value) old = v := by
  have hnumber := Istream.number_word isspace d.scan (show isspace 32 = true by decide)
    h.no_space h.ne_nil (show ([] : Str).head?.all isspace = true from rfl) h.reads
  rw [List.append_nil] at hnumber
  rw [readInto, hnumber]
  rfl

theorem assign_verb (hset : assign d verb = some set) :
    verb = str "power" ∨ verb = str "speed" ∨ verb = str "turn_rate" ∨ verb = str "heading" := by
  unfold assign at hset
  split_ifs at hset with hpower hspeed hturn hheading
  · exact .inl hpower
  · exact .inr (.inl hspeed)
  · exact .inr (.inr (.inl hturn))
  · exact .inr (.inr (.inr hheading))

theorem extract_setting (hset : assign d verb = some set) (value : Str) :
    extract (setting verb value)
        = (str "bot", 32 :: (str "autopilot" ++ 32 :: (verb ++ 32 :: value)))
      ∧ extract (32 :: (str "autopilot" ++ 32 :: (verb ++ 32 :: value)))
        = (str "autopilot", 32 :: (verb ++ 32 :: value))
      ∧ extract (32 :: (verb ++ 32 :: value)) = (verb, 32 :: value) := by
  have htext : setting verb value
      = str "bot" ++ 32 :: (str "autopilot" ++ 32 :: (verb ++ 32 :: value)) := by
    rw [setting, List.append_assoc]
    rfl
  rw [htext, extract_blank, extract_blank]
  refine ⟨extract_word (no_space_of_all (by decide)) (by decide) rfl,
    extract_word (no_space_of_all (by decide)) (by decide) rfl, ?_⟩
  rcases assign_verb hset with rfl | rfl | rfl | rfl <;>
    exact extract_word (no_space_of_all (by decide)) (by decide) rfl

theorem autoCommand_setting (hset : assign d verb = some set) {v : K} (h : Literal d value v)
    (ap : Autopilot K) : autoCommand d ap (setting verb value) = set ap v := by
  obtain ⟨hsys, hsecond, hthird⟩ := extract_setting hset value
  rw [autoCommand_autopilot ap (by rw [hsys]) (by rw [DiffSteer.Pre.verbOf, hsys, hsecond]),
    DiffSteer.Pre.argsOf, hsys, hsecond, Autopilot.command, hthird]
  dsimp only
  rcases assign_verb hset with rfl | rfl | rfl | rfl
  · obtain rfl := Option.some.inj hset
    rw [if_neg (by decide), if_neg (by decide), if_pos rfl, readInto_literal h]
  · obtain rfl := Option.some.inj hset
    rw [if_neg (by decide), if_neg (by decide), if_neg (by decide), if_pos rfl,
      readInto_literal h]
  · obtain rfl := Option.some.inj hset
    rw [if_neg (by decide), if_neg (by decide), if_neg (by decide), if_neg (by decide), if_pos rfl,
      readInto_literal h]
  · obtain rfl := Option.some.inj hset
    rw [if_neg (by decide), if_neg (by decide), if_neg (by decide), if_neg (by decide),
      if_neg (by decide), if_pos rfl, readInto_literal h]

section Speaks

variable {reread : K → K} (h : Speaks d reread) {n : ℕ} (hn : n ≤ 1000) (ap : Autopilot K)

include h hn

theorem Speaks.power : autoCommand d ap (setting (str "power") (Decimal.print n))
    = { ap with power_limit := (n : K) } := by
  rw [autoCommand_setting (show assign d (str "power") = some _ from rfl) (h.literal n hn)]

theorem Speaks.speed : autoCommand d ap (setting (str "speed") (Decimal.print n))
    = { ap with set_speed := (n : K) } := by
  rw [autoCommand_setting (show assign d (str "speed") = some _ from rfl) (h.literal n hn)]

theorem Speaks.turn_rate : autoCommand d ap (setting (str "turn_rate") (Decimal.print n))
    = { ap with turn_limit := (n : K) } := by
  rw [autoCommand_setting (show assign d (str "turn_rate") = some _ from rfl) (h.literal n hn)]

theorem Speaks.heading : autoCommand d ap (setting (str "heading") (Decimal.print n))
    = ap.heading d.ar n := by
  rw [autoCommand_setting (show assign d (str "heading") = some _ from rfl) (h.literal n hn)]

omit hn in
/-- Zero is read as zero. -/
theorem Speaks.reread_zero : reread 0 = 0 := by
  have hzero := (h.literal 0 (by decide)).reads
  have hprint := (h.toRereads.literal 0).reads
  rw [h.print_zero] at hprint
  rw [show Decimal.print ((0 : ℕ) : ℤ) = str "0" by decide +kernel, hprint] at hzero
  simpa using hzero

end Speaks

theorem autoCommand_heading {reread : K → K} (h : Rereads d reread) (v : K) (ap : Autopilot K) :
    autoCommand d ap (str "bot autopilot heading " ++ d.print v) = ap.heading d.ar (reread v) :=
  autoCommand_setting (show assign d (str "heading") = some _ from rfl) (h.literal v) ap

variable (d) in
theorem autoCommand_lvar (ap : Autopilot K) : autoCommand d ap (str "bot lvar") = ap :=
  autoCommand_verb ap (by decide +kernel)

theorem autoCommand_on (ap : Autopilot K) :
    autoCommand d ap (str "bot autopilot on") = { ap with auto_on := true } := by
  rw [autoCommand_autopilot ap (by decide +kernel) (by decide +kernel),
    show DiffSteer.Pre.argsOf (str "bot autopilot on") = str " on" by decide +kernel]
  rfl

theorem autoCommand_off (ap : Autopilot K) :
    autoCommand d ap (str "bot autopilot off") = { ap with auto_on := false } := by
  rw [autoCommand_autopilot ap (by decide +kernel) (by decide +kernel),
    show DiffSteer.Pre.argsOf (str "bot autopilot off") = str " off" by decide +kernel]
  rfl

theorem reply_setting (hset : assign d verb = some set) (value : Str) (v : View) :
    reply v (setting verb value) = [] := by
  obtain ⟨hsys, hsecond, hthird⟩ := extract_setting hset value
  have htick : setting verb value ≠ str "tick" := fun heq => by
    rw [heq] at hsys
    have hbot : (extract (str "tick")).1 = str "bot" := congrArg Prod.fst hsys
    exact absurd hbot (by decide)
  unfold reply
  rw [if_neg htick, hsys]
  dsimp only
  rw [hsecond]
  dsimp only
  rw [if_pos rfl, if_neg (by decide), if_neg (by decide), if_neg (by decide), if_pos rfl,
    autopilot, hthird]
  dsimp only
  rcases assign_verb hset with rfl | rfl | rfl | rfl <;> rfl

variable (d) in
theorem reply_heading (w : K) (v : View) :
    reply v (str "bot autopilot heading " ++ d.print w) = [] :=
  reply_setting (show assign d (str "heading") = some _ from rfl) (d.print w) v

end Commands

/-! ## The conversation -/

/-- A bot that reports contacts, as a server of its autopilot. -/
def botServer (d : Dialect K) : Server (Autopilot K) Str Str (Robot K) where
  effect := autoCommand d
  answers b s := reply (b.view d) s
  sees b := b.contacts ≠ []

/-- What the program and the bot are to each other. -/
def Link.talk (w : Link σ K) : Talk σ (Autopilot K) Str Str :=
  ⟨w.program, w.robot.auto, BotMk1.lines w.fromBcp ++ w.wire, w.toProgram⟩

section Talk

variable {d : Dialect K} {fl : FloatOps K} {program : Program σ} {w w' : Link σ K}
  {l : LinkLabel σ K} {b : Robot K}

/-- A command is what its origin queues. -/
def Own (cmd : Cmd) : Prop :=
  match cmd.origin with
  | .link => True
  | .engine => cmd.text = str "tick"
  | .autopilot => ∃ v, cmd.text ∈ gonculate v

structure Genuine (w : Link σ K) : Prop where
  own : ∀ cmd ∈ w.fromBcp, Own cmd
  queueing : ∀ s ∈ w.queueing, ∃ v, s ∈ gonculate v
  contacts : w.robot.contacts ≠ []

theorem own_append {cmds : List Cmd} {cmd : Cmd} (h : ∀ c ∈ cmds, Own c) (hcmd : Own cmd) :
    ∀ c ∈ cmds ++ [cmd], Own c :=
  List.forall_mem_append.mpr ⟨h, List.forall_mem_singleton.mpr hcmd⟩

theorem Genuine.step (h : Genuine w) (hstep : LinkStep d fl program w l w') : Genuine w' := by
  cases hstep with
  | moves location velocity attitude rotation r c_list =>
    refine ⟨h.own, h.queueing, ?_⟩
    show Radar.get_contacts fl d.print r c_list ≠ []
    rw [Radar.get_contacts]
    exact List.append_ne_nil_of_left_ne_nil (by decide) _
  | tick => exact ⟨own_append h.own rfl, h.queueing, h.contacts⟩
  | arrives line wire hwire => exact ⟨own_append h.own trivial, h.queueing, h.contacts⟩
  | handles garbage cmd rest hqueueing hfrom =>
    refine ⟨fun c hc => h.own c (hfrom ▸ List.mem_cons_of_mem cmd hc), fun s hs => ?_, ?_⟩
    · dsimp only at hs
      rw [handle_queued] at hs
      split at hs
      · exact ⟨_, hs⟩
      · cases hs
    · dsimp only
      rw [handle_robot]
      exact h.contacts
  | queues cmd queueing hqueueing =>
    have hcmd := h.queueing cmd (hqueueing ▸ List.mem_cons_self ..)
    refine ⟨own_append h.own hcmd, fun s hs => ?_, h.contacts⟩
    exact h.queueing s (hqueueing ▸ List.mem_cons_of_mem cmd hs)
  | receives r rest hto => exact ⟨h.own, h.queueing, h.contacts⟩

/-- What `gonculate` queues is for the drive. -/
theorem extract_gonculate {v : View} {s : Str} (h : s ∈ gonculate v) :
    (extract s).1 = str "drive" := by
  have hdrive : ∀ (verb value : Str), (extract (str "drive" ++ 32 :: (verb ++ value))).1
      = str "drive" := fun verb value =>
    congrArg Prod.fst (extract_word (no_space_of_all (by decide)) (by decide) rfl)
  rw [gonculate] at h
  split at h
  · rcases List.mem_pair.mp h with rfl | rfl
    · exact hdrive (str "power ") v.power
    · exact hdrive (str "turn ") v.turn
  · cases h

/-- A command that is not from the program is not answered, and leaves the autopilot alone. -/
theorem own_quiet {cmd : Cmd} (h : Own cmd) (horigin : cmd.origin ≠ .link) :
    (∀ v, reply v cmd.text = []) ∧ ∀ ap : Autopilot K, autoCommand d ap cmd.text = ap := by
  obtain ⟨origin, text⟩ := cmd
  cases origin with
  | link => exact absurd rfl horigin
  | engine =>
    obtain rfl : text = str "tick" := h
    exact ⟨reply_tick, fun ap => autoCommand_other ap (by decide)⟩
  | autopilot =>
    obtain ⟨v, hv⟩ : ∃ v, text ∈ gonculate v := h
    refine ⟨fun w => reply_gonculate hv, fun ap => autoCommand_other ap ?_⟩
    rw [extract_gonculate hv]
    decide

/-- What a step is to the conversation. -/
theorem LinkStep.talk (h : Genuine w) (hstep : LinkStep d fl program w l w') :
    (∃ r, l = .receives w.program r
        ∧ Conversation.Step program (botServer d) w.talk (.receives r) w'.talk)
      ∨ (∀ s r, l ≠ .receives s r)
        ∧ (w'.talk = w.talk ∧ (∀ b, l.seen b = b)
          ∨ (∀ b, l.seen b = w.robot)
            ∧ Conversation.Step program (botServer d) w.talk (.handles w.robot) w'.talk) := by
  cases hstep with
  | moves location velocity attitude rotation r c_list =>
    exact .inr ⟨by simp, .inl ⟨rfl, fun _ => rfl⟩⟩
  | tick =>
    refine .inr ⟨by simp, .inl ⟨?_, fun _ => rfl⟩⟩
    simp [Link.talk, BotMk1.lines]
  | arrives line wire hwire =>
    refine .inr ⟨by simp, .inl ⟨?_, fun _ => rfl⟩⟩
    simp [Link.talk, BotMk1.lines, hwire]
  | handles garbage cmd rest hqueueing hfrom =>
    have hcmd := h.own cmd (hfrom ▸ List.mem_cons_self ..)
    by_cases horigin : cmd.origin = .link
    · refine .inr ⟨by simp, .inr ⟨fun _ => if_pos horigin, ?_⟩⟩
      have hlines : BotMk1.lines w.fromBcp = cmd.text :: BotMk1.lines rest := by
        simp [BotMk1.lines, hfrom, horigin]
      rw [Link.talk, hlines, Link.talk]
      dsimp only
      rw [handle_robot, handle_replies]
      exact .handles _ _ _ _ _ _ h.contacts
    · obtain ⟨hreply, hauto⟩ := own_quiet (d := d) hcmd horigin
      refine .inr ⟨by simp, .inl ⟨?_, fun _ => if_neg horigin⟩⟩
      have hlines : BotMk1.lines w.fromBcp = BotMk1.lines rest := by
        simp [BotMk1.lines, hfrom, horigin]
      rw [Link.talk, Link.talk, hlines]
      dsimp only
      rw [handle_robot, handle_replies, hreply, hauto, List.append_nil]
  | queues cmd queueing hqueueing =>
    refine .inr ⟨by simp, .inl ⟨?_, fun _ => rfl⟩⟩
    simp [Link.talk, BotMk1.lines]
  | receives r rest hto =>
    refine .inl ⟨r, rfl, ?_⟩
    rw [Link.talk, hto, Link.talk]
    dsimp only
    rw [← List.append_assoc]
    exact .receives _ _ _ _ _

variable {expects : σ → Robot K → Str → Prop} {intends : σ → Autopilot K → Prop}

/-- What holds at every moment between a bot and a program that is polite and knows what its
commands do. -/
structure Linked (d : Dialect K) (expects : σ → Robot K → Str → Prop)
    (intends : σ → Autopilot K → Prop) (b : Robot K) (w : Link σ K) : Prop where
  genuine : Genuine w
  inStep : InStep (botServer d) expects b w.talk
  agrees : Agrees (botServer d) intends w.talk

theorem Linked.step (hpolite : Polite program (botServer d) expects)
    (hknows : Knows program (botServer d) expects intends) (h : Linked d expects intends b w)
    (hstep : LinkStep d fl program w l w') :
    Linked d expects intends (l.seen b) w' ∧ ∀ s r, l = .receives s r → expects s b r := by
  have hgenuine := h.genuine.step hstep
  rcases hstep.talk h.genuine with ⟨r, rfl, hr⟩ | ⟨hother, htalk⟩
  · refine ⟨⟨hgenuine, h.inStep.step hpolite hr, h.agrees.step hknows h.inStep hr⟩, ?_⟩
    rintro s r' heq
    obtain ⟨rfl, rfl⟩ := LinkLabel.receives.inj heq
    exact h.inStep.received hr
  · refine ⟨?_, fun s r hl => absurd hl (hother s r)⟩
    rcases htalk with ⟨hsame, hseen⟩ | ⟨hseen, hb⟩
    · rw [hseen]
      exact ⟨hgenuine, by rw [hsame]; exact h.inStep, by rw [hsame]; exact h.agrees⟩
    · rw [hseen]
      exact ⟨hgenuine, h.inStep.step hpolite hb, h.agrees.step hknows h.inStep hb⟩

/-- When the bot has greeted the program. -/
theorem Linked.start {s : σ} (hcontacts : b.contacts ≠ []) (hexpects : expects s b (str "READY"))
    (hintends : intends s b.auto) : Linked d expects intends b (.start s b) where
  genuine := ⟨by simp [Link.start], by simp [Link.start], hcontacts⟩
  inStep := .inl ⟨rfl, _, rfl, hexpects⟩
  agrees := hintends

/-- What the bot was when it handled the last command of the program in a run. -/
def seen (b : Robot K) (ls : List (LinkLabel σ K)) : Robot K := ls.foldl LinkLabel.seen b

/-- Every answer is expected, of the bot as it was when it handled the last command. -/
def AllExpected (expects : σ → Robot K → Str → Prop) (b : Robot K) (ls : List (LinkLabel σ K)) :
    Prop :=
  ∀ pre s r post, ls = pre ++ .receives s r :: post → expects s (seen b pre) r

omit [Field K] [LinearOrder K] in
theorem AllExpected.concat {ls : List (LinkLabel σ K)} (h : AllExpected expects b ls)
    (hl : ∀ s r, l = .receives s r → expects s (seen b ls) r) :
    AllExpected expects b (ls ++ [l]) := by
  intro pre s r post hls
  rcases List.eq_nil_or_concat post with rfl | ⟨post, last, rfl⟩
  · obtain ⟨rfl, hlast⟩ := List.append_inj' hls rfl
    exact hl s r (List.singleton_inj.mp hlast)
  · rw [List.concat_eq_append, ← List.cons_append, ← List.append_assoc] at hls
    exact h pre s r post (List.append_inj' hls rfl).1

theorem Linked.run (hpolite : Polite program (botServer d) expects)
    (hknows : Knows program (botServer d) expects intends) {start : Link σ K}
    (hstart : Linked d expects intends b start) {ls : List (LinkLabel σ K)}
    (hrun : Run (LinkStep d fl program) start ls w) :
    Linked d expects intends (seen b ls) w ∧ AllExpected expects b ls := by
  refine hrun.history (P := fun ls w => Linked d expects intends (seen b ls) w
    ∧ AllExpected expects b ls) ⟨hstart, by simp [AllExpected]⟩ ?_
  intro ls w l w' h hstep
  obtain ⟨hnext, hreceives⟩ := h.1.step hpolite hknows hstep
  refine ⟨?_, h.2.concat hreceives⟩
  rw [seen, List.foldl_append]
  exact hnext

/-- The program, the receiver or the router can go on, without the engine. -/
theorem Linked.progress (fl : FloatOps K) (program : Program σ)
    (h : Linked d expects intends b w) :
    ∃ l w', LinkStep d fl program w l w' ∧ l ≠ .moves ∧ l ≠ .tick := by
  by_cases hto : w.toProgram = []
  · by_cases hwire : w.wire = []
    · have hfrom : w.fromBcp ≠ [] := by
        rcases h.inStep.pending with hup | hdown
        · intro hempty
          simp [Link.talk, BotMk1.lines, hempty, hwire] at hup
        · exact absurd hto hdown
      obtain ⟨cmd, rest, hcmd⟩ := List.exists_cons_of_ne_nil hfrom
      by_cases hqueueing : w.queueing = []
      · exact ⟨_, _, .handles w .nan cmd rest hqueueing hcmd, by simp, by simp⟩
      · obtain ⟨s, queueing, hs⟩ := List.exists_cons_of_ne_nil hqueueing
        exact ⟨_, _, .queues w s queueing hs, by simp, by simp⟩
    · obtain ⟨line, wire, hline⟩ := List.exists_cons_of_ne_nil hwire
      exact ⟨_, _, .arrives w line wire hline, by simp, by simp⟩
  · obtain ⟨r, rest, hr⟩ := List.exists_cons_of_ne_nil hto
    exact ⟨_, _, .receives w r rest hr, by simp, by simp⟩

end Talk

/-! ## Whole numbers -/

theorem wholeNumbers_speaks : Speaks wholeNumbers fun v => (whole v : ℚ) where
  toRereads := wholeNumbers_rereads
  print_zero := by decide +kernel
  literal n hn := by
    refine ⟨Radar.isspace_print _, Decimal.print_ne_nil _, ?_⟩
    show scanWhole (Decimal.print n) = _
    rw [scanWhole, Decimal.scan_print (by omega) (by omega)]
    simp

end Nrtb.Bcp
