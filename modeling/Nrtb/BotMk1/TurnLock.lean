import Nrtb.BotMk1.Session

/-!
# Commands and turns

`bot_mk1::lock` and `bot_mk1::unlock` (`cpp/sim_engine/bot_mk1/bot_mk1.cpp`, lines 247–256) against
`msg_router`: `lock` holds `from_BCP`, which keeps the router from taking another command, but not
from executing the one that it has taken.

The engine locks its objects for the length of a turn, so that a turn should see a bot that no
command changes. Whether it does is decided when `lock` is called. If the router is between two
commands then, the held queue keeps it there; if it has taken one, nothing stops it, and there is a
continuation in which it executes the command before the bot is unlocked.

* `Held.step`: while the queue is held and the router has no command, it gets none.
* `executes_of_busy`: the other case.
* `turns_undisturbed`: what that comes to for every session.
-/

namespace Nrtb.BotMk1

open QueueThreads (PushStep)

namespace RouterPc

/-- The router executes a command. -/
def inCommand : RouterPc → Bool
  | executing _ => true
  | gonculating _ _ => true
  | replying _ _ => true
  | _ => false

/-- The router has taken a command and is not through with it. -/
def busy : RouterPc → Bool
  | took _ => true
  | pc => pc.inCommand

theorem inCommand_of_not_busy {pc : RouterPc} (h : pc.busy = false) : pc.inCommand = false := by
  cases pc <;> first | rfl | cases h

end RouterPc

theorem blocked_of_push {α : Type*} {q q' : AbsQueue α} {t t' : QueueThreads.Pc α}
    {l : QueueThreads.Label α} (h : PushStep q t l q' t') : q'.blocked = q.blocked := by
  cases h <;> rfl

/-- The engine has locked the bot, and the router has no command. -/
structure Held (s : Session) : Prop where
  locked : s.locked = true
  blocked : s.fromBcp.blocked = true
  free : s.router.busy = false

variable {s s' : Session} {l : Label}

theorem Held.of_lock (hlock : Step s .lock s') (hfree : s.router.busy = false) : Held s' := by
  cases hlock with
  | engine h =>
    cases h with
    | lock _ _ => exact ⟨rfl, rfl, hfree⟩
  | owner h => cases h
  | receiver h => cases h
  | transmitter h => cases h
  | router h => cases h

/-- A held queue gives nothing away. -/
theorem Held.router (h : Held s) (hstep : RouterStep s l s') : Held s' := by
  obtain ⟨hlocked, hblocked, hfree⟩ := h
  cases hstep with
  | popWaits _ _ => exact ⟨hlocked, hblocked, rfl⟩
  | wake _ => exact ⟨hlocked, hblocked, rfl⟩
  | popTakes cmd q _ hwait htake =>
    have hready := AbsQueue.ready_of_take? htake
    simp [AbsQueue.mustWait, hblocked, hready] at hwait
  | popThrows _ _ _ => exact ⟨hlocked, hblocked, rfl⟩
  | execute cmd hpc => rw [hpc] at hfree; cases hfree
  | tick v cmd hpc _ => rw [hpc] at hfree; cases hfree
  | handle v cmd hpc _ => rw [hpc] at hfree; cases hfree
  | queue pc pc' l q rest hpc _ => rw [hpc] at hfree; cases hfree
  | queued rest hpc => rw [hpc] at hfree; cases hfree
  | reply pc pc' l q rest hpc _ => rw [hpc] at hfree; cases hfree
  | replied rest hpc => rw [hpc] at hfree; cases hfree
  | pushThrows hpc => exact ⟨hlocked, hblocked, rfl⟩

theorem Held.step (h : Held s) (hstep : Step s l s') (hunlock : l ≠ .unlock) : Held s' := by
  obtain ⟨hlocked, hblocked, hfree⟩ := h
  cases hstep with
  | router hstep => exact Held.router ⟨hlocked, hblocked, hfree⟩ hstep
  | owner hstep =>
    cases hstep with
    | startRouter _ => exact ⟨hlocked, hblocked, rfl⟩
    | _ => exact ⟨hlocked, hblocked, hfree⟩
  | receiver hstep =>
    cases hstep with
    | push pc pc' l q _ hpush => exact ⟨hlocked, (blocked_of_push hpush).trans hblocked, hfree⟩
    | _ => exact ⟨hlocked, hblocked, hfree⟩
  | transmitter hstep => cases hstep <;> exact ⟨hlocked, hblocked, hfree⟩
  | engine hstep =>
    cases hstep with
    | lock _ _ => exact ⟨rfl, rfl, hfree⟩
    | unlock _ _ => exact absurd rfl hunlock
    | released _ => exact ⟨hlocked, hblocked, hfree⟩
    | tick pc pc' l q _ hpush => exact ⟨hlocked, (blocked_of_push hpush).trans hblocked, hfree⟩
    | ticked _ => exact ⟨hlocked, hblocked, hfree⟩

/-- Only `lock()` makes a bot locked. -/
theorem Step.locked (hstep : Step s l s') (hlocked : s'.locked = true) :
    l ≠ .unlock ∧ (s.locked = true ∨ l = .lock) := by
  cases hstep with
  | owner hstep => cases hstep <;> exact ⟨nofun, .inl hlocked⟩
  | receiver hstep => cases hstep <;> exact ⟨nofun, .inl hlocked⟩
  | transmitter hstep => cases hstep <;> exact ⟨nofun, .inl hlocked⟩
  | router hstep => cases hstep <;> exact ⟨nofun, .inl hlocked⟩
  | engine hstep =>
    cases hstep with
    | lock _ _ => exact ⟨nofun, .inr rfl⟩
    | unlock _ _ => cases hlocked
    | _ => exact ⟨nofun, .inl hlocked⟩

/-- A `lock()` that finds the router without a command. -/
def LocksFree (s : Session) (l : Label) : Prop := l = .lock → s.router.busy = false

theorem held_of_run {ls : List Label} {t : Session}
    (hrun : Run (fun s l s' => Step s l s' ∧ LocksFree s l) .start ls t) :
    t.locked = true → Held t := by
  refine hrun.invariant (I := fun t => t.locked = true → Held t)
    (fun hlocked => absurd hlocked Bool.false_ne_true) ?_
  rintro s l s' h ⟨hstep, hfree⟩ hlocked
  obtain ⟨hunlock, hbefore | rfl⟩ := hstep.locked hlocked
  · exact (h hbefore).step hstep hunlock
  · exact Held.of_lock hstep (hfree rfl)

/-- A command that the router had taken when the bot was locked can be executed in the turn. -/
theorem executes_of_busy (hlock : Step s .lock s') (hbusy : s.router.busy = true) :
    ∃ ls t, Run Step s' ls t ∧ .unlock ∉ ls ∧ t.locked = true ∧ t.router.inCommand = true := by
  cases hlock with
  | engine h =>
    cases h with
    | lock _ _ =>
      by_cases hcommand : s.router.inCommand = true
      · exact ⟨[], _, .nil, nofun, rfl, hcommand⟩
      · obtain ⟨cmd, hcmd⟩ : ∃ cmd, s.router = .took cmd := by
          cases hpc : s.router with
          | took cmd => exact ⟨cmd, rfl⟩
          | _ => rw [hpc] at hbusy hcommand; exact absurd hbusy hcommand
        exact ⟨[.silent], _, .single (.router (.execute _ cmd hcmd)), by simp, rfl, rfl⟩
  | owner h => cases h
  | receiver h => cases h
  | transmitter h => cases h
  | router h => cases h

/-- While every `lock()` finds the router without a command, no command is executed in a turn; and a
`lock()` that finds it with one lets it execute the command in the turn. The router is only told to
hold back, and nothing waits until it does. -/
theorem turns_undisturbed {ls : List Label} {t : Session}
    (hrun : Run (fun s l s' => Step s l s' ∧ LocksFree s l) .start ls t) :
    (t.locked = true → t.router.inCommand = false)
      ∧ ∀ t', Step t .lock t' → t.router.busy = true →
        ∃ ms u, Run Step t' ms u ∧ .unlock ∉ ms ∧ u.locked = true ∧ u.router.inCommand = true :=
  ⟨fun hlocked => RouterPc.inCommand_of_not_busy (held_of_run hrun hlocked).free,
    fun _ => executes_of_busy⟩

/-- The engine's notification of a turn. -/
def tickCmd : Cmd := ⟨.engine, str "tick"⟩

/-- The first turn is over, and the router has taken its `"tick"`. -/
def notified : Session :=
  ⟨⟨[], 1, 1, 0, true, false⟩, ⟨[str "READY"], 1, 0, 0, true, false⟩, true, .built, .loop, .loop,
    .took tickCmd, .idle, false⟩

def notifiedLog : List Label :=
  [.silent, .silent, .silent, .toBcp .owner .silent, .toBcp .owner .silent,
    .toBcp .owner (.inserted (str "READY")), .silent, .lock, .unlock, .silent, .fromBcp .silent,
    .fromBcp .silent, .fromBcp (.inserted tickCmd), .silent, .fromBcp (.popped tickCmd)]

theorem run_notified :
    Run (fun s l s' => Step s l s' ∧ LocksFree s l) .start notifiedLog notified := by
  refine .cons ⟨.owner (.startReceiver _ rfl), nofun⟩ ?_
  refine .cons ⟨.owner (.startTransmitter _ rfl), nofun⟩ ?_
  refine .cons ⟨.owner (.startRouter _ rfl), nofun⟩ ?_
  refine .cons ⟨.owner (.greet _ _ _ _ _ rfl (.ready _ _ rfl)), nofun⟩ ?_
  refine .cons ⟨.owner (.greet _ _ _ _ _ rfl (.count _ _)), nofun⟩ ?_
  refine .cons ⟨.owner (.greet _ _ _ _ _ rfl (.insert _ _)), nofun⟩ ?_
  refine .cons ⟨.owner (.greeted _ rfl), nofun⟩ ?_
  refine .cons ⟨.engine (.lock _ rfl rfl), fun _ => rfl⟩ ?_
  refine .cons ⟨.engine (.unlock _ rfl rfl), nofun⟩ ?_
  refine .cons ⟨.engine (.released _ rfl), nofun⟩ ?_
  refine .cons ⟨.engine (.tick _ _ _ _ _ rfl (.ready _ _ rfl)), nofun⟩ ?_
  refine .cons ⟨.engine (.tick _ _ _ _ _ rfl (.count _ _)), nofun⟩ ?_
  refine .cons ⟨.engine (.tick _ _ _ _ _ rfl (.insert _ _)), nofun⟩ ?_
  refine .cons ⟨.engine (.ticked _ rfl), nofun⟩ ?_
  exact .single ⟨.router (.popTakes _ tickCmd _ rfl rfl rfl), nofun⟩

/-- The second turn begins, and `gonculate` is executed in it. -/
theorem gonculates_inside_turn :
    ∃ ls t, Run Step .start ls t ∧ t.locked = true ∧ t.router = .executing tickCmd := by
  have hbefore : Run Step .start notifiedLog notified := Run.mono (fun _ _ _ h => h.1) run_notified
  let second : Session := { notified with fromBcp := notified.fromBcp.hold, locked := true }
  have hlock : Step notified .lock second := .engine (.lock notified rfl rfl)
  have hexecute : Step second .silent { second with router := .executing tickCmd } :=
    .router (.execute second tickCmd rfl)
  exact ⟨_, _, hbefore.append (.cons hlock (.single hexecute)), rfl, rfl⟩

theorem turns_undisturbed_notified :
    (notified.locked = true → notified.router.inCommand = false)
      ∧ ∃ t' ms u, Step notified .lock t' ∧ Run Step t' ms u ∧ .unlock ∉ ms ∧ u.locked = true
        ∧ u.router.inCommand = true := by
  obtain ⟨hfree, hnext⟩ := turns_undisturbed run_notified
  have hlock : Step notified .lock _ := .engine (.lock notified rfl rfl)
  obtain ⟨ms, u, hrun, hunlock, hlocked, hcommand⟩ := hnext _ hlock rfl
  exact ⟨hfree, _, ms, u, hlock, hrun, hunlock, hlocked, hcommand⟩

end Nrtb.BotMk1
