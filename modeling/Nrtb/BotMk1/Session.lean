import Nrtb.BotMk1.Commands
import Nrtb.QueueThreads

/-!
# The threads of a bot

`cpp/sim_engine/bot_mk1/bot_mk1.cpp`, lines 38–82 and 129–256: the thread that constructs and
destroys a `bot_mk1`, its receiver, transmitter and router, and the calls of `lock` and `unlock` by
the engine. A step is one atomic operation or one critical section of a queue; a waiting thread may
wake up at any time.

The four modules behind this one ask different things of the same threads: whether the answers come
in order, what the engine's notifications are, what a held queue keeps away, and what becomes of a
bot whose link has failed. What the handlers answer is the function of `Commands`, on any view of
the bot, because the engine moves it while the router works.

* `Session`: the two queues, `ImAlive`, and where the threads are.
* `Step`: a step of any of the threads, with a label for everything that the other modules count:
  the lines received, what goes into and out of the two queues, and the calls of the engine.
-/

namespace Nrtb.BotMk1

open QueueThreads (Pc PushStep)

/-! ## The state -/

/-- Who pushed a command onto `from_BCP`. -/
inductive Origin where
  -- the receiver
  | link
  -- `unlock`
  | engine
  -- `gonculate`
  | autopilot
deriving DecidableEq, Repr

/-- An item of `from_BCP`; the code keeps the text only. -/
structure Cmd where
  origin : Origin
  text : Str
deriving DecidableEq, Repr

/-- The thread of the constructor and the destructor. -/
inductive OwnerPc where
  -- `ImAlive` is set, no thread runs
  | starting
  | startingTransmitter
  | startingRouter
  -- in `to_BCP.push("READY")`
  | greeting (pc : Pc Str)
  | built
  -- in the destructor, `ImAlive` is cleared
  | closingOut
  | closingIn
  | gone

inductive ReceiverPc where
  | unborn
  | loop
  -- in `getln`
  | reading
  -- in `from_BCP.push`
  | pushing (pc : Pc Cmd)
  | ended

inductive TransmitterPc where
  | unborn
  | loop
  | popping
  | waiting
  -- in `BCP->put`
  | putting (line : Str)
  | ended

inductive RouterPc where
  | unborn
  | popping
  | waiting
  -- `pop` has taken the command
  | took (cmd : Cmd)
  | executing (cmd : Cmd)
  -- in a push of `gonculate`, with more to come
  | gonculating (pc : Pc Cmd) (rest : List Str)
  -- in a push of an answer, with more to come
  | replying (pc : Pc Str) (rest : List Str)
  | exited
  -- an exception has left `msg_router`: the process ends
  | terminated

/-- The engine's thread, as far as it calls `lock` and `unlock`. -/
inductive EnginePc where
  | idle
  -- in `unlock`, before `notify_all`
  | releasing
  -- in `unlock`, in `from_BCP.push("tick")`
  | ticking (pc : Pc Cmd)

structure Session where
  fromBcp : AbsQueue Cmd
  toBcp : AbsQueue Str
  imAlive : Bool
  owner : OwnerPc
  receiver : ReceiverPc
  transmitter : TransmitterPc
  router : RouterPc
  engine : EnginePc
  -- between `lock()` and the matching `unlock()`
  locked : Bool

/-- A bot whose constructor is about to start the threads. -/
def Session.start : Session :=
  ⟨.empty, .empty, true, .starting, .unborn, .unborn, .unborn, .idle, false⟩

inductive Writer where
  | owner
  | transmitter
  | router
deriving DecidableEq

inductive Label where
  | silent
  -- `getln` returns a line that is not empty without its line ends
  | received (line : Str)
  | fromBcp (l : QueueThreads.Label Cmd)
  | toBcp (who : Writer) (l : QueueThreads.Label Str)
  -- the handler of a command has chosen its answers
  | handled (cmd : Cmd) (replies : List Str)
  | lock
  | unlock

/-- `gsub(gsub(s,"\n",""),"\r","")` -/
def stripLine (s : Str) : Except CommonException Str := do
  gsub (← gsub s (str "\n") []) (str "\r") []

/-- The router with these answers to push. -/
def RouterPc.reply : List Str → RouterPc
  | [] => popping
  | r :: rest => replying (.pushTest r) rest

/-- The router with these commands to queue. -/
def RouterPc.gonculate : List Str → RouterPc
  | [] => popping
  | cmd :: rest => gonculating (.pushTest ⟨.autopilot, cmd⟩) rest

/-! ## The steps -/

inductive OwnerStep : Session → Label → Session → Prop
  | startReceiver (s : Session) (hpc : s.owner = .starting) :
      OwnerStep s .silent { s with owner := .startingTransmitter, receiver := .loop }
  | startTransmitter (s : Session) (hpc : s.owner = .startingTransmitter) :
      OwnerStep s .silent { s with owner := .startingRouter, transmitter := .loop }
  | startRouter (s : Session) (hpc : s.owner = .startingRouter) :
      OwnerStep s .silent
        { s with owner := .greeting (.pushTest (str "READY")), router := .popping }
  | greet (s : Session) (pc pc' : Pc Str) (l : QueueThreads.Label Str) (q : AbsQueue Str)
      (hpc : s.owner = .greeting pc) (hpush : PushStep s.toBcp pc l q pc') :
      OwnerStep s (.toBcp .owner l) { s with owner := .greeting pc', toBcp := q }
  | greeted (s : Session) (hpc : s.owner = .greeting .pushNotify) :
      OwnerStep s .silent { s with owner := .built }
  | destroy (s : Session) (hpc : s.owner = .built) (hengine : s.engine = .idle) :
      OwnerStep s .silent { s with owner := .closingOut, imAlive := false }
  | closeOut (s : Session) (hpc : s.owner = .closingOut) :
      OwnerStep s (.toBcp .owner .shutdown)
        { s with owner := .closingIn, toBcp := s.toBcp.shutdown }
  | closeIn (s : Session) (hpc : s.owner = .closingIn) :
      OwnerStep s (.fromBcp .shutdown) { s with owner := .gone, fromBcp := s.fromBcp.shutdown }

inductive ReceiverStep : Session → Label → Session → Prop
  | test (s : Session) (hpc : s.receiver = .loop) :
      ReceiverStep s .silent { s with receiver := if s.imAlive then .reading else .ended }
  | line (s : Session) (raw line : Str) (hpc : s.receiver = .reading)
      (hstrip : stripLine raw = .ok line) (hne : line ≠ []) :
      ReceiverStep s (.received line) { s with receiver := .pushing (.pushTest ⟨.link, line⟩) }
  | emptyLine (s : Session) (raw : Str) (hpc : s.receiver = .reading)
      (hstrip : stripLine raw = .ok []) : ReceiverStep s .silent { s with receiver := .loop }
  -- `getln` or `gsub` throws
  | fails (s : Session) (hpc : s.receiver = .reading) :
      ReceiverStep s .silent { s with receiver := .ended, imAlive := false }
  | push (s : Session) (pc pc' : Pc Cmd) (l : QueueThreads.Label Cmd) (q : AbsQueue Cmd)
      (hpc : s.receiver = .pushing pc) (hpush : PushStep s.fromBcp pc l q pc') :
      ReceiverStep s (.fromBcp l) { s with receiver := .pushing pc', fromBcp := q }
  | pushed (s : Session) (hpc : s.receiver = .pushing .pushNotify) :
      ReceiverStep s .silent { s with receiver := .loop }
  | pushThrows (s : Session) (cmd : Cmd) (hpc : s.receiver = .pushing (.pushTest cmd))
      (hready : s.fromBcp.ready = false) :
      ReceiverStep s .silent { s with receiver := .ended, imAlive := false }

inductive TransmitterStep : Session → Label → Session → Prop
  | test (s : Session) (hpc : s.transmitter = .loop) :
      TransmitterStep s .silent { s with transmitter := if s.imAlive then .popping else .ended }
  | popWaits (s : Session) (hpc : s.transmitter = .popping) (hwait : s.toBcp.mustWait = true) :
      TransmitterStep s .silent { s with transmitter := .waiting }
  | wake (s : Session) (hpc : s.transmitter = .waiting) :
      TransmitterStep s .silent { s with transmitter := .popping }
  | popTakes (s : Session) (line : Str) (q : AbsQueue Str) (hpc : s.transmitter = .popping)
      (hwait : s.toBcp.mustWait = false) (htake : s.toBcp.take? = some (line, q)) :
      TransmitterStep s (.toBcp .transmitter (.popped line))
        { s with transmitter := .putting line, toBcp := q }
  | put (s : Session) (line : Str) (hpc : s.transmitter = .putting line) :
      TransmitterStep s .silent { s with transmitter := .loop }
  -- `pop` or `put` throws
  | fails (s : Session) (hpc : (s.transmitter = .popping ∧ s.toBcp.mustWait = false
        ∧ s.toBcp.ready = false) ∨ ∃ line, s.transmitter = .putting line) :
      TransmitterStep s .silent { s with transmitter := .ended, imAlive := false }

inductive RouterStep : Session → Label → Session → Prop
  | popWaits (s : Session) (hpc : s.router = .popping) (hwait : s.fromBcp.mustWait = true) :
      RouterStep s .silent { s with router := .waiting }
  | wake (s : Session) (hpc : s.router = .waiting) :
      RouterStep s .silent { s with router := .popping }
  | popTakes (s : Session) (cmd : Cmd) (q : AbsQueue Cmd) (hpc : s.router = .popping)
      (hwait : s.fromBcp.mustWait = false) (htake : s.fromBcp.take? = some (cmd, q)) :
      RouterStep s (.fromBcp (.popped cmd)) { s with router := .took cmd, fromBcp := q }
  | popThrows (s : Session) (hpc : s.router = .popping) (hwait : s.fromBcp.mustWait = false)
      (hready : s.fromBcp.ready = false) : RouterStep s .silent { s with router := .exited }
  | execute (s : Session) (cmd : Cmd) (hpc : s.router = .took cmd) :
      RouterStep s .silent { s with router := .executing cmd }
  | tick (s : Session) (v : View) (cmd : Cmd) (hpc : s.router = .executing cmd)
      (htick : cmd.text = str "tick") :
      RouterStep s (.handled cmd (reply v cmd.text))
        { s with router := .gonculate (gonculate v) }
  | handle (s : Session) (v : View) (cmd : Cmd) (hpc : s.router = .executing cmd)
      (htick : cmd.text ≠ str "tick") :
      RouterStep s (.handled cmd (reply v cmd.text))
        { s with router := .reply (reply v cmd.text) }
  | queue (s : Session) (pc pc' : Pc Cmd) (l : QueueThreads.Label Cmd) (q : AbsQueue Cmd)
      (rest : List Str) (hpc : s.router = .gonculating pc rest)
      (hpush : PushStep s.fromBcp pc l q pc') :
      RouterStep s (.fromBcp l) { s with router := .gonculating pc' rest, fromBcp := q }
  | queued (s : Session) (rest : List Str) (hpc : s.router = .gonculating .pushNotify rest) :
      RouterStep s .silent { s with router := .gonculate rest }
  | reply (s : Session) (pc pc' : Pc Str) (l : QueueThreads.Label Str) (q : AbsQueue Str)
      (rest : List Str) (hpc : s.router = .replying pc rest)
      (hpush : PushStep s.toBcp pc l q pc') :
      RouterStep s (.toBcp .router l) { s with router := .replying pc' rest, toBcp := q }
  | replied (s : Session) (rest : List Str) (hpc : s.router = .replying .pushNotify rest) :
      RouterStep s .silent { s with router := .reply rest }
  -- A push onto a queue that has been shut down throws. `to_BCP` is the first to be, so that the
  -- push in the handler throws as well, out of the thread.
  | pushThrows (s : Session) (hpc : (∃ r rest, s.router = .replying (.pushTest r) rest
        ∧ s.toBcp.ready = false) ∨ ∃ cmd rest, s.router = .gonculating (.pushTest cmd) rest
          ∧ s.fromBcp.ready = false) :
      RouterStep s .silent { s with router := .terminated }

inductive EngineStep : Session → Label → Session → Prop
  | lock (s : Session) (hpc : s.engine = .idle) (howner : s.owner = .built) :
      EngineStep s .lock { s with fromBcp := s.fromBcp.hold, locked := true }
  | unlock (s : Session) (hpc : s.engine = .idle) (howner : s.owner = .built) :
      EngineStep s .unlock
        { s with engine := .releasing, fromBcp := s.fromBcp.release, locked := false }
  | released (s : Session) (hpc : s.engine = .releasing) :
      EngineStep s .silent { s with engine := .ticking (.pushTest ⟨.engine, str "tick"⟩) }
  | tick (s : Session) (pc pc' : Pc Cmd) (l : QueueThreads.Label Cmd) (q : AbsQueue Cmd)
      (hpc : s.engine = .ticking pc) (hpush : PushStep s.fromBcp pc l q pc') :
      EngineStep s (.fromBcp l) { s with engine := .ticking pc', fromBcp := q }
  | ticked (s : Session) (hpc : s.engine = .ticking .pushNotify) :
      EngineStep s .silent { s with engine := .idle }

/-- A step of any of the threads. -/
inductive Step : Session → Label → Session → Prop
  | owner {s s' : Session} {l : Label} (h : OwnerStep s l s') : Step s l s'
  | receiver {s s' : Session} {l : Label} (h : ReceiverStep s l s') : Step s l s'
  | transmitter {s s' : Session} {l : Label} (h : TransmitterStep s l s') : Step s l s'
  | router {s s' : Session} {l : Label} (h : RouterStep s l s') : Step s l s'
  | engine {s s' : Session} {l : Label} (h : EngineStep s l s') : Step s l s'

end Nrtb.BotMk1
