import Nrtb.AbsQueue
import Nrtb.Lib.TransitionSystem

/-!
# `tcp_server_socket_factory`

`cpp/common/sockets/base_socket.cpp`, lines 576–747: one thread that calls `start_listen` and
`stop_listen`, the thread of `run`, and the threads that call `get_sock`. What `bind`, `listen` and
`accept` come to is part of the step. `listen_sock` is private and nobody closes it by hand, so that
its status is `sock_connect` as long as it is there.

The interface promises that a listener can be started and stopped, that a failure to bind is an
exception, and that connections are handed out in the order in which they come, each once. The
set-up runs in the thread of `run` and calls `exit` when `bind` fails. And `stop_listen` shuts the
queue of the connections down, which nothing opens again, so that a listener that is started once
more takes connections and loses them.

* `Threads`: what holds in every run.
* `Inv.step`: what holds while `bind` and `listen` succeed and nobody connects to a listener that
  was started after a `stop_listen`.
* `listens_as_promised`: the factory does what its interface promises in such runs, and any other
  step leads to a state in which it does not.
-/

namespace Nrtb.SocketFactory

/-! ## The state -/

/-- A connection, by the descriptor that `accept` returned. -/
abbrev Conn := Nat

/-- What the set-up of the listening socket comes to. -/
inductive Setup where
  -- `bind` and `listen` have returned; true for a result other than 0
  | results (bind listen : Bool)
  -- an exception, of `str_to_sockaddr`
  | threw
deriving DecidableEq, Repr

/-- `go` -/
def Setup.go : Setup → Bool
  | results bind listen => !(bind || listen)
  | threw => false

/-- `_last_thread_fault` behind the set-up -/
def Setup.fault : Setup → Int
  | results bind listen => (if bind then 1 else 0) + (if listen then 2 else 0)
  | threw => 100

inductive Errno where
  | eproto
  | ehostdown
  | ehostunreach
  | eagain
  | econnaborted
  | other (code : Int)
deriving DecidableEq, Repr

/-- What comes of one `accept`. -/
inductive Accepted where
  | conn (c : Conn)
  | failed (e : Errno)
deriving DecidableEq, Repr

def Accepted.conns : Accepted → List Conn
  | conn c => [c]
  | failed _ => []

/-- Where the thread of `run` is. -/
inductive RunPc where
  | entry
  -- `in_run_method` is set
  | setup
  -- in front of `exit(0)`
  | dying
  -- in front of `listen_sock.reset(new tcp_socket(sock))`
  | opening
  -- at the loop condition
  | test
  | accepting
  -- `accept` has returned
  | checking (r : Accepted)
  | pushing (c : Conn)
  -- in front of `in_run_method = false`
  | closing
  | finished
deriving DecidableEq, Repr

/-- Where the thread is that starts and stops the listener. -/
inductive CallerPc where
  | idle
  -- in the waiting loop of `start_listen`
  | polling (countdown : Nat)
  -- in `stop_listen`, past the test of `listening`
  | joining
  -- in front of `pending.shutdown()`
  | shutting
deriving DecidableEq, Repr

structure State where
  inRunMethod : Bool
  -- `work_thread.joinable()`
  joinable : Bool
  -- `listen_sock` is not null
  listenSock : Bool
  -- `_last_thread_fault`
  fault : Int
  pending : AbsQueue Conn
  -- the thread of the last launch, if there was one
  run : Option RunPc
  caller : CallerPc
  -- the process has called `exit`
  exited : Bool
  -- a `stop_listen` has returned
  stopped : Bool
  -- `bind` or `listen` of the last launch has failed
  failed : Bool
  -- the `start_listen` of the last launch has thrown `bind_failure_exception`
  threw : Bool
  -- the connections that `accept` has returned since the last launch
  accepted : List Conn
  -- the connections that `get_sock` has returned since the last launch
  delivered : List Conn

/-- A factory as its constructor leaves it. -/
def State.initial : State where
  inRunMethod := false
  joinable := false
  listenSock := false
  fault := 0
  pending := .empty
  run := none
  caller := .idle
  exited := false
  stopped := false
  failed := false
  threw := false
  accepted := []
  delivered := []

/-- `listening` -/
def State.listening (s : State) : Bool := s.inRunMethod && s.joinable && s.listenSock

/-! ## The steps -/

inductive Label where
  -- `start_listen` throws `already_running_exception`
  | startRefused
  | launch
  | poll (countdown : Nat)
  | startReturns (countdown : Nat)
  -- `start_listen` throws `bind_failure_exception`
  | startFails
  | stopCall
  | joined
  | nothingToJoin
  | stopReturns
  | enter
  | setup (r : Setup)
  | exit
  | opened
  | test
  | accept (r : Accepted)
  | check (r : Accepted)
  | push (c : Conn)
  -- `push` throws `queue_not_ready`, out of the loop of `run`
  | pushThrows (c : Conn)
  | leave
  | getSock (c : Conn)
  -- `get_sock` throws `queue_not_ready`
  | getSockThrows
deriving DecidableEq, Repr

/-- Where a step is possible. -/
def Enabled (s : State) : Label → Prop
  | .startRefused => s.caller = .idle ∧ (s.inRunMethod = true ∨ s.joinable = true)
  | .launch => s.caller = .idle ∧ s.inRunMethod = false ∧ s.joinable = false
  | .poll n => s.caller = .polling (n + 1) ∧ s.listening = false
  | .startReturns n => s.caller = .polling (n + 1) ∧ s.listening = true
  | .startFails => s.caller = .polling 0
  | .stopCall => s.caller = .idle
  | .joined => s.caller = .joining ∧ s.joinable = true ∧ s.run = some .finished
  | .nothingToJoin => s.caller = .joining ∧ s.joinable = false
  | .stopReturns => s.caller = .shutting
  | .enter => s.run = some .entry
  | .setup _ => s.run = some .setup
  | .exit => s.run = some .dying
  | .opened => s.run = some .opening
  | .test => s.run = some .test
  | .accept _ => s.run = some .accepting
  | .check r => s.run = some (.checking r)
  | .push c => s.run = some (.pushing c) ∧ s.pending.ready = true
  | .pushThrows c => s.run = some (.pushing c) ∧ s.pending.ready = false
  | .leave => s.run = some .closing
  | .getSock c => s.pending.take?.map Prod.fst = some c
  | .getSockThrows => s.pending.ready = false

/-- What `run` does with the result of `accept`. -/
def State.check (s : State) (r : Accepted) : State :=
  if s.listenSock = false then { s with fault := 300, run := some .closing }
  else
    match r with
    | .conn c => { s with run := some (.pushing c) }
    | .failed (.other code) => { s with fault := code, run := some .closing }
    -- abandon this connection
    | .failed _ => { s with run := some .test }

/-- What a step does. -/
def update (s : State) : Label → State
  | .startRefused => s
  | .launch =>
    { s with
      joinable := true
      run := some .entry
      caller := .polling 99
      failed := false
      threw := false
      accepted := []
      delivered := [] }
  | .poll n => { s with caller := .polling n }
  | .startReturns _ => { s with caller := .idle }
  | .startFails => { s with caller := .idle, threw := true }
  | .stopCall =>
    { s with listenSock := if s.listening then false else s.listenSock, caller := .joining }
  | .joined => { s with joinable := false, caller := .shutting }
  | .nothingToJoin => { s with caller := .shutting }
  -- `in_run_method == false` has no effect
  | .stopReturns =>
    { s with pending := s.pending.shutdown, fault := 0, caller := .idle, stopped := true }
  | .enter => { s with inRunMethod := true, fault := 0, run := some .setup }
  | .setup r =>
    if r.go then { s with run := some .opening }
    else { s with fault := r.fault, run := some .dying, failed := true }
  -- `_last_thread_fault =+ 200` assigns
  | .exit => { s with fault := 200, exited := true }
  | .opened => { s with listenSock := true, run := some .test }
  | .test => { s with run := some (if s.listenSock then .accepting else .closing) }
  | .accept r => { s with run := some (.checking r), accepted := s.accepted ++ r.conns }
  | .check r => s.check r
  | .push c => { s with pending := (s.pending.countIn).insert c, run := some .test }
  | .pushThrows _ => { s with run := some .closing }
  | .leave => { s with inRunMethod := false, run := some .finished }
  | .getSock c =>
    { s with
      pending := (s.pending.take?.map Prod.snd).getD s.pending
      delivered := s.delivered ++ [c] }
  | .getSockThrows => s

instance (s : State) (l : Label) : Decidable (Enabled s l) := by
  cases l <;> dsimp only [Enabled] <;> infer_instance

/-- One step of a process that has not exited. -/
def Step (s : State) (l : Label) (s' : State) : Prop :=
  s.exited = false ∧ Enabled s l ∧ update s l = s'

/-- The state a step leads to, if it is possible. -/
def next? (s : State) (l : Label) : Option State :=
  if s.exited = false ∧ Enabled s l then some (update s l) else none

theorem step_of_next? (s : State) (l : Label) (s' : State) (h : next? s l = some s') :
    Step s l s' := by
  obtain ⟨⟨halive, henabled⟩, heq⟩ := Option.ite_none_right_eq_some.mp h
  exact ⟨halive, henabled, Option.some.inj heq⟩

/-! ## What the interface promises -/

/-- The connection that `run` holds between `accept` and the queue. -/
def inHand : Option RunPc → List Conn
  | some (.checking r) => r.conns
  | some (.pushing c) => [c]
  | _ => []

/-- What the interface promises of a state: the process is alive; the `start_listen` whose `bind`
or `listen` has failed throws, and a later one can start the listener; and while the factory is
listening, the accepted connections are, in their order, those that `get_sock` has returned, those
in the queue and the one that `run` is about to queue. -/
structure AsPromised (s : State) : Prop where
  alive : s.exited = false
  throws : s.failed = true → s.caller = .idle → s.threw = true
  restarts : s.failed = true → ∃ log t, Run Step s log t ∧ .launch ∈ log
  delivers : s.listening = true → s.accepted = s.delivered ++ s.pending.buffer ++ inHand s.run

/-- The condition: `bind` and `listen` succeed, and once a `stop_listen` has returned, nobody
connects to an open listener. -/
def Meets (s : State) : Label → Prop
  | .setup r => r.go = true
  | .accept (.conn _) => s.stopped = true → s.listenSock = false
  | _ => True

instance (s : State) (l : Label) : Decidable (Meets s l) := by
  cases l with
  | accept r => cases r <;> dsimp only [Meets] <;> infer_instance
  | _ => dsimp only [Meets]; infer_instance

/-! ## Every run -/

/-- The thread of `run` has not ended. -/
def active : Option RunPc → Bool
  | none => false
  | some .finished => false
  | _ => true

/-- The thread of `run` is between the two writes of `in_run_method`. -/
def inside : Option RunPc → Bool
  | some .entry => false
  | pc => active pc

/-- What holds in every run. -/
structure Threads (s : State) : Prop where
  handle : active s.run = true → s.joinable = true
  flag : inside s.run = true → s.inRunMethod = true
  shutting : s.caller = .shutting → s.joinable = false
  queue : s.stopped = true → s.pending.ready = false

theorem threads_initial : Threads State.initial := ⟨nofun, nofun, nofun, nofun⟩

section Step

variable {s s' : State} {l : Label}

theorem ready_take? {q : AbsQueue Conn} :
    ((q.take?.map Prod.snd).getD q).ready = q.ready := by
  cases htake : q.take? with
  | none => rfl
  | some taken =>
    obtain ⟨c, q'⟩ := taken
    obtain ⟨_, hq⟩ := AbsQueue.take?_eq_some htake
    show q'.ready = q.ready
    rw [hq]

/-- A closed listener ends the loop; a connection goes to the queue; an error goes either way. -/
theorem check_eq (s : State) (r : Accepted) :
    ∃ pc fault, s.check r = { s with fault := fault, run := some pc }
      ∧ ((s.listenSock = false ∧ pc = .closing)
        ∨ (s.listenSock = true ∧ ∃ c, r = .conn c ∧ pc = .pushing c)
        ∨ r.conns = [] ∧ (pc = .test ∨ pc = .closing)) := by
  unfold State.check
  cases hopen : s.listenSock with
  | false => exact ⟨.closing, 300, if_pos rfl, .inl ⟨rfl, rfl⟩⟩
  | true =>
    rw [if_neg nofun]
    cases r with
    | conn c => exact ⟨.pushing c, s.fault, rfl, .inr (.inl ⟨rfl, c, rfl, rfl⟩)⟩
    | failed e =>
      cases e with
      | other code => exact ⟨.closing, code, rfl, .inr (.inr ⟨rfl, .inr rfl⟩)⟩
      | _ => exact ⟨.test, s.fault, rfl, .inr (.inr ⟨rfl, .inl rfl⟩)⟩

/-- A step of `run` between the two writes of `in_run_method`. -/
theorem Threads.onward {pc : RunPc} (h : Threads s) (hrun : s.run = some pc)
    (hpc : inside (some pc) = true) (hflag : s'.inRunMethod = s.inRunMethod)
    (hhandle : s'.joinable = s.joinable) (hcaller : s'.caller = s.caller)
    (hstopped : s'.stopped = s.stopped) (hready : s'.pending.ready = s.pending.ready) :
    Threads s' := by
  have hactive : active (some pc) = true := by
    cases pc with
    | entry => cases hpc
    | _ => exact hpc
  refine ⟨fun _ => ?_, fun _ => ?_, ?_, ?_⟩
  · rw [hhandle]
    exact h.handle (hrun ▸ hactive)
  · rw [hflag]
    exact h.flag (hrun ▸ hpc)
  · rw [hcaller, hhandle]
    exact h.shutting
  · rw [hstopped, hready]
    exact h.queue

theorem Threads.step (h : Threads s) (hstep : Step s l s') : Threads s' := by
  obtain ⟨_, henabled, rfl⟩ := hstep
  cases l with
  | startRefused => exact h
  | launch => exact ⟨fun _ => rfl, nofun, nofun, h.queue⟩
  | poll n => exact ⟨h.handle, h.flag, nofun, h.queue⟩
  | startReturns n => exact ⟨h.handle, h.flag, nofun, h.queue⟩
  | startFails => exact ⟨h.handle, h.flag, nofun, h.queue⟩
  | stopCall => exact ⟨h.handle, h.flag, nofun, h.queue⟩
  | joined =>
    obtain ⟨_, _, hrun⟩ := henabled
    refine ⟨fun hactive => ?_, h.flag, fun _ => rfl, h.queue⟩
    have hended : active s.run = true := hactive
    rw [hrun] at hended
    cases hended
  | nothingToJoin => exact ⟨h.handle, h.flag, fun _ => henabled.2, h.queue⟩
  | stopReturns => exact ⟨h.handle, h.flag, nofun, fun _ => rfl⟩
  | enter =>
    have hrun : s.run = some .entry := henabled
    exact ⟨fun _ => h.handle (by rw [hrun]; rfl), fun _ => rfl, h.shutting, h.queue⟩
  | setup r =>
    show Threads (if r.go then _ else _)
    split
    · exact h.onward henabled rfl rfl rfl rfl rfl rfl
    · exact h.onward henabled rfl rfl rfl rfl rfl rfl
  | exit => exact ⟨h.handle, h.flag, h.shutting, h.queue⟩
  | opened => exact h.onward henabled rfl rfl rfl rfl rfl rfl
  | test => exact h.onward henabled rfl rfl rfl rfl rfl rfl
  | accept r => exact h.onward henabled rfl rfl rfl rfl rfl rfl
  | check r =>
    obtain ⟨pc, fault, hcheck, _⟩ := check_eq s r
    show Threads (s.check r)
    rw [hcheck]
    exact h.onward henabled rfl rfl rfl rfl rfl rfl
  | push c => exact h.onward henabled.1 rfl rfl rfl rfl rfl rfl
  | pushThrows c => exact h.onward henabled.1 rfl rfl rfl rfl rfl rfl
  | leave => exact ⟨nofun, nofun, h.shutting, h.queue⟩
  | getSock c =>
    refine ⟨h.handle, h.flag, h.shutting, fun hstopped => ?_⟩
    exact ready_take?.trans (h.queue hstopped)
  | getSockThrows => exact h

/-! ## Runs that meet the condition -/

/-- Nothing that was accepted is lost, doubled or out of order. -/
def Flows (s : State) : Prop :=
  s.accepted = s.delivered ++ s.pending.buffer ++ inHand s.run

/-- What holds in every run that meets the condition. -/
structure Inv (s : State) : Prop where
  threads : Threads s
  alive : s.exited = false
  unfailed : s.failed = false
  undying : s.run ≠ some .dying
  drained : s.joinable = false → s.caller ≠ .shutting → s.pending.buffer = []
  ready : s.stopped = false → s.pending.ready = true
  -- a connection that came in behind a `stop_listen` came in through a closed listener
  held : s.stopped = true →
    inHand s.run = [] ∨ s.listenSock = false ∧ ∃ r, s.run = some (.checking r)
  flow : Flows s ∨ s.joinable = false
    ∨ s.listenSock = false ∧ (s.run = some .closing ∨ s.run = some .finished)

theorem inv_initial : Inv State.initial :=
  ⟨threads_initial, rfl, rfl, nofun, fun _ _ => rfl, fun _ => rfl, nofun, .inl rfl⟩

/-- While `run` is at work. -/
theorem Inv.working {pc : RunPc} (h : Inv s) (hrun : s.run = some pc)
    (hpc : active (some pc) = true) (hclosing : pc ≠ .closing) : s.joinable = true ∧ Flows s := by
  have hhandle : s.joinable = true := h.threads.handle (hrun ▸ hpc)
  refine ⟨hhandle, h.flow.resolve_right ?_⟩
  rintro (hnone | ⟨_, hlast | hlast⟩)
  · rw [hhandle] at hnone
    cases hnone
  · exact hclosing (Option.some.inj (hrun.symm.trans hlast))
  · rw [Option.some.inj (hrun.symm.trans hlast)] at hpc
    cases hpc

/-- A step of `run` that has no connection in its hands, before or after. -/
theorem Inv.move {pc pc' : RunPc} (h : Inv s) (hrun : s.run = some pc)
    (hpc : active (some pc) = true) (hclosing : pc ≠ .closing) (hhand : inHand (some pc) = [])
    (hthreads : Threads s') (hrun' : s'.run = some pc') (hhand' : inHand (some pc') = [])
    (hundying : pc' ≠ .dying) (hexited : s'.exited = s.exited) (hfailed : s'.failed = s.failed)
    (hhandle : s'.joinable = s.joinable) (hqueue : s'.pending = s.pending)
    (hstopped : s'.stopped = s.stopped)
    (hhistory : s'.accepted = s.accepted ∧ s'.delivered = s.delivered) : Inv s' := by
  obtain ⟨hjoinable, hflow⟩ := h.working hrun hpc hclosing
  refine ⟨hthreads, hexited.trans h.alive, hfailed.trans h.unfailed, ?_, ?_, ?_, ?_, .inl ?_⟩
  · rw [hrun']
    exact fun hdying => hundying (Option.some.inj hdying)
  · rw [hhandle, hjoinable]
    exact nofun
  · rw [hstopped, hqueue]
    exact h.ready
  · exact fun _ => .inl (by rw [hrun', hhand'])
  · unfold Flows at hflow ⊢
    rw [hhistory.1, hhistory.2, hqueue, hrun', hhand', hflow, hrun, hhand]

/-- A step of `start_listen` in its waiting loop. -/
theorem Inv.call {pc : CallerPc} {threw : Bool} (h : Inv s) (hcaller : s.caller ≠ .shutting)
    (hthreads : Threads { s with caller := pc, threw := threw }) :
    Inv { s with caller := pc, threw := threw } :=
  ⟨hthreads, h.alive, h.unfailed, h.undying, fun hhandle _ => h.drained hhandle hcaller, h.ready,
    h.held, h.flow⟩

theorem Inv.stopCall (h : Inv s) (henabled : Enabled s .stopCall)
    (hthreads : Threads (update s .stopCall)) : Inv (update s .stopCall) := by
  have hcaller : s.caller = .idle := henabled
  have hdrained (hhandle : s.joinable = false) : s.pending.buffer = [] :=
    h.drained hhandle (by rw [hcaller]; exact nofun)
  -- a closed listener stays closed
  have hclosed (hopen : s.listenSock = false) :
      (if s.listening then false else s.listenSock) = false := by
    rw [hopen, ite_self]
  exact ⟨hthreads, h.alive, h.unfailed, h.undying, fun hhandle _ => hdrained hhandle, h.ready,
    fun hstopped => (h.held hstopped).imp_right fun hnow => ⟨hclosed hnow.1, hnow.2⟩,
    h.flow.imp_right fun hnow => hnow.imp_right fun hlast => ⟨hclosed hlast.1, hlast.2⟩⟩

theorem Inv.stopReturns (h : Inv s) (henabled : Enabled s .stopReturns)
    (hthreads : Threads (update s .stopReturns)) : Inv (update s .stopReturns) := by
  have hhandle : s.joinable = false := h.threads.shutting henabled
  refine ⟨hthreads, h.alive, h.unfailed, h.undying, fun _ _ => rfl, nofun, fun _ => .inl ?_,
    .inr (.inl hhandle)⟩
  -- `run` has been joined
  have hended : active s.run = false := by
    by_contra hactive
    rw [h.threads.handle (by simpa using hactive)] at hhandle
    cases hhandle
  show inHand s.run = []
  cases hrun : s.run with
  | none => rfl
  | some pc =>
    rw [hrun] at hended
    cases pc with
    | finished => rfl
    | _ => cases hended

theorem Inv.accept {r : Accepted} (h : Inv s) (henabled : Enabled s (.accept r))
    (hmeets : Meets s (.accept r)) (hthreads : Threads (update s (.accept r))) :
    Inv (update s (.accept r)) := by
  obtain ⟨hjoinable, hflow⟩ := h.working henabled rfl nofun
  refine ⟨hthreads, h.alive, h.unfailed, nofun, fun hnone => ?_, h.ready, fun hstopped => ?_,
    .inl ?_⟩
  · cases hnone.symm.trans hjoinable
  · cases r with
    | conn c => exact .inr ⟨hmeets hstopped, .conn c, rfl⟩
    | failed e => exact .inl rfl
  · have hrun : s.run = some .accepting := henabled
    unfold Flows at hflow
    rw [hrun] at hflow
    show s.accepted ++ r.conns = s.delivered ++ s.pending.buffer ++ r.conns
    rw [hflow]
    exact congrArg (· ++ r.conns) (List.append_nil _)

/-- What `accept` returned goes on to the queue, or is dropped with the listening over. -/
theorem Inv.check {r : Accepted} (h : Inv s) (henabled : Enabled s (.check r))
    (hthreads : Threads (update s (.check r))) : Inv (update s (.check r)) := by
  have hrun : s.run = some (.checking r) := henabled
  obtain ⟨hjoinable, hflow⟩ := h.working hrun rfl nofun
  obtain ⟨pc, fault, hcheck, hcases⟩ := check_eq s r
  have hupdate : update s (.check r) = { s with fault := fault, run := some pc } := hcheck
  rw [hupdate] at hthreads ⊢
  rcases hcases with ⟨hclosed, rfl⟩ | ⟨hopen, c, rfl, rfl⟩ | ⟨hnone, hpc⟩
  · -- the connection is dropped, the listening is over
    exact ⟨hthreads, h.alive, h.unfailed, nofun, h.drained, h.ready, fun _ => .inl rfl,
      .inr (.inr ⟨hclosed, .inl rfl⟩)⟩
  · refine ⟨hthreads, h.alive, h.unfailed, nofun, h.drained, h.ready, fun hstopped => ?_, .inl ?_⟩
    · rcases h.held hstopped with hhand | ⟨hclosed, _⟩
      · rw [hrun] at hhand
        cases hhand
      · cases hopen.symm.trans hclosed
    · unfold Flows at hflow ⊢
      rw [hrun] at hflow
      exact hflow
  · refine h.move hrun rfl nofun hnone hthreads rfl ?_ ?_ rfl rfl rfl rfl rfl ⟨rfl, rfl⟩
    · rcases hpc with rfl | rfl <;> rfl
    · rcases hpc with rfl | rfl <;> exact nofun

theorem Inv.push {c : Conn} (h : Inv s) (henabled : Enabled s (.push c))
    (hthreads : Threads (update s (.push c))) : Inv (update s (.push c)) := by
  obtain ⟨hjoinable, hflow⟩ := h.working henabled.1 rfl nofun
  refine ⟨hthreads, h.alive, h.unfailed, nofun, fun hnone => ?_, h.ready, fun _ => .inl rfl,
    .inl ?_⟩
  · cases hnone.symm.trans hjoinable
  · unfold Flows at hflow
    rw [henabled.1] at hflow
    show s.accepted = s.delivered ++ (s.pending.buffer ++ [c]) ++ []
    rw [hflow, List.append_nil, List.append_assoc]
    rfl

theorem Inv.leave (h : Inv s) (henabled : Enabled s .leave)
    (hthreads : Threads (update s .leave)) : Inv (update s .leave) := by
  have hrun : s.run = some .closing := henabled
  have hhand : inHand s.run = [] := by rw [hrun]; rfl
  have hjoinable : s.joinable = true := h.threads.handle (by rw [hrun]; rfl)
  refine ⟨hthreads, h.alive, h.unfailed, nofun, fun hnone => ?_, h.ready, fun _ => .inl rfl, ?_⟩
  · cases hnone.symm.trans hjoinable
  · rcases h.flow with hflow | hnone | ⟨hopen, _⟩
    · unfold Flows at hflow
      rw [hhand] at hflow
      exact .inl hflow
    · exact .inr (.inl hnone)
    · exact .inr (.inr ⟨hopen, .inr rfl⟩)

theorem Inv.getSock {c : Conn} (h : Inv s) (henabled : Enabled s (.getSock c))
    (hthreads : Threads (update s (.getSock c))) : Inv (update s (.getSock c)) := by
  obtain ⟨⟨c', q⟩, htake, hc⟩ := Option.map_eq_some_iff.mp henabled
  obtain rfl : c' = c := hc
  obtain ⟨hbuffer, _⟩ := AbsQueue.take?_eq_some htake
  have hqueue : (update s (.getSock c')).pending = q := by
    show (s.pending.take?.map Prod.snd).getD s.pending = q
    rw [htake]
    rfl
  refine ⟨hthreads, h.alive, h.unfailed, h.undying, fun hhandle hcaller => ?_, fun hnot => ?_,
    h.held, h.flow.imp_left fun hflow => ?_⟩
  · rw [h.drained hhandle hcaller] at hbuffer
    cases hbuffer
  · exact ready_take?.trans (h.ready hnot)
  · unfold Flows at hflow ⊢
    rw [hqueue]
    show s.accepted = s.delivered ++ [c'] ++ q.buffer ++ inHand s.run
    rw [hflow, hbuffer]
    simp

theorem Inv.step (h : Inv s) (hstep : Step s l s') (hmeets : Meets s l) : Inv s' := by
  have hthreads : Threads s' := h.threads.step hstep
  obtain ⟨_, henabled, rfl⟩ := hstep
  cases l with
  | startRefused => exact h
  | launch =>
    obtain ⟨hcaller, _, hhandle⟩ := henabled
    have hempty : s.pending.buffer = [] := h.drained hhandle (by rw [hcaller]; exact nofun)
    refine ⟨hthreads, h.alive, rfl, nofun, nofun, h.ready, fun _ => .inl rfl, .inl ?_⟩
    show [] = [] ++ s.pending.buffer ++ []
    rw [hempty]
    rfl
  | poll n => exact h.call (by rw [henabled.1]; exact nofun) hthreads
  | startReturns n => exact h.call (by rw [henabled.1]; exact nofun) hthreads
  | startFails =>
    have hcaller : s.caller = .polling 0 := henabled
    exact h.call (by rw [hcaller]; exact nofun) hthreads
  | stopCall => exact h.stopCall henabled hthreads
  | joined =>
    exact ⟨hthreads, h.alive, h.unfailed, h.undying, fun _ hcaller => absurd rfl hcaller, h.ready,
      h.held, .inr (.inl rfl)⟩
  | nothingToJoin =>
    exact ⟨hthreads, h.alive, h.unfailed, h.undying, fun _ hcaller => absurd rfl hcaller, h.ready,
      h.held, .inr (.inl henabled.2)⟩
  | stopReturns => exact h.stopReturns henabled hthreads
  | enter =>
    exact h.move henabled rfl nofun rfl hthreads rfl rfl nofun rfl rfl rfl rfl rfl ⟨rfl, rfl⟩
  | setup r =>
    have hsetup : update s (.setup r) = { s with run := some .opening } := if_pos hmeets
    rw [hsetup] at hthreads ⊢
    exact h.move henabled rfl nofun rfl hthreads rfl rfl nofun rfl rfl rfl rfl rfl ⟨rfl, rfl⟩
  | exit => exact absurd henabled h.undying
  | opened =>
    exact h.move henabled rfl nofun rfl hthreads rfl rfl nofun rfl rfl rfl rfl rfl ⟨rfl, rfl⟩
  | test =>
    refine h.move henabled rfl nofun rfl hthreads rfl ?_ ?_ rfl rfl rfl rfl rfl ⟨rfl, rfl⟩
    · cases s.listenSock <;> rfl
    · cases s.listenSock <;> exact nofun
  | accept r => exact h.accept henabled hmeets hthreads
  | check r => exact h.check henabled hthreads
  | push c => exact h.push henabled hthreads
  | pushThrows c =>
    obtain ⟨hrun, hready⟩ := henabled
    -- the queue is shut down by `stop_listen` only
    have hstopped : s.stopped = true := by
      by_contra hnot
      rw [h.ready (by simpa using hnot)] at hready
      cases hready
    rcases h.held hstopped with hhand | ⟨_, r, hchecking⟩
    · rw [hrun] at hhand
      cases hhand
    · cases hrun.symm.trans hchecking
  | leave => exact h.leave henabled hthreads
  | getSock c => exact h.getSock henabled hthreads
  | getSockThrows => exact h

theorem Inv.asPromised (h : Inv s) : AsPromised s := by
  refine ⟨h.alive, fun hfailed => ?_, fun hfailed => ?_, fun hlistening => ?_⟩
  · cases h.unfailed.symm.trans hfailed
  · cases h.unfailed.symm.trans hfailed
  · unfold State.listening at hlistening
    simp only [Bool.and_eq_true] at hlistening
    obtain ⟨⟨_, hjoinable⟩, hopen⟩ := hlistening
    refine h.flow.resolve_right ?_
    rintro (hnone | ⟨hclosed, _⟩)
    · cases hjoinable.symm.trans hnone
    · cases hopen.symm.trans hclosed

/-! ## Any other step -/

/-- A connection that comes in behind a `stop_listen` finds the queue shut down. -/
theorem Threads.lost {c : Conn} (h : Threads s) (halive : s.exited = false)
    (hrun : s.run = some .accepting) (hstopped : s.stopped = true) (hopen : s.listenSock = true) :
    ∃ log t, Run Step (update s (.accept (.conn c))) log t ∧ ¬ AsPromised t := by
  have hflag : s.inRunMethod = true := h.flag (by rw [hrun]; rfl)
  have hjoinable : s.joinable = true := h.handle (by rw [hrun]; rfl)
  have hlistening : s.listening = true := by
    rw [State.listening, hflag, hjoinable, hopen]
    rfl
  have hhand : inHand s.run = [] := by rw [hrun]; rfl
  by_cases hflow : Flows s
  · -- it is in nobody's hands behind the exception
    have hcheck : Step (update s (.accept (.conn c))) (.check (.conn c))
        { s with run := some (.pushing c), accepted := s.accepted ++ [c] } := by
      refine ⟨halive, rfl, if_neg fun hclosed => ?_⟩
      cases hopen.symm.trans hclosed
    have hpush : Step { s with run := some (.pushing c), accepted := s.accepted ++ [c] }
        (.pushThrows c) { s with run := some .closing, accepted := s.accepted ++ [c] } :=
      ⟨halive, ⟨rfl, h.queue hstopped⟩, rfl⟩
    refine ⟨_, _, .cons hcheck (.single hpush), fun hpromised => ?_⟩
    have hnow : s.accepted ++ [c] = s.delivered ++ s.pending.buffer ++ [] :=
      hpromised.delivers hlistening
    unfold Flows at hflow
    rw [hflow, hhand, List.append_nil] at hnow
    simp at hnow
  · refine ⟨[], _, .nil, fun hpromised => hflow ?_⟩
    have hnow : s.accepted ++ [c] = s.delivered ++ s.pending.buffer ++ [c] :=
      hpromised.delivers hlistening
    unfold Flows
    rw [hhand, List.append_nil]
    exact List.append_cancel_right hnow

theorem Threads.breaks (h : Threads s) (hstep : Step s l s') (hmeets : ¬ Meets s l) :
    ∃ log t, Run Step s' log t ∧ ¬ AsPromised t := by
  obtain ⟨halive, henabled, rfl⟩ := hstep
  cases l with
  | setup r =>
    have hsetup : update s (.setup r)
        = { s with fault := r.fault, run := some .dying, failed := true } := if_neg hmeets
    rw [hsetup]
    refine ⟨[.exit], _, .single ⟨halive, rfl, rfl⟩, fun hpromised => ?_⟩
    cases hpromised.alive
  | accept r =>
    cases r with
    | conn c =>
      have hbad : s.stopped = true ∧ s.listenSock = true := by
        have hnot : ¬ (s.stopped = true → s.listenSock = false) := hmeets
        simpa using hnot
      exact h.lost halive henabled hbad.1 hbad.2
    | failed e => exact absurd trivial hmeets
  | _ => exact absurd trivial hmeets

end Step

/-- The factory does what its interface promises in every run whose steps meet the condition, and
after any other step it may come to a state in which it does not. -/
theorem listens_as_promised (log : List Label) (s : State) :
    (Run (fun s l s' => Step s l s' ∧ Meets s l) .initial log s → AsPromised s)
      ∧ (Run Step .initial log s → ∀ l s', Step s l s' → ¬ Meets s l →
        ∃ log' t, Run Step s' log' t ∧ ¬ AsPromised t) := by
  constructor
  · intro hrun
    have hinv : Inv s := hrun.invariant (I := Inv) inv_initial
      fun _ _ _ h hstep => h.step hstep.1 hstep.2
    exact hinv.asPromised
  · intro hrun l s' hstep hmeets
    have hthreads : Threads s := hrun.invariant (I := Threads) threads_initial
      fun _ _ _ => Threads.step
    exact hthreads.breaks hstep hmeets

/-! ## Three runs -/

/-- The state a step leads to, if it is possible and meets the condition. -/
def nextMet? (s : State) (l : Label) : Option State :=
  if Meets s l then next? s l else none

theorem step_of_nextMet? (s : State) (l : Label) (s' : State) (h : nextMet? s l = some s') :
    Step s l s' ∧ Meets s l := by
  obtain ⟨hmeets, hnext⟩ := Option.ite_none_right_eq_some.mp h
  exact ⟨step_of_next? s l s' hnext, hmeets⟩

/-- A start that finds its port free. -/
def started : List Label :=
  [.launch, .enter, .setup (.results false false), .opened, .startReturns 98, .test]

/-- A first listening period with one connection. -/
def firstPeriod : List Label :=
  started ++ [.accept (.conn 7), .check (.conn 7), .push 7, .test, .getSock 7]

/-- A start that finds its port in use: `bind` fails. -/
def busyPort : List Label := [.launch, .enter, .setup (.results true false), .exit]

/-- A start, a stop, a second start, and then the connection. -/
def restarted : List Label :=
  started ++ [.stopCall, .accept (.failed (.other 22)), .check (.failed (.other 22)), .leave,
    .joined, .stopReturns] ++ started ++ [.accept (.conn 7), .check (.conn 7), .pushThrows 7]

/-- `listens_as_promised` on the first listening period. -/
theorem listens_as_promised_first :
    ∃ s, Run (fun s l s' => Step s l s' ∧ Meets s l) .initial firstPeriod s
      ∧ s.delivered = [7] ∧ AsPromised s := by
  obtain ⟨s, hexec, hdelivered⟩ : ∃ s, Run.exec nextMet? .initial firstPeriod = some s
      ∧ s.delivered = [7] := ⟨_, rfl, rfl⟩
  have hrun := Run.of_exec step_of_nextMet? hexec
  exact ⟨s, hrun, hdelivered, (listens_as_promised _ s).1 hrun⟩

/-- A start on a port in use ends the process, and a connection to a restarted listener is lost. -/
theorem restart_loses :
    (∃ s, Run Step .initial busyPort s ∧ ¬ AsPromised s)
      ∧ ∃ s, Run Step .initial restarted s ∧ ¬ AsPromised s := by
  constructor
  · obtain ⟨s, hexec, hexited⟩ : ∃ s, Run.exec next? .initial busyPort = some s
        ∧ s.exited = true := ⟨_, rfl, rfl⟩
    refine ⟨s, Run.of_exec step_of_next? hexec, fun hpromised => ?_⟩
    cases hpromised.alive.symm.trans hexited
  · obtain ⟨s, hexec, hlistening, haccepted, hnowhere⟩ : ∃ s,
        Run.exec next? .initial restarted = some s ∧ s.listening = true ∧ s.accepted = [7]
          ∧ s.delivered ++ s.pending.buffer ++ inHand s.run = [] := ⟨_, rfl, rfl, rfl, rfl⟩
    refine ⟨s, Run.of_exec step_of_next? hexec, fun hpromised => ?_⟩
    have hlost := hpromised.delivers hlistening
    rw [haccepted, hnowhere] at hlost
    cases hlost

end Nrtb.SocketFactory
