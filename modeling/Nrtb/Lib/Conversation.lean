import Nrtb.Lib.TransitionSystem

/-!
# Conversations of a client with a server

A client that sends messages to a server and waits for answers, over two channels that keep the
order. A message changes the settings of the server and may be answered, with what the server sees
at that moment. A client knows its answers by their order only: it takes the next message for the
answer to the last request it made.

That works as long as there is one request under way at a time. Both parties are parameters, and
what a program has to show of them is local: of the server what it answers to each message, of the
client what it sends for each message it receives. The rest is an induction over the run, whose
invariant is about what is in the two channels.

* `InStep.step`: a client of which every reaction makes one request, and all whose other messages
  have no answer, takes every message for what it is (`Polite`, `InStep.received`).
* `Agrees.step`: what is under way takes the settings to what the client has in mind (`Knows`).
* `InStep.pending`: something is always under way, so that the conversation does not come to a halt.
-/

namespace Nrtb.Conversation

variable {σ τ μ ρ ω : Type*}

structure Client (σ μ ρ : Type*) where
  -- the state, and what is sent
  react : σ → ρ → σ × List μ

structure Server (τ μ ρ ω : Type*) where
  effect : τ → μ → τ
  answers : ω → μ → List ρ
  -- what it can see
  sees : ω → Prop

structure Talk (σ τ μ ρ : Type*) where
  client : σ
  settings : τ
  -- on the way to the server
  up : List μ
  -- on the way to the client
  down : List ρ

inductive Label (ω ρ : Type*) where
  -- the server handles a message, and sees this
  | handles (v : ω)
  | receives (r : ρ)

/-- What the server has seen when it handled the last message. -/
def Label.seen (v : ω) : Label ω ρ → ω
  | handles v' => v'
  | receives _ => v

inductive Step (client : Client σ μ ρ) (server : Server τ μ ρ ω) :
    Talk σ τ μ ρ → Label ω ρ → Talk σ τ μ ρ → Prop
  | handles (s : σ) (t : τ) (q : μ) (up : List μ) (down : List ρ) (v : ω) (hv : server.sees v) :
      Step client server ⟨s, t, q :: up, down⟩ (.handles v)
        ⟨s, server.effect t q, up, down ++ server.answers v q⟩
  | receives (s : σ) (t : τ) (up : List μ) (r : ρ) (down : List ρ) :
      Step client server ⟨s, t, up, r :: down⟩ (.receives r)
        ⟨(client.react s r).1, t, up ++ (client.react s r).2, down⟩

section InStep

variable {client : Client σ μ ρ} {server : Server τ μ ρ ω} {expects : σ → ω → ρ → Prop}
  {v : ω} {w w' : Talk σ τ μ ρ} {l : Label ω ρ}

/-- A message without an answer. -/
def Silent (server : Server τ μ ρ ω) (q : μ) : Prop := ∀ v, server.answers v q = []

/-- A request has one answer, which is what the client expects in this state of what the server
sees. -/
def Requests (server : Server τ μ ρ ω) (expects : σ → ω → ρ → Prop) (s : σ) (q : μ) : Prop :=
  ∀ v, server.sees v → ∃ r, server.answers v q = [r] ∧ expects s v r

/-- Some messages without an answer, and a request. -/
def Ends (server : Server τ μ ρ ω) (expects : σ → ω → ρ → Prop) (s : σ) (up : List μ) : Prop :=
  ∃ silent q, up = silent ++ [q] ∧ (∀ m ∈ silent, Silent server m) ∧ Requests server expects s q

/-- A client that goes on with one request whenever it gets what it expects. -/
def Polite (client : Client σ μ ρ) (server : Server τ μ ρ ω) (expects : σ → ω → ρ → Prop) : Prop :=
  ∀ s v r, expects s v r → Ends server expects (client.react s r).1 (client.react s r).2

/-- Either the answer that the client waits for is on its way, and nothing else, or the request.
The answer is about what the server has seen when it handled the last message. -/
def InStep (server : Server τ μ ρ ω) (expects : σ → ω → ρ → Prop) (v : ω)
    (w : Talk σ τ μ ρ) : Prop :=
  (w.up = [] ∧ ∃ r, w.down = [r] ∧ expects w.client v r)
    ∨ (w.down = [] ∧ Ends server expects w.client w.up)

theorem InStep.step (hpolite : Polite client server expects) (h : InStep server expects v w)
    (hstep : Step client server w l w') : InStep server expects (l.seen v) w' := by
  cases hstep with
  | handles s t q up down v' hv =>
    rcases h with ⟨hup, _⟩ | ⟨hdown, silent, q', hup, hsilent, hrequest⟩
    · cases hup
    · obtain rfl : down = [] := hdown
      cases silent with
      | nil =>
        -- the request
        obtain ⟨rfl, rfl⟩ := List.cons.inj hup
        obtain ⟨r, hanswer, hr⟩ := hrequest v' hv
        exact .inl ⟨rfl, r, hanswer, hr⟩
      | cons m silent =>
        obtain ⟨rfl, rfl⟩ := List.cons.inj hup
        refine .inr ⟨hsilent q (by simp) v', silent, q', rfl, fun m hm => ?_, hrequest⟩
        exact hsilent m (List.mem_cons_of_mem q hm)
  | receives s t up r down =>
    rcases h with ⟨hup, r', hdown, hr⟩ | ⟨hdown, _⟩
    · obtain ⟨rfl, rfl⟩ := List.cons.inj hdown
      obtain rfl : up = [] := hup
      exact .inr ⟨rfl, hpolite s v r hr⟩
    · cases hdown

/-- What the client receives in step is what it expects. -/
theorem InStep.received {r : ρ} (h : InStep server expects v w)
    (hstep : Step client server w (.receives r) w') : expects w.client v r := by
  cases hstep with
  | receives s t up r down =>
    rcases h with ⟨_, r', hdown, hr⟩ | ⟨hdown, _⟩
    · obtain ⟨rfl, _⟩ := List.cons.inj hdown
      exact hr
    · cases hdown

/-- In step, something is under way. -/
theorem InStep.pending (h : InStep server expects v w) : w.up ≠ [] ∨ w.down ≠ [] := by
  rcases h with ⟨_, r, hdown, _⟩ | ⟨_, silent, q, hup, _, _⟩
  · rw [hdown]
    exact .inr (by simp)
  · rw [hup]
    exact .inl (by simp)

/-! ## Settings -/

/-- What the client has sent takes the settings to what it has in mind. -/
def Agrees (server : Server τ μ ρ ω) (intends : σ → τ → Prop) (w : Talk σ τ μ ρ) : Prop :=
  intends w.client (w.up.foldl server.effect w.settings)

/-- A client that knows what its messages do. -/
def Knows (client : Client σ μ ρ) (server : Server τ μ ρ ω) (expects : σ → ω → ρ → Prop)
    (intends : σ → τ → Prop) : Prop :=
  ∀ s v r t, expects s v r → intends s t →
    intends (client.react s r).1 ((client.react s r).2.foldl server.effect t)

theorem Agrees.step {intends : σ → τ → Prop} (hknows : Knows client server expects intends)
    (hinstep : InStep server expects v w) (h : Agrees server intends w)
    (hstep : Step client server w l w') : Agrees server intends w' := by
  cases hstep with
  | handles s t q up down v' hv => exact h
  | receives s t up r down =>
    have hr := hinstep.received (.receives s t up r down : Step client server _ _ _)
    show intends _ ((up ++ _).foldl _ _)
    rw [List.foldl_append]
    exact hknows s v r _ hr h

end InStep

end Nrtb.Conversation
