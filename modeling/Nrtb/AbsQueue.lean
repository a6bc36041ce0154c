import Nrtb.Lib.CInt
import Mathlib.Data.List.Basic

/-!
# `abs_queue`

`cpp/common/abs_queue/abs_queue.h`: the data of a queue, and the pieces of its methods that run as
one atomic operation or one critical section. `in_count` and `completed` are atomic and change
outside `mylock`, so that a `push` is two such pieces, `countIn` and `insert`, with room for other
threads between them; what `pop` does behind its wait is one, `take?`.

The counters are `int`s in the source. They are kept as exact numbers here, so that an invariant can
say how many items went in, and `sameInt` compares them as the `int`s that they are: `join` takes
two counts for equal that are `2 ^ 32` apart. `size` returns the length cut down to an `int` as
well. The threads are elsewhere: `QueueThreads` and `QueueWakeups` interleave the pieces in any way,
and `WorkPhase` has them in the order in which `sim_core` calls them.
-/

namespace Nrtb

/-- `abs_queue<T,queue_t>`, without its mutexes and condition variables. -/
structure AbsQueue (α : Type*) where
  buffer : List α
  inCount : Nat
  outCount : Nat
  completed : Nat
  ready : Bool
  blocked : Bool

namespace AbsQueue

variable {α : Type*}

/-- Two counts that are equal as `int`s, which wrap around. -/
def sameInt (a b : Nat) : Bool := a % 2 ^ 32 == b % 2 ^ 32

theorem eq_of_sameInt {a b : Nat} (h : sameInt a b = true) (hle : a ≤ b) (hlt : b < a + 2 ^ 32) :
    a = b := by
  have hmod : a % 2 ^ 32 = b % 2 ^ 32 := by simpa [sameInt] using h
  omega

/-- A queue as its constructor leaves it. -/
def empty : AbsQueue α := ⟨[], 0, 0, 0, true, false⟩

/-- `push`: `in_count++` -/
def countIn (q : AbsQueue α) : AbsQueue α := { q with inCount := q.inCount + 1 }

/-- `push`: the insertion under `mylock`. -/
def insert (q : AbsQueue α) (item : α) : AbsQueue α := { q with buffer := q.buffer ++ [item] }

/-- `pop`: the condition of the waiting loop. -/
def mustWait (q : AbsQueue α) : Bool := (q.buffer.isEmpty && q.ready) || (q.blocked && q.ready)

/-- `pop`: the front item, taken under `mylock`. -/
def take? (q : AbsQueue α) : Option (α × AbsQueue α) :=
  if q.ready then
    match q.buffer with
    | [] => none
    | item :: rest => some (item, { q with buffer := rest, outCount := q.outCount + 1 })
  else none

/-- `task_done`: `completed++` -/
def complete (q : AbsQueue α) : AbsQueue α := { q with completed := q.completed + 1 }

/-- `join`: the condition of the waiting loop fails. -/
def drained (q : AbsQueue α) : Bool := sameInt q.completed q.inCount

/-- `hold` -/
def hold (q : AbsQueue α) : AbsQueue α := { q with blocked := true }

/-- `release`, without the notification. -/
def release (q : AbsQueue α) : AbsQueue α := { q with blocked := false }

/-- `shutdown`: what it does under `mylock`. -/
def shutdown (q : AbsQueue α) : AbsQueue α := { q with ready := false, buffer := [] }

/-- `size`: the number of items, as an `int`. -/
def size (q : AbsQueue α) : Int := CInt.toInt q.buffer.length

theorem mustWait_eq {q : AbsQueue α} (hready : q.ready = true) (hblocked : q.blocked = false) :
    q.mustWait = q.buffer.isEmpty := by
  simp [mustWait, hready, hblocked]

theorem take?_eq_some {q q' : AbsQueue α} {item : α} (h : q.take? = some (item, q')) :
    q.buffer = item :: q'.buffer
      ∧ q' = { q with buffer := q'.buffer, outCount := q.outCount + 1 } := by
  unfold take? at h
  split at h
  · cases hbuffer : q.buffer with
    | nil => rw [hbuffer] at h; cases h
    | cons x rest =>
      rw [hbuffer] at h
      obtain ⟨rfl, rfl⟩ := Prod.mk.inj (Option.some.inj h)
      exact ⟨rfl, rfl⟩
  · cases h

theorem ready_of_take? {q q' : AbsQueue α} {item : α} (h : q.take? = some (item, q')) :
    q.ready = true := by
  by_contra hready
  rw [take?, if_neg hready] at h
  cases h

end AbsQueue

end Nrtb
