import Nrtb.HirezTimer
import Nrtb.Lib.TransitionSystem

/-!
# The pace of the turns

`sim_core::run_sim` (`cpp/sim_engine/sim_core/sim_core.cpp`, lines 419–462) with its two
`hirez_timer`s (`cpp/common/timer/hires_timer.cpp`, lines 32–58 and 106–141): how long a turn
sleeps. Times are microseconds of a clock that does not go back.

A turn should sleep until its own end by the wall clock, so that a turn whose sleep was too long is
made up for by the next ones. `tosleep` is a difference of unsigned numbers: when the wall clock has
passed `nexttime` it wraps around, and what is checked before, the time that this turn has taken,
does not exclude that. What `usleep` gets is cut down to 32 bits once more.

* `PacingInv.step`: what the turns so far have left in the timers and in `nexttime`.
* `paced_of_run`: when a turn is in time, its `tosleep` is what is left of it, and its sleep does
  not end before the next turn begins by the wall clock.
* `pacing_iff`: every `tosleep` of a run is right when every turn of it is in time, and only then.
-/

namespace Nrtb

namespace SimCore

/-! ## The turns -/

/-- What `run_sim` paces its turns with. -/
structure Pacing where
  wallclock : HirezTimer
  turnclock : HirezTimer
  ticks : UInt64
  nexttime : UInt64
  -- the time
  now : Nat

/-- Before the first turn; the timers are started one after the other. -/
def Pacing.start (ticks : UInt64) (began now : Nat) : Pacing :=
  ⟨.new began, .new now, ticks, ticks, now⟩

/-- The times at which a turn reads the clock and wakes up, and how long it means to sleep. -/
structure Turn where
  -- `turnclock.start()`
  began : Nat
  -- `turnclock.interval_as_usec()`
  measured : Nat
  -- `wallclock.interval_as_usec()`
  read : Nat
  tosleep : UInt64
  -- `usleep` returns
  woke : Nat

/-- What `usleep` gets of its argument: a `useconds_t` has 32 bits. -/
def useconds (tosleep : UInt64) : Nat := tosleep.toUInt32.toNat

/-- A turn without an overrun, whose `usleep` sleeps as long as it is told to, or longer. -/
inductive PaceStep : Pacing → Turn → Pacing → Prop
  | turn (s : Pacing) (r : Turn) (hbegan : s.now ≤ r.began) (hmeasured : r.began ≤ r.measured)
      (hread : r.measured ≤ r.read)
      (helapsed : (s.turnclock.reset.start r.began).intervalTime r.measured < s.ticks)
      (htosleep : r.tosleep = s.nexttime - s.wallclock.intervalTime r.read)
      (hwoke : r.read + useconds r.tosleep ≤ r.woke) :
      PaceStep s r
        { s with
          turnclock := s.turnclock.reset.start r.began
          nexttime := s.nexttime + s.ticks
          now := r.woke }

variable (ticks : UInt64) (began : Nat)

/-- `tosleep` is the time that is left until `nexttime`, and no more than `ticks`; `i` turns came
before. -/
def Paced (i : Nat) (r : Turn) : Prop :=
  (r.tosleep.toNat : Int) = ((i + 1) * ticks.toNat : Nat) - (r.read - began : Int)
    ∧ r.tosleep ≤ ticks

/-- The wall clock is read before `nexttime`, and, when the sleeps are too long for `usleep`, not
before the one of the turn before. -/
def InTime (i : Nat) (r : Turn) : Prop :=
  r.read ≤ began + (i + 1) * ticks.toNat
    ∧ (2 ^ 32 ≤ ticks.toNat → began + i * ticks.toNat ≤ r.read)

variable {ticks began}

/-- What the turns so far have left in the state. -/
structure PacingInv (ticks : UInt64) (began : Nat) (turns : List Turn) (s : Pacing) : Prop where
  wallclock : s.wallclock = .new began
  ticks_eq : s.ticks = ticks
  nexttime : s.nexttime = .ofNat ((turns.length + 1) * ticks.toNat)
  now : began ≤ s.now

theorem PacingInv.start {now : Nat} (h : began ≤ now) :
    PacingInv ticks began [] (.start ticks began now) :=
  ⟨rfl, rfl, by simp [Pacing.start], h⟩

variable {turns : List Turn} {s s' : Pacing} {r : Turn}

theorem PacingInv.step (h : PacingInv ticks began turns s) (hstep : PaceStep s r s') :
    PacingInv ticks began (turns ++ [r]) s' := by
  obtain ⟨hwallclock, hticks, hnexttime, hnow⟩ := h
  cases hstep with
  | turn hbegan hmeasured hread helapsed htosleep hwoke =>
    refine ⟨hwallclock, hticks, ?_, by simp only; omega⟩
    have hsum : (turns.length + 1 + 1) * ticks.toNat
        = (turns.length + 1) * ticks.toNat + ticks.toNat := Nat.succ_mul _ _
    simp only [hnexttime, hticks, List.length_append, List.length_singleton, hsum,
      UInt64.ofNat_add, UInt64.ofNat_toNat]

/-- A turn in time sleeps until `nexttime`. -/
theorem PacingInv.paced_iff (h : PacingInv ticks began turns s) (hstep : PaceStep s r s')
    (hearly : began + turns.length * ticks.toNat ≤ r.read) :
    Paced ticks began turns.length r ↔ r.read ≤ began + (turns.length + 1) * ticks.toNat := by
  obtain ⟨hwallclock, hticks, hnexttime, hnow⟩ := h
  cases hstep with
  | turn hbegan hmeasured hread helapsed htosleep hwoke =>
    have hle : began ≤ r.read := by omega
    rw [hwallclock, hnexttime, HirezTimer.intervalTime_new hle] at htosleep
    constructor
    · rintro ⟨hleft, _⟩
      omega
    · intro hlate
      have hdue : (turns.length + 1) * ticks.toNat
          = turns.length * ticks.toNat + ticks.toNat := Nat.succ_mul _ _
      have hsmall : (turns.length + 1) * ticks.toNat - (r.read - began) ≤ ticks.toNat := by omega
      rw [← UInt64.ofNat_sub (by omega)] at htosleep
      have hleft : r.tosleep.toNat = (turns.length + 1) * ticks.toNat - (r.read - began) := by
        rw [htosleep, UInt64.toNat_ofNat', Nat.mod_eq_of_lt]
        exact lt_of_le_of_lt hsmall ticks.toNat_lt
      refine ⟨by omega, ?_⟩
      rw [UInt64.le_iff_toNat_le, hleft]
      exact hsmall

/-- What the sleep of a turn in time leaves for the next one. -/
theorem Paced.woke (hstep : PaceStep s r s') (hpaced : Paced ticks began turns.length r)
    (hticks : ticks.toNat < 2 ^ 32) : began + (turns.length + 1) * ticks.toNat ≤ s'.now := by
  obtain ⟨hleft, hle⟩ := hpaced
  rw [UInt64.le_iff_toNat_le] at hle
  cases hstep with
  | turn hbegan hmeasured hread helapsed htosleep hwoke =>
    -- the whole of `tosleep` gets through to `usleep`
    have huseconds : useconds r.tosleep = r.tosleep.toNat := by
      rw [useconds, UInt64.toNat_toUInt32, Nat.mod_eq_of_lt (lt_of_le_of_lt hle hticks)]
    simp only
    omega

theorem Paced.inTime {i : Nat} (h : Paced ticks began i r) : InTime ticks began i r := by
  obtain ⟨hleft, hle⟩ := h
  rw [UInt64.le_iff_toNat_le] at hle
  have hdue : (i + 1) * ticks.toNat = i * ticks.toNat + ticks.toNat := Nat.succ_mul _ _
  exact ⟨by omega, fun _ => by omega⟩

theorem pacingInv_of_run {now : Nat} (hnow : began ≤ now)
    (hrun : Run PaceStep (.start ticks began now) turns s) : PacingInv ticks began turns s :=
  hrun.history (P := PacingInv ticks began) (.start hnow) fun _ _ _ _ => PacingInv.step

/-- A property of the items of a list and their positions, with one more item at the end. -/
theorem forall_getElem?_snoc {α : Type*} {P : Nat → α → Prop} {xs : List α} {x : α}
    (h : ∀ i y, (xs ++ [x])[i]? = some y → P i y) :
    (∀ i y, xs[i]? = some y → P i y) ∧ P xs.length x := by
  constructor
  · intro i y hy
    have hlt := (List.getElem?_eq_some_iff.mp hy).1
    exact h i y ((List.getElem?_append_left hlt).trans hy)
  · exact h xs.length x (by simp)

/-- In a run whose turns are in time every `tosleep` is right, and the next turn does not begin
early. -/
theorem paced_of_run {now : Nat} (hnow : began ≤ now)
    (hrun : Run PaceStep (.start ticks began now) turns s)
    (hintime : ∀ i r, turns[i]? = some r → InTime ticks began i r) :
    (∀ i r, turns[i]? = some r → Paced ticks began i r)
      ∧ (ticks.toNat < 2 ^ 32 → began + turns.length * ticks.toNat ≤ s.now) := by
  induction hrun with
  | nil => exact ⟨nofun, fun _ => by simpa [Pacing.start] using hnow⟩
  | @snoc turns s s' r hbefore hstep ih =>
    obtain ⟨hearlier, hlast⟩ := forall_getElem?_snoc hintime
    obtain ⟨hpaced, hnext⟩ := ih hearlier
    have hread : s.now ≤ r.read := by
      cases hstep
      omega
    have hearly : began + turns.length * ticks.toNat ≤ r.read := by
      rcases Nat.lt_or_ge ticks.toNat (2 ^ 32) with hsmall | hlarge
      · exact (hnext hsmall).trans hread
      · exact hlast.2 hlarge
    have hnow' : Paced ticks began turns.length r :=
      ((pacingInv_of_run hnow hbefore).paced_iff hstep hearly).mpr hlast.1
    constructor
    · intro i y hy
      rcases Nat.lt_or_ge i turns.length with hlt | hge
      · exact hpaced i y ((List.getElem?_append_left hlt).symm.trans hy)
      · rw [List.getElem?_append_right hge, List.getElem?_singleton] at hy
        split at hy
        · obtain rfl : i = turns.length := by omega
          obtain rfl := Option.some.inj hy
          exact hnow'
        · cases hy
    · intro hsmall
      rw [List.length_append, List.length_singleton]
      exact hnow'.woke hstep hsmall

/-- Every `tosleep` of a run is the time that is left, and at most `ticks`, exactly when the turns
are in time. The difference is taken in an unsigned type, in which a turn that is late asks for a
sleep of ages. -/
theorem pacing_iff (ticks : UInt64) (began now : Nat) (hnow : began ≤ now) {turns : List Turn}
    {s : Pacing} (hrun : Run PaceStep (.start ticks began now) turns s) :
    (∀ i r, turns[i]? = some r → Paced ticks began i r)
      ↔ ∀ i r, turns[i]? = some r → InTime ticks began i r :=
  ⟨fun hpaced i r hr => (hpaced i r hr).inTime,
    fun hintime => (paced_of_run hnow hrun hintime).1⟩

/-- The first turn at 50 Hz: 100 microseconds of work, and a sleep that ends 5 milliseconds into
the turn after the next. -/
def firstTurn : Turn := ⟨0, 100, 120, 19880, 45000⟩

/-- The second turn: the wall clock is past its end. -/
def secondTurn : Turn := ⟨45000, 45100, 45120, 18446744073709546496, 4295007296⟩

def overslept : Pacing := ⟨.new 0, .new 0, 20000, 40000, 45000⟩

theorem run_firstTurn : Run PaceStep (.start 20000 0 0) [firstTurn] overslept :=
  .single (.turn (.start 20000 0 0) firstTurn (by decide) (by decide) (by decide) (by decide)
    (by decide) (by decide))

/-- The sleep wraps, although both turns take 100 microseconds of 20000. -/
theorem oversleep_wraps : ∃ s, Run PaceStep (.start 20000 0 0) [firstTurn, secondTurn] s
    ∧ secondTurn.tosleep.toNat = 2 ^ 64 - 5120 ∧ useconds secondTurn.tosleep = 2 ^ 32 - 5120
    ∧ ¬ Paced 20000 0 1 secondTurn := by
  have hsecond : PaceStep overslept secondTurn _ :=
    .turn overslept secondTurn (by decide) (by decide) (by decide) (by decide) (by decide)
      (by decide)
  exact ⟨_, run_firstTurn.snoc hsecond, rfl, by decide, fun h => absurd h.2 (by decide)⟩

/-- Two turns at 50 Hz. The sleep of the first one ends 3 milliseconds into the second one, which
sleeps for so much less. -/
def lateTurn : Turn := ⟨0, 100, 120, 19880, 23000⟩

def shortTurn : Turn := ⟨23000, 23100, 23120, 16880, 40010⟩

theorem run_shortTurn : ∃ s, Run PaceStep (.start 20000 0 0) [lateTurn, shortTurn] s := by
  have hlate : PaceStep (.start 20000 0 0) lateTurn ⟨.new 0, .new 0, 20000, 40000, 23000⟩ :=
    .turn (.start 20000 0 0) lateTurn (by decide) (by decide) (by decide) (by decide) (by decide)
      (by decide)
  have hshort : PaceStep ⟨.new 0, .new 0, 20000, 40000, 23000⟩ shortTurn _ :=
    .turn _ shortTurn (by decide) (by decide) (by decide) (by decide) (by decide) (by decide)
  exact ⟨_, (Run.single hlate).snoc hshort⟩

theorem pacing_iff_shortTurn : Paced 20000 0 0 lateTurn ∧ Paced 20000 0 1 shortTurn := by
  obtain ⟨s, hrun⟩ := run_shortTurn
  have hpaced := (pacing_iff 20000 0 0 le_rfl hrun).mpr fun i r hr => by
    rcases i with _ | _ | i
    · obtain rfl := Option.some.inj hr
      exact ⟨by decide, fun h => absurd h (by decide)⟩
    · obtain rfl := Option.some.inj hr
      exact ⟨by decide, fun h => absurd h (by decide)⟩
    · cases hr
  exact ⟨hpaced 0 lateTurn rfl, hpaced 1 shortTurn rfl⟩

end SimCore

end Nrtb
