import Nrtb.Lib.CInt
import Nrtb.Lib.Ieee
import Mathlib.Algebra.Order.Floor.Ring
import Mathlib.Data.Rat.Floor
import Mathlib.Data.UInt

/-!
# `hirez_timer`

`cpp/common/timer/hires_timer.cpp`, lines 26–141. Times are microseconds of a clock that does not go
back; the counters of a timer are unsigned and wrap around. A `double` is a number of an ordered
field, with the rounding of its format.

A timer that is started and stopped any number of times should show the time for which it ran, on
top of what it was constructed with. What calls add to a timer does not depend on what it shows
before, modulo `2 ^ 64`, so that the sum over a run is an induction on its calls; a call that comes
twice in a row, a start of a running timer or a stop of another one, changes nothing. What is left
are the constructors. One of them seeds the counter with its argument, and the one from a `timeval`
stores its argument as the time of the start.

* `intervalTime_new`: what a timer says that was started once.
* `intervalTime_run`: what is added by any calls.
* `accumulates_iff`: when a timer says its initial value and the time it has run.
-/

namespace Nrtb

structure Timeval where
  tv_sec : Int
  tv_usec : Int
deriving DecidableEq, Repr

/-- `gettimeofday` -/
def gettimeofday (now : Nat) : Timeval := ⟨(now / 1000000 : Nat), (now % 1000000 : Nat)⟩

structure HirezTimer where
  starttime : UInt64
  elapsed : UInt64
  running : Bool
deriving DecidableEq, Repr

namespace HirezTimer

/-- `tv_to_ll` -/
def tvToLl (tv : Timeval) : UInt64 := .ofInt tv.tv_sec * 1000000 + .ofInt tv.tv_usec

def reset (_ : HirezTimer) : HirezTimer := ⟨0, 0, false⟩

/-- `start()`, without a time to begin with. -/
def start (timer : HirezTimer) (now : Nat) : HirezTimer :=
  if timer.running then timer
  else { timer with starttime := tvToLl (gettimeofday now), running := true }

/-- The constructor, which starts the timer. -/
def new (now : Nat) : HirezTimer := start ⟨0, 0, false⟩ now

/-- `interval_time`, which is what `interval_as_usec` returns. -/
def intervalTime (timer : HirezTimer) (now : Nat) : UInt64 :=
  if timer.running then timer.elapsed + (tvToLl (gettimeofday now) - timer.starttime)
  else timer.elapsed

theorem tvToLl_eq (tv : Timeval) : tvToLl tv = .ofInt (tv.tv_sec * 1000000 + tv.tv_usec) := by
  rw [UInt64.ofInt_add, UInt64.ofInt_mul]
  rfl

theorem ofInt_natCast (n : Nat) : UInt64.ofInt n = .ofNat n := by
  rw [UInt64.ofInt, ← UInt64.toNat_inj, UInt64.toNat_ofNat', UInt64.toNat_ofNat']
  omega

theorem tvToLl_gettimeofday (now : Nat) : tvToLl (gettimeofday now) = .ofNat now := by
  have hnow : ((now / 1000000 : Nat) : Int) * 1000000 + (now % 1000000 : Nat) = now := by
    omega
  rw [tvToLl_eq]
  show UInt64.ofInt (((now / 1000000 : Nat) : Int) * 1000000 + (now % 1000000 : Nat)) = _
  rw [hnow, ofInt_natCast]

theorem intervalTime_of_running {timer : HirezTimer} (h : timer.running = true) (now : Nat) :
    timer.intervalTime now = timer.elapsed + (.ofNat now - timer.starttime) := by
  rw [intervalTime, if_pos h, tvToLl_gettimeofday]

theorem intervalTime_of_stopped {timer : HirezTimer} (h : timer.running = false) (now : Nat) :
    timer.intervalTime now = timer.elapsed := by
  rw [intervalTime, if_neg (by rw [h]; decide)]

/-- A timer that was started says how long ago that was. -/
theorem intervalTime_new {began now : Nat} (h : began ≤ now) :
    (new began).intervalTime now = .ofNat (now - began) := by
  have hnew : (new began).intervalTime now
      = 0 + (tvToLl (gettimeofday now) - tvToLl (gettimeofday began)) := rfl
  rw [hnew, tvToLl_gettimeofday, tvToLl_gettimeofday, UInt64.zero_add, UInt64.ofNat_sub h]

/-! ## Calls, one after the other -/

/-- `stop_timer` -/
def stopTimer (timer : HirezTimer) (now : Nat) : HirezTimer :=
  let timer := if timer.running then
      { timer with elapsed := timer.elapsed + (tvToLl (gettimeofday now) - timer.starttime) }
    else timer
  { timer with running := false }

inductive Call where
  | start
  | stop
  | interval
deriving DecidableEq, Repr

/-- A call and the time at which it reads the clock. -/
def perform (timer : HirezTimer) (call : Call × Nat) : HirezTimer :=
  match call.1 with
  | .start => timer.start call.2
  | .stop => timer.stopTimer call.2
  | .interval => timer

def run (timer : HirezTimer) (calls : List (Call × Nat)) : HirezTimer := calls.foldl perform timer

/-- Whether the timer runs after a call. -/
def Call.leaves (running : Bool) : Call → Bool
  | start => true
  | stop => false
  | interval => running

/-- Whether the timer runs after some calls. -/
def runs (running : Bool) (calls : List (Call × Nat)) : Bool :=
  calls.foldl (fun running call => call.1.leaves running) running

/-- How long the timer runs from `since` to `now`, with these calls in between. -/
def ran (running : Bool) (since : Nat) : List (Call × Nat) → Nat → Nat
  | [], now => if running then now - since else 0
  | call :: calls, now =>
    (if running then call.2 - since else 0) + ran (call.1.leaves running) call.2 calls now

/-- The clock does not go back. -/
def Timely (since : Nat) : List (Call × Nat) → Nat → Prop
  | [], now => since ≤ now
  | call :: calls, now => since ≤ call.2 ∧ Timely call.2 calls now

theorem running_perform (timer : HirezTimer) (call : Call × Nat) :
    (timer.perform call).running = call.1.leaves timer.running := by
  unfold perform
  cases call.1 with
  | start =>
    show (timer.start call.2).running = true
    unfold start
    split
    · assumption
    · rfl
  | stop => rfl
  | interval => rfl

theorem intervalTime_start (timer : HirezTimer) (now : Nat) :
    (timer.start now).intervalTime now = timer.intervalTime now := by
  unfold start
  cases hrunning : timer.running with
  | true => rw [if_pos rfl]
  | false =>
    rw [if_neg Bool.false_ne_true, intervalTime_of_running rfl, intervalTime_of_stopped hrunning,
      tvToLl_gettimeofday, UInt64.sub_self, UInt64.add_zero]

theorem intervalTime_stopTimer (timer : HirezTimer) (now : Nat) :
    (timer.stopTimer now).intervalTime now = timer.intervalTime now := by
  unfold stopTimer
  cases hrunning : timer.running with
  | true =>
    rw [if_pos rfl, intervalTime_of_stopped rfl, intervalTime_of_running hrunning,
      tvToLl_gettimeofday]
  | false => rw [if_neg Bool.false_ne_true, intervalTime_of_stopped rfl,
      intervalTime_of_stopped hrunning]

/-- No call changes what the timer says at the time of it. -/
theorem intervalTime_perform (timer : HirezTimer) (call : Call × Nat) :
    (timer.perform call).intervalTime call.2 = timer.intervalTime call.2 := by
  unfold perform
  cases call.1 with
  | start => exact intervalTime_start timer call.2
  | stop => exact intervalTime_stopTimer timer call.2
  | interval => rfl

/-- What a running timer says goes with the clock. -/
theorem intervalTime_later (timer : HirezTimer) {since now : Nat} (h : since ≤ now) :
    timer.intervalTime now
      = timer.intervalTime since + .ofNat (if timer.running then now - since else 0) := by
  cases hrunning : timer.running with
  | true =>
    rw [intervalTime_of_running hrunning, intervalTime_of_running hrunning, if_pos rfl,
      UInt64.ofNat_sub h]
    grind
  | false =>
    rw [intervalTime_of_stopped hrunning, intervalTime_of_stopped hrunning,
      if_neg Bool.false_ne_true]
    exact (UInt64.add_zero _).symm

/-- Calls add the time that the timer runs. -/
theorem intervalTime_run {timer : HirezTimer} {since now : Nat} {calls : List (Call × Nat)}
    (h : Timely since calls now) :
    (timer.run calls).intervalTime now
      = timer.intervalTime since + .ofNat (ran timer.running since calls now) := by
  induction calls generalizing timer since with
  | nil => exact intervalTime_later timer h
  | cons call calls ih =>
    have hrest : ((timer.perform call).run calls).intervalTime now = _ := ih h.2
    show ((timer.perform call).run calls).intervalTime now = _
    rw [hrest, intervalTime_perform, running_perform, intervalTime_later timer h.1, ran,
      UInt64.ofNat_add, UInt64.add_assoc]

/-- The time run so far, and from there on. -/
theorem ran_append {running : Bool} {since t now : Nat} {pre post : List (Call × Nat)}
    (hpre : Timely since pre t) (hpost : Timely t post now) :
    ran running since (pre ++ post) now
      = ran running since pre t + ran (runs running pre) t post now := by
  induction pre generalizing running since with
  | nil =>
    show ran running since post now = (if running then t - since else 0) + ran running t post now
    have hle : since ≤ t := hpre
    cases post with
    | nil =>
      have hle' : t ≤ now := hpost
      unfold ran
      split <;> omega
    | cons call post =>
      have hle' : t ≤ call.2 := hpost.1
      unfold ran
      split <;> omega
  | cons call pre ih =>
    have hrest : ran (call.1.leaves running) call.2 (pre ++ post) now = _ := ih hpre.2
    show _ + ran (call.1.leaves running) call.2 (pre ++ post) now = _ + _ + _
    rw [hrest, Nat.add_assoc]
    rfl

theorem running_run (timer : HirezTimer) (calls : List (Call × Nat)) :
    (timer.run calls).running = runs timer.running calls := by
  induction calls generalizing timer with
  | nil => rfl
  | cons call calls ih =>
    show ((timer.perform call).run calls).running = runs (call.1.leaves timer.running) calls
    rw [ih, running_perform]

/-- Starting a timer that runs, or stopping one that does not, leaves it as it is. -/
theorem perform_redundant {timer : HirezTimer} {call : Call × Nat}
    (h : call.1.leaves timer.running = timer.running) : timer.perform call = timer := by
  unfold perform
  cases hcall : call.1 with
  | start =>
    rw [hcall] at h
    exact if_pos h.symm
  | stop =>
    rw [hcall] at h
    have hstopped : timer.running = false := h.symm
    show timer.stopTimer call.2 = timer
    unfold stopTimer
    rw [hstopped, if_neg Bool.false_ne_true]
    obtain ⟨starttime, elapsed, running⟩ := timer
    rw [show running = false from hstopped]
  | interval => rfl

/-! ## Initial values -/

section Init

variable {K : Type*} [Field K] [LinearOrder K] [FloorRing K]

/-- How a `double` of seconds becomes microseconds. What is out of the range of `unsigned long long`
may be converted to anything. -/
structure Conversion (K : Type*) [Field K] [LinearOrder K] where
  double : Rounding K
  outOfRange : Int → UInt64

/-- `floor(d * 1e6)` -/
def Conversion.usec (conv : Conversion K) (d : K) : Int := ⌊conv.double.round (d * 1000000)⌋

/-- `double_to_ll` -/
def doubleToLl (conv : Conversion K) (d : K) : UInt64 :=
  if 0 ≤ conv.usec d ∧ conv.usec d < 2 ^ 64 then .ofInt (conv.usec d)
  else conv.outOfRange (conv.usec d)

/-- `start(init)` with seconds. -/
def startSeconds (conv : Conversion K) (timer : HirezTimer) (init : K) (now : Nat) : HirezTimer :=
  let timer := if !timer.running then
      let starttime := tvToLl (gettimeofday now)
      if 0 < init then { timer with starttime := starttime - doubleToLl conv init }
      else { timer with starttime := starttime }
    else timer
  { timer with running := true }

theorem startSeconds_zero (conv : Conversion K) (timer : HirezTimer) (now : Nat) :
    timer.startSeconds conv 0 now = timer.start now := by
  unfold startSeconds start
  cases hrunning : timer.running with
  | true =>
    obtain ⟨starttime, elapsed, running⟩ := timer
    rw [show running = true from hrunning]
    rfl
  | false => simp

/-- `start(init)` with a `timeval`. -/
def startTimeval (timer : HirezTimer) (init : Timeval) : HirezTimer :=
  { timer with starttime := tvToLl init, running := true }

/-- What a timer is constructed with. -/
inductive Init (K : Type*) where
  | seconds (init : K)
  | timeval (init : Timeval)

/-- The constructors. -/
def Init.construct (conv : Conversion K) : Init K → Nat → HirezTimer
  | seconds init, now => (reset ⟨0, 0, false⟩).startSeconds conv init now
  | timeval init, _ => (reset ⟨0, 0, false⟩).startTimeval init

/-- The initial value in microseconds. -/
def Init.usec (conv : Conversion K) : Init K → Int
  | seconds init => conv.usec init
  | timeval init => init.tv_sec * 1000000 + init.tv_usec

variable (conv : Conversion K) (init : Init K) (began : Nat)

/-- What `interval_as_usec` says after some calls. -/
def reading (calls : List (Call × Nat)) (now : Nat) : UInt64 :=
  ((init.construct conv began).run calls).intervalTime now

/-- At every moment of a run the timer says its initial value and the time that it has run. -/
structure Accumulates (calls : List (Call × Nat)) (now : Nat) : Prop where
  equals : ∀ pre post t, calls = pre ++ post → Timely began pre t → Timely t post now →
    ((reading conv init began pre t).toNat : Int) = init.usec conv + ran true began pre t
  monotone : ∀ pre post t, calls = pre ++ post → Timely began pre t → Timely t post now →
    reading conv init began pre t ≤ reading conv init began calls now
  frozen : ∀ pre post, calls = pre ++ post → runs true pre = false → ∀ t t',
    reading conv init began pre t = reading conv init began pre t'
  redundant : ∀ pre post call t, calls = pre ++ post → call.leaves (runs true pre) = runs true pre →
    reading conv init began (pre ++ (call, t) :: post) now = reading conv init began calls now

/-- The counter has been seeded with the initial value. -/
def Seeded : Init K → Prop
  | .seconds _ => True
  -- the clock reads twice the initial value
  | .timeval tv => (2 : Int) ^ 64 ∣ began - 2 * (tv.tv_sec * 1000000 + tv.tv_usec)

variable {conv} {init} {began}

theorem running_construct : (init.construct conv began).running = true := by
  cases init with
  | seconds d => rfl
  | timeval tv => rfl

theorem toNat_ofInt_eq_iff (x y : Int) :
    ((UInt64.ofInt x).toNat : Int) = y ↔ (2 : Int) ^ 64 ∣ x - y ∧ 0 ≤ y ∧ y < 2 ^ 64 := by
  rw [CInt.toNat_ofInt]
  omega

theorem reading_eq {calls : List (Call × Nat)} {now : Nat} (h : Timely began calls now) :
    reading conv init began calls now
      = (init.construct conv began).intervalTime began + .ofNat (ran true began calls now) := by
  rw [reading, intervalTime_run h, running_construct]

theorem intervalTime_timeval (tv : Timeval) :
    ((Init.timeval tv : Init K).construct conv began).intervalTime began
      = .ofInt (began - (tv.tv_sec * 1000000 + tv.tv_usec)) := by
  rw [intervalTime_of_running rfl, Int.sub_eq_add_neg, UInt64.ofInt_add, UInt64.ofInt_neg,
    ofInt_natCast, ← tvToLl_eq, ← UInt64.sub_eq_add_neg]
  exact UInt64.zero_add _

theorem intervalTime_seconds (d : K) :
    ((Init.seconds d).construct conv began).intervalTime began
      = if 0 < d then doubleToLl conv d else 0 := by
  have hconstruct : (Init.seconds d).construct conv began = ⟨if 0 < d then
      .ofNat began - doubleToLl conv d else .ofNat began, 0, true⟩ := by
    rw [← tvToLl_gettimeofday]
    show startSeconds conv ⟨0, 0, false⟩ d began = _
    unfold startSeconds
    split_ifs <;> simp_all
  rw [hconstruct, intervalTime_of_running rfl]
  split
  · show 0 + (UInt64.ofNat began - (UInt64.ofNat began - doubleToLl conv d)) = _
    grind
  · show 0 + (UInt64.ofNat began - UInt64.ofNat began) = _
    rw [UInt64.sub_self, UInt64.add_zero]

variable [IsStrictOrderedRing K]

theorem usec_nonpos {d : K} (h : d ≤ 0) : conv.usec d ≤ 0 := by
  have hround : conv.double.round (d * 1000000) ≤ 0 := by
    rw [← conv.double.round_zero]
    exact conv.double.monotone (mul_nonpos_of_nonpos_of_nonneg h (by norm_num))
  exact_mod_cast (Int.floor_le _).trans hround

/-- One reading. -/
theorem reading_iff {calls : List (Call × Nat)} {now : Nat} (h : Timely began calls now)
    (hinit : 0 ≤ init.usec conv) :
    ((reading conv init began calls now).toNat : Int) = init.usec conv + ran true began calls now ↔
      Seeded began init ∧ init.usec conv + ran true began calls now < 2 ^ 64 := by
  have hnonneg : 0 ≤ init.usec conv + ran true began calls now := by omega
  rw [reading_eq h]
  cases init with
  | timeval tv =>
    rw [intervalTime_timeval, ← ofInt_natCast (ran true began calls now), ← UInt64.ofInt_add,
      toNat_ofInt_eq_iff, and_iff_right hnonneg]
    unfold Seeded Init.usec
    dsimp only
    refine and_congr_left' (iff_of_eq (congrArg _ ?_))
    ring
  | seconds d =>
    rw [intervalTime_seconds]
    show _ ↔ True ∧ _
    rw [true_and]
    have hinit' : 0 ≤ conv.usec d := hinit
    split
    · by_cases hrange : conv.usec d < 2 ^ 64
      · rw [doubleToLl, if_pos ⟨hinit', hrange⟩, ← ofInt_natCast (ran true began calls now),
          ← UInt64.ofInt_add, toNat_ofInt_eq_iff, and_iff_right hnonneg]
        exact and_iff_right ⟨0, by rw [mul_zero]; exact sub_self _⟩
      · -- no counter is so large
        have hlt := (doubleToLl conv d + .ofNat (ran true began calls now)).toNat_lt
        refine iff_of_false (fun heq => ?_) fun hlt' => ?_
        · have : (Init.seconds d).usec conv = conv.usec d := rfl
          omega
        · have : (Init.seconds d).usec conv = conv.usec d := rfl
          omega
    · next hd =>
      have hzero : (Init.seconds d).usec conv = 0 :=
        le_antisymm (usec_nonpos (not_lt.mp hd)) hinit
      rw [hzero, UInt64.zero_add, zero_add, ← ofInt_natCast, toNat_ofInt_eq_iff]
      simp

/-- The documented behaviour, exactly when the counter was seeded with the initial value: the
constructor from a `timeval` takes it for the time at which the timer was started. Behind the
constructor any calls may follow, and the sum of the times it ran has to fit the counter. -/
theorem accumulates_iff (conv : Conversion K) (init : Init K) {began now : Nat}
    {calls : List (Call × Nat)} (h : Timely began calls now) :
    Accumulates conv init began calls now ↔
      0 ≤ init.usec conv ∧ Seeded began init
        ∧ init.usec conv + ran true began calls now < 2 ^ 64 := by
  constructor
  · intro hacc
    have hbegan : Timely began [] began := le_refl began
    have hzero := hacc.equals [] calls began rfl hbegan h
    have hinit : 0 ≤ init.usec conv := by
      have hran : ran true began [] began = 0 := Nat.sub_self began
      rw [hran] at hzero
      omega
    have hlast : Timely now [] now := le_refl now
    exact ⟨hinit, (reading_iff h hinit).mp
      (hacc.equals calls [] now (List.append_nil calls).symm h hlast)⟩
  · rintro ⟨hinit, hseeded, hfits⟩
    have hmoment : ∀ pre post t, calls = pre ++ post → Timely began pre t → Timely t post now →
        ran true began pre t ≤ ran true began calls now
          ∧ ((reading conv init began pre t).toNat : Int)
            = init.usec conv + ran true began pre t := by
      intro pre post t hcalls hpre hpost
      have hle : ran true began pre t ≤ ran true began calls now := by
        rw [hcalls, ran_append hpre hpost]
        exact Nat.le_add_right _ _
      exact ⟨hle, (reading_iff hpre hinit).mpr ⟨hseeded, by omega⟩⟩
    refine ⟨fun pre post t hcalls hpre hpost => (hmoment pre post t hcalls hpre hpost).2,
      fun pre post t hcalls hpre hpost => ?_, fun pre post hcalls hstopped t t' => ?_,
      fun pre post call t hcalls hredundant => ?_⟩
    · obtain ⟨hle, hthen⟩ := hmoment pre post t hcalls hpre hpost
      have hnow := (reading_iff h hinit).mpr ⟨hseeded, hfits⟩
      rw [UInt64.le_iff_toNat_le]
      omega
    · have hfrozen : ((init.construct conv began).run pre).running = false := by
        rw [running_run, running_construct, hstopped]
      rw [reading, reading, intervalTime_of_stopped hfrozen, intervalTime_of_stopped hfrozen]
    · have hsame : ((init.construct conv began).run pre).perform (call, t)
          = (init.construct conv began).run pre := by
        refine perform_redundant ?_
        rw [running_run, running_construct]
        exact hredundant
      unfold reading run
      rw [hcalls, List.foldl_append, List.foldl_append, List.foldl_cons]
      unfold run at hsame
      rw [hsame]

end Init

/-! ## A timer that begins with ten seconds -/

/-- A conversion without rounding. -/
def exactConversion : Conversion ℚ := ⟨.exact, fun _ => 0⟩

/-- Started from a `timeval` of ten seconds at a clock of a thousand seconds, a timer says at once
that 990 seconds have gone by. -/
theorem timeval_as_starttime :
    (reading exactConversion (.timeval ⟨10, 0⟩) 1000000000 [] 1000000000).toNat = 990000000
      ∧ (Init.timeval ⟨10, 0⟩).usec exactConversion = 10000000
      ∧ ¬ Accumulates exactConversion (.timeval ⟨10, 0⟩) 1000000000 [] 1000000000 := by
  have hreading :
      (reading exactConversion (.timeval ⟨10, 0⟩) 1000000000 [] 1000000000).toNat = 990000000 := by
    decide
  refine ⟨hreading, by decide, fun hacc => ?_⟩
  have hequals := hacc.equals [] [] 1000000000 rfl le_rfl le_rfl
  rw [hreading] at hequals
  revert hequals
  decide

theorem accumulates_iff_seconds :
    Accumulates exactConversion (.seconds 10) 1000000000
      [(.stop, 1000000005), (.interval, 1000000007), (.start, 1000000009)] 1000000010 := by
  have htimely : Timely 1000000000
      [(.stop, 1000000005), (.interval, 1000000007), (.start, 1000000009)] 1000000010 :=
    ⟨by decide, by decide, by decide, (by decide : 1000000009 ≤ 1000000010)⟩
  refine (accumulates_iff exactConversion (.seconds 10) htimely).mpr ⟨?_, trivial, ?_⟩
  · decide +kernel
  · decide +kernel

end HirezTimer

end Nrtb
