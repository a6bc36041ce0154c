import Nrtb.BaseObject.Attitude
import Nrtb.BotMk1.Commands

/-!
# The autopilot of `bot_mk1`

`cpp/sim_engine/bot_mk1/bot_mk1.cpp`, lines 258–281 and 299–350, in exact arithmetic: what the
autopilot commands after a turn. Current and set heading are remainders of `fmod`, and may be
negative; `gonculate` takes their difference for an angle, and corrects it on one side only.

A bot can turn to any heading in two ways, and should take the shorter one. Which one that is
depends on the difference of the headings modulo a circle, and the difference of two remainders may
lie anywhere between minus two and plus two circles. The code lets the heading grow for a negative
difference and for one above half a turn, and fall for the others, which is wrong in three intervals
of that range (`LongWay`).

* `gonculate_eq`: the commands that are queued, which connects this with the message router.
* `turnCommand_shorter_iff`: when the command to turn takes the shorter way, for all headings that
  `trim` and the command `heading` can leave. `TurnsShorter` is about any angle that leads from one
  heading to the other (`Lib.Circle`), not about the difference that the code computes.
-/

namespace Nrtb

open scoped Numerals

namespace BotMk1

variable {K : Type*} [Field K] [LinearOrder K]

/-- `3.14159` -/
def halfTurn : K := 314159 / 100000

/-- The variables of the autopilot. -/
structure Autopilot (K : Type*) where
  auto_on : Bool
  set_speed : K
  set_heading : K
  power_limit : K
  turn_limit : K
deriving DecidableEq

namespace Autopilot

/-- `autopilot`: the command `heading`. -/
def heading (ar : Arith K) (ap : Autopilot K) (set_heading : K) : Autopilot K :=
  { ap with set_heading := ar.fmod set_heading (halfTurn * 2) }

variable (ap : Autopilot K)

/-- `gonculate`: the power, from the speed over the ground. -/
def powerCommand (speed : K) : K :=
  let delta := speed - ap.set_speed
  if 1 / 10 < delta then -ap.power_limit
  else if 0 ≤ delta then 0
  else ap.power_limit

/-- `gonculate`: the turn rate. -/
def turnCommand (current_heading : K) : K :=
  let delta := current_heading - ap.set_heading
  if delta < 0 ∨ halfTurn < delta then ap.turn_limit else -ap.turn_limit

/-- What `gonculate` pushes onto `from_BCP`. -/
def gonculate (print : K → Str) (speed current_heading : K) : List Str :=
  if ap.auto_on then
    [str "drive power " ++ print (ap.powerCommand speed),
      str "drive turn " ++ print (ap.turnCommand current_heading)]
  else []

/-- These are the commands that the message router finds. -/
theorem gonculate_eq {print : K → Str} {speed current_heading : K} {v : View}
    (hon : v.auto_on = ap.auto_on) (hpower : v.power = print (ap.powerCommand speed))
    (hturn : v.turn = print (ap.turnCommand current_heading)) :
    ap.gonculate print speed current_heading = BotMk1.gonculate v := by
  unfold gonculate BotMk1.gonculate
  rw [hon, hpower, hturn]

/-- A positive turn rate makes the heading grow. The command goes up to what is ahead, and down to
what is behind. -/
def TurnsShorter (current_heading : K) : Prop :=
  (Circle.Ahead halfTurn current_heading ap.set_heading → 0 < ap.turnCommand current_heading)
    ∧ (Circle.Behind halfTurn current_heading ap.set_heading → ap.turnCommand current_heading < 0)

/-- The set heading is behind, but the difference is not between zero and half a turn. -/
def LongWay (delta : K) : Prop :=
  delta < -(3 * halfTurn) ∨ (-(2 * halfTurn) < delta ∧ delta < -halfTurn)
    ∨ (2 * halfTurn < delta ∧ delta < 3 * halfTurn)

variable [IsStrictOrderedRing K] {ap}

theorem halfTurn_pos : (0 : K) < halfTurn := by
  norm_num [halfTurn]

theorem turnCommand_pos_iff (hlimit : 0 < ap.turn_limit) (current_heading : K) :
    (0 < ap.turnCommand current_heading ↔
        ¬ (0 ≤ current_heading - ap.set_heading ∧ current_heading - ap.set_heading ≤ halfTurn))
      ∧ (ap.turnCommand current_heading < 0 ↔
        0 ≤ current_heading - ap.set_heading ∧ current_heading - ap.set_heading ≤ halfTurn) := by
  have hsplit : current_heading - ap.set_heading < 0 ∨ halfTurn < current_heading - ap.set_heading
      ↔ ¬ (0 ≤ current_heading - ap.set_heading
        ∧ current_heading - ap.set_heading ≤ halfTurn) := by
    rw [not_and_or, not_le, not_le]
  unfold turnCommand
  dsimp only
  split
  · next hup =>
    have hout := hsplit.mp hup
    exact ⟨iff_of_true hlimit hout, iff_of_false hlimit.not_gt hout⟩
  · next hdown =>
    have hin := not_not.mp fun h => hdown (hsplit.mpr h)
    have hneg : -ap.turn_limit < 0 := neg_lt_zero.mpr hlimit
    exact ⟨iff_of_false hneg.not_gt (not_not.mpr hin), iff_of_true hneg hin⟩

theorem turnsShorter_iff (hlimit : 0 < ap.turn_limit) {current_heading : K}
    (hrange : |current_heading - ap.set_heading| < 4 * halfTurn) :
    ap.TurnsShorter current_heading ↔ ¬ LongWay (current_heading - ap.set_heading) := by
  obtain ⟨hpos, hneg⟩ := turnCommand_pos_iff hlimit current_heading
  have hhalf : (0 : K) < halfTurn := halfTurn_pos
  unfold TurnsShorter LongWay
  rw [hpos, hneg, Circle.behind_iff hhalf hrange]
  constructor
  · rintro ⟨_, hbehind⟩ hlong
    have hin : 0 ≤ current_heading - ap.set_heading
        ∧ current_heading - ap.set_heading ≤ halfTurn := by
      rcases hlong with h | h | h
      · exact hbehind (Or.inl h)
      · exact hbehind (Or.inr (Or.inl h))
      · exact hbehind (Or.inr (Or.inr (Or.inr h)))
    rcases hlong with h | ⟨_, h⟩ | ⟨h, _⟩
    · linarith
    · linarith
    · linarith
  · intro hshort
    refine ⟨Circle.not_mem_of_ahead, fun hbehind => ?_⟩
    rcases hbehind with h | h | h | h
    · exact absurd (Or.inl h) hshort
    · exact absurd (Or.inr (Or.inl h)) hshort
    · exact ⟨h.1.le, h.2.le⟩
    · exact absurd (Or.inr (Or.inr h)) hshort

/-- From a heading as `trim` leaves it to one as it was set, the autopilot turns the shorter way
unless the difference of the two is in a `LongWay` interval. The proof goes through the intervals
between multiples of half a turn, in each of which both the shorter way and the sign of the command
are known. -/
theorem turnCommand_shorter_iff (ta : TrimArith K) (hperiod : ta.period = halfTurn * 2)
    (ap : Autopilot K) (hlimit : 0 < ap.turn_limit) (axis : Triad K) (set_heading : K) :
    (ap.heading ta.toArith set_heading).TurnsShorter (Body.trim ta.toArith axis).z ↔
      ¬ LongWay ((Body.trim ta.toArith axis).z
        - (ap.heading ta.toArith set_heading).set_heading) := by
  have hcurrent := (ta.fmod_remainder axis.z).bound
  have hset := (ta.fmod_remainder set_heading).bound
  have hlimit' : 0 < (ap.heading ta.toArith set_heading).turn_limit := hlimit
  refine turnsShorter_iff hlimit' ?_
  show |ta.fmod axis.z ta.period - ta.fmod set_heading (halfTurn * 2)| < 4 * halfTurn
  rw [← hperiod]
  refine (abs_sub _ _).trans_lt ?_
  linarith

/-! ## From zero to four radians, and to one -/

/-- An autopilot that turns at ten. -/
def turning : Autopilot ℚ := ⟨true, 0, 0, 0, 10⟩

/-- Four radians are behind a heading of zero, and the command is to go up to them. -/
theorem towards_four_long_way :
    Circle.Behind (halfTurn : ℚ) (Body.trim Body.exactTrim.toArith ⟨0, 0, 0⟩).z
        (turning.heading Body.exactTrim.toArith 4).set_heading
      ∧ (turning.heading Body.exactTrim.toArith 4).turnCommand
        (Body.trim Body.exactTrim.toArith ⟨0, 0, 0⟩).z = 10
      ∧ ¬ (turning.heading Body.exactTrim.toArith 4).TurnsShorter
        (Body.trim Body.exactTrim.toArith ⟨0, 0, 0⟩).z := by
  have hbehind : Circle.Behind (halfTurn : ℚ) (Body.trim Body.exactTrim.toArith ⟨0, 0, 0⟩).z
      (turning.heading Body.exactTrim.toArith 4).set_heading :=
    ⟨-1, by decide +kernel, by decide +kernel⟩
  have hturn : (turning.heading Body.exactTrim.toArith 4).turnCommand
      (Body.trim Body.exactTrim.toArith ⟨0, 0, 0⟩).z = 10 := by
    decide +kernel
  refine ⟨hbehind, hturn, fun hshort => ?_⟩
  have hneg := hshort.2 hbehind
  rw [hturn] at hneg
  norm_num at hneg

theorem turnCommand_shorter_iff_one :
    (turning.heading Body.exactTrim.toArith 1).TurnsShorter
      (Body.trim Body.exactTrim.toArith ⟨0, 0, 0⟩).z := by
  have hperiod : Body.exactTrim.period = (halfTurn : ℚ) * 2 := by decide +kernel
  refine (turnCommand_shorter_iff Body.exactTrim hperiod turning (by decide) ⟨0, 0, 0⟩ 1).mpr ?_
  unfold LongWay
  decide +kernel

end Autopilot

end BotMk1

end Nrtb
