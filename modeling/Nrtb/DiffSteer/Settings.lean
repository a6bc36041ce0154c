import Nrtb.BotMk1.Commands
import Nrtb.Lib.Ieee
import Nrtb.Lib.Istream
import Mathlib.Tactic.Linarith
import Mathlib.Tactic.NormNum

/-!
# The settings of `diff_steer::pre`

`cpp/sim_engine/diff_steer_effector/diff_steer.cpp`, lines 41–168: power, brake and turn rate, as
the setters and the command parser leave them. The settings are floating-point values; how a number
is written, and read from a word, are the parameters `print` and `scan`.

The setters limit their argument with comparisons, which a NaN passes or fails all alike, so that
the values are those of `Lib.Ieee`, with infinities and NaN, and the ranges are proved of any
argument. The parser decides by the state of its stream: whether there is anything behind the verb,
and whether the stream has come to its end, which trailing blanks keep it from.

* `interlocked_run`: what holds of the settings after any calls, by induction on them; a new drive
  and a copy are locked down.
* `command_rules_iff`: which commands do as documented.
* `command_reply`: what the robot is told is the response to its command.
-/

namespace Nrtb

namespace DiffSteer

variable {K : Type*} [Field K] [LinearOrder K]

/-! ## The setters -/

/-- The rounding of the two formats that a setting goes through: `power/100.0` is a `double`, what
is stored a `float`. -/
structure Formats (K : Type*) [Field K] [LinearOrder K] where
  double : Rounding K
  single : Rounding K

/-- `x/100.0` on its way into a `float`. -/
def Formats.percent (fmt : Formats K) : Ieee K → Ieee K
  | .fin x => .fin (fmt.single.round (fmt.double.round (x / 100)))
  | x => x

/-- `diff_steer::pre` -/
structure Pre (K : Type*) where
  max_p : K
  max_b : K
  max_t : K
  set_p : Ieee K
  set_b : Ieee K
  set_t : Ieee K
deriving DecidableEq

namespace Pre

/-- `pre(float mp, float mb, float mt)` -/
def construct (mp mb mt : K) : Pre K := ⟨mp, mb, mt, 0, 1, 0⟩

/-- `lockdown()` -/
def lockdown (s : Pre K) : Pre K := { s with set_p := 0, set_b := 1, set_t := 0 }

/-- `clone()`: the copy constructor locks the copy down. -/
def clone (t : Pre K) : Pre K := lockdown ⟨t.max_p, t.max_b, t.max_t, t.set_p, t.set_b, t.set_t⟩

variable (fmt : Formats K)

/-- `drive(power)` -/
def drive (s : Pre K) (power : Ieee K) : Pre K :=
  if power.abs ≤ .fin 100 then
    let s := if power ≠ 0 then { s with set_b := 0 } else s
    { s with set_p := fmt.percent power }
  else s.lockdown

/-- `brake(braking)` -/
def brake (s : Pre K) (braking : Ieee K) : Pre K :=
  if .fin 0 ≤ braking ∧ braking ≤ .fin 100 then
    let s := if braking ≠ 0 then { s with set_p := 0 } else s
    { s with set_b := fmt.percent braking }
  else s.lockdown

/-- `turn(rate)` -/
def turn (s : Pre K) (rate : Ieee K) : Pre K :=
  if rate.abs ≤ .fin 100 then { s with set_t := fmt.percent rate } else s.lockdown

variable (print : Ieee K → Str) (scan : Str → Istream.Scan (Ieee K))

/-- The setter of a verb. -/
def setter (verb : Str) : Option (Pre K → Ieee K → Pre K) :=
  if verb = str "power" then some (drive fmt)
  else if verb = str "brake" then some (brake fmt)
  else if verb = str "turn" then some (turn fmt)
  else none

/-- `response = "bad_cmd \"" + cmd + "\""` -/
def badCmd (cmd : Str) : Str := str "bad_cmd \"" ++ cmd ++ str "\""

/-- `command(cmd, response)`, where `garbage` is what `val` is declared with. Returns what is
returned, the response and the settings. The stream is at its end when nothing is left of it. -/
def command (garbage : Ieee K) (cmd : Str) (s : Pre K) : Bool × Str × Pre K :=
  let (sys, tokens) := BotMk1.extract cmd
  let (verb, tokens) := BotMk1.extract tokens
  if sys = str "drive" then
    if verb = str "status" then
      (true, sys ++ str " " ++ verb ++ str " " ++ print s.set_p ++ str " " ++ print s.set_b
        ++ str " " ++ print s.set_t, s)
    else if tokens ≠ [] then
      let val := (Istream.number isspace scan ⟨tokens, false⟩).1.getD garbage
      if verb = str "power" then (true, [], s.drive fmt val)
      else if verb = str "brake" then (true, [], s.brake fmt val)
      else if verb = str "turn" then (true, [], s.turn fmt val)
      else (true, [], s)
    else (true, badCmd cmd, s.lockdown)
  else (false, [], s)

/-! ## What a command comes to -/

/-- The second word of a command. -/
def verbOf (cmd : Str) : Str := (BotMk1.extract (BotMk1.extract cmd).2).1

/-- What is left behind the second word. -/
def argsOf (cmd : Str) : Str := (BotMk1.extract (BotMk1.extract cmd).2).2

section Command

variable {fmt} {print} {scan} {garbage : Ieee K} {cmd : Str} {s : Pre K}

theorem command_status (hsys : (BotMk1.extract cmd).1 = str "drive")
    (hstatus : verbOf cmd = str "status") : (s.command fmt print scan garbage cmd).2.2 = s := by
  unfold verbOf at hstatus
  unfold command
  simp only [hsys, hstatus, if_true]

theorem command_other (hsys : (BotMk1.extract cmd).1 ≠ str "drive") :
    (s.command fmt print scan garbage cmd).2.2 = s := by
  unfold command
  simp only [if_neg hsys]

/-- What another drive command comes to. -/
theorem command_eq (hsys : (BotMk1.extract cmd).1 = str "drive")
    (hstatus : verbOf cmd ≠ str "status") :
    s.command fmt print scan garbage cmd =
      if argsOf cmd = [] then (true, badCmd cmd, s.lockdown)
      else match setter fmt (verbOf cmd) with
        | some set => (true, [],
            set s ((Istream.number isspace scan ⟨argsOf cmd, false⟩).1.getD garbage))
        | none => (true, [], s) := by
  unfold verbOf at hstatus ⊢
  unfold command setter argsOf
  simp only [hsys, if_true, if_neg hstatus]
  split_ifs <;> first | rfl | contradiction

/-- `status` is not the verb of a setter. -/
theorem setter_status : setter fmt (str "status") = none := by
  unfold setter
  rw [if_neg (by decide), if_neg (by decide), if_neg (by decide)]

end Command

/-! ## Calls, one after the other -/

/-- The calls that change settings; a command comes with the garbage that it finds. -/
inductive Call (K : Type*) where
  | command (garbage : Ieee K) (cmd : Str)
  | drive (power : Ieee K)
  | brake (braking : Ieee K)
  | turn (rate : Ieee K)
  | lockdown

def perform (s : Pre K) : Call K → Pre K
  | .command garbage cmd => (s.command fmt print scan garbage cmd).2.2
  | .drive power => s.drive fmt power
  | .brake braking => s.brake fmt braking
  | .turn rate => s.turn fmt rate
  | .lockdown => s.lockdown

def run (calls : List (Call K)) (s : Pre K) : Pre K := calls.foldl (perform fmt print scan) s

/-- Power and turn rate are numbers in the unit interval around zero, the brake is a number
between zero and one, and power and brake are not both on. -/
structure Interlocked (s : Pre K) : Prop where
  power : ∃ p, s.set_p = .fin p ∧ -1 ≤ p ∧ p ≤ 1
  turn : ∃ t, s.set_t = .fin t ∧ -1 ≤ t ∧ t ≤ 1
  brake : ∃ b, s.set_b = .fin b ∧ 0 ≤ b ∧ b ≤ 1
  exclusive : s.set_p = 0 ∨ s.set_b = 0

variable {fmt} {print} {scan} [IsStrictOrderedRing K]

omit [IsStrictOrderedRing K] in
theorem percent_zero : fmt.percent 0 = 0 := by
  show Ieee.fin (fmt.single.round (fmt.double.round (0 / 100))) = Ieee.fin 0
  rw [zero_div, fmt.double.round_zero, fmt.single.round_zero]

/-- A percentage becomes a part of one. -/
theorem percent_mem {x : K} (h : |x| ≤ 100) :
    ∃ y, fmt.percent (.fin x) = .fin y ∧ -1 ≤ y ∧ y ≤ 1 := by
  obtain ⟨hlow, hhigh⟩ := abs_le.mp h
  have hlow' : -1 ≤ x / 100 := by linarith
  have hhigh' : x / 100 ≤ 1 := by linarith
  exact ⟨_, rfl, fmt.single.neg_one_le_round (fmt.double.neg_one_le_round hlow'),
    fmt.single.round_le_one (fmt.double.round_le_one hhigh')⟩

theorem percent_nonneg {x : K} (h0 : 0 ≤ x) (h : x ≤ 100) :
    ∃ y, fmt.percent (.fin x) = .fin y ∧ 0 ≤ y ∧ y ≤ 1 := by
  have hlow : 0 ≤ x / 100 := by linarith
  have hhigh : x / 100 ≤ 1 := by linarith
  exact ⟨_, rfl, fmt.single.round_nonneg (fmt.double.round_nonneg hlow),
    fmt.single.round_le_one (fmt.double.round_le_one hhigh)⟩

/-- Full stop. -/
theorem interlocked_lockdown (s : Pre K) : Interlocked s.lockdown where
  power := ⟨0, rfl, by linarith, by linarith⟩
  turn := ⟨0, rfl, by linarith, by linarith⟩
  brake := ⟨1, rfl, by linarith, le_rfl⟩
  exclusive := Or.inl rfl

theorem interlocked_drive {s : Pre K} (h : Interlocked s) (power : Ieee K) :
    Interlocked (s.drive fmt power) := by
  unfold drive
  split
  · next hle =>
    obtain ⟨x, rfl, hx⟩ := Ieee.abs_le_fin_iff.mp hle
    split
    · exact ⟨percent_mem hx, h.turn, ⟨0, rfl, le_rfl, by linarith⟩, Or.inr rfl⟩
    · next hzero =>
      -- no power
      rw [not_not.mp hzero, percent_zero]
      exact ⟨⟨0, rfl, by linarith, by linarith⟩, h.turn, h.brake, Or.inl rfl⟩
  · exact interlocked_lockdown s

theorem interlocked_brake {s : Pre K} (h : Interlocked s) (braking : Ieee K) :
    Interlocked (s.brake fmt braking) := by
  unfold brake
  split
  · next hle =>
    obtain ⟨x, rfl, hx⟩ : ∃ x, braking = .fin x ∧ 0 ≤ x ∧ x ≤ 100 := by
      rcases Ieee.fin_le_iff.mp hle.1 with rfl | ⟨x, rfl, h0⟩
      · exact hle.2.elim
      · exact ⟨x, rfl, h0, hle.2⟩
    split
    · exact ⟨⟨0, rfl, by linarith, by linarith⟩, h.turn, percent_nonneg hx.1 hx.2, Or.inl rfl⟩
    · next hzero =>
      -- no braking
      rw [not_not.mp hzero, percent_zero]
      exact ⟨h.power, h.turn, ⟨0, rfl, le_rfl, by linarith⟩, Or.inr rfl⟩
  · exact interlocked_lockdown s

theorem interlocked_turn {s : Pre K} (h : Interlocked s) (rate : Ieee K) :
    Interlocked (s.turn fmt rate) := by
  unfold turn
  split
  · next hle =>
    obtain ⟨x, rfl, hx⟩ := Ieee.abs_le_fin_iff.mp hle
    exact ⟨h.power, percent_mem hx, h.brake, h.exclusive⟩
  · exact interlocked_lockdown s

theorem interlocked_setter {s : Pre K} (h : Interlocked s) {verb : Str}
    {set : Pre K → Ieee K → Pre K} (hset : setter fmt verb = some set) (val : Ieee K) :
    Interlocked (set s val) := by
  unfold setter at hset
  split_ifs at hset
  · cases hset
    exact interlocked_drive h val
  · cases hset
    exact interlocked_brake h val
  · cases hset
    exact interlocked_turn h val

/-- Whatever a command does to the settings is done by a setter, or is a full stop. -/
theorem interlocked_command {s : Pre K} (h : Interlocked s) (garbage : Ieee K) (cmd : Str) :
    Interlocked (s.command fmt print scan garbage cmd).2.2 := by
  by_cases hsys : (BotMk1.extract cmd).1 = str "drive"
  · by_cases hstatus : verbOf cmd = str "status"
    · rw [command_status hsys hstatus]
      exact h
    · rw [command_eq hsys hstatus]
      split
      · exact interlocked_lockdown s
      · cases hset : setter fmt (verbOf cmd) with
        | none => exact h
        | some set => exact interlocked_setter h hset _
  · rw [command_other hsys]
    exact h

theorem interlocked_perform {s : Pre K} (h : Interlocked s) (call : Call K) :
    Interlocked (s.perform fmt print scan call) := by
  cases call with
  | command garbage cmd => exact interlocked_command h garbage cmd
  | drive power => exact interlocked_drive h power
  | brake braking => exact interlocked_brake h braking
  | turn rate => exact interlocked_turn h rate
  | lockdown => exact interlocked_lockdown s

theorem interlocked_run {s : Pre K} (h : Interlocked s) (calls : List (Call K)) :
    Interlocked (s.run fmt print scan calls) := by
  unfold run
  induction calls generalizing s with
  | nil => exact h
  | cons call calls ih => exact ih (interlocked_perform h call)

variable (fmt print scan) in
/-- Power and brake are never both on, and all settings stay in their ranges, after any commands and
any calls with any arguments, from a new drive or a copy of one. The arguments may be infinite or
NaN. -/
theorem interlocked_calls (calls : List (Call K)) (mp mb mt : K) (t : Pre K) :
    Interlocked ((construct mp mb mt).run fmt print scan calls) ∧
      Interlocked (t.clone.run fmt print scan calls) :=
  ⟨interlocked_run (interlocked_lockdown (construct mp mb mt)) calls,
    interlocked_run (interlocked_lockdown _) calls⟩

/-- Integers in decimal digits are read as numbers. -/
def scanInteger : Str → Istream.Scan (Ieee K)
  | 45 :: digits => match Istream.decimal digits with
    | .good v used => .good (.fin (-v)) (used + 1)
    | .bad _ => .bad 0
  | word => match Istream.decimal word with
    | .good v used => .good (.fin v) used
    | .bad _ => .bad 0

/-- No rounding in either format. -/
def exactFormats : Formats K := ⟨Rounding.exact, Rounding.exact⟩

theorem interlocked_calls_power :
    Interlocked ((construct (1 : ℚ) 1 1).run exactFormats (fun _ => []) scanInteger
        [.command .nan (str "drive power 50"), .turn .nan, .brake (.inf true), .drive (.fin 20)])
      ∧ Interlocked ((construct (1 : ℚ) 1 1).clone.run exactFormats (fun _ => []) scanInteger
        [.command .nan (str "drive power 50"), .turn .nan, .brake (.inf true), .drive (.fin 20)]) :=
  interlocked_calls exactFormats (fun _ => []) scanInteger _ 1 1 1 (construct 1 1 1)

/-! ## Commands -/

section Rules

variable (fmt : Formats K) (print : Ieee K → Str) (scan : Str → Istream.Scan (Ieee K))

/-- A setter is called, and nothing was stored in its argument. -/
def PassesGarbage (cmd : Str) : Prop :=
  (setter fmt (verbOf cmd)).isSome ∧ argsOf cmd ≠ [] ∧
    (Istream.number isspace scan ⟨argsOf cmd, false⟩).1 = none

/-- `status` changes nothing, a setter that is followed by a number is applied to it, and any other
command is refused with a full stop. Nothing but numbers that were read reaches a setter. -/
def FollowsRules (garbage : Ieee K) (cmd : Str) (s : Pre K) : Prop :=
  let r := s.command fmt print scan garbage cmd
  (if verbOf cmd = str "status" then r.2.2 = s
    else match setter fmt (verbOf cmd), Istream.numeral isspace scan (argsOf cmd) with
      | some set, some v => r.2.2 = set s v
      | _, _ => r.2.1 = badCmd cmd ∧ r.2.2 = s.lockdown)
    ∧ ¬ PassesGarbage fmt scan cmd

variable {fmt} {print} {scan} {garbage : Ieee K} {cmd : Str} {s : Pre K}

omit [IsStrictOrderedRing K] in
/-- What is returned and the response are what the robot is told. -/
theorem command_reply (v : BotMk1.View)
    (hview : v.drive = (print s.set_p, print s.set_b, print s.set_t)) :
    BotMk1.driveCommand v cmd =
      if (s.command fmt print scan garbage cmd).1
        then some (s.command fmt print scan garbage cmd).2.1 else none := by
  unfold BotMk1.driveCommand command badCmd
  simp only [hview]
  split_ifs <;> first | rfl | contradiction

theorem badCmd_ne_nil (cmd : Str) : badCmd cmd ≠ [] := by
  unfold badCmd
  rw [List.append_assoc]
  exact List.append_ne_nil_of_left_ne_nil (by decide) _

variable (print garbage s) in
omit [IsStrictOrderedRing K] in
/-- A number behind the verb of a setter reaches it. -/
theorem command_setter (hsys : (BotMk1.extract cmd).1 = str "drive") {set : Pre K → Ieee K → Pre K}
    (hset : setter fmt (verbOf cmd) = some set) {v : Ieee K}
    (hnumeral : Istream.numeral isspace scan (argsOf cmd) = some v) :
    (Istream.number isspace scan ⟨argsOf cmd, false⟩).1 = some v ∧
      (s.command fmt print scan garbage cmd).2.2 = set s v := by
  have hstatus : verbOf cmd ≠ str "status" := fun heq => by
    rw [heq, setter_status] at hset
    cases hset
  have hargs : argsOf cmd ≠ [] := fun hargs => by
    rw [hargs] at hnumeral
    cases hnumeral
  have hread : (Istream.number isspace scan ⟨argsOf cmd, false⟩).1 = some v :=
    Istream.number_of_converts isspace scan (Istream.converts_of_numeral isspace scan hnumeral)
  refine ⟨hread, ?_⟩
  rw [command_eq hsys hstatus, if_neg hargs, hset, hread]
  rfl

variable (fmt print scan) in
omit [IsStrictOrderedRing K] in
/-- Whether the stream has come to its end decides about a command, not its words: an unknown verb
with anything behind it and an argument that is no number are accepted, and trailing blanks hand
garbage to a setter. -/
theorem command_rules_iff (garbage : Ieee K) (cmd : Str) (s : Pre K)
    (hsys : (BotMk1.extract cmd).1 = str "drive") :
    FollowsRules fmt print scan garbage cmd s ↔
      verbOf cmd = str "status" ∨ argsOf cmd = [] ∨
        (setter fmt (verbOf cmd)).isSome ∧
          (Istream.numeral isspace scan (argsOf cmd)).isSome := by
  unfold FollowsRules
  dsimp only
  by_cases hstatus : verbOf cmd = str "status"
  · -- no setter
    have hpasses : ¬ PassesGarbage fmt scan cmd := fun hpasses => by
      have hset := hpasses.1
      rw [hstatus, setter_status] at hset
      cases hset
    have hsame : (s.command fmt print scan garbage cmd).2.2 = s := command_status hsys hstatus
    rw [if_pos hstatus]
    exact iff_of_true ⟨hsame, hpasses⟩ (Or.inl hstatus)
  · rw [if_neg hstatus, command_eq hsys hstatus]
    simp only [hstatus, false_or]
    by_cases hargs : argsOf cmd = []
    · -- the stream is at its end
      have hnone : Istream.numeral isspace scan ([] : Str) = none := rfl
      have hpasses : ¬ PassesGarbage fmt scan cmd := fun hpasses => hpasses.2.1 hargs
      simp only [hargs, hnone, if_true, true_or, iff_true]
      refine ⟨?_, hpasses⟩
      cases setter fmt (verbOf cmd) with
      | none => exact ⟨trivial, trivial⟩
      | some set => exact ⟨trivial, trivial⟩
    · simp only [hargs, false_or]
      cases hset : setter fmt (verbOf cmd) with
      | none =>
        -- accepted, and nothing done
        refine iff_of_false (fun hrules => ?_) fun hholds => Bool.noConfusion hholds.1
        exact badCmd_ne_nil cmd hrules.1.1.symm
      | some set =>
        cases hnumeral : Istream.numeral isspace scan (argsOf cmd) with
        | none =>
          -- a setter is called with no number
          refine iff_of_false (fun hrules => ?_) fun hholds => Bool.noConfusion hholds.2
          exact badCmd_ne_nil cmd hrules.1.1.symm
        | some v =>
          obtain ⟨hread, hsettings⟩ := command_setter print garbage s hsys hset hnumeral
          have hpasses : ¬ PassesGarbage fmt scan cmd := fun hpasses => by
            have hnothing := hpasses.2.2
            rw [hread] at hnothing
            cases hnothing
          rw [command_eq hsys hstatus, if_neg hargs, hset] at hsettings
          exact iff_of_true ⟨hsettings, hpasses⟩ ⟨rfl, rfl⟩

/-- A blank behind the verb hands whatever the variable held to the setter; a full stop was due. -/
theorem trailing_blank_drives :
    (BotMk1.extract (str "drive power ")).1 = str "drive"
      ∧ (command exactFormats (fun _ => []) scanInteger (.fin 50) (str "drive power ")
        (construct (1 : ℚ) 1 1)).2.2 = ⟨1, 1, 1, .fin (1 / 2), 0, 0⟩
      ∧ ¬ FollowsRules exactFormats (fun _ => []) scanInteger (.fin 50) (str "drive power ")
        (construct (1 : ℚ) 1 1) := by
  have hpasses : PassesGarbage (exactFormats : Formats ℚ) scanInteger (str "drive power ") :=
    ⟨by decide, by decide, by decide⟩
  exact ⟨by decide, by decide +kernel, fun hrules => hrules.2 hpasses⟩

theorem command_rules_iff_power :
    FollowsRules exactFormats (fun _ => []) scanInteger .nan (str "drive power 50")
      (construct (1 : ℚ) 1 1) :=
  (command_rules_iff exactFormats (fun _ => []) scanInteger .nan (str "drive power 50")
    (construct (1 : ℚ) 1 1) (by decide)).mpr
    (Or.inr (Or.inr ⟨by decide, by decide +kernel⟩))

end Rules

end Pre

end DiffSteer

end Nrtb
