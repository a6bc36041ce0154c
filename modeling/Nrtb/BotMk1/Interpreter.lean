import Nrtb.BotMk1.Autopilot
import Nrtb.Lib.Decimal
import Nrtb.DiffSteer.Settings
import Nrtb.Triad.Text

/-!
# The command interpreter of a bot

`cpp/sim_engine/bot_mk1/bot_mk1.cpp`, lines 173–350: `msg_router` with the state that its handlers
read and write, the variables of the autopilot and the settings of the drive. How numbers are
written to a stream and read from one is a parameter.

A bot is commanded by its program and moved by the engine, and both go on all the time. So an event
is a command or any change of what the engine moves. The autopilot and the drive each get the
commands that begin with their own words, and what they do with them depends on nothing else; a run
of events projects to a run of either of them, with the events of the other and of the engine left
out. Invariants are then proved for each of them alone.

* `handle_replies`, `handle_queued`: what is answered and queued is what the message router is known
  for.
* `handle_robot`: what a command does to the autopilot and to the drive.
* `serve_auto`, `serve_drive`: the same of any number of events, each of the two alone.
* `serve_separate`: autopilot and drive go through their own commands only, and keep their
  invariants.
-/

namespace Nrtb

open scoped Numerals

namespace BotMk1

variable {K : Type*} [Field K] [LinearOrder K]

/-- How the code writes and reads numbers, and the arithmetic that is not that of a field. -/
structure Dialect (K : Type*) [Field K] [LinearOrder K] where
  -- `stream << value`
  print : K → Str
  printSetting : Ieee K → Str
  -- `stream >> value`, which reads finite numbers only
  scan : Str → Istream.Scan K
  fmt : DiffSteer.Formats K
  ar : Arith K
  -- `triad<T>::magnatude`
  magnatude : Triad K → K

/-- What the handlers of a bot read and write. -/
structure Robot (K : Type*) where
  location : Triad K
  velocity : Triad K
  -- `attitude.angles()`, `rotation.angles()`
  attitude : Triad K
  rotation : Triad K
  -- what the radar reports
  contacts : Str
  auto : Autopilot K
  drive : DiffSteer.Pre K

/-- A number of a type with infinities. -/
def scanSetting (scan : Str → Istream.Scan K) (s : Str) : Istream.Scan (Ieee K) :=
  match scan s with
  | .good v used => .good (.fin v) used
  | .bad v => .bad (.fin v)

/-- `tokens >> value`: the value keeps what it has when the stream is at its end. -/
def readInto (d : Dialect K) (tokens : Str) (value : K) : K :=
  (Istream.number isspace d.scan ⟨tokens, false⟩).1.getD value

/-! ## Handlers -/

/-- `autopilot`: the variables and the answers. -/
def Autopilot.command (d : Dialect K) (ap : Autopilot K) (s : Str) : Autopilot K × List Str :=
  let (verb, s) := extract s
  if verb = str "on" then ({ ap with auto_on := true }, [])
  else if verb = str "off" then ({ ap with auto_on := false }, [])
  else if verb = str "power" then ({ ap with power_limit := readInto d s ap.power_limit }, [])
  else if verb = str "speed" then ({ ap with set_speed := readInto d s ap.set_speed }, [])
  else if verb = str "turn_rate" then ({ ap with turn_limit := readInto d s ap.turn_limit }, [])
  else if verb = str "heading" then (ap.heading d.ar (readInto d s ap.set_heading), [])
  else if verb = str "status" then
    (ap, [str "bot autopilot " ++ str (if ap.auto_on then "1" else "0") ++ str " "
      ++ d.print ap.set_heading ++ str " " ++ d.print ap.set_speed ++ str " "
      ++ d.print ap.turn_limit ++ str " " ++ d.print ap.power_limit])
  else (ap, [str "bot autopilot bad_cmd"])

namespace Robot

variable (d : Dialect K) (b : Robot K)

/-- `v.z = 0`, `v.magnatude()` -/
def groundSpeed : K := d.magnatude { b.velocity with z := 0 }

/-- What the handlers stream into their answers. -/
def view : View where
  motion := (Triad.insertion d.print b.location, Triad.insertion d.print b.velocity,
    Triad.insertion d.print b.attitude, Triad.insertion d.print b.rotation)
  auto_on := b.auto.auto_on
  set_heading := d.print b.auto.set_heading
  set_speed := d.print b.auto.set_speed
  turn_limit := d.print b.auto.turn_limit
  power_limit := d.print b.auto.power_limit
  power := d.print (b.auto.powerCommand (b.groundSpeed d))
  turn := d.print (b.auto.turnCommand b.attitude.z)
  drive := (d.printSetting b.drive.set_p, d.printSetting b.drive.set_b,
    d.printSetting b.drive.set_t)
  contacts := b.contacts

/-- `base_object::command`: the radar, then the drive, until one returns true. -/
def command (garbage : Ieee K) (cmd : Str) : Bool × Str × Robot K :=
  match radarCommand (b.view d) cmd with
  | some response => (true, response, b)
  | none =>
    let (returnme, response, drive) :=
      b.drive.command d.fmt d.printSetting (scanSetting d.scan) garbage cmd
    (returnme, response, { b with drive := drive })

/-- What a command leaves behind: the robot, the answers, and what it queues on `from_BCP`. -/
structure Handled (K : Type*) where
  robot : Robot K
  replies : List Str
  queued : List Str

/-- One round of `msg_router`. -/
def handle (garbage : Ieee K) (s : Str) : Handled K :=
  if s = str "tick" then ⟨b, [], b.auto.gonculate d.print (b.groundSpeed d) b.attitude.z⟩
  else
    let (sys, tokens) := extract s
    let (verb, tokens) := extract tokens
    if sys = str "bot" then
      if verb = str "lvar" then ⟨b, [lvar (b.view d)], []⟩
      else if verb = str "health" then ⟨b, [health], []⟩
      else if verb = str "ping" then ⟨b, [str "READY"], []⟩
      else if verb = str "autopilot" then
        let (auto, replies) := b.auto.command d tokens
        ⟨{ b with auto := auto }, replies, []⟩
      else ⟨b, [str "bad_cmd \"" ++ s ++ str "\""], []⟩
    else
      let (known, returnme, b) := b.command d garbage s
      if known then
        if returnme ≠ [] then ⟨b, [returnme], []⟩ else ⟨b, [], []⟩
      else ⟨b, [str "bad_sys \"" ++ s ++ str "\""], []⟩

/-! ## What a command comes to -/

/-- What a command does to the autopilot. -/
def autoCommand (d : Dialect K) (ap : Autopilot K) (s : Str) : Autopilot K :=
  if (extract s).1 = str "bot" ∧ DiffSteer.Pre.verbOf s = str "autopilot" then
    (ap.command d (DiffSteer.Pre.argsOf s)).1
  else ap

/-- What a command does to the drive. -/
def driveCommand (d : Dialect K) (garbage : Ieee K) (drive : DiffSteer.Pre K) (s : Str) :
    DiffSteer.Pre K :=
  (drive.command d.fmt d.printSetting (scanSetting d.scan) garbage s).2.2

variable {d b} {garbage : Ieee K} {s : Str}

theorem gonculate_view :
    b.auto.gonculate d.print (b.groundSpeed d) b.attitude.z = gonculate (b.view d) :=
  Autopilot.gonculate_eq b.auto rfl rfl rfl

/-- The answers of the autopilot. -/
theorem command_replies (s : Str) : (b.auto.command d s).2 = autopilot (b.view d) s := by
  unfold Autopilot.command autopilot view
  dsimp only
  split_ifs <;> rfl

variable (garbage) in
/-- What the effectors answer is what the message router gets from them. -/
theorem command_eq : BotMk1.command (b.view d) s =
    if (b.command d garbage s).1 then some (b.command d garbage s).2.1 else none := by
  unfold Robot.command BotMk1.command
  cases radarCommand (b.view d) s with
  | some response => rfl
  | none =>
    exact DiffSteer.Pre.command_reply (b.view d) rfl

/-- The answers are those of the message router. -/
theorem handle_replies : (b.handle d garbage s).replies = reply (b.view d) s := by
  unfold handle reply
  rw [command_eq garbage]
  dsimp only
  split_ifs
  · rfl
  · rfl
  · rfl
  · rfl
  · exact command_replies _
  · rfl
  · next hreturn => exact (if_pos hreturn).symm
  · next hreturn => exact (if_neg hreturn).symm
  · rfl

theorem handle_queued :
    (b.handle d garbage s).queued = if s = str "tick" then gonculate (b.view d) else [] := by
  unfold handle
  split_ifs with htick
  · exact gonculate_view
  · dsimp only
    split_ifs <;> rfl

theorem autoCommand_other (ap : Autopilot K) (hsys : (extract s).1 ≠ str "bot") :
    autoCommand d ap s = ap :=
  if_neg fun h => hsys h.1

theorem autoCommand_verb (ap : Autopilot K)
    (hverb : DiffSteer.Pre.verbOf s ≠ str "autopilot") : autoCommand d ap s = ap :=
  if_neg fun h => hverb h.2

theorem autoCommand_autopilot (ap : Autopilot K) (hsys : (extract s).1 = str "bot")
    (hverb : DiffSteer.Pre.verbOf s = str "autopilot") :
    autoCommand d ap s = (ap.command d (DiffSteer.Pre.argsOf s)).1 :=
  if_pos ⟨hsys, hverb⟩

theorem driveCommand_other (drive : DiffSteer.Pre K) (hsys : (extract s).1 ≠ str "drive") :
    driveCommand d garbage drive s = drive :=
  DiffSteer.Pre.command_other hsys

/-- The radar takes no commands of the drive. -/
theorem command_robot :
    (b.command d garbage s).2.2 = { b with drive := driveCommand d garbage b.drive s } := by
  unfold Robot.command
  cases hradar : radarCommand (b.view d) s with
  | some response =>
    have hmodule : (extract s).1 = str "radar" := by
      unfold radarCommand at hradar
      dsimp only at hradar
      split_ifs at hradar <;> assumption
    rw [driveCommand_other b.drive (by rw [hmodule]; decide)]
  | none => rfl

/-- A command changes the autopilot, or the drive, or nothing. -/
theorem handle_robot : (b.handle d garbage s).robot =
    { b with auto := autoCommand d b.auto s, drive := driveCommand d garbage b.drive s } := by
  by_cases htick : s = str "tick"
  · rw [autoCommand_other b.auto (by rw [htick]; decide),
      driveCommand_other b.drive (by rw [htick]; decide), handle, if_pos htick]
  · unfold handle
    rw [if_neg htick]
    dsimp only
    by_cases hsys : (extract s).1 = str "bot"
    · rw [if_pos hsys, driveCommand_other b.drive (by rw [hsys]; decide)]
      by_cases hverb : DiffSteer.Pre.verbOf s = str "autopilot"
      · rw [autoCommand_autopilot b.auto hsys hverb]
        unfold DiffSteer.Pre.verbOf at hverb
        rw [hverb, if_neg (by decide), if_neg (by decide), if_neg (by decide), if_pos rfl]
        rfl
      · rw [autoCommand_verb b.auto hverb]
        unfold DiffSteer.Pre.verbOf at hverb
        rw [if_neg hverb]
        split_ifs <;> rfl
    · rw [if_neg hsys, autoCommand_other b.auto hsys, ← command_robot (b := b)]
      split_ifs <;> rfl

/-! ## Any commands -/

/-- What happens to a bot: a command is executed, with what the uninitialised variable of the drive
holds, or the engine moves it. -/
inductive Event (K : Type*) where
  | command (garbage : Ieee K) (s : Str)
  | moves (location velocity attitude rotation : Triad K) (contacts : Str)

variable (d) in
def perform (b : Robot K) : Event K → Robot K
  | .command garbage s => (b.handle d garbage s).robot
  | .moves location velocity attitude rotation contacts =>
    ⟨location, velocity, attitude, rotation, contacts, b.auto, b.drive⟩

variable (d) in
def serve (events : List (Event K)) (b : Robot K) : Robot K := events.foldl (perform d) b

namespace Event

/-- The commands of the autopilot. -/
def autopilot : Event K → Option Str
  | command _ s =>
    if (extract s).1 = str "bot" ∧ DiffSteer.Pre.verbOf s = str "autopilot" then some s else none
  | moves .. => none

/-- The commands of the drive. -/
def drive : Event K → Option (DiffSteer.Pre.Call K)
  | command garbage s => if (extract s).1 = str "drive" then some (.command garbage s) else none
  | moves .. => none

end Event

/-- The autopilot goes through its own commands. -/
theorem serve_auto (events : List (Event K)) (b : Robot K) :
    (b.serve d events).auto
      = (events.filterMap Event.autopilot).foldl (autoCommand d) b.auto := by
  rw [List.foldl_filterMap]
  refine (List.foldl_hom Robot.auto fun b event => ?_).symm
  cases event with
  | moves => rfl
  | command garbage s =>
    rw [perform, handle_robot, Event.autopilot]
    by_cases hs : (extract s).1 = str "bot" ∧ DiffSteer.Pre.verbOf s = str "autopilot"
    · rw [if_pos hs]
    · rw [if_neg hs, autoCommand, if_neg hs]

/-- The drive goes through its own commands. -/
theorem serve_drive (events : List (Event K)) (b : Robot K) :
    (b.serve d events).drive
      = b.drive.run d.fmt d.printSetting (scanSetting d.scan) (events.filterMap Event.drive) := by
  rw [DiffSteer.Pre.run, List.foldl_filterMap]
  refine (List.foldl_hom Robot.drive fun b event => ?_).symm
  cases event with
  | moves => rfl
  | command garbage s =>
    rw [perform, handle_robot, Event.drive]
    by_cases hs : (extract s).1 = str "drive"
    · rw [if_pos hs]
      rfl
    · rw [if_neg hs, driveCommand_other b.drive hs]

section Invariants

variable [IsStrictOrderedRing K]

omit [IsStrictOrderedRing K] in
/-- The set heading is a remainder, from the first command that sets it. -/
theorem abs_autoCommand
    (hfmod : ∀ a, Circle.Remainder (halfTurn * 2) a (d.ar.fmod a (halfTurn * 2)))
    {ap : Autopilot K} (h : |ap.set_heading| < halfTurn * 2) (s : Str) :
    |(autoCommand d ap s).set_heading| < halfTurn * 2 := by
  by_cases hs : (extract s).1 = str "bot" ∧ DiffSteer.Pre.verbOf s = str "autopilot"
  · rw [autoCommand_autopilot ap hs.1 hs.2, Autopilot.command]
    dsimp only
    split_ifs <;> first | exact h | exact (hfmod _).bound
  · rw [autoCommand, if_neg hs]
    exact h

omit [IsStrictOrderedRing K] in
theorem abs_foldl_autoCommand
    (hfmod : ∀ a, Circle.Remainder (halfTurn * 2) a (d.ar.fmod a (halfTurn * 2)))
    {ap : Autopilot K} (h : |ap.set_heading| < halfTurn * 2) (cmds : List Str) :
    |(cmds.foldl (autoCommand d) ap).set_heading| < halfTurn * 2 := by
  induction cmds generalizing ap with
  | nil => exact h
  | cons s rest ih => exact ih (abs_autoCommand hfmod h s)

variable (d) in
/-- Under any commands and any moves, autopilot and drive go through their own commands only, in
their own order; power and brake are never both on, and the set heading stays within a turn. -/
theorem serve_separate
    (hfmod : ∀ a, Circle.Remainder (halfTurn * 2) a (d.ar.fmod a (halfTurn * 2)))
    (events : List (Event K)) (b : Robot K) (hdrive : DiffSteer.Pre.Interlocked b.drive)
    (hheading : |b.auto.set_heading| < halfTurn * 2) :
    (b.serve d events).auto = (events.filterMap Event.autopilot).foldl (autoCommand d) b.auto
      ∧ (b.serve d events).drive
        = b.drive.run d.fmt d.printSetting (scanSetting d.scan) (events.filterMap Event.drive)
      ∧ DiffSteer.Pre.Interlocked (b.serve d events).drive
      ∧ |(b.serve d events).auto.set_heading| < halfTurn * 2 := by
  refine ⟨serve_auto events b, serve_drive events b, ?_, ?_⟩
  · rw [serve_drive]
    exact DiffSteer.Pre.interlocked_run hdrive _
  · rw [serve_auto]
    exact abs_foldl_autoCommand hfmod hheading _

end Invariants

/-! ## A bot that has landed -/

/-- The whole number of 32 bits for a number. -/
def whole (v : ℚ) : ℤ := max (-2 ^ 31) (min (2 ^ 31 - 1) ⌊v⌋)

def scanWhole (s : Str) : Istream.Scan ℚ :=
  match Decimal.scan (-2 ^ 31) (2 ^ 31 - 1) s with
  | .good v used => .good v used
  | .bad v => .bad v

/-- Whole numbers, written and read in decimal, and speeds along an axis. -/
def wholeNumbers : Dialect ℚ where
  print v := Decimal.print (whole v)
  printSetting
    | .fin v => Decimal.print (whole v)
    | .inf _ => str "inf"
    | .nan => str "nan"
  scan := scanWhole
  fmt := DiffSteer.Pre.exactFormats
  ar := Body.exactTrim.toArith
  magnatude v := |v.x|

def landed : Robot ℚ where
  location := 0
  velocity := 0
  attitude := 0
  rotation := 0
  contacts := str "radar contacts 0"
  auto := ⟨false, 0, 0, 0, 0⟩
  drive := .construct 1 1 1

theorem wholeNumbers_fmod (a : ℚ) :
    Circle.Remainder (halfTurn * 2) a (wholeNumbers.ar.fmod a (halfTurn * 2)) := by
  have hperiod : Body.exactTrim.period = (halfTurn : ℚ) * 2 := by decide +kernel
  rw [← hperiod]
  exact Body.exactTrim.fmod_remainder a

theorem serve_separate_landed :
    (landed.serve wholeNumbers [.command .nan (str "bot autopilot heading 7"),
        .command .nan (str "drive power 50"), .moves ⟨1, 0, 0⟩ 0 0 0 [],
        .command .nan (str "bot autopilot on")]).drive
      = ⟨1, 1, 1, .fin (1 / 2), 0, 0⟩
      ∧ |(landed.serve wholeNumbers [.command .nan (str "bot autopilot heading 7"),
        .command .nan (str "drive power 50"), .moves ⟨1, 0, 0⟩ 0 0 0 [],
        .command .nan (str "bot autopilot on")]).auto.set_heading| < halfTurn * 2 := by
  have hstart : DiffSteer.Pre.Interlocked landed.drive :=
    DiffSteer.Pre.interlocked_lockdown (DiffSteer.Pre.construct 1 1 1)
  obtain ⟨_, hdrive, _, hheading⟩ := serve_separate wholeNumbers wholeNumbers_fmod
    [.command .nan (str "bot autopilot heading 7"), .command .nan (str "drive power 50"),
      .moves ⟨1, 0, 0⟩ 0 0 0 [], .command .nan (str "bot autopilot on")]
    landed hstart (by decide +kernel)
  exact ⟨hdrive.trans (by decide +kernel), hheading⟩

end Robot

end BotMk1

end Nrtb
