import Nrtb.Common
import Nrtb.Lib.Istream

/-!
# The commands of a bot

`cpp/sim_engine/bot_mk1/bot_mk1.cpp`, lines 173–347, with the `command` methods of the two
commandable effectors of a `bot_mk1`: what `msg_router` answers to a command, and what `gonculate`
queues on a tick. The values that the handlers stream into their answers are those of a `View`.

This is the bot as a function from a line to its answers, for the modules that are about threads:
they need to know which answers belong to which line, and that a command which the bot has queued
for itself is answered with nothing, so that it does not turn up between the answers of the
program's own lines. What the commands do to the bot is in `Interpreter`, whose `handle_replies`
says that its answers are these.

* `extract_word`: the words of a command, one after the other.
* `reply_tick`, `reply_gonculate`: the commands that the bot itself queues have no answer.
-/

namespace Nrtb.BotMk1

/-! ## Words of a command -/

/-- `stream >> word`: the word, which is empty at the end of the stream, and what is left. -/
def extract (stream : Str) : Str × Str := Istream.word isspace stream

/-- A word at the beginning of a stream. -/
theorem extract_word {word rest : Str} (hword : ∀ c ∈ word, isspace c = false)
    (hne : word ≠ []) (hrest : rest.head?.all isspace = true) :
    extract (word ++ rest) = (word, rest) :=
  Istream.word_initial isspace hword hne hrest

theorem extract_blank (stream : Str) : extract (32 :: stream) = extract stream :=
  Istream.word_cons_space isspace rfl stream

/-! ## Handlers -/

/-- What the handlers read when they answer, as they stream it. -/
structure View where
  -- `location`, `velocity`, `attitude.angles()`, `rotation.angles()`
  motion : Str × Str × Str × Str
  auto_on : Bool
  set_heading : Str
  set_speed : Str
  turn_limit : Str
  power_limit : Str
  -- the settings that `gonculate` chooses
  power : Str
  turn : Str
  -- `get_drive()`, `get_brake()`, `get_turn()`
  drive : Str × Str × Str
  -- `get_contacts()`
  contacts : Str

/-- `radar_mk1::command`; `none` when it returns false. -/
def radarCommand (v : View) (cmd : Str) : Option Str :=
  let (module, s) := extract cmd
  let (verb, _) := extract s
  if module = str "radar" then
    if verb = str "contacts" then some v.contacts
    else if verb = str "status" then some (str "radar status 1")
    else some (str "bad cmd \"" ++ cmd ++ str "\"")
  else none

/-- `diff_steer::pre::command`; the stream is at its end when nothing is left of it. -/
def driveCommand (v : View) (cmd : Str) : Option Str :=
  let (sys, tokens) := extract cmd
  let (verb, tokens) := extract tokens
  if sys = str "drive" then
    if verb = str "status" then
      some (sys ++ str " " ++ verb ++ str " " ++ v.drive.1 ++ str " " ++ v.drive.2.1 ++ str " "
        ++ v.drive.2.2)
    else if tokens ≠ [] then some []
    else some (str "bad_cmd \"" ++ cmd ++ str "\"")
  else none

/-- `base_object::command`, over the commandable effectors in the order of their ids. -/
def command (v : View) (cmd : Str) : Option Str := (radarCommand v cmd).or (driveCommand v cmd)

def lvar (v : View) : Str :=
  str "bot" ++ str " " ++ str "lvar" ++ str " " ++ v.motion.1 ++ str " " ++ v.motion.2.1
    ++ str " " ++ v.motion.2.2.1 ++ str " " ++ v.motion.2.2.2

def health : Str := str "bot health 100"

def autopilot (v : View) (s : Str) : List Str :=
  let (verb, _) := extract s
  if verb = str "on" then []
  else if verb = str "off" then []
  else if verb = str "power" then []
  else if verb = str "speed" then []
  else if verb = str "turn_rate" then []
  else if verb = str "heading" then []
  else if verb = str "status" then
    [str "bot autopilot " ++ str (if v.auto_on then "1" else "0") ++ str " " ++ v.set_heading
      ++ str " " ++ v.set_speed ++ str " " ++ v.turn_limit ++ str " " ++ v.power_limit]
  else [str "bot autopilot bad_cmd"]

/-- What `msg_router` pushes onto `to_BCP` for a command. -/
def reply (v : View) (s : Str) : List Str :=
  if s = str "tick" then []
  else
    let (sys, tokens) := extract s
    let (verb, tokens) := extract tokens
    if sys = str "bot" then
      if verb = str "lvar" then [lvar v]
      else if verb = str "health" then [health]
      else if verb = str "ping" then [str "READY"]
      else if verb = str "autopilot" then autopilot v tokens
      else [str "bad_cmd \"" ++ s ++ str "\""]
    else
      match command v s with
      | some returnme => if returnme ≠ [] then [returnme] else []
      | none => [str "bad_sys \"" ++ s ++ str "\""]

/-- What `gonculate` pushes onto `from_BCP`. -/
def gonculate (v : View) : List Str :=
  if v.auto_on then [str "drive power " ++ v.power, str "drive turn " ++ v.turn] else []

theorem reply_tick (v : View) : reply v (str "tick") = [] := rfl

/-- A setting of the drive has no answer. -/
theorem reply_drive (v : View) (verb : Str) (hverb : ∀ c ∈ verb, isspace c = false)
    (hne : verb ≠ []) (hstatus : verb ≠ str "status") (value : Str) :
    reply v (str "drive " ++ verb ++ 32 :: value) = [] := by
  have hsys : extract (str "drive " ++ verb ++ 32 :: value)
      = (str "drive", 32 :: (verb ++ 32 :: value)) := by
    have hsplit : str "drive " ++ verb ++ 32 :: value
        = str "drive" ++ 32 :: (verb ++ 32 :: value) := by
      rw [List.append_assoc]
      rfl
    rw [hsplit]
    exact extract_word (no_space_of_all (by decide)) (by decide) rfl
  have hrest : extract (32 :: (verb ++ 32 :: value)) = (verb, 32 :: value) := by
    rw [extract_blank]
    exact extract_word hverb hne rfl
  have htick : str "drive " ++ verb ++ 32 :: value ≠ str "tick" := fun heq => by
    have hhead := congrArg List.head? heq
    cases hhead
  have hcommand : command v (str "drive " ++ verb ++ 32 :: value) = some [] := by
    simp only [command, radarCommand, driveCommand, hsys, hrest, if_neg hstatus]
    rfl
  simp only [reply, if_neg htick, hsys, hrest, hcommand]
  rfl

/-- What `gonculate` queues has no answer. -/
theorem reply_gonculate {v w : View} {s : Str} (h : s ∈ gonculate v) : reply w s = [] := by
  rw [gonculate] at h
  split at h
  · rcases List.mem_pair.mp h with rfl | rfl
    · have hverb : ∀ c ∈ str "power", isspace c = false := no_space_of_all (by decide)
      exact reply_drive w _ hverb (by decide) (by decide) v.power
    · have hverb : ∀ c ∈ str "turn", isspace c = false := no_space_of_all (by decide)
      exact reply_drive w _ hverb (by decide) (by decide) v.turn
  · cases h

end Nrtb.BotMk1
