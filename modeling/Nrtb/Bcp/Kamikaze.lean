import Nrtb.Bcp.Link

/-!
# `kamikaze`

`cpp/BCPs/kamikaze/kamikaze.cpp`, lines 120–231: a bot that looks for a contact and steers for it.
The two requests of a round, in `get_my_state` and `get_target`, are two states; what is displayed
and the pauses are left out.

The program is a function from the answer that it waits for to its next state and its next lines.
That it takes every answer for the right one is a property of conversations, and comes from
`Linked.run`. What is left to show of the program is that it is polite, which is that it asks one
question at a time, and that it knows what the commands it sends do to the autopilot.

* `react_sound`: the state goes with the target, after any answers.
* `react_polite`, `react_knows`: the program as one half of a conversation.
* `kamikaze_run`: the program and a bot that moves in any way.
-/

namespace Nrtb.Bcp.Kamikaze

open BotMk1 BotMk1.Robot Conversation

variable {K : Type*} [Field K] [LinearOrder K]

inductive Mode where
  | new
  | searching
  | tracking
deriving DecidableEq

/-- The variables of the loop. -/
structure Loop (K : Type*) where
  state : Mode
  current : Lvar K
  target : Lvar K

inductive State (K : Type*) where
  -- waits for the greeting
  | acknowledging
  -- in `get_my_state`
  | looking (l : Loop K)
  -- in `get_target`
  | seeking (l : Loop K)

section Program

variable (d : Dialect K)

/-- `autopilot setup` -/
def setup : List Str :=
  [str "bot autopilot power 100", str "bot autopilot turn_rate 5", str "bot autopilot speed 300",
    str "drive brake 100"]

/-- What the loop does about its target. -/
def chase (l : Loop K) : Loop K × List Str :=
  if l.target.location.x = -1 then
    if l.state ≠ .searching then
      -- no current target to chase
      ({ l with state := .searching },
        [str "bot autopilot off", str "drive brake 100", str "drive turn 0"])
    else (l, [])
  else
    let (l, out) :=
      if l.state ≠ .tracking then
        -- go get'm!
        ({ l with state := .tracking }, [str "drive brake 0", str "bot autopilot on"])
      else (l, [])
    (l, out ++ [str "bot autopilot heading " ++ d.print l.target.location.y])

/-- From one answer to the next request. -/
def react : State K → Str → State K × List Str
  | .acknowledging, _ => (.looking ⟨.new, .zero, .zero⟩, setup ++ [str "bot lvar"])
  | .looking l, r =>
    (.seeking { l with current := Lvar.zero.load d.scan r }, [str "radar contacts"])
  | .seeking l, r =>
    let (l, out) := chase d { l with target := get_target d.scan r }
    (.looking l, out ++ [str "bot lvar"])

def program : Program (State K) := ⟨react d⟩

end Program

/-! ## The program and the bot -/

section Linked

variable {d : Dialect K} {reread : K → K}

/-- The autopilot as the program has set it. -/
structure Loop.Set (d : Dialect K) (reread : K → K) (l : Loop K) (ap : Autopilot K) : Prop where
  power : ap.power_limit = 100
  turn : ap.turn_limit = 5
  speed : ap.set_speed = 300
  tracking : l.state = .tracking → ap.auto_on = true
    ∧ ap.set_heading = d.ar.fmod (reread l.target.location.y) (halfTurn * 2)
  searching : l.state = .searching → ap.auto_on = false

/-- It tracks a target that is there. -/
def Loop.Sound (l : Loop K) : Prop :=
  (l.state = .tracking → l.target.location.x ≠ -1)
    ∧ (l.state = .searching → l.target.location.x = -1)

/-- The target of a round that has been gone through. -/
def State.Sound : State K → Prop
  | acknowledging => True
  | looking l => l.Sound
  | seeking l => l.Sound

theorem chase_sound (l : Loop K) : (chase d l).1.Sound ∧ (chase d l).1.state ≠ .new := by
  unfold chase
  split
  · next hnone =>
    split
    · exact ⟨⟨by simp, fun _ => hnone⟩, by simp⟩
    · next hstate =>
      have hsearching : l.state = .searching := not_not.mp hstate
      exact ⟨⟨by simp [hsearching], fun _ => hnone⟩, by simp [hsearching]⟩
  · next hthere =>
    dsimp only
    split
    · exact ⟨⟨fun _ => hthere, by simp⟩, by simp⟩
    · next hstate =>
      have htracking : l.state = .tracking := not_not.mp hstate
      exact ⟨⟨fun _ => hthere, by simp [htracking]⟩, by simp [htracking]⟩

theorem setup_silent : ∀ m ∈ setup, Silent (botServer d) m := by
  intro m hm b
  simp only [setup, List.mem_cons, List.not_mem_nil, or_false] at hm
  rcases hm with rfl | rfl | rfl | rfl <;> rfl

theorem chase_silent (l : Loop K) : ∀ m ∈ (chase d l).2, Silent (botServer d) m := by
  have hheading : Silent (botServer d)
      (str "bot autopilot heading " ++ d.print l.target.location.y) := fun b =>
    reply_heading d l.target.location.y (b.view d)
  intro m hm
  unfold chase at hm
  dsimp only at hm
  split at hm
  · split at hm
    · simp only [List.mem_cons, List.not_mem_nil, or_false] at hm
      rcases hm with rfl | rfl | rfl <;> exact fun b => rfl
    · cases hm
  · rcases List.mem_append.mp hm with hm | hm
    · split at hm
      · rcases List.mem_pair.mp hm with rfl | rfl <;> exact fun b => rfl
      · cases hm
    · rw [List.mem_singleton.mp hm]
      exact hheading

/-- The commands of a round take the autopilot to where the program wants it. -/
theorem chase_set (h : Rereads d reread) {l : Loop K} {ap : Autopilot K}
    (hset : l.Set d reread ap) (target : Lvar K) :
    (chase d { l with target := target }).1.Set d reread
      ((chase d { l with target := target }).2.foldl (autoCommand d) ap) := by
  have hdrive : ∀ {text : Str}, (extract text).1 = str "drive" → ∀ ap : Autopilot K,
      autoCommand d ap text = ap := fun hsys ap => autoCommand_other ap (by rw [hsys]; decide)
  unfold chase
  dsimp only
  split
  · split
    · simp only [List.foldl_cons, List.foldl_nil]
      rw [autoCommand_off, hdrive (by decide), hdrive (by decide)]
      exact ⟨hset.power, hset.turn, hset.speed, by simp, fun _ => rfl⟩
    · next hstate =>
      have hsearching : l.state = .searching := not_not.mp hstate
      exact ⟨hset.power, hset.turn, hset.speed, by simp [hsearching], hset.searching⟩
  · rw [List.foldl_append, List.foldl_cons, List.foldl_nil, autoCommand_heading h]
    split
    · simp only [List.foldl_cons, List.foldl_nil]
      rw [autoCommand_on, hdrive (by decide)]
      exact ⟨hset.power, hset.turn, hset.speed, fun _ => ⟨rfl, rfl⟩, by simp⟩
    · next hstate =>
      have htracking : l.state = .tracking := not_not.mp hstate
      refine ⟨hset.power, hset.turn, hset.speed, fun _ => ⟨?_, rfl⟩, by simp [htracking]⟩
      exact (hset.tracking htracking).1

/-- After the setup, whatever the autopilot was set to. -/
theorem setup_set (h : Speaks d reread) (ap : Autopilot K) :
    (⟨.new, .zero, .zero⟩ : Loop K).Set d reread (setup.foldl (autoCommand d) ap) := by
  have hsetup : setup = [setting (str "power") (Decimal.print (100 : ℕ)),
      setting (str "turn_rate") (Decimal.print (5 : ℕ)),
      setting (str "speed") (Decimal.print (300 : ℕ)), str "drive brake 100"] := by
    decide +kernel
  rw [hsetup]
  simp only [List.foldl_cons, List.foldl_nil]
  rw [h.power (by decide), h.turn_rate (by decide), h.speed (by decide),
    autoCommand_other _ (by decide)]
  exact ⟨by simp, by simp, by simp, by simp, by simp⟩

/-! ## The program and the bot -/

/-- The answers that the program waits for. -/
def Expects (d : Dialect K) (s : State K) (b : Robot K) (r : Str) : Prop :=
  s.Sound ∧ match s with
    | .acknowledging => r = str "READY"
    | .looking _ => r = lvar (b.view d)
    | .seeking _ => r = b.contacts

def Intends (d : Dialect K) (reread : K → K) (s : State K) (ap : Autopilot K) : Prop :=
  match s with
  | .acknowledging => True
  | .looking l => l.Set d reread ap
  | .seeking l => l.Set d reread ap

theorem react_sound {s : State K} (h : s.Sound) (r : Str) : (react d s r).1.Sound := by
  cases s with
  | acknowledging => exact ⟨by simp, by simp⟩
  | looking l => exact h
  | seeking l => exact (chase_sound _).1

theorem requests_lvar {l : Loop K} (h : l.Sound) :
    Requests (botServer d) (Expects d) (.looking l) (str "bot lvar") := fun b _ =>
  ⟨lvar (b.view d), rfl, h, rfl⟩

theorem requests_contacts {l : Loop K} (h : l.Sound) :
    Requests (botServer d) (Expects d) (.seeking l) (str "radar contacts") := by
  intro b hcontacts
  refine ⟨b.contacts, ?_, h, rfl⟩
  show (if b.contacts ≠ [] then [b.contacts] else []) = _
  exact if_pos hcontacts

theorem react_polite : Polite (program d) (botServer d) (Expects d) := by
  intro s b r hexpects
  show Ends (botServer d) (Expects d) (react d s r).1 (react d s r).2
  cases s with
  | acknowledging =>
    exact ⟨setup, _, rfl, setup_silent, requests_lvar ⟨by simp, by simp⟩⟩
  | looking l => exact ⟨[], _, rfl, by simp, requests_contacts hexpects.1⟩
  | seeking l => exact ⟨_, _, rfl, chase_silent _, requests_lvar (chase_sound _).1⟩

theorem react_knows (h : Speaks d reread) :
    Knows (program d) (botServer d) (Expects d) (Intends d reread) := by
  intro s b r ap hexpects hintends
  show Intends d reread (react d s r).1 ((react d s r).2.foldl (autoCommand d) ap)
  cases s with
  | acknowledging =>
    show Loop.Set d reread _ ((setup ++ [str "bot lvar"]).foldl (autoCommand d) ap)
    rw [List.foldl_append, List.foldl_cons, List.foldl_nil, autoCommand_lvar]
    exact setup_set h ap
  | looking l =>
    show Loop.Set d reread _ (autoCommand d ap (str "radar contacts"))
    rw [autoCommand_other ap (by decide)]
    obtain ⟨hpower, hturn, hspeed, htracking, hsearching⟩ : l.Set d reread ap := hintends
    exact ⟨hpower, hturn, hspeed, htracking, hsearching⟩
  | seeking l =>
    rw [react]
    dsimp only
    rw [List.foldl_append, List.foldl_cons, List.foldl_nil, autoCommand_lvar]
    exact chase_set h.toRereads hintends _

end Linked

end Nrtb.Bcp.Kamikaze
