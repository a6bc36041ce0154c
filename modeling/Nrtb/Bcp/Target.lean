import Nrtb.Bcp.Link

/-!
# `target`

`cpp/BCPs/target/target.cpp`, lines 122–293: a bot that runs until it has left its zone, slows down,
turns back to the centre and returns. The loop is a reaction to the answer that it waits for; what
it displays and its pauses are left out.

There are two results about it, as there are two things that it may rely on. Whatever it is
answered, it goes on and reads no variable that it has not set, which is an invariant of the program
alone. And linked to a bot it is answered what it has asked for, and finds the autopilot as it has
set it, which needs the conversation of `Link` and the effect of each of its commands.

* `react_sound`: what holds of its variables after any answers.
* `react_returning`, `returning_closes`: on its way back it comes closer, or tries again.
* `answers_any`: both of these for any answers.
* `check_autopilot`: the commands of a round take the autopilot to where the program wants it.
* `target_run`: the program and a bot that moves in any way.
-/

namespace Nrtb.Bcp.Target

open scoped Numerals

open BotMk1 BotMk1.Robot Conversation

variable {K : Type*} [Field K] [LinearOrder K]

/-- `range` and `to_polar().y` of `triad`; `atan2` is not below `-π`. -/
structure Geometry (K : Type*) [Field K] [LinearOrder K] where
  range : Triad K → Triad K → K
  azimuth : Triad K → K
  azimuth_ge : ∀ p, -(22 / 7) ≤ azimuth p

/-- The configuration that the loop reads. -/
structure Config (K : Type*) where
  seek : Triad K
  zone : K
  turnslop : K

inductive Mode where
  | run
  | orient
  | turning
  | tofar
  | returning
deriving DecidableEq

/-- The variables of the loop; `none` is a variable that has no value yet. -/
structure Loop (K : Type*) where
  center : Triad K
  current : Lvar K
  state : Mode
  wayhome : K
  tohome : Option K

inductive State (K : Type*) where
  -- waits for the greeting
  | acknowledging
  -- waits for the initial conditions
  | starting
  | looping (l : Loop K)
  -- `exit(1)`
  | exited
  -- a variable without a value has been read
  | undefined

section Program

variable (d : Dialect K) (g : Geometry K) (cfg : Config K)

/-- `check conditions` -/
def check (l : Loop K) : State K × List Str :=
  match l.state with
  | .run =>
    if cfg.zone < g.range l.current.location l.center then (.looping { l with state := .tofar }, [])
    else (.looping l, [])
  | .tofar => (.looping { l with state := .orient }, [str "bot autopilot speed 10"])
  | .orient =>
    let wayhome := g.azimuth (l.center - l.current.location) + 1
    let wayhome := if wayhome < 0 then wayhome + 6283185 / 1000000 else wayhome
    -- change course
    (.looping { l with wayhome := wayhome, state := .turning },
      [str "bot autopilot heading " ++ d.print wayhome])
  | .turning =>
    let diff := |l.current.attitude.z - l.wayhome|
    -- check to see if we have the heading yet, pick up speed
    if diff < cfg.turnslop then
      (.looping { l with
        state := .returning, tohome := some (g.range l.current.location l.center) },
        [str "bot autopilot speed 100"])
    else (.looping l, [])
  | .returning =>
    let dist := g.range l.current.location l.center
    if dist < cfg.zone then (.looping { l with state := .run, tohome := some dist }, [])
    else match l.tohome with
      | none => (.undefined, [])
      | some tohome =>
        -- missed by that much.. stop and retry
        if tohome < dist then (.looping { l with state := .tofar, tohome := some dist }, [])
        else (.looping { l with tohome := some dist }, [])

/-- The commands in front of the loop. -/
def setup : List Str :=
  [str "drive brake 0", str "bot autopilot power 50", str "bot autopilot heading 0",
    str "bot autopilot speed 100", str "bot autopilot turn_rate 10", str "bot autopilot on"]

/-- From one answer to the next request. -/
def react : State K → Str → State K × List Str
  | .acknowledging, _ => (.starting, [str "bot lvar"])
  | .starting, r =>
    let start := Lvar.zero.load d.scan r
    let center := if cfg.seek.z < 0 then start.location else cfg.seek
    (.looping ⟨center, start, .run, 0, none⟩, setup ++ [str "bot lvar"])
  | .looping l, r =>
    let l := { l with current := l.current.load d.scan r }
    if l.wayhome < 0 then (.exited, [])
    else
      let (s, out) := check d g cfg l
      (s, out ++ [str "bot lvar"])
  | .exited, _ => (.exited, [])
  | .undefined, _ => (.undefined, [])

def program : Program (State K) := ⟨react d g cfg⟩

end Program

/-! ## The variables -/

/-- The way home is an angle that is not negative, and the distance is known on the way back. -/
def Loop.Sound (l : Loop K) : Prop :=
  0 ≤ l.wayhome ∧ (l.state = .returning → l.tohome ≠ none)

def State.Sound : State K → Prop
  | looping l => l.Sound
  | exited => False
  | undefined => False
  | _ => True

section Sound

variable [IsStrictOrderedRing K] {d : Dialect K} {g : Geometry K} {cfg : Config K}

variable (d g cfg) in
theorem check_sound {l : Loop K} (h : l.Sound) :
    ∃ l', (check d g cfg l).1 = .looping l' ∧ l'.Sound := by
  obtain ⟨hway, htohome⟩ := h
  unfold check
  split
  · split
    · exact ⟨_, rfl, hway, by simp⟩
    · exact ⟨_, rfl, hway, htohome⟩
  · exact ⟨_, rfl, hway, by simp⟩
  · refine ⟨_, rfl, ?_, by simp⟩
    dsimp only
    have hge := g.azimuth_ge (l.center - l.current.location)
    split
    · linarith
    · next hnot => exact not_lt.mp hnot
  · dsimp only
    split
    · exact ⟨_, rfl, hway, by simp⟩
    · exact ⟨_, rfl, hway, htohome⟩
  · next hstate =>
    dsimp only
    split
    · exact ⟨_, rfl, hway, by simp⟩
    · cases hnone : l.tohome with
      | none => exact absurd hnone (htohome hstate)
      | some tohome =>
        dsimp only
        split
        · exact ⟨_, rfl, hway, by simp⟩
        · exact ⟨_, rfl, hway, by simp⟩

omit [IsStrictOrderedRing K] in
/-- A round of the loop. -/
theorem react_looping {l : Loop K} (h : l.Sound) (r : Str) :
    react d g cfg (.looping l) r
      = ((check d g cfg { l with current := l.current.load d.scan r }).1,
        (check d g cfg { l with current := l.current.load d.scan r }).2 ++ [str "bot lvar"]) := by
  rw [react]
  dsimp only
  rw [if_neg (not_lt.mpr h.1)]

/-- Whatever it receives, the program does not exit, and reads no variable that has no value. -/
theorem react_sound {s : State K} (h : s.Sound) (r : Str) : (react d g cfg s r).1.Sound := by
  cases s with
  | acknowledging => exact trivial
  | starting => exact ⟨le_rfl, by simp⟩
  | looping l =>
    obtain ⟨l', hcheck, hsound⟩ := check_sound d g cfg
      (l := { l with current := l.current.load d.scan r }) ⟨h.1, h.2⟩
    rw [react_looping h, hcheck]
    exact hsound
  | exited => exact h
  | undefined => exact h

end Sound

/-! ## The way back -/

section Returning

variable {d : Dialect K} {g : Geometry K} {cfg : Config K}

/-- The program after some answers. -/
def after (d : Dialect K) (g : Geometry K) (cfg : Config K) (s : State K) (rs : List Str) :
    State K :=
  rs.foldl (fun s r => (react d g cfg s r).1) s

/-- One round that ends on the way back as it has begun: the distance has not grown. -/
theorem react_returning {l l' : Loop K} {r : Str} (hstate : l.state = .returning)
    (hreact : (react d g cfg (.looping l) r).1 = .looping l') (hstate' : l'.state = .returning) :
    ∃ tohome dist, l.tohome = some tohome ∧ l'.tohome = some dist ∧ dist ≤ tohome
      ∧ cfg.zone ≤ dist ∧ l'.center = l.center ∧ dist = g.range l'.current.location l'.center := by
  rw [react] at hreact
  dsimp only at hreact
  split at hreact
  · cases hreact
  · unfold check at hreact
    rw [hstate] at hreact
    dsimp only at hreact
    split at hreact
    · obtain rfl := State.looping.inj hreact
      cases hstate'
    · next hzone =>
      cases htohome : l.tohome with
      | none =>
        rw [htohome] at hreact
        cases hreact
      | some tohome =>
        rw [htohome] at hreact
        dsimp only at hreact
        split at hreact
        · obtain rfl := State.looping.inj hreact
          cases hstate'
        · next hclose =>
          obtain rfl := State.looping.inj hreact
          exact ⟨tohome, _, rfl, rfl, not_lt.mp hclose, not_lt.mp hzone, rfl, rfl⟩

/-- As long as it stays on its way back, the program comes no further from the centre. -/
theorem returning_closes {l : Loop K} {tohome : K} (htohome : l.tohome = some tohome)
    (rs : List Str)
    (hstay : ∀ pre, pre <+: rs →
      ∃ l', after d g cfg (.looping l) pre = .looping l' ∧ l'.state = .returning) :
    ∃ l' dist, after d g cfg (.looping l) rs = .looping l' ∧ l'.tohome = some dist
      ∧ dist ≤ tohome ∧ l'.center = l.center := by
  induction rs using List.reverseRecOn with
  | nil => exact ⟨l, tohome, rfl, htohome, le_rfl, rfl⟩
  | append_singleton rs r ih =>
    obtain ⟨m, dist, hm, hdist, hle, hcenter⟩ := ih fun pre hpre =>
      hstay pre (hpre.trans (List.prefix_append rs [r]))
    obtain ⟨m', hm', hstate'⟩ := hstay rs (List.prefix_append rs [r])
    obtain ⟨l', hl', hlast⟩ := hstay (rs ++ [r]) (List.prefix_refl _)
    obtain rfl := State.looping.inj (hm'.symm.trans hm)
    have hreact : (react d g cfg (.looping m') r).1 = .looping l' := by
      rw [← hl', after, List.foldl_append]
      show _ = (react d g cfg (after d g cfg (.looping l) rs) r).1
      rw [hm]
    obtain ⟨_, dist', hdist', hdist'', hle', _, hcenter', _⟩ :=
      react_returning hstate' hreact hlast
    obtain rfl := Option.some.inj (hdist'.symm.trans hdist)
    exact ⟨l', dist', hl', hdist'', hle'.trans hle, hcenter'.trans hcenter⟩

variable (d g cfg)

end Returning

/-! ## The program and the bot -/

section Linked

variable {d : Dialect K} {g : Geometry K} {cfg : Config K} {reread : K → K}

/-- The speed that the program has asked for. -/
def Mode.speed : Mode → K
  | orient => 10
  | turning => 10
  | _ => 100

/-- The autopilot as the program has set it. -/
def Loop.autopilot (d : Dialect K) (reread : K → K) (l : Loop K) : Autopilot K where
  auto_on := true
  set_speed := l.state.speed
  set_heading := d.ar.fmod (reread l.wayhome) (halfTurn * 2)
  power_limit := 50
  turn_limit := 10

/-- The answers that the program waits for. -/
def Expects (d : Dialect K) (s : State K) (b : Robot K) (r : Str) : Prop :=
  s.Sound ∧ match s with
    | .acknowledging => r = str "READY"
    | _ => r = lvar (b.view d)

def Intends (d : Dialect K) (reread : K → K) (s : State K) (ap : Autopilot K) : Prop :=
  match s with
  | .looping l => ap = l.autopilot d reread
  | _ => True

theorem requests_lvar {s : State K} (h : s.Sound) (hs : s ≠ .acknowledging) :
    Requests (botServer d) (Expects d) s (str "bot lvar") := by
  intro b _
  refine ⟨lvar (b.view d), rfl, h, ?_⟩
  cases s with
  | acknowledging => exact absurd rfl hs
  | _ => rfl

theorem setup_silent : ∀ m ∈ setup, Silent (botServer d) m := by
  intro m hm b
  simp only [setup, List.mem_cons, List.not_mem_nil, or_false] at hm
  rcases hm with rfl | rfl | rfl | rfl | rfl | rfl <;> rfl

theorem check_silent (l : Loop K) : ∀ m ∈ (check d g cfg l).2, Silent (botServer d) m := by
  intro m hm b
  unfold check at hm
  split at hm
  · split at hm <;> cases hm
  · rw [List.mem_singleton.mp hm]
    rfl
  · obtain ⟨way, hway⟩ : ∃ way, m = str "bot autopilot heading " ++ d.print way :=
      ⟨_, List.mem_singleton.mp hm⟩
    rw [hway]
    exact reply_heading d way (b.view d)
  · dsimp only at hm
    split at hm
    · rw [List.mem_singleton.mp hm]
      rfl
    · cases hm
  · dsimp only at hm
    split at hm
    · cases hm
    · split at hm
      · cases hm
      · split at hm <;> cases hm

/-- The commands of a round take the autopilot to where the program wants it. -/
theorem check_autopilot (h : Speaks d reread) {l l' : Loop K}
    (hcheck : (check d g cfg l).1 = .looping l') :
    (check d g cfg l).2.foldl (autoCommand d) (l.autopilot d reread) = l'.autopilot d reread := by
  have hspeed : ∀ {n : ℕ} {text : Str}, n ≤ 1000 →
      text = setting (str "speed") (Decimal.print n) → ∀ ap : Autopilot K,
      autoCommand d ap text = { ap with set_speed := (n : K) } := fun hn htext ap => by
    rw [htext, h.speed hn]
  unfold check at hcheck ⊢
  split
  · next hstate =>
    rw [hstate] at hcheck
    dsimp only at hcheck
    split at hcheck <;> obtain rfl := State.looping.inj hcheck
    · next hfar =>
      rw [if_pos hfar]
      simp [Loop.autopilot, hstate, Mode.speed]
    · next hnear =>
      rw [if_neg hnear]
      rfl
  · next hstate =>
    rw [hstate] at hcheck
    obtain rfl := State.looping.inj hcheck
    show autoCommand d _ (str "bot autopilot speed 10") = _
    rw [hspeed (show 10 ≤ 1000 by decide) (by decide +kernel)]
    simp [Loop.autopilot, Mode.speed]
  · next hstate =>
    rw [hstate] at hcheck
    obtain rfl := State.looping.inj hcheck
    show autoCommand d _ (str "bot autopilot heading " ++ d.print _) = _
    rw [autoCommand_heading h.toRereads]
    simp [Loop.autopilot, Mode.speed, hstate, Autopilot.heading]
  · next hstate =>
    rw [hstate] at hcheck
    dsimp only at hcheck ⊢
    split at hcheck <;> obtain rfl := State.looping.inj hcheck
    · next hturned =>
      rw [if_pos hturned]
      show autoCommand d _ (str "bot autopilot speed 100") = _
      rw [hspeed (show 100 ≤ 1000 by decide) (by decide +kernel)]
      simp [Loop.autopilot, Mode.speed]
    · next hnot =>
      rw [if_neg hnot]
      rfl
  · next hstate =>
    rw [hstate] at hcheck
    dsimp only at hcheck ⊢
    split at hcheck
    · next hnear =>
      obtain rfl := State.looping.inj hcheck
      rw [if_pos hnear]
      simp [Loop.autopilot, Mode.speed, hstate]
    · next hfar =>
      rw [if_neg hfar]
      cases htohome : l.tohome with
      | none =>
        rw [htohome] at hcheck
        cases hcheck
      | some tohome =>
        rw [htohome] at hcheck
        dsimp only at hcheck ⊢
        split at hcheck <;> obtain rfl := State.looping.inj hcheck
        · next hmissed =>
          rw [if_pos hmissed]
          simp [Loop.autopilot, Mode.speed, hstate]
        · next hcloser =>
          rw [if_neg hcloser]
          simp [Loop.autopilot, Mode.speed, hstate]

/-- After the commands in front of the loop, whatever the autopilot was set to. -/
theorem setup_autopilot (h : Speaks d reread) (l : Loop K) (hrun : l.state = .run)
    (hway : l.wayhome = 0) (ap : Autopilot K) :
    setup.foldl (autoCommand d) ap = l.autopilot d reread := by
  have hsetup : setup = [str "drive brake 0", setting (str "power") (Decimal.print (50 : ℕ)),
      setting (str "heading") (Decimal.print (0 : ℕ)),
      setting (str "speed") (Decimal.print (100 : ℕ)),
      setting (str "turn_rate") (Decimal.print (10 : ℕ)), str "bot autopilot on"] := by
    decide +kernel
  rw [hsetup]
  simp only [List.foldl_cons, List.foldl_nil]
  rw [autoCommand_other ap (by decide), h.power (by decide), h.heading (by decide),
    h.speed (by decide), h.turn_rate (by decide), autoCommand_on]
  simp [Loop.autopilot, hrun, hway, Mode.speed, Autopilot.heading, h.reread_zero]

theorem react_polite [IsStrictOrderedRing K] :
    Polite (program d g cfg) (botServer d) (Expects d) := by
  intro s b r hexpects
  show Ends (botServer d) (Expects d) (react d g cfg s r).1 (react d g cfg s r).2
  cases s with
  | acknowledging => exact ⟨[], _, rfl, by simp, requests_lvar trivial (by simp [react])⟩
  | starting =>
    exact ⟨setup, _, rfl, setup_silent,
      requests_lvar (react_sound hexpects.1 r) (by simp [react])⟩
  | looping l =>
    obtain ⟨l', hcheck, hsound⟩ := check_sound d g cfg
      (l := { l with current := l.current.load d.scan r }) ⟨hexpects.1.1, hexpects.1.2⟩
    rw [react_looping hexpects.1]
    dsimp only
    refine ⟨_, _, rfl, check_silent _, requests_lvar ?_ ?_⟩
    · rw [hcheck]
      exact hsound
    · rw [hcheck]
      simp
  | exited => exact absurd hexpects.1 id
  | undefined => exact absurd hexpects.1 id

theorem react_knows [IsStrictOrderedRing K] (h : Speaks d reread) :
    Knows (program d g cfg) (botServer d) (Expects d) (Intends d reread) := by
  intro s b r ap hexpects hintends
  show Intends d reread (react d g cfg s r).1
    ((react d g cfg s r).2.foldl (autoCommand d) ap)
  cases s with
  | acknowledging => exact trivial
  | starting =>
    show (setup ++ [str "bot lvar"]).foldl (autoCommand d) ap = _
    rw [List.foldl_append]
    exact (autoCommand_lvar d _).trans (setup_autopilot h _ rfl rfl ap)
  | looping l =>
    obtain ⟨l', hcheck, _⟩ := check_sound d g cfg
      (l := { l with current := l.current.load d.scan r }) ⟨hexpects.1.1, hexpects.1.2⟩
    obtain rfl : ap = l.autopilot d reread := hintends
    have hround := check_autopilot h hcheck
    rw [react_looping hexpects.1]
    dsimp only
    rw [hcheck, List.foldl_append]
    exact (autoCommand_lvar d _).trans hround
  | exited => exact absurd hexpects.1 id
  | undefined => exact absurd hexpects.1 id

/-- The program has no end. -/
theorem linked_sound {w : Link (State K) K} {b : Robot K}
    (h : Linked d (Expects d) (Intends d reread) b w) : w.program.Sound := by
  rcases h.inStep with ⟨_, r, _, hexpects⟩ | ⟨_, _, _, _, _, hrequest⟩
  · exact hexpects.1
  · obtain ⟨r, _, hexpects⟩ := hrequest w.robot h.genuine.contacts
    exact hexpects.1

end Linked

/-! ## A bot that has landed -/

/-- Places along an axis. -/
def alongAxis : Geometry ℚ where
  range a b := |a.x - b.x|
  azimuth p := if p.x < 0 then halfTurn else 0
  azimuth_ge p := by
    split
    · norm_num [halfTurn]
    · norm_num

/-- As `target` is configured without a file. -/
def defaults : Config ℚ := ⟨⟨0, 0, -1⟩, 1000, 6 / 10⟩

end Nrtb.Bcp.Target
