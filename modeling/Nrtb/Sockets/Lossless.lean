import Nrtb.Sockets.Collecting

/-!
# The bytes that `getln` has taken

`cpp/common/sockets/base_socket.cpp`, lines 406–493. Bytes are held in two places while `getln`
runs: the `get` of a round collects its own, and `getln` appends them when that `get` returns. An
exception of `get` carries the comment of `get` only. Where `getln` lets it through, the bytes of
the rounds before are lost; where it catches it, as a timeout, the bytes of this round are.

The condition under which nothing is lost is put on what can be seen from outside, the outcomes of
`recv` and the readings of the clock (`LoopKeeps`, `CallKeeps`): no round finds the connection
closed or broken behind collected bytes, and none has bytes of its own when its time is up.

* `getlnLoop_lossless_iff`: in the loop nothing is lost exactly under that condition, by induction
  on the rounds. `getlnLoop_lossy` is the other half of its step: a lost byte does not come back.
* `getln_lossless_iff`: the same for a call, with the arguments it can be made with.
-/

namespace Nrtb.TcpSocket

/-! ## The statement -/

/-- The bytes taken from the socket are, in order, what the call returned or the comment of the
`tcp_socket` exception it threw. -/
def Lossless (c : Conn) : Result × Conn → Prop
  | (.returns s, c') => c.unread = s ++ c'.unread
  | (.throws _ comment, c') => c.unread = comment ++ c'.unread
  | (.lengthError, _) => False
  | (.undefined, _) => False
  | (.blocked, _) => True

section Condition

variable (clock : Nat → Int) (eol : List Byte) (maxlen timeout endtime : Int)

/-- In every round of the loop a `recv` that finds the connection closed or broken before a byte has
come in it finds nothing collected before it either, and when the time of the round is up no byte
has come in it. -/
def LoopKeeps : List (List Receive) → Conn → List Byte → Prop
  | [], _, _ => True
  | rs :: rest, c, returnme =>
    let timeleft := CInt.toInt (endtime - clock c.reads)
    Along clock (getlen eol returnme) (if 0 < timeleft then timeleft else 0) (returnme = [])
      (fun s c' => s = [] ∧ ∀ held, check eol maxlen returnme (decide (0 ≤ timeout)) = .again held →
        LoopKeeps rest c' held)
      (fun s c' => ∀ held, check eol maxlen (returnme ++ s) false = .again held →
        LoopKeeps rest c' held)
      rs c.tick

/-- The call is made with usable arguments, and its loop, if the first `get` leads to it, keeps what
has been collected. -/
def CallKeeps (schedule : List (List Receive)) (c : Conn) : Prop :=
  eol = [] ∨ 0 ≤ maxlen ∧ 0 ≤ targetlen eol ∧ targetlen eol < 2 ^ 31 - 1
    ∧ ∀ first rest, schedule = first :: rest →
      Along clock (targetlen eol) (if timeout < 0 then 0 else timeout) True (fun _ _ => True)
        (fun s c' => success eol s = false →
          LoopKeeps clock eol maxlen timeout (clock c.reads + timeout) rest c' s)
        first c.tick

end Condition

/-! ## The loop -/

variable {clock : Nat → Int} {eol : List Byte} {maxlen timeout endtime : Int}

theorem HandsOver.lossless_iff {c c' : Conn} {returnme : List Byte} {r : Result}
    (h : HandsOver returnme r) : Lossless c (r, c') ↔ c.unread = returnme ++ c'.unread := by
  rcases h with rfl | ⟨e, rfl⟩ <;> exact Iff.rfl

theorem GoesOn.lossy {c₀ c : Conn} {held : List Byte} {round : Round} (h : GoesOn held round)
    {loop : List Byte → Result × Conn} (hlost : held.length + c.unread.length < c₀.unread.length)
    (hloop : round = .again held → ¬ Lossless c₀ (loop held)) :
    ¬ Lossless c₀ (round.finish c loop) := by
  rcases h with ⟨r, rfl, hhands⟩ | rfl
  · rw [Round.finish, hhands.lossless_iff]
    intro heq
    rw [heq, List.length_append] at hlost
    exact lt_irrefl _ hlost
  · exact hloop rfl

theorem GoesOn.lossless_iff {c₀ c : Conn} {held : List Byte} {round : Round} (h : GoesOn held round)
    {loop : List Byte → Result × Conn} {kept : List Byte → Prop}
    (hheld : c₀.unread = held ++ c.unread)
    (hloop : round = .again held → (Lossless c₀ (loop held) ↔ kept held)) :
    Lossless c₀ (round.finish c loop) ↔ ∀ next, round = .again next → kept next := by
  rcases h with ⟨r, rfl, hhands⟩ | rfl
  · rw [Round.finish, hhands.lossless_iff]
    exact iff_of_true hheld nofun
  · rw [Round.finish, hloop rfl]
    exact ⟨fun h next hnext => Round.again.inj hnext ▸ h, fun h => h held rfl⟩

/-- What has been lost stays lost. -/
theorem getlnLoop_lossy {c₀ : Conn} (schedule : List (List Receive)) {c : Conn}
    {returnme : List Byte} (hlost : returnme.length + c.unread.length < c₀.unread.length)
    (hends : (getlnLoop clock eol maxlen timeout endtime schedule c returnme).1 ≠ .blocked) :
    ¬ Lossless c₀ (getlnLoop clock eol maxlen timeout endtime schedule c returnme) := by
  induction schedule generalizing c returnme with
  | nil =>
    rw [getlnLoop] at hends
    exact absurd rfl hends
  | cons rs rest ih =>
    obtain ⟨b, hunread, _, hround⟩ := roundGet_ends clock eol maxlen timeout endtime rs c returnme
    have hlength := congrArg List.length hunread
    rw [List.length_append] at hlength
    rw [getlnLoop] at hends ⊢
    generalize roundGet clock eol endtime rs c returnme = out at hlength hround hends ⊢
    generalize afterGet eol maxlen timeout returnme out.1 = round at hround hends ⊢
    generalize out.1 = r at hround
    cases hround with
    | returns =>
      refine (check_goesOn ..).lossy (by rw [List.length_append]; omega) fun hagain => ?_
      rw [hagain] at hends
      exact ih (by rw [List.length_append]; omega) hends
    | timedOut =>
      refine (check_goesOn ..).lossy (by omega) fun hagain => ?_
      rw [hagain] at hends
      exact ih (by omega) hends
    | fails e he hnil =>
      intro heq
      have heq : c₀.unread = [] ++ out.2.unread := heq
      rw [heq, List.nil_append] at hlost
      omega
    | blocked => exact absurd rfl hends

/-- What the condition asks of a round, by what the `get` of the round comes to. -/
theorem loopKeeps_cons (rs : List Receive) (rest : List (List Receive)) (c : Conn)
    (returnme : List Byte) :
    LoopKeeps clock eol maxlen timeout endtime (rs :: rest) c returnme
      ↔ Comes (returnme = [])
        (fun s c' => s = [] ∧ ∀ held,
          check eol maxlen returnme (decide (0 ≤ timeout)) = .again held →
            LoopKeeps clock eol maxlen timeout endtime rest c' held)
        (fun s c' => ∀ held, check eol maxlen (returnme ++ s) false = .again held →
          LoopKeeps clock eol maxlen timeout endtime rest c' held)
        (roundGet clock eol endtime rs c returnme) := by
  obtain ⟨hmin, hint⟩ := getlen_range eol returnme
  rw [LoopKeeps, along_iff hmin.le hint, roundGet]

/-- In the loop nothing is lost exactly when every round keeps what has been collected. -/
theorem getlnLoop_lossless_iff {c₀ : Conn} (schedule : List (List Receive)) {c : Conn}
    {returnme : List Byte} (hheld : c₀.unread = returnme ++ c.unread)
    (hends : (getlnLoop clock eol maxlen timeout endtime schedule c returnme).1 ≠ .blocked) :
    Lossless c₀ (getlnLoop clock eol maxlen timeout endtime schedule c returnme)
      ↔ LoopKeeps clock eol maxlen timeout endtime schedule c returnme := by
  induction schedule generalizing c returnme with
  | nil =>
    rw [getlnLoop] at hends
    exact absurd rfl hends
  | cons rs rest ih =>
    obtain ⟨b, hunread, _, hround⟩ := roundGet_ends clock eol maxlen timeout endtime rs c returnme
    rw [loopKeeps_cons]
    rw [getlnLoop] at hends ⊢
    generalize roundGet clock eol endtime rs c returnme = out at hunread hround hends ⊢
    generalize afterGet eol maxlen timeout returnme out.1 = round at hround hends ⊢
    obtain ⟨r, c'⟩ := out
    cases hround with
    | returns =>
      have hgo := check_goesOn eol maxlen (returnme ++ b) false
      have heq : c₀.unread = (returnme ++ b) ++ c'.unread := by
        rw [hheld, hunread, List.append_assoc]
      exact hgo.lossless_iff heq fun hagain => ih heq (by rwa [hagain] at hends)
    | timedOut =>
      have hgo := check_goesOn eol maxlen returnme (decide (0 ≤ timeout))
      cases b with
      | nil =>
        have heq : c₀.unread = returnme ++ c'.unread := by
          rw [hheld, hunread, List.nil_append]
        rw [hgo.lossless_iff heq fun hagain => ih heq (by rwa [hagain] at hends)]
        exact (and_iff_right rfl).symm
      | cons x b =>
        -- the bytes of the comment are dropped
        have hlost : returnme.length + c'.unread.length < c₀.unread.length := by
          rw [hheld, hunread]
          simp only [List.length_append, List.length_cons]
          omega
        refine iff_of_false (hgo.lossy hlost fun hagain => ?_) (fun h => nomatch h.1)
        rw [hagain] at hends
        exact getlnLoop_lossy rest hlost hends
    | fails e he hnil =>
      subst hnil
      rw [List.nil_append] at hunread
      have hcomes : ∀ late inTime, Comes (returnme = []) late inTime (.throws e [], c')
          ↔ returnme = [] := by
        cases e with
        | timeout => exact absurd rfl he
        | _ => exact fun _ _ => Iff.rfl
      rw [hcomes]
      show c₀.unread = [] ++ c'.unread ↔ _
      rw [hheld, hunread]
      exact List.append_left_inj _
    | blocked => exact absurd rfl hends

/-! ## The call -/

/-- Behind the first `get` the loop decides; unless that `get` returned, there is none. -/
theorem afterFirst_lossless_iff (htarget : 0 ≤ targetlen eol) (hint : targetlen eol < 2 ^ 31 - 1)
    (first : List Receive) (rest : List (List Receive)) (c : Conn)
    (hends : (afterFirst clock eol maxlen timeout endtime rest
      (firstGet clock eol timeout first c)).1 ≠ .blocked) :
    Lossless c (afterFirst clock eol maxlen timeout endtime rest
        (firstGet clock eol timeout first c))
      ↔ Comes True (fun _ _ => True)
        (fun s c' => success eol s = false →
          LoopKeeps clock eol maxlen timeout endtime rest c' s)
        (firstGet clock eol timeout first c) := by
  obtain ⟨b, hunread, _, hdelivers⟩ := firstGet_delivers clock timeout htarget hint first c
  generalize firstGet clock eol timeout first c = out at hunread hdelivers hends ⊢
  obtain ⟨r, c'⟩ := out
  cases hdelivers with
  | returns =>
    rw [afterFirst] at hends ⊢
    cases hsuccess : success eol b with
    | true =>
      refine iff_of_true hunread fun hfailed => ?_
      rw [hsuccess] at hfailed
      cases hfailed
    | false =>
      rw [hsuccess] at hends
      exact (getlnLoop_lossless_iff rest hunread hends).trans
        ⟨fun h _ => h, fun h => h hsuccess⟩
  | timedOut htimeout =>
    rw [afterFirst, if_pos (nonneg_of_wait_pos htimeout), (fail_handsOver maxlen b).lossless_iff]
    exact iff_of_true hunread trivial
  | notOpen hnil =>
    subst hnil
    exact iff_of_true hunread trivial
  | general hnil =>
    subst hnil
    exact iff_of_true hunread trivial
  | blocked => exact absurd rfl hends

/-- The bytes taken by a call that ends are what it returns or the comment of its exception exactly
when the arguments are usable and its loop keeps what it has collected. -/
theorem getln_lossless_iff (clock : Nat → Int) (eol : List Byte) (maxlen timeout : Int)
    (schedule : List (List Receive)) (c : Conn)
    (hends : (getln clock eol maxlen timeout schedule c).1 ≠ .blocked) :
    Lossless c (getln clock eol maxlen timeout schedule c)
      ↔ CallKeeps clock eol maxlen timeout schedule c := by
  unfold getln at hends ⊢
  by_cases heol : eol = []
  · rw [if_pos heol]
    exact iff_of_true rfl (.inl heol)
  rw [if_neg heol] at hends ⊢
  rw [CallKeeps, or_iff_right heol]
  by_cases hmaxlen : maxlen < 0
  · rw [if_pos hmaxlen]
    exact iff_of_false (by rintro ⟨⟩) fun h => absurd h.1 (Int.not_le.mpr hmaxlen)
  rw [if_neg hmaxlen] at hends ⊢
  rw [and_iff_right (Int.not_lt.mp hmaxlen)]
  by_cases hoverflow : targetlen eol = -2 ^ 31
  · rw [if_pos hoverflow]
    refine iff_of_false (by rintro ⟨⟩) fun h => ?_
    have := h.1
    omega
  rw [if_neg hoverflow] at hends ⊢
  cases schedule with
  | nil => exact absurd rfl hends
  | cons first rest =>
    dsimp only at hends ⊢
    by_cases hlength : 0 ≤ targetlen eol ∧ targetlen eol < 2 ^ 31 - 1
    · obtain ⟨htarget, hint⟩ := hlength
      rw [afterFirst_lossless_iff htarget hint first rest c hends, firstGet,
        ← along_iff htarget hint]
      constructor
      · intro h
        refine ⟨htarget, hint, fun first' rest' hschedule => ?_⟩
        obtain ⟨rfl, rfl⟩ := List.cons.inj hschedule
        exact h
      · rintro ⟨_, _, h⟩
        exact h first rest rfl
    · refine iff_of_false ?_ fun h => hlength ⟨h.1, h.2.1⟩
      have hbad : (firstGet clock eol timeout first c).1 = .lengthError
          ∨ (firstGet clock eol timeout first c).1 = .undefined := firstGet_bad hlength first c
      generalize firstGet clock eol timeout first c = out at hbad ⊢
      obtain ⟨r, c'⟩ := out
      rcases hbad with hbad | hbad
      · cases hbad
        exact id
      · cases hbad
        exact id

/-- A line in two pieces. -/
theorem getln_lossless_twoPieces :
    CallKeeps (fun _ => 0) [13] 0 10 [[.data 0], [.data 0]] ⟨[97, 13, 98], 0⟩ := by
  have hcall : getln (fun _ => 0) [13] 0 10 [[.data 0], [.data 0]] ⟨[97, 13, 98], 0⟩
      = (.returns [97, 13], ⟨[98], 10⟩) := by decide
  refine (getln_lossless_iff _ _ _ _ _ _ ?_).mp ?_
  · rw [hcall]
    exact nofun
  · rw [hcall]
    rfl

/-- The peer sends two bytes and closes in the middle of the line: both bytes are gone. -/
theorem getln_close_loses :
    getln (fun _ => 0) [13] 0 10 [[.data 0], [.data 0], [.closed]] ⟨[97, 98], 0⟩
        = (.throws .notOpen [], ⟨[], 13⟩)
      ∧ ¬ Lossless ⟨[97, 98], 0⟩
        (getln (fun _ => 0) [13] 0 10 [[.data 0], [.data 0], [.closed]] ⟨[97, 98], 0⟩) := by
  have hcall : getln (fun _ => 0) [13] 0 10 [[.data 0], [.data 0], [.closed]] ⟨[97, 98], 0⟩
      = (.throws .notOpen [], ⟨[], 13⟩) := by decide
  rw [hcall]
  exact ⟨rfl, nofun⟩

end Nrtb.TcpSocket
