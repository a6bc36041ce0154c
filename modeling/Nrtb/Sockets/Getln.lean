import Nrtb.Sockets.TcpSocket

/-!
# `tcp_socket::getln`

`cpp/common/sockets/base_socket.cpp`, lines 406–493. The schedule of a call has one list of
`recv` outcomes for every call of `get`.

The `while` loop is a recursion on that list. A round calls `get` (`roundGet`), and what follows it
up to the test of the loop is a function of the result alone (`afterGet`), so that the three
developments that follow, on framing, on lost bytes and on the deadline, share one account of a
round and differ in the invariant.

* `roundGet_ends`: what a round of the loop takes from the stream, and how it goes on.
* `firstGet_delivers`: the same of the call of `get` in front of the loop; `firstGet_bad` for the
  terminators whose length makes that call fail at once.
-/

namespace Nrtb.TcpSocket

/-! ## The loop -/

/-- `int targetlen = eol.length()` -/
def targetlen (eol : List Byte) : Int := CInt.toInt eol.length

/-- `int searchlen = targetlen - 1` -/
def searchlen (eol : List Byte) : Int := targetlen eol - 1

/-- `returnme.length() >= targetlen`, and `eol` is found in the last `targetlen` bytes. -/
def success (eol returnme : List Byte) : Bool :=
  (targetlen eol).toNat ≤ returnme.length
    && (Search.find returnme eol (CInt.sizeSub returnme.length (targetlen eol).toNat)).isSome

/-- `(maxlen > 0) && (returnme.length() >= maxlen)` -/
def overlong (maxlen : Int) (returnme : List Byte) : Bool :=
  decide (0 < maxlen ∧ maxlen ≤ returnme.length)

/-- The length of the next chunk: less than a token's worth, unless a token start is near. The
difference of the lengths is one of `size_t` values. -/
def getlen (eol returnme : List Byte) : Int :=
  if 1 < searchlen eol
      ∧ Search.find returnme (eol.take 1)
        (CInt.sizeSub returnme.length (searchlen eol).toNat) = none
  then searchlen eol else 1

/-- The exception of a call that was not successful. -/
def fail (maxlen : Int) (returnme : List Byte) : Result :=
  if overlong maxlen returnme then .throws .overrun returnme else .throws .timeout returnme

section Loop

variable (clock : Nat → Int) (eol : List Byte) (maxlen timeout endtime : Int)

/-- The call of `get` in a round of the loop, with the time that is left. -/
def roundGet (rs : List Receive) (c : Conn) (returnme : List Byte) : Result × Conn :=
  let timeleft := CInt.toInt (endtime - clock c.reads)
  get clock (getlen eol returnme) (if 0 < timeleft then timeleft else 0) rs c.tick

/-- How a round goes on after its `get`: the loop is left, or it goes on with what has been
collected. -/
inductive Round where
  | stop (r : Result)
  | again (returnme : List Byte)
deriving DecidableEq

def Round.finish (c : Conn) (loop : List Byte → Result × Conn) : Round → Result × Conn
  | stop r => (r, c)
  | again returnme => loop returnme

/-- The checks at the end of a round and of the loop. -/
def check (returnme : List Byte) (done : Bool) : Round :=
  if success eol returnme then .stop (.returns returnme)
  else if done || overlong maxlen returnme then .stop (fail maxlen returnme)
  else .again returnme

/-- The rest of a round, the `catch` of `timeout_exception` first. -/
def afterGet (returnme : List Byte) : Result → Round
  | .returns s => check eol maxlen (returnme ++ s) false
  | .throws .timeout _ => check eol maxlen returnme (decide (0 ≤ timeout))
  | r => .stop r

/-- `while (!done && !success)` and what follows it. -/
def getlnLoop : List (List Receive) → Conn → List Byte → Result × Conn
  | [], c, _ => (.blocked, c)
  | rs :: rest, c, returnme =>
    let out := roundGet clock eol endtime rs c returnme
    (afterGet eol maxlen timeout returnme out.1).finish out.2 fun returnme =>
      getlnLoop rest out.2 returnme

end Loop

/-- The `get` in front of the loop. -/
def firstGet (clock : Nat → Int) (eol : List Byte) (timeout : Int) (first : List Receive)
    (c : Conn) : Result × Conn :=
  get clock (targetlen eol) (if timeout < 0 then 0 else timeout) first c.tick

/-- What `getln` does once that has ended. -/
def afterFirst (clock : Nat → Int) (eol : List Byte) (maxlen timeout endtime : Int)
    (rest : List (List Receive)) : Result × Conn → Result × Conn
  | (.returns returnme, c) =>
    if success eol returnme then (.returns returnme, c)
    else getlnLoop clock eol maxlen timeout endtime rest c returnme
  | (.throws .timeout returnme, c) =>
    if 0 ≤ timeout then (fail maxlen returnme, c)
    else if success eol returnme then (.returns returnme, c)
    else getlnLoop clock eol maxlen timeout endtime rest c returnme
  | (r, c) => (r, c)

/-- `tcp_socket::getln` -/
def getln (clock : Nat → Int) (eol : List Byte) (maxlen timeout : Int)
    (schedule : List (List Receive)) (c : Conn) : Result × Conn :=
  if eol = [] then (.throws .badArgs [], c)
  else if maxlen < 0 then (.lengthError, c)
  else if targetlen eol = -2 ^ 31 then (.undefined, c)
  else match schedule with
    | [] => (.blocked, c)
    | first :: rest =>
      afterFirst clock eol maxlen timeout (clock c.reads + timeout) rest
        (firstGet clock eol timeout first c)

/-! ## What a round comes to -/

section Rounds

variable {clock : Nat → Int} {eol : List Byte} {maxlen timeout endtime : Int}

theorem targetlen_lt (eol : List Byte) : targetlen eol < 2 ^ 31 := CInt.toInt_lt _

theorem getlen_range (eol returnme : List Byte) :
    0 < getlen eol returnme ∧ getlen eol returnme < 2 ^ 31 - 1 := by
  have := targetlen_lt eol
  unfold getlen searchlen
  split <;> omega

/-- The call ended with the collected bytes, returned or as a comment. -/
def HandsOver (returnme : List Byte) (r : Result) : Prop :=
  r = .returns returnme ∨ ∃ e, r = .throws e returnme

theorem fail_handsOver (maxlen : Int) (returnme : List Byte) :
    HandsOver returnme (fail maxlen returnme) := by
  unfold fail
  split
  · exact .inr ⟨_, rfl⟩
  · exact .inr ⟨_, rfl⟩

/-- The round went on with the collected bytes, or was the last one and handed them over. -/
def GoesOn (returnme : List Byte) (round : Round) : Prop :=
  (∃ r, round = .stop r ∧ HandsOver returnme r) ∨ round = .again returnme

theorem check_goesOn (eol : List Byte) (maxlen : Int) (returnme : List Byte) (done : Bool) :
    GoesOn returnme (check eol maxlen returnme done) := by
  unfold check
  split
  · exact .inl ⟨_, rfl, .inl rfl⟩
  · split
    · exact .inl ⟨_, rfl, fail_handsOver maxlen returnme⟩
    · exact .inr rfl

theorem check_stop {returnme s : List Byte} {done : Bool}
    (h : check eol maxlen returnme done = .stop (.returns s)) :
    s = returnme ∧ success eol returnme = true := by
  unfold check at h
  split at h
  · next hsuccess => exact ⟨(Result.returns.inj (Round.stop.inj h)).symm, hsuccess⟩
  · split at h
    · have hfail := Round.stop.inj h
      unfold fail at hfail
      split at hfail <;> cases hfail
    · cases h

theorem check_again {returnme held : List Byte} {done : Bool}
    (h : check eol maxlen returnme done = .again held) :
    held = returnme ∧ success eol returnme = false ∧ done = false
      ∧ overlong maxlen returnme = false := by
  unfold check at h
  split at h
  · cases h
  · next hsuccess =>
    split at h
    · cases h
    · next hmore =>
      rw [Bool.or_eq_true, not_or, Bool.not_eq_true, Bool.not_eq_true] at hmore
      exact ⟨(Round.again.inj h).symm, Bool.not_eq_true _ ▸ hsuccess, hmore.1, hmore.2⟩

/-- What a round of the loop comes to, with what its `get` took from the stream. -/
inductive RoundEnds (eol : List Byte) (maxlen timeout : Int) (returnme b : List Byte) :
    Result → Round → Prop
  | returns :
      RoundEnds eol maxlen timeout returnme b (.returns b) (check eol maxlen (returnme ++ b) false)
  | timedOut :
      RoundEnds eol maxlen timeout returnme b (.throws .timeout b)
        (check eol maxlen returnme (decide (0 ≤ timeout)))
  | fails (e : Fault) (he : e ≠ .timeout) (hnil : b = []) :
      RoundEnds eol maxlen timeout returnme b (.throws e []) (.stop (.throws e []))
  | blocked : RoundEnds eol maxlen timeout returnme b .blocked (.stop .blocked)

theorem roundGet_ends (clock : Nat → Int) (eol : List Byte) (maxlen timeout endtime : Int)
    (rs : List Receive) (c : Conn) (returnme : List Byte) :
    ∃ b, c.unread = b ++ (roundGet clock eol endtime rs c returnme).2.unread
      ∧ b.length ≤ getlen eol returnme
      ∧ RoundEnds eol maxlen timeout returnme b (roundGet clock eol endtime rs c returnme).1
        (afterGet eol maxlen timeout returnme (roundGet clock eol endtime rs c returnme).1) := by
  obtain ⟨hmin, hint⟩ := getlen_range eol returnme
  let timeleft := CInt.toInt (endtime - clock c.reads)
  have hget : roundGet clock eol endtime rs c returnme
      = get clock (getlen eol returnme) (if 0 < timeleft then timeleft else 0) rs c.tick := rfl
  obtain ⟨b, hunread, hlength, hdelivers⟩ := get_delivers clock
    (if 0 < timeleft then timeleft else 0) hmin.le hint rs c.tick
  rw [← hget] at hunread hdelivers
  refine ⟨b, hunread, hlength, ?_⟩
  generalize (roundGet clock eol endtime rs c returnme).1 = r at hdelivers ⊢
  cases hdelivers with
  | returns => exact .returns
  | timedOut _ => exact .timedOut
  | notOpen hnil => exact .fails .notOpen nofun hnil
  | general hnil => exact .fails .general nofun hnil
  | blocked => exact .blocked

/-- A call with usable arguments. -/
theorem getln_eq (hne : eol ≠ []) (hmaxlen : ¬ maxlen < 0) (hoverflow : targetlen eol ≠ -2 ^ 31)
    (first : List Receive) (rest : List (List Receive)) (c : Conn) :
    getln clock eol maxlen timeout (first :: rest) c
      = afterFirst clock eol maxlen timeout (clock c.reads + timeout) rest
        (firstGet clock eol timeout first c) := by
  rw [getln, if_neg hne, if_neg hmaxlen, if_neg hoverflow]

/-- The first `get` loses nothing. -/
theorem firstGet_delivers (clock : Nat → Int) (timeout : Int) (htarget : 0 ≤ targetlen eol)
    (hint : targetlen eol < 2 ^ 31 - 1)
    (first : List Receive) (c : Conn) :
    ∃ b, c.unread = b ++ (firstGet clock eol timeout first c).2.unread
      ∧ b.length ≤ targetlen eol
      ∧ Delivers (if timeout < 0 then 0 else timeout) b (firstGet clock eol timeout first c).1 := by
  rw [firstGet]
  obtain ⟨b, hunread, hlength, hdelivers⟩ := get_delivers clock
    (if timeout < 0 then 0 else timeout) htarget hint first c.tick
  exact ⟨b, hunread, hlength, hdelivers⟩

/-- The first `get` cannot be called with these lengths. -/
theorem firstGet_bad (hbad : ¬ (0 ≤ targetlen eol ∧ targetlen eol < 2 ^ 31 - 1))
    (first : List Receive) (c : Conn) :
    (firstGet clock eol timeout first c).1 = .lengthError
      ∨ (firstGet clock eol timeout first c).1 = .undefined := by
  have hlt := targetlen_lt eol
  rw [firstGet]
  by_cases htarget : targetlen eol < 0
  · rw [get, if_pos htarget]
    exact .inl rfl
  · have hlargest : targetlen eol = 2 ^ 31 - 1 := by omega
    rw [hlargest, get_undefined]
    exact .inr rfl

/-- It times out only when the caller has given a timeout. -/
theorem nonneg_of_wait_pos (h : 0 < if timeout < 0 then 0 else timeout) : 0 ≤ timeout := by
  split at h
  · exact absurd h (lt_irrefl 0)
  · omega

end Rounds

end Nrtb.TcpSocket
