import Nrtb.Sockets.Collecting

/-!
# The deadline of `tcp_socket::getln`

The loop of `getln` is left for the time only by the exception of a `get`. Behind the deadline
`get` is called with a timeout of 0, which makes it return what there is at once. With a silent peer
that is nothing, and the loop goes on (`loopCalls_silent`): the receiver thread of a bot never
leaves a half-sent line.

The calls of `get` are counted by the readings of the clock that come before them (`getCalls`), and
the condition is on the outcomes of `recv` in the first round that begins past the deadline
(`LoopConcludes`).

* `loopConcludes_cons`: the condition, round by round.
* `loopCalls_late`: past the deadline a run whose rounds conclude makes one more call of `get`;
  `loopCalls_two`: any other run makes two.
* `getlnLoop_ends`: under a clock that advances a loop whose runs conclude ends, by induction on the
  readings that are left before the deadline.
* `getln_respects_iff`: a call respects its deadline exactly when every beginning of its run
  concludes.
-/

namespace Nrtb.TcpSocket

/-! ## The calls of `get` -/

/-- The calls that follow a round. -/
def Round.calls (loop : List Byte → List Nat) : Round → List Nat
  | stop _ => []
  | again returnme => loop returnme

section Calls

variable (clock : Nat → Int) (eol : List Byte) (maxlen timeout endtime : Int)

/-- For every call of `get` in the loop, how often the clock has been read before it. -/
def loopCalls : List (List Receive) → Conn → List Byte → List Nat
  | [], c, _ => [c.reads + 1]
  | rs :: rest, c, returnme =>
    let out := roundGet clock eol endtime rs c returnme
    (c.reads + 1) :: (afterGet eol maxlen timeout returnme out.1).calls fun returnme =>
      loopCalls rest out.2 returnme

/-- What the loop is entered with after the first `get`. -/
def entersLoop : Result → Option (List Byte)
  | .returns returnme => if success eol returnme then none else some returnme
  | .throws .timeout returnme =>
    if 0 ≤ timeout then none else if success eol returnme then none else some returnme
  | _ => none

/-- The call ends before it calls `get`. -/
def BadCall : Prop := eol = [] ∨ maxlen < 0 ∨ targetlen eol = -2 ^ 31

instance : Decidable (BadCall eol maxlen) := inferInstanceAs (Decidable (_ ∨ _ ∨ _))

/-- The calls that follow the first `get`. -/
def loopCallsAfter (rest : List (List Receive)) (out : Result × Conn) : List Nat :=
  match entersLoop eol timeout out.1 with
  | none => []
  | some returnme => loopCalls clock eol maxlen timeout endtime rest out.2 returnme

/-- For every call of `get` in a call of `getln`, how often the clock has been read before it. -/
def getCalls : List (List Receive) → Conn → List Nat
  | [], c => if BadCall eol maxlen then [] else [c.reads + 1]
  | first :: rest, c =>
    if BadCall eol maxlen then []
    else (c.reads + 1) :: loopCallsAfter clock eol maxlen timeout (clock c.reads + timeout) rest
      (firstGet clock eol timeout first c)

/-! ## The condition -/

/-- A `recv` that ends the call: it finds the connection closed or broken, or its bytes complete
the line or bring it to `maxlen`. -/
def Concludes (returnme : List Byte) : Received → Prop
  | .bytes [] => True
  | .bytes b => success eol (returnme ++ b) = true ∨ overlong maxlen (returnme ++ b) = true
  | .error .eagain => success eol returnme = true ∨ overlong maxlen returnme = true
  | .error .eintr => success eol returnme = true ∨ overlong maxlen returnme = true
  | .error _ => True

/-- The same for a round that begins past the deadline. So far past it that the time left wraps
around to a positive `int`, its `get` waits for more than one `recv`, and when it is left in time
its bytes complete the line or bring it to `maxlen`. -/
def RoundConcludes (rs : List Receive) (c : Conn) (returnme : List Byte) : Prop :=
  let timeleft := CInt.toInt (endtime - clock c.reads)
  if 0 < timeleft then
    Along clock (getlen eol returnme) timeleft True (fun _ _ => True)
      (fun s _ => success eol (returnme ++ s) = true ∨ overlong maxlen (returnme ++ s) = true)
      rs c.tick
  else ∀ r rest, rs = r :: rest →
    Concludes eol maxlen returnme (receive (getlen eol returnme).toNat r c).1

/-- The first round of the loop that begins past the deadline, if there is one, ends the call. A
round before it is followed by another when its `get` is left in time without the line. -/
def LoopConcludes : List (List Receive) → Conn → List Byte → Prop
  | [], _, _ => True
  | rs :: rest, c, returnme =>
    let timeleft := CInt.toInt (endtime - clock c.reads)
    if endtime < clock c.reads then RoundConcludes clock eol maxlen endtime rs c returnme
    else Along clock (getlen eol returnme) (if 0 < timeleft then timeleft else 0) True
      (fun _ _ => True)
      (fun s c' => ∀ held, check eol maxlen (returnme ++ s) false = .again held →
        LoopConcludes rest c' held)
      rs c.tick

/-- The same for the loop that a call comes to when its first `get` is left in time. -/
def CallConcludes (schedule : List (List Receive)) (c : Conn) : Prop :=
  BadCall eol maxlen ∨ ∀ first rest, schedule = first :: rest →
    0 ≤ targetlen eol → targetlen eol < 2 ^ 31 - 1 →
      Along clock (targetlen eol) timeout True (fun _ _ => True)
        (fun s c' => success eol s = false →
          LoopConcludes clock eol maxlen (clock c.reads + timeout) rest c' s)
        first c.tick

end Calls

/-! ## One round -/

variable {clock : Nat → Int} {eol : List Byte} {maxlen timeout endtime : Int}

theorem check_again_iff (s : List Byte) :
    (∀ held, check eol maxlen s false ≠ .again held)
      ↔ success eol s = true ∨ overlong maxlen s = true := by
  unfold check
  split
  · next hsuccess => exact iff_of_true nofun (.inl hsuccess)
  · next hsuccess =>
    rw [Bool.false_or]
    split
    · next hlong => exact iff_of_true nofun (.inr hlong)
    · next hlong =>
      refine iff_of_false (fun h => h s rfl) ?_
      rintro (h | h)
      · exact hsuccess h
      · exact hlong h

theorem receive_tick (limit : Nat) (r : Receive) (c : Conn) :
    (receive limit r c.tick).1 = (receive limit r c).1 := by
  cases r with
  | data n =>
    by_cases hnone : c.unread = [] ∧ limit ≠ 0
    · rw [receive, receive, Conn.tick_unread, if_pos hnone, if_pos hnone]
    · rw [receive, receive, Conn.tick_unread, if_neg hnone, if_neg hnone]
  | _ => rfl

/-- A `get` that is told not to wait looks once at what there is. -/
theorem get_noWait {m : Int} (hmin : 0 < m) (hint : m < 2 ^ 31 - 1) (r : Receive)
    (rs : List Receive) (c : Conn) :
    (get clock m 0 (r :: rs) c).1 = match collect 0 [] (receive m.toNat r c).1 with
      | .error e => .throws e []
      | .ok (held, _) => .returns held := by
  have hreceive : (roundReceive m r c.tick []).1 = (receive m.toNat r c).1 := by
    rw [roundReceive, limit_nil hmin.le (by omega), receive_tick, receive_tick]
  have hroom : Room m [] := .nil hmin.le hint
  rw [get, if_neg (by omega)]
  generalize hcollect : collect 0 [] (receive m.toNat r c).1 = out
  rw [← hreceive] at hcollect
  cases out with
  | error e => rw [getLoop_throws hroom hcollect]
  | ok p =>
    obtain ⟨held, done⟩ := p
    rw [getLoop_leaves hroom hcollect (.inr (.inr (.inr rfl)))]
    rfl

theorem roundGet_eq (rs : List Receive) (c : Conn) (returnme : List Byte)
    (hlate : ¬ 0 < CInt.toInt (endtime - clock c.reads)) :
    roundGet clock eol endtime rs c returnme = get clock (getlen eol returnme) 0 rs c.tick := by
  rw [roundGet, if_neg hlate]

/-- What is asked of the rounds that follow one, by what the `get` of that one comes to. The
timeout of a `get` is not followed by another, since the caller gave one. -/
theorem along_again_iff (htimeout : 0 < timeout) (P : Conn → List Byte → Prop)
    (rs : List Receive) (c : Conn) (returnme : List Byte) {timeleft : Int}
    (hleft : CInt.toInt (endtime - clock c.reads) = timeleft) :
    Along clock (getlen eol returnme) (if 0 < timeleft then timeleft else 0) True
        (fun _ _ => True)
        (fun s c' => ∀ held, check eol maxlen (returnme ++ s) false = .again held → P c' held)
        rs c.tick
      ↔ ∀ held, afterGet eol maxlen timeout returnme
        (roundGet clock eol endtime rs c returnme).1 = .again held →
          P (roundGet clock eol endtime rs c returnme).2 held := by
  obtain ⟨hmin, hint⟩ := getlen_range eol returnme
  subst hleft
  rw [along_iff hmin.le hint, ← roundGet]
  obtain ⟨b, _, _, hround⟩ := roundGet_ends clock eol maxlen timeout endtime rs c returnme
  generalize afterGet eol maxlen timeout returnme
    (roundGet clock eol endtime rs c returnme).1 = round at hround ⊢
  generalize roundGet clock eol endtime rs c returnme = out at hround ⊢
  obtain ⟨r, c'⟩ := out
  cases hround with
  | returns => exact Iff.rfl
  | timedOut =>
    refine iff_of_true trivial fun held hagain => ?_
    obtain ⟨_, _, hdone, _⟩ := check_again hagain
    exact absurd htimeout (Int.not_lt.mpr (Int.not_le.mp (of_decide_eq_false hdone)).le)
  | fails e he hnil =>
    refine iff_of_true ?_ nofun
    cases e with
    | timeout => exact absurd rfl he
    | _ => trivial
  | blocked => exact iff_of_true trivial nofun

/-- Past the deadline a round ends the call exactly when it concludes. -/
theorem roundConcludes_iff (htimeout : 0 < timeout) (rs : List Receive) (c : Conn)
    (returnme : List Byte) :
    RoundConcludes clock eol maxlen endtime rs c returnme
      ↔ ∀ held, afterGet eol maxlen timeout returnme
        (roundGet clock eol endtime rs c returnme).1 ≠ .again held := by
  obtain ⟨hmin, hint⟩ := getlen_range eol returnme
  rw [RoundConcludes]
  split
  · next hpos =>
    refine Iff.trans ?_ (along_again_iff htimeout (fun _ _ => False) rs c returnme rfl)
    rw [if_pos hpos]
    simp only [← check_again_iff]
  · next hlate =>
    rw [roundGet_eq rs c returnme hlate]
    cases rs with
    | nil =>
      refine iff_of_true (by simp) ?_
      rw [get, if_neg (by omega), getLoop_nil (.nil hmin.le hint)]
      exact fun _ hagain => by cases hagain
    | cons r rest =>
      rw [get_noWait hmin hint, receive_tick]
      have hsame : (∀ r' rest', r :: rest = r' :: rest' →
            Concludes eol maxlen returnme (receive (getlen eol returnme).toNat r' c).1)
          ↔ Concludes eol maxlen returnme (receive (getlen eol returnme).toNat r c).1 := by
        constructor
        · exact fun h => h r rest rfl
        · rintro h r' rest' heq
          rwa [← (List.cons.inj heq).1]
      rw [hsame]
      cases (receive (getlen eol returnme).toNat r c).1 with
      | bytes b =>
        cases b with
        | nil => exact iff_of_true trivial fun _ hagain => by cases hagain
        | cons x b => exact (check_again_iff (returnme ++ x :: b)).symm
      | error errno =>
        have hnothing : (success eol returnme = true ∨ overlong maxlen returnme = true)
            ↔ ∀ held, check eol maxlen (returnme ++ []) false ≠ .again held := by
          rw [check_again_iff, List.append_nil]
        cases errno with
        | eagain => exact hnothing
        | eintr => exact hnothing
        | _ => exact iff_of_true trivial fun _ hagain => by cases hagain

/-- What the condition says of a round: past the deadline no other follows it, and before it the
rounds that do are asked the same. -/
theorem loopConcludes_cons (htimeout : 0 < timeout) (rs : List Receive)
    (rest : List (List Receive)) (c : Conn) (returnme : List Byte) :
    LoopConcludes clock eol maxlen endtime (rs :: rest) c returnme
      ↔ ∀ held, afterGet eol maxlen timeout returnme
        (roundGet clock eol endtime rs c returnme).1 = .again held →
          ¬ endtime < clock c.reads ∧ LoopConcludes clock eol maxlen endtime rest
            (roundGet clock eol endtime rs c returnme).2 held := by
  rw [LoopConcludes]
  split
  · next hpast =>
    rw [roundConcludes_iff htimeout]
    exact ⟨fun h held hagain => absurd hagain (h held), fun h held hagain =>
      absurd hpast (h held hagain).1⟩
  · next hpast =>
    refine (along_again_iff htimeout (LoopConcludes clock eol maxlen endtime rest) rs c
      returnme rfl).trans ?_
    exact ⟨fun h held hagain => ⟨hpast, h held hagain⟩, fun h held hagain => (h held hagain).2⟩

/-! ## The clock goes on -/

theorem expired_reads_le (clock : Nat → Int) (timeout endtime : Int) (c : Conn) :
    c.reads ≤ (expired clock timeout endtime c).2.reads := by
  unfold expired
  split
  · exact Nat.le_succ _
  · exact le_refl _

theorem getLoop_reads_le (rs : List Receive) (c : Conn) (returnme : List Byte) :
    c.reads ≤ (getLoop clock maxlen timeout endtime rs c returnme).2.reads := by
  induction rs generalizing c returnme with
  | nil =>
    by_cases hroom : Room maxlen returnme
    · rw [getLoop_nil hroom]
    · rw [getLoop_overflow hroom]
      exact Nat.le_succ _
  | cons r rs ih =>
    by_cases hroom : Room maxlen returnme
    swap
    · rw [getLoop_overflow hroom]
      exact Nat.le_succ _
    have htick : c.reads ≤ (roundReceive maxlen r c returnme).2.reads := by
      rw [roundReceive_reads]
      exact Nat.le_succ _
    have hfirst := htick.trans (expired_reads_le clock timeout endtime _)
    cases hcollect : collect timeout returnme (roundReceive maxlen r c returnme).1 with
    | error e => rwa [getLoop_throws hroom hcollect]
    | ok p =>
      obtain ⟨held, done⟩ := p
      by_cases hleaves : Leaves clock maxlen timeout endtime held done
          (roundReceive maxlen r c returnme).2
      · rw [getLoop_leaves hroom hcollect hleaves]
        have hsecond := hfirst.trans (expired_reads_le clock timeout endtime _)
        split
        · exact hsecond
        · exact hsecond
      · rw [getLoop_goesOn hroom hcollect hleaves]
        exact hfirst.trans (ih _ held)

theorem roundGet_reads_lt (clock : Nat → Int) (eol : List Byte) (endtime : Int)
    (rs : List Receive) (c : Conn) (returnme : List Byte) :
    c.reads < (roundGet clock eol endtime rs c returnme).2.reads := by
  obtain ⟨hmin, _⟩ := getlen_range eol returnme
  have htick : c.reads < c.tick.tick.reads := by
    rw [Conn.tick_reads, Conn.tick_reads]
    omega
  rw [roundGet, get, if_neg (by omega)]
  exact htick.trans_le (getLoop_reads_le rs c.tick.tick [])

/-! ## The calls past the deadline -/

theorem loopCalls_head (clock : Nat → Int) (eol : List Byte) (maxlen timeout endtime : Int)
    (schedule : List (List Receive)) (c : Conn) (returnme : List Byte) :
    ∃ calls, loopCalls clock eol maxlen timeout endtime schedule c returnme
      = (c.reads + 1) :: calls := by
  cases schedule with
  | nil => exact ⟨[], rfl⟩
  | cons rs rest =>
    rw [loopCalls]
    exact ⟨_, rfl⟩

theorem loopCalls_again {rs : List Receive} {c : Conn} {returnme held : List Byte}
    (hagain : afterGet eol maxlen timeout returnme (roundGet clock eol endtime rs c returnme).1
      = .again held) (rest : List (List Receive)) :
    loopCalls clock eol maxlen timeout endtime (rs :: rest) c returnme
      = (c.reads + 1) :: loopCalls clock eol maxlen timeout endtime rest
        (roundGet clock eol endtime rs c returnme).2 held := by
  rw [loopCalls, hagain]
  rfl

theorem loopCalls_stop {rs : List Receive} {c : Conn} {returnme : List Byte}
    (hstop : ∀ held, afterGet eol maxlen timeout returnme
      (roundGet clock eol endtime rs c returnme).1 ≠ .again held) (rest : List (List Receive)) :
    loopCalls clock eol maxlen timeout endtime (rs :: rest) c returnme = [c.reads + 1] := by
  rw [loopCalls]
  cases hround : afterGet eol maxlen timeout returnme
      (roundGet clock eol endtime rs c returnme).1 with
  | stop r => rfl
  | again held => exact absurd hround (hstop held)

/-- The calls that begin after reading `k` of the clock. -/
def callsAfter (k : Nat) (calls : List Nat) : Nat := (calls.filter (k < ·)).length

theorem callsAfter_cons_of_lt {k n : Nat} (h : k < n) (calls : List Nat) :
    callsAfter k (n :: calls) = callsAfter k calls + 1 := by
  rw [callsAfter, List.filter_cons, if_pos (decide_eq_true h), List.length_cons, callsAfter]

theorem callsAfter_cons_of_le {k n : Nat} (h : n ≤ k) (calls : List Nat) :
    callsAfter k (n :: calls) = callsAfter k calls := by
  have hnot : ¬ decide (k < n) = true := fun hlt => absurd (of_decide_eq_true hlt) (by omega)
  rw [callsAfter, List.filter_cons, if_neg hnot, callsAfter]

/-- Past the deadline a run makes at most one more call, when it concludes. -/
theorem loopCalls_late (hclock : Monotone clock) (htimeout : 0 < timeout)
    (schedule : List (List Receive)) (c : Conn) (returnme : List Byte)
    (h : LoopConcludes clock eol maxlen endtime schedule c returnme) {k : Nat}
    (hlate : endtime < clock k) :
    callsAfter k (loopCalls clock eol maxlen timeout endtime schedule c returnme) ≤ 1 := by
  have hone : ∀ n, callsAfter k [n] ≤ 1 := fun n => List.length_filter_le _ [n]
  induction schedule generalizing c returnme with
  | nil => exact hone _
  | cons rs rest ih =>
    rw [loopConcludes_cons htimeout] at h
    cases hround : afterGet eol maxlen timeout returnme
        (roundGet clock eol endtime rs c returnme).1 with
    | stop r =>
      rw [loopCalls_stop (by rw [hround]; exact nofun)]
      exact hone _
    | again held =>
      obtain ⟨hbefore, hrest⟩ := h held hround
      -- reading `k` is still to come, so this call does not count
      have hk : c.reads < k := by
        by_contra hle
        exact hbefore (hlate.trans_le (hclock (Nat.not_lt.mp hle)))
      rw [loopCalls_again hround, callsAfter_cons_of_le hk]
      exact ih _ held hrest

/-- Otherwise it makes two. -/
theorem loopCalls_two (htimeout : 0 < timeout) (schedule : List (List Receive)) (c : Conn)
    (returnme : List Byte)
    (h : ¬ LoopConcludes clock eol maxlen endtime schedule c returnme) :
    ∃ k, endtime < clock k ∧ c.reads ≤ k
      ∧ 2 ≤ callsAfter k (loopCalls clock eol maxlen timeout endtime schedule c returnme) := by
  induction schedule generalizing c returnme with
  | nil =>
    rw [LoopConcludes] at h
    exact absurd trivial h
  | cons rs rest ih =>
    rw [loopConcludes_cons htimeout] at h
    push Not at h
    obtain ⟨held, hagain, hgoesOn⟩ := h
    have hreads := roundGet_reads_lt clock eol endtime rs c returnme
    by_cases hpast : endtime < clock c.reads
    · refine ⟨c.reads, hpast, le_refl _, ?_⟩
      obtain ⟨calls, hcalls⟩ := loopCalls_head clock eol maxlen timeout endtime rest
        (roundGet clock eol endtime rs c returnme).2 held
      rw [loopCalls_again hagain, hcalls, callsAfter_cons_of_lt (Nat.lt_add_one c.reads),
        callsAfter_cons_of_lt (Nat.lt_add_one_of_lt hreads)]
      exact Nat.le_add_left 2 _
    · obtain ⟨k, hlate, hk, htwo⟩ := ih _ held (hgoesOn (not_lt.mp hpast))
      refine ⟨k, hlate, hreads.le.trans hk, ?_⟩
      rw [loopCalls_again hagain, callsAfter_cons_of_le (hreads.trans_le hk)]
      exact htwo

/-- The calls are the ones that the run makes: each takes one entry of the schedule. -/
theorem loopCalls_used (schedule : List (List Receive)) (c : Conn) (returnme : List Byte) :
    getlnLoop clock eol maxlen timeout endtime
        (schedule.take (loopCalls clock eol maxlen timeout endtime schedule c returnme).length)
        c returnme
      = getlnLoop clock eol maxlen timeout endtime schedule c returnme := by
  induction schedule generalizing c returnme with
  | nil => rw [List.take_nil]
  | cons rs rest ih =>
    cases hround : afterGet eol maxlen timeout returnme
        (roundGet clock eol endtime rs c returnme).1 with
    | stop r =>
      rw [loopCalls_stop (by rw [hround]; exact nofun), List.length_singleton, List.take_succ_cons,
        getlnLoop, getlnLoop, hround]
      rfl
    | again held =>
      rw [loopCalls_again hround, List.length_cons, List.take_succ_cons, getlnLoop, getlnLoop,
        hround]
      exact ih _ held

/-! ## Under a clock that advances -/

/-- The clock passes every time. -/
def Advances (clock : Nat → Int) : Prop := ∀ t, ∃ k, t < clock k

theorem getLoop_leaves_ends {r : Receive} {c : Conn} {returnme held : List Byte} {done : Bool}
    (hroom : Room maxlen returnme)
    (hcollect : collect timeout returnme (roundReceive maxlen r c returnme).1 = .ok (held, done))
    (hleaves : Leaves clock maxlen timeout endtime held done (roundReceive maxlen r c returnme).2)
    (rs : List Receive) :
    (getLoop clock maxlen timeout endtime (r :: rs) c returnme).1 ≠ .blocked := by
  rw [getLoop_leaves hroom hcollect hleaves]
  split <;> exact nofun

/-- A `get` with a timeout ends once reading `K` of the clock has been made. -/
theorem getLoop_ends {K : Nat} (hlate : ∀ k, K ≤ k → endtime < clock k) (htimeout : 0 < timeout)
    (rs : List Receive) (c : Conn) (returnme : List Byte) (hsome : rs ≠ [])
    (hlength : K < c.reads + rs.length) :
    (getLoop clock maxlen timeout endtime rs c returnme).1 ≠ .blocked := by
  induction rs generalizing c returnme with
  | nil => exact absurd rfl hsome
  | cons r rs ih =>
    by_cases hroom : Room maxlen returnme
    swap
    · rw [getLoop_overflow hroom]
      exact nofun
    cases hcollect : collect timeout returnme (roundReceive maxlen r c returnme).1 with
    | error e =>
      rw [getLoop_throws hroom hcollect]
      exact nofun
    | ok p =>
      obtain ⟨held, done⟩ := p
      by_cases hleaves : Leaves clock maxlen timeout endtime held done
          (roundReceive maxlen r c returnme).2
      · exact getLoop_leaves_ends hroom hcollect hleaves rs
      · have hearly : c.reads + 1 < K := by
          by_contra hpast
          refine hleaves (.inr (.inr (.inl (expired_iff.mpr ⟨htimeout, ?_⟩))))
          rw [roundReceive_reads]
          exact hlate _ (Nat.not_lt.mp hpast)
        rw [List.length_cons] at hlength
        rw [getLoop_goesOn hroom hcollect hleaves]
        refine ih _ held ?_ ?_
        · rintro rfl
          rw [List.length_nil] at hlength
          omega
        · rw [expired_reads_of_pos htimeout, roundReceive_reads]
          omega

theorem get_ends (hclock : Monotone clock) (hadvances : Advances clock) (maxlen : Int)
    (hnonneg : 0 ≤ timeout) (c : Conn) :
    ∃ n, ∀ rs : List Receive, n ≤ rs.length → (get clock maxlen timeout rs c).1 ≠ .blocked := by
  obtain ⟨K, hK⟩ := hadvances (clock c.reads + timeout)
  refine ⟨K + 1, fun rs hlength => ?_⟩
  have hsome : rs ≠ [] := by
    rintro rfl
    rw [List.length_nil] at hlength
    omega
  rw [get]
  split
  · rintro ⟨⟩
  · rcases hnonneg.lt_or_eq with htimeout | rfl
    · refine getLoop_ends (fun k hk => hK.trans_le (hclock hk)) htimeout rs _ _ hsome ?_
      omega
    · obtain ⟨r, rest, rfl⟩ := List.exists_cons_of_ne_nil hsome
      by_cases hroom : Room maxlen []
      swap
      · rw [getLoop_overflow hroom]
        rintro ⟨⟩
      cases hcollect : collect 0 [] (roundReceive maxlen r c.tick []).1 with
      | error e =>
        rw [getLoop_throws hroom hcollect]
        rintro ⟨⟩
      | ok p => exact getLoop_leaves_ends hroom hcollect (.inr (.inr (.inr rfl))) rest

/-- The schedule is the beginning of one that does not end. -/
def Begins : List (List Receive) → (Nat → Nat → Receive) → Prop
  | [], _ => True
  | rs :: rest, outcomes =>
    rs = (List.range rs.length).map (outcomes 0) ∧ Begins rest fun i => outcomes (i + 1)

theorem afterGet_ends (eol : List Byte) (maxlen timeout : Int) (returnme : List Byte) {r : Result}
    (hends : r ≠ .blocked) : afterGet eol maxlen timeout returnme r ≠ .stop .blocked := by
  have hcheck : ∀ s done, check eol maxlen s done ≠ .stop .blocked := fun s done heq => by
    rcases check_goesOn eol maxlen s done with ⟨r, hstop, rfl | ⟨e, rfl⟩⟩ | hagain
    · cases hstop.symm.trans heq
    · cases hstop.symm.trans heq
    · cases hagain.symm.trans heq
  cases r with
  | returns s => exact hcheck _ _
  | throws e s =>
    cases e with
    | timeout => exact hcheck _ _
    | _ => exact nofun
  | blocked => exact absurd rfl hends
  | _ => exact nofun

/-- A round whose `get` ends and that is not followed by another ends the call. -/
theorem getlnLoop_stop_ends {rs : List Receive} {c : Conn} {returnme : List Byte}
    (hends : (roundGet clock eol endtime rs c returnme).1 ≠ .blocked)
    (hstop : ∀ held, afterGet eol maxlen timeout returnme
      (roundGet clock eol endtime rs c returnme).1 ≠ .again held) (rest : List (List Receive)) :
    (getlnLoop clock eol maxlen timeout endtime (rs :: rest) c returnme).1 ≠ .blocked := by
  have hafter := afterGet_ends eol maxlen timeout returnme hends
  rw [getlnLoop]
  cases hround : afterGet eol maxlen timeout returnme
      (roundGet clock eol endtime rs c returnme).1 with
  | stop r =>
    rw [hround] at hafter
    exact fun heq => hafter (congrArg Round.stop heq)
  | again held => exact absurd hround (hstop held)

/-- Enough of the outcomes let the `get` of a round end. -/
theorem roundGet_ends_of_advances (hclock : Monotone clock) (hadvances : Advances clock)
    (eol : List Byte) (endtime : Int) (outcomes : Nat → Receive) (c : Conn)
    (returnme : List Byte) :
    ∃ rs : List Receive, rs = (List.range rs.length).map outcomes
      ∧ (roundGet clock eol endtime rs c returnme).1 ≠ .blocked := by
  let timeleft := CInt.toInt (endtime - clock c.reads)
  have hnonneg : 0 ≤ if 0 < timeleft then timeleft else 0 := by
    split
    · next hpos => exact hpos.le
    · exact le_refl 0
  obtain ⟨n, hn⟩ := get_ends hclock hadvances (getlen eol returnme) hnonneg c.tick
  refine ⟨(List.range n).map outcomes, ?_, ?_⟩
  · rw [List.length_map, List.length_range]
  · refine hn _ ?_
    rw [List.length_map, List.length_range]

/-- A loop whose runs conclude ends. -/
theorem getlnLoop_ends (hclock : Monotone clock) (hadvances : Advances clock)
    (htimeout : 0 < timeout) {K : Nat} (hlate : endtime < clock K) (n : Nat)
    (outcomes : Nat → Nat → Receive) (c : Conn) (returnme : List Byte) (hn : K ≤ c.reads + n)
    (h : ∀ schedule, Begins schedule outcomes →
      LoopConcludes clock eol maxlen endtime schedule c returnme) :
    ∃ schedule, Begins schedule outcomes
      ∧ (getlnLoop clock eol maxlen timeout endtime schedule c returnme).1 ≠ .blocked := by
  induction n generalizing outcomes c returnme with
  | zero =>
    obtain ⟨rs, hrs, hends⟩ := roundGet_ends_of_advances hclock hadvances eol endtime
      (outcomes 0) c returnme
    have hpast : endtime < clock c.reads := hlate.trans_le (hclock hn)
    have hconcludes := h [rs] ⟨hrs, trivial⟩
    rw [loopConcludes_cons htimeout] at hconcludes
    have hstop : ∀ held, afterGet eol maxlen timeout returnme
        (roundGet clock eol endtime rs c returnme).1 ≠ .again held := fun held hagain =>
      (hconcludes held hagain).1 hpast
    exact ⟨[rs], ⟨hrs, trivial⟩, getlnLoop_stop_ends hends hstop []⟩
  | succ n ih =>
    obtain ⟨rs, hrs, hends⟩ := roundGet_ends_of_advances hclock hadvances eol endtime
      (outcomes 0) c returnme
    have hreads := roundGet_reads_lt clock eol endtime rs c returnme
    cases hround : afterGet eol maxlen timeout returnme
        (roundGet clock eol endtime rs c returnme).1 with
    | stop r =>
      exact ⟨[rs], ⟨hrs, trivial⟩, getlnLoop_stop_ends hends (by rw [hround]; exact nofun) []⟩
    | again held =>
      -- the runs of the rest conclude as well
      have hrest : ∀ schedule, Begins schedule (fun i => outcomes (i + 1)) →
          LoopConcludes clock eol maxlen endtime schedule
            (roundGet clock eol endtime rs c returnme).2 held := fun schedule hbegins => by
        have hconcludes := h (rs :: schedule) ⟨hrs, hbegins⟩
        rw [loopConcludes_cons htimeout] at hconcludes
        exact (hconcludes held hround).2
      obtain ⟨schedule, hbegins, hends'⟩ := ih _ _ held (by omega) hrest
      refine ⟨rs :: schedule, ⟨hrs, hbegins⟩, ?_⟩
      rw [getlnLoop, hround]
      exact hends'

/-! ## The call -/

theorem afterFirst_enters {out : Result × Conn} {held : List Byte}
    (h : entersLoop eol timeout out.1 = some held) (rest : List (List Receive)) :
    afterFirst clock eol maxlen timeout endtime rest out
      = getlnLoop clock eol maxlen timeout endtime rest out.2 held := by
  obtain ⟨r, c⟩ := out
  cases r with
  | returns s =>
    dsimp only [entersLoop] at h
    rw [afterFirst]
    split at h
    · cases h
    · next hsuccess =>
      rw [if_neg hsuccess, Option.some.inj h]
  | throws e s =>
    cases e with
    | timeout =>
      dsimp only [entersLoop] at h
      rw [afterFirst]
      split at h
      · cases h
      · next htimeout =>
        split at h
        · cases h
        · next hsuccess =>
          rw [if_neg htimeout, if_neg hsuccess, Option.some.inj h]
    | _ => cases h
  | _ => cases h

theorem fail_ends (maxlen : Int) (returnme : List Byte) : fail maxlen returnme ≠ .blocked := by
  unfold fail
  split <;> exact nofun

theorem afterFirst_ends {out : Result × Conn} (h : entersLoop eol timeout out.1 = none)
    (hends : out.1 ≠ .blocked) (rest : List (List Receive)) :
    (afterFirst clock eol maxlen timeout endtime rest out).1 ≠ .blocked := by
  obtain ⟨r, c⟩ := out
  cases r with
  | returns s =>
    dsimp only [entersLoop] at h
    rw [afterFirst]
    split at h
    · next hsuccess =>
      rw [if_pos hsuccess]
      rintro ⟨⟩
    · cases h
  | throws e s =>
    cases e with
    | timeout =>
      dsimp only [entersLoop] at h
      rw [afterFirst]
      split at h
      · next htimeout =>
        rw [if_pos htimeout]
        exact fail_ends maxlen s
      · next htimeout =>
        split at h
        · next hsuccess =>
          rw [if_neg htimeout, if_pos hsuccess]
          rintro ⟨⟩
        · cases h
    | _ => rintro ⟨⟩
  | blocked => exact absurd rfl hends
  | _ => rintro ⟨⟩

theorem getln_bad (hcall : BadCall eol maxlen) (schedule : List (List Receive)) (c : Conn) :
    (getln clock eol maxlen timeout schedule c).1 ≠ .blocked := by
  unfold getln
  split
  · exact nofun
  · next heol =>
    split
    · exact nofun
    · next hmaxlen =>
      rw [if_pos ((hcall.resolve_left heol).resolve_left hmaxlen)]
      exact nofun

/-- Once the clock has passed the deadline, `getln` calls `get` once more at the most before it
ends; and under a clock that advances it does end. -/
structure RespectsDeadline (clock : Nat → Int) (eol : List Byte) (maxlen timeout : Int)
    (outcomes : Nat → Nat → Receive) (c : Conn) : Prop where
  atMostOne : ∀ schedule, Begins schedule outcomes → ∀ k, clock c.reads + timeout < clock k →
    callsAfter k (getCalls clock eol maxlen timeout schedule c) ≤ 1
  ends : Advances clock → ∃ schedule, Begins schedule outcomes
    ∧ (getln clock eol maxlen timeout schedule c).1 ≠ .blocked

theorem getCalls_bad (hcall : BadCall eol maxlen) (schedule : List (List Receive)) (c : Conn) :
    getCalls clock eol maxlen timeout schedule c = [] := by
  cases schedule with
  | nil => rw [getCalls, if_pos hcall]
  | cons first rest => rw [getCalls, if_pos hcall]

/-- The call of the first `get` is not one past the deadline. -/
theorem callsAfter_getCalls (hclock : Monotone clock) (htimeout : 0 < timeout)
    (hcall : ¬ BadCall eol maxlen) (first : List Receive) (rest : List (List Receive)) (c : Conn)
    {k : Nat} (hlate : clock c.reads + timeout < clock k) :
    callsAfter k (getCalls clock eol maxlen timeout (first :: rest) c)
      = callsAfter k (loopCallsAfter clock eol maxlen timeout (clock c.reads + timeout) rest
        (firstGet clock eol timeout first c)) := by
  have hk : c.reads < k := by
    by_contra hle
    have := hclock (Nat.not_lt.mp hle)
    omega
  rw [getCalls, if_neg hcall, callsAfter_cons_of_le hk]

/-- What the condition says of the first `get`. -/
theorem callConcludes_cons (htimeout : 0 < timeout) (hcall : ¬ BadCall eol maxlen)
    (first : List Receive) (rest : List (List Receive)) (c : Conn) :
    CallConcludes clock eol maxlen timeout (first :: rest) c
      ↔ ∀ held, entersLoop eol timeout (firstGet clock eol timeout first c).1 = some held →
        LoopConcludes clock eol maxlen (clock c.reads + timeout) rest
          (firstGet clock eol timeout first c).2 held := by
  rw [CallConcludes, or_iff_right hcall]
  by_cases hlength : 0 ≤ targetlen eol ∧ targetlen eol < 2 ^ 31 - 1
  swap
  · -- the first `get` does not return
    refine iff_of_true (fun _ _ _ hmin hint => absurd ⟨hmin, hint⟩ hlength) ?_
    have hbad : (firstGet clock eol timeout first c).1 = .lengthError
        ∨ (firstGet clock eol timeout first c).1 = .undefined := firstGet_bad hlength first c
    intro held henters
    rcases hbad with hbad | hbad
    · rw [hbad] at henters
      cases henters
    · rw [hbad] at henters
      cases henters
  obtain ⟨hmin, hint⟩ := hlength
  have hwait : (if timeout < 0 then 0 else timeout) = timeout := if_neg (by omega)
  have hfirst : (∀ first' rest', first :: rest = first' :: rest' →
        0 ≤ targetlen eol → targetlen eol < 2 ^ 31 - 1 →
          Along clock (targetlen eol) timeout True (fun _ _ => True)
            (fun s c' => success eol s = false →
              LoopConcludes clock eol maxlen (clock c.reads + timeout) rest' c' s)
            first' c.tick)
      ↔ Comes True (fun _ _ => True)
        (fun s c' => success eol s = false →
          LoopConcludes clock eol maxlen (clock c.reads + timeout) rest c' s)
        (firstGet clock eol timeout first c) := by
    rw [firstGet, hwait, ← along_iff hmin hint]
    refine ⟨fun h => h first rest rfl hmin hint, fun h first' rest' hschedule _ _ => ?_⟩
    obtain ⟨rfl, rfl⟩ := List.cons.inj hschedule
    exact h
  rw [hfirst]
  obtain ⟨b, _, _, hdelivers⟩ := firstGet_delivers clock timeout hmin hint first c
  generalize firstGet clock eol timeout first c = out at hdelivers ⊢
  obtain ⟨r, c'⟩ := out
  cases hdelivers with
  | returns =>
    dsimp only [entersLoop, Comes]
    split
    · next hsuccess =>
      refine iff_of_true (fun hfailed => ?_) fun held henters => ?_
      · exact absurd (hfailed.symm.trans hsuccess) Bool.false_ne_true
      · cases henters
    · next hfailed =>
      rw [Bool.not_eq_true] at hfailed
      refine ⟨fun h held hheld => ?_, fun h _ => h b rfl⟩
      obtain rfl := Option.some.inj hheld
      exact h hfailed
  | timedOut _ =>
    rw [entersLoop, if_pos htimeout.le]
    exact iff_of_true trivial fun _ henters => by cases henters
  | notOpen _ => exact iff_of_true trivial fun _ henters => by cases henters
  | general _ => exact iff_of_true trivial fun _ henters => by cases henters
  | blocked => exact iff_of_true trivial fun _ henters => by cases henters

theorem getln_ends (hclock : Monotone clock) (hadvances : Advances clock) (htimeout : 0 < timeout)
    (hcall : ¬ BadCall eol maxlen) {outcomes : Nat → Nat → Receive} {c : Conn}
    (h : ∀ schedule, Begins schedule outcomes →
      CallConcludes clock eol maxlen timeout schedule c) :
    ∃ schedule, Begins schedule outcomes
      ∧ (getln clock eol maxlen timeout schedule c).1 ≠ .blocked := by
  have hnonneg : 0 ≤ if timeout < 0 then 0 else timeout := by
    rw [if_neg (by omega)]
    exact htimeout.le
  have hgood := hcall
  rw [BadCall, not_or, not_or] at hgood
  obtain ⟨heol, hmaxlen, hoverflow⟩ := hgood
  obtain ⟨n, hn⟩ := get_ends hclock hadvances (targetlen eol) hnonneg c.tick
  let first := (List.range n).map (outcomes 0)
  have hlength : first.length = n := by rw [List.length_map, List.length_range]
  have hfirst : first = (List.range first.length).map (outcomes 0) := by rw [hlength]
  have hends : (firstGet clock eol timeout first c).1 ≠ .blocked := hn first hlength.ge
  cases henters : entersLoop eol timeout (firstGet clock eol timeout first c).1 with
  | none =>
    refine ⟨[first], ⟨hfirst, trivial⟩, ?_⟩
    rw [getln_eq heol hmaxlen hoverflow]
    exact afterFirst_ends henters hends []
  | some held =>
    obtain ⟨K, hK⟩ := hadvances (clock c.reads + timeout)
    have hloop : ∀ schedule, Begins schedule (fun i => outcomes (i + 1)) →
        LoopConcludes clock eol maxlen (clock c.reads + timeout) schedule
          (firstGet clock eol timeout first c).2 held := fun schedule hbegins =>
      (callConcludes_cons htimeout hcall first schedule c).mp
        (h (first :: schedule) ⟨hfirst, hbegins⟩) held henters
    obtain ⟨schedule, hbegins, hends'⟩ := getlnLoop_ends hclock hadvances htimeout hK K _ _ held
      (Nat.le_add_left _ _) hloop
    refine ⟨first :: schedule, ⟨hfirst, hbegins⟩, ?_⟩
    rw [getln_eq heol hmaxlen hoverflow, afterFirst_enters henters]
    exact hends'

/-- A call of `getln` with a timeout respects its deadline exactly when, whatever the run, the first
round of its loop that begins past the deadline ends it. The peer that leaves such a round without
an end is the silent one, for which the loop asks again for ever. -/
theorem getln_respects_iff (clock : Nat → Int) (hclock : Monotone clock) (eol : List Byte)
    (maxlen timeout : Int) (htimeout : 0 < timeout) (outcomes : Nat → Nat → Receive) (c : Conn) :
    RespectsDeadline clock eol maxlen timeout outcomes c
      ↔ ∀ schedule, Begins schedule outcomes →
        CallConcludes clock eol maxlen timeout schedule c := by
  by_cases hcall : BadCall eol maxlen
  · refine iff_of_true ⟨fun schedule _ k _ => ?_, fun _ => ⟨[], trivial, getln_bad hcall [] c⟩⟩
      fun _ _ => .inl hcall
    rw [getCalls_bad hcall]
    exact Nat.zero_le 1
  constructor
  · intro hrespects schedule hbegins
    cases schedule with
    | nil => exact .inr nofun
    | cons first rest =>
    refine (callConcludes_cons htimeout hcall first rest c).mpr fun held henters => ?_
    by_contra hgoesOn
    obtain ⟨k, hlate, _, htwo⟩ := loopCalls_two htimeout _ _ _ hgoesOn
    have hone := hrespects.atMostOne _ hbegins k hlate
    rw [callsAfter_getCalls hclock htimeout hcall first rest c hlate, loopCallsAfter, henters]
      at hone
    exact absurd (htwo.trans hone) (by decide)
  · intro h
    refine ⟨fun schedule hbegins k hlate => ?_, fun hadvances => ?_⟩
    · cases schedule with
      | nil =>
        rw [getCalls, if_neg hcall]
        exact List.length_filter_le _ [c.reads + 1]
      | cons first rest =>
        have hconcludes := (callConcludes_cons htimeout hcall first rest c).mp (h _ hbegins)
        rw [callsAfter_getCalls hclock htimeout hcall first rest c hlate, loopCallsAfter]
        cases henters : entersLoop eol timeout (firstGet clock eol timeout first c).1 with
        | none => exact Nat.zero_le 1
        | some held =>
          exact loopCalls_late hclock htimeout _ _ _ (hconcludes held henters) hlate
    · exact getln_ends hclock hadvances htimeout hcall h

/-- A `get` of an endless schedule is not reached, or its first outcome is. -/
theorem Begins.head {rs : List Receive} {rest : List (List Receive)}
    {outcomes : Nat → Nat → Receive} (h : Begins (rs :: rest) outcomes) :
    rs = [] ∨ ∃ tail, rs = outcomes 0 0 :: tail := by
  cases rs with
  | nil => exact .inl rfl
  | cons r tail =>
    have hhead := congrArg List.head? h.1
    rw [List.length_cons, List.range_succ_eq_map] at hhead
    exact .inr ⟨tail, congrArg (· :: tail) (Option.some.inj hhead)⟩

/-- Half a line comes in time and nothing more before the deadline, and the first round behind the
deadline finds the end of the line. -/
theorem getln_respects_late :
    RespectsDeadline (fun k => k) [13] 64 5
      (fun i _ => if i = 1 then .failed .eagain else .data 0) ⟨[97, 13], 0⟩ := by
  refine (getln_respects_iff (fun k => k) (fun _ _ h => Int.ofNat_le.mpr h) [13] 64 5 (by decide)
    (fun i _ => if i = 1 then .failed .eagain else .data 0) ⟨[97, 13], 0⟩).mpr ?_
  intro schedule hbegins
  refine .inr ?_
  rintro first rest rfl _ _
  rcases hbegins.head with rfl | ⟨tail, rfl⟩
  · trivial
  -- the first `get` returns the first byte, at reading 5 of the clock
  show success [13] [97] = false → LoopConcludes (fun k => k) [13] 64 5 rest ⟨[13], 5⟩ [97]
  intro _
  cases rest with
  | nil => trivial
  | cons rs rest =>
  rcases hbegins.2.head with rfl | ⟨tail', rfl⟩
  · trivial
  -- the second comes back with nothing, at reading 8
  show ∀ held, Round.again [97] = .again held →
    LoopConcludes (fun k => k) [13] 64 5 rest ⟨[13], 8⟩ held
  rintro held ⟨⟩
  cases rest with
  | nil => trivial
  | cons rs rest =>
  -- the third begins past the deadline and brings the end of the line
  show ∀ r rest', rs = r :: rest' → Concludes [13] 64 [97] (receive 1 r ⟨[13], 8⟩).1
  rintro r rest' rfl
  rcases hbegins.2.2.head with hnil | ⟨tail'', hcons⟩
  · cases hnil
  · obtain ⟨rfl, _⟩ := List.cons.inj hcons
    exact .inl (by decide)

/-- While the peer is silent, every call past the deadline is followed by another. -/
theorem loopCalls_silent {returnme : List Byte} (hsuccess : success eol returnme = false)
    (hshort : overlong maxlen returnme = false) (schedule : List (List Receive))
    (hsilent : ∀ rs ∈ schedule, ∃ tail, rs = .failed .eagain :: tail) (c : Conn)
    (hpast : ∀ k, c.reads ≤ k → ¬ 0 < CInt.toInt (endtime - clock k)) :
    (loopCalls clock eol maxlen timeout endtime schedule c returnme).length
      = schedule.length + 1 := by
  induction schedule generalizing c with
  | nil => rfl
  | cons rs rest ih =>
    obtain ⟨hmin, hint⟩ := getlen_range eol returnme
    have hreads := roundGet_reads_lt clock eol endtime rs c returnme
    obtain ⟨tail, hrs⟩ := hsilent rs List.mem_cons_self
    have hnothing : (roundGet clock eol endtime rs c returnme).1 = .returns [] := by
      rw [roundGet_eq rs c returnme (hpast c.reads (le_refl _)), hrs, get_noWait hmin hint]
      rfl
    have hagain : afterGet eol maxlen timeout returnme (roundGet clock eol endtime rs c returnme).1
        = .again returnme := by
      rw [hnothing, afterGet, List.append_nil, check, if_neg (by rw [hsuccess]; exact nofun),
        hshort, Bool.false_or, if_neg nofun]
    rw [loopCalls_again hagain, List.length_cons, List.length_cons,
      ih (fun rs' hrs' => hsilent rs' (List.mem_cons_of_mem _ hrs')) _
        fun k hk => hpast k (hreads.le.trans hk)]

/-- Half a line comes in the last second, and the peer goes silent. -/
theorem getln_overstays :
    callsAfter 6 (getCalls (fun k => k) [13] 64 5
        [[.data 0], [.failed .eagain], [.failed .eagain], [.failed .eagain]] ⟨[97], 0⟩) = 3
      ∧ ¬ RespectsDeadline (fun k => k) [13] 64 5
        (fun i _ => if i = 0 then .data 0 else .failed .eagain) ⟨[97], 0⟩ := by
  have hthree : callsAfter 6 (getCalls (fun k => k) [13] 64 5
      [[.data 0], [.failed .eagain], [.failed .eagain], [.failed .eagain]] ⟨[97], 0⟩) = 3 := by
    decide
  refine ⟨hthree, fun hrespects => ?_⟩
  have hone := hrespects.atMostOne
    [[.data 0], [.failed .eagain], [.failed .eagain], [.failed .eagain]]
    ⟨rfl, rfl, rfl, rfl, trivial⟩ 6 (by decide)
  rw [hthree] at hone
  exact absurd hone (by decide)

end Nrtb.TcpSocket
