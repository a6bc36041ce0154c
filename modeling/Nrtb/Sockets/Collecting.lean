import Nrtb.Sockets.Getln
import Mathlib.Data.Int.ConditionallyCompleteOrder

/-!
# What `tcp_socket::get` collects

The loop of `get` (`cpp/common/sockets/base_socket.cpp`, lines 301–404) has four ways out, and
behind it the deadline is tested once more. That test does not ask why the loop was left: a `get`
whose bytes are complete throws when the second ends between its `recv` and its return, and the
bytes travel as the comment of the exception.

What `base_socket.h` promises of `get` is put as `Collects`: the bytes that come off the stream are
returned when they are complete, and handed over with a reason otherwise. The proof looks at one
round at a time. What a round does is known from the outcome of its `recv` and from the reading of
the clock behind it, and the loop is a list of such rounds.

* `getLoop_collects`: how a run of the loop ends, with the bytes it took, by induction on the
  schedule. A round leaves the loop, goes on or throws (`LoopCollects.leaves`, `.goesOn`,
  `.throws`).
* `get_collects_iff`: `get` collects exactly as long as its buffer has a size and the deadline has
  not passed when the last of the bytes has come.
* `along_iff`: what is said of the end of a call of `get` can be said of the outcomes of its `recv`s
  and of the clock (`Along`). The conditions on `getln` are put in these terms.
-/

namespace Nrtb.TcpSocket

/-! ## The statement -/

/-- Nothing comes any more: the peer has closed or the socket has failed. -/
def Receive.Ends : Receive → Prop
  | .data _ => False
  | .closed => True
  | .failed errno => errno ≠ .eagain ∧ errno ≠ .eintr

/-- The last `recv` that the call waited for found the connection closed or broken. -/
def BrokenOff (call : List Receive → Result × Conn) (rs : List Receive) : Prop :=
  ∃ used r, used ++ [r] <+: rs ∧ (call used).1 = .blocked ∧ call (used ++ [r]) = call rs ∧ r.Ends

/-- The call takes the bytes `b` off the stream: at most `maxlen`, returned or handed over with the
exception; `maxlen` of them are returned, and fewer only when no more can be had or waited for. -/
structure Collects (maxlen timeout : Int) (call : List Receive → Result × Conn)
    (rs : List Receive) (unread b : List Byte) : Prop where
  consumed : unread = b ++ (call rs).2.unread
  atMost : b.length ≤ maxlen
  handedOver : (call rs).1 ≠ .blocked → HandsOver b (call rs).1
  full : b.length = maxlen → (call rs).1 = .returns b
  fewer : (call rs).1 = .returns b → b.length < maxlen → timeout = 0 ∨ BrokenOff call rs

/-- The call of `receive` in a round of the loop. -/
def roundReceive (maxlen : Int) (r : Receive) (c : Conn) (returnme : List Byte) : Received × Conn :=
  receive (CInt.toInt (maxlen - returnme.length)).toNat r c.tick

section InTime

variable (clock : Nat → Int) (maxlen timeout endtime : Int)

/-- Where a `recv` of the loop completes the `maxlen` bytes, the reading of the clock behind the
loop, the third from the top of the round, is not past the deadline. -/
def LoopInTime : List Receive → Conn → List Byte → Prop
  | [], _, _ => True
  | r :: rs, c, returnme =>
    let out := roundReceive maxlen r c returnme
    match collect timeout returnme out.1 with
    | .error _ => True
    | .ok (returnme, done) =>
      if maxlen ≤ returnme.length then 0 < timeout → clock (c.reads + 2) ≤ endtime
      else
        let (late, c') := expired clock timeout endtime out.2
        done = true ∨ late = true ∨ timeout = 0 ∨ LoopInTime rs c' returnme

/-- The same for a call of `get`. -/
def InTime (rs : List Receive) (c : Conn) : Prop :=
  LoopInTime clock maxlen timeout (clock c.reads + timeout) rs c.tick []

end InTime

/-! ## One round -/

variable {clock : Nat → Int} {maxlen timeout endtime : Int}

@[simp] theorem receive_reads (limit : Nat) (r : Receive) (c : Conn) :
    (receive limit r c).2.reads = c.reads := by
  cases r with
  | data n =>
    unfold receive
    dsimp only
    split <;> rfl
  | _ => rfl

theorem expired_iff {c : Conn} :
    (expired clock timeout endtime c).1 = true ↔ 0 < timeout ∧ endtime < clock c.reads := by
  unfold expired
  split
  · next htimeout => simp [htimeout]
  · next htimeout => simp [htimeout]

theorem expired_reads_of_pos (htimeout : 0 < timeout) (c : Conn) :
    (expired clock timeout endtime c).2.reads = c.reads + 1 := by
  rw [expired, if_pos htimeout]
  rfl

/-- A passed deadline is still passed at the next look at the clock. -/
theorem expired_again (hclock : Monotone clock) {c : Conn}
    (h : (expired clock timeout endtime c).1 = true) :
    (expired clock timeout endtime (expired clock timeout endtime c).2).1 = true := by
  obtain ⟨htimeout, hlate⟩ := expired_iff.mp h
  refine expired_iff.mpr ⟨htimeout, ?_⟩
  rw [expired_reads_of_pos htimeout]
  exact hlate.trans_le (hclock (Nat.le_succ _))

/-- A `recv` that leaves nothing to wait for ends the loop, and without a timeout any other. -/
theorem collect_done {limit : Nat} (hlimit : limit ≠ 0) (r : Receive) (c : Conn)
    {returnme held : List Byte}
    (h : collect timeout returnme (receive limit r c).1 = .ok (held, true)) :
    timeout = 0 ∨ r.Ends := by
  cases r with
  | data n =>
    unfold receive at h
    dsimp only at h
    split at h
    · exact .inl (of_decide_eq_true (Prod.mk.inj (Except.ok.inj h)).2)
    · next hpending =>
      -- some of the pending bytes come, and the loop is not done
      have hunread : c.unread ≠ [] := fun hnil => hpending ⟨hnil, hlimit⟩
      obtain ⟨x, unread, hcons⟩ := List.exists_cons_of_ne_nil hunread
      obtain ⟨k, hk⟩ : ∃ k, min (n + 1) limit = k + 1 := ⟨min (n + 1) limit - 1, by omega⟩
      dsimp only at h
      rw [hcons, hk, List.take_succ_cons] at h
      cases (Prod.mk.inj (Except.ok.inj h)).2
  | closed => exact .inr trivial
  | failed errno =>
    cases errno with
    | eagain => exact .inl (of_decide_eq_true (Prod.mk.inj (Except.ok.inj h)).2)
    | eintr => exact .inl (of_decide_eq_true (Prod.mk.inj (Except.ok.inj h)).2)
    | _ => exact .inr ⟨nofun, nofun⟩

/-- The loop is left after a round. -/
def Leaves (clock : Nat → Int) (maxlen timeout endtime : Int) (held : List Byte) (done : Bool)
    (c : Conn) : Prop :=
  done = true ∨ (0 < maxlen ∧ maxlen ≤ held.length) ∨ (expired clock timeout endtime c).1 = true
    ∨ timeout = 0

instance (clock : Nat → Int) (maxlen timeout endtime : Int) (held : List Byte) (done : Bool)
    (c : Conn) : Decidable (Leaves clock maxlen timeout endtime held done c) :=
  inferInstanceAs (Decidable (_ ∨ _ ∨ _ ∨ _))

theorem getLoop_throws {r : Receive} {c : Conn} {returnme : List Byte} {e : Fault}
    (hroom : Room maxlen returnme)
    (hcollect : collect timeout returnme (roundReceive maxlen r c returnme).1 = .error e)
    (rs : List Receive) :
    getLoop clock maxlen timeout endtime (r :: rs) c returnme
      = (.throws e [], (roundReceive maxlen r c returnme).2) := by
  rw [roundReceive] at hcollect ⊢
  rw [getLoop_cons hroom]
  dsimp only
  rw [hcollect]

theorem getLoop_leaves {r : Receive} {c : Conn} {returnme held : List Byte}
    {done : Bool} (hroom : Room maxlen returnme)
    (hcollect : collect timeout returnme (roundReceive maxlen r c returnme).1 = .ok (held, done))
    (hleaves : Leaves clock maxlen timeout endtime held done (roundReceive maxlen r c returnme).2)
    (rs : List Receive) :
    getLoop clock maxlen timeout endtime (r :: rs) c returnme
      = if (expired clock timeout endtime
            (expired clock timeout endtime (roundReceive maxlen r c returnme).2).2).1 then
          (.throws .timeout held, (expired clock timeout endtime
            (expired clock timeout endtime (roundReceive maxlen r c returnme).2).2).2)
        else (.returns held, (expired clock timeout endtime
          (expired clock timeout endtime (roundReceive maxlen r c returnme).2).2).2) := by
  rw [roundReceive] at hcollect hleaves ⊢
  rw [getLoop_cons hroom]
  dsimp only
  rw [hcollect]
  dsimp only
  rw [if_pos]
  rcases hleaves with hdone | hfull | hlate | hzero
  · simp [hdone]
  · simp [hfull]
  · simp [hlate]
  · simp [hzero]

theorem getLoop_goesOn {r : Receive} {c : Conn} {returnme held : List Byte} {done : Bool}
    (hroom : Room maxlen returnme)
    (hcollect : collect timeout returnme (roundReceive maxlen r c returnme).1 = .ok (held, done))
    (hstays : ¬ Leaves clock maxlen timeout endtime held done (roundReceive maxlen r c returnme).2)
    (rs : List Receive) :
    getLoop clock maxlen timeout endtime (r :: rs) c returnme
      = getLoop clock maxlen timeout endtime rs
        (expired clock timeout endtime (roundReceive maxlen r c returnme).2).2 held := by
  rw [roundReceive] at hcollect hstays ⊢
  rw [getLoop_cons hroom]
  dsimp only
  rw [hcollect]
  dsimp only
  rw [if_neg]
  intro hexit
  simp only [Bool.or_eq_true, decide_eq_true_eq] at hexit
  rcases hexit with ((hdone | hfull) | hlate) | hzero
  · exact hstays (.inl hdone)
  · exact hstays (.inr (.inl hfull))
  · exact hstays (.inr (.inr (.inl hlate)))
  · exact hstays (.inr (.inr (.inr hzero)))

/-! ## Along the `recv`s of a call -/

section Along

variable (clock : Nat → Int) (maxlen timeout endtime : Int) (broken : Prop)
  (late inTime : List Byte → Conn → Prop)

/-- What is asked of the `recv`s of the loop and of the clock: `broken` where one of them finds the
connection closed or broken before a byte has come, and where the loop is left with the bytes that
have come, `late` of these when the reading behind it is past the deadline, and else `inTime`. -/
def LoopAlong : List Receive → Conn → List Byte → Prop
  | [], _, _ => True
  | r :: rs, c, returnme =>
    let out := roundReceive maxlen r c returnme
    match collect timeout returnme out.1 with
    | .error _ => broken
    | .ok (returnme, done) =>
      let c' := (expired clock timeout endtime out.2).2
      let (behind, c'') := expired clock timeout endtime c'
      if Leaves clock maxlen timeout endtime returnme done out.2 then
        if behind then late returnme c'' else inTime returnme c''
      else LoopAlong rs c' returnme

/-- The same for a call of `get`. -/
def Along (rs : List Receive) (c : Conn) : Prop :=
  LoopAlong clock maxlen timeout (clock c.reads + timeout) broken late inTime rs c.tick []

/-- What a call of `get` comes to, asked of its result. -/
def Comes : Result × Conn → Prop
  | (.returns s, c) => inTime s c
  | (.throws .timeout s, c) => late s c
  | (.throws _ _, _) => broken
  | (_, _) => True

end Along

theorem loopAlong_iff (hint : maxlen < 2 ^ 31 - 1) {broken : Prop}
    {late inTime : List Byte → Conn → Prop} (rs : List Receive) (c : Conn) {returnme : List Byte}
    (hlength : returnme.length ≤ maxlen) :
    LoopAlong clock maxlen timeout endtime broken late inTime rs c returnme
      ↔ Comes broken late inTime (getLoop clock maxlen timeout endtime rs c returnme) := by
  induction rs generalizing c returnme with
  | nil =>
    rw [getLoop_nil (.of_lt hint hlength)]
    exact Iff.rfl
  | cons r rs ih =>
    have hroom : Room maxlen returnme := .of_lt hint hlength
    have hlimit := limit_eq (by omega) hlength
    obtain ⟨b, _, hb, hreceived⟩ :=
      receive_eq (CInt.toInt (maxlen - returnme.length)).toNat r c.tick
    have hle : (returnme ++ b).length ≤ maxlen := by
      rw [hlimit] at hb
      rw [List.length_append]
      omega
    rw [LoopAlong]
    dsimp only
    rcases collect_eq timeout returnme hreceived with ⟨done, hcollect⟩ | ⟨_, _, hcollect⟩
    · rw [← roundReceive] at hcollect
      rw [hcollect]
      dsimp only
      split
      · next hleaves =>
        rw [getLoop_leaves hroom hcollect hleaves]
        split
        · exact Iff.rfl
        · exact Iff.rfl
      · next hstays =>
        rw [getLoop_goesOn hroom hcollect hstays]
        exact ih _ hle
    · rw [← roundReceive] at hcollect
      rcases hcollect with hcollect | hcollect
      · rw [hcollect, getLoop_throws hroom hcollect]
        exact Iff.rfl
      · rw [hcollect, getLoop_throws hroom hcollect]
        exact Iff.rfl

theorem along_iff (hmin : 0 ≤ maxlen) (hint : maxlen < 2 ^ 31 - 1) {broken : Prop}
    {late inTime : List Byte → Conn → Prop} (rs : List Receive) (c : Conn) :
    Along clock maxlen timeout broken late inTime rs c
      ↔ Comes broken late inTime (get clock maxlen timeout rs c) := by
  have hnil : (([] : List Byte).length : Int) ≤ maxlen := hmin
  rw [Along, loopAlong_iff hint rs c.tick hnil, get, if_neg (Int.not_lt.mpr hmin)]

/-! ## The loop -/

/-- What a round takes off the stream and adds to what has been collected. -/
theorem roundReceive_takes (hint : maxlen < 2 ^ 31) (timeout : Int) (r : Receive) (c : Conn)
    {returnme : List Byte} (hlength : returnme.length < maxlen) :
    ∃ b, c.unread = b ++ (roundReceive maxlen r c returnme).2.unread
      ∧ (returnme ++ b).length ≤ maxlen
      ∧ ((∃ done, collect timeout returnme (roundReceive maxlen r c returnme).1
            = .ok (returnme ++ b, done)
          ∧ (done = true → timeout = 0 ∨ r.Ends))
        ∨ returnme = [] ∧ b = [] ∧ ∃ e, collect timeout returnme
            (roundReceive maxlen r c returnme).1 = .error e) := by
  have hlimit := limit_eq hint hlength.le
  obtain ⟨b, hunread, hb, hreceived⟩ :=
    receive_eq (CInt.toInt (maxlen - returnme.length)).toNat r c.tick
  have hsome : (CInt.toInt (maxlen - returnme.length)).toNat ≠ 0 := by
    rw [hlimit]
    omega
  refine ⟨b, hunread, ?_, ?_⟩
  · rw [hlimit] at hb
    rw [List.length_append]
    omega
  · rcases collect_eq timeout returnme hreceived with ⟨done, hcollect⟩ | ⟨hnil, hb', hcollect⟩
    · refine .inl ⟨done, hcollect, ?_⟩
      rintro rfl
      exact collect_done hsome r c.tick hcollect
    · refine .inr ⟨hnil, hb', ?_⟩
      rcases hcollect with hcollect | hcollect
      · exact ⟨_, hcollect⟩
      · exact ⟨_, hcollect⟩

@[simp] theorem roundReceive_reads (maxlen : Int) (r : Receive) (c : Conn)
    (returnme : List Byte) : (roundReceive maxlen r c returnme).2.reads = c.reads + 1 := by
  rw [roundReceive, receive_reads, Conn.tick_reads]

/-- The test behind the loop, when it has been left in the round that began in `c`. -/
theorem expired_behind_iff (r : Receive) (c : Conn) (returnme : List Byte) :
    (expired clock timeout endtime
        (expired clock timeout endtime (roundReceive maxlen r c returnme).2).2).1 = false
      ↔ (0 < timeout → clock (c.reads + 2) ≤ endtime) := by
  rw [← Bool.not_eq_true, expired_iff, not_and]
  refine forall_congr' fun htimeout => ?_
  rw [expired_reads_of_pos htimeout, roundReceive_reads, not_lt]

/-- A run of the loop that begins with `returnme`. -/
structure LoopCollects (clock : Nat → Int) (maxlen timeout endtime : Int) (rs : List Receive)
    (c : Conn) (returnme b : List Byte) : Prop where
  consumed : c.unread = b ++ (getLoop clock maxlen timeout endtime rs c returnme).2.unread
  atMost : (returnme ++ b).length ≤ maxlen
  handedOver : (getLoop clock maxlen timeout endtime rs c returnme).1 ≠ .blocked →
    HandsOver (returnme ++ b) (getLoop clock maxlen timeout endtime rs c returnme).1
  full : ((returnme ++ b).length = maxlen →
      (getLoop clock maxlen timeout endtime rs c returnme).1 = .returns (returnme ++ b))
    ↔ LoopInTime clock maxlen timeout endtime rs c returnme
  fewer : (getLoop clock maxlen timeout endtime rs c returnme).1 = .returns (returnme ++ b) →
    (returnme ++ b).length < maxlen →
      timeout = 0 ∨ BrokenOff (getLoop clock maxlen timeout endtime · c returnme) rs

/-- A round that leaves the loop. -/
theorem LoopCollects.leaves (hclock : Monotone clock) {r : Receive} {c : Conn}
    {returnme b : List Byte} {done : Bool} (hroom : Room maxlen returnme)
    (hunread : c.unread = b ++ (roundReceive maxlen r c returnme).2.unread)
    (hle : (returnme ++ b).length ≤ maxlen)
    (hcollect : collect timeout returnme (roundReceive maxlen r c returnme).1
      = .ok (returnme ++ b, done))
    (hdone : done = true → timeout = 0 ∨ r.Ends)
    (hleaves : Leaves clock maxlen timeout endtime (returnme ++ b) done
      (roundReceive maxlen r c returnme).2) (rs : List Receive) :
    LoopCollects clock maxlen timeout endtime (r :: rs) c returnme b := by
  have hround := getLoop_leaves hroom hcollect hleaves
  refine ⟨?_, hle, fun _ => ?_, ?_, fun hreturns hshort => ?_⟩
  · rw [hround]
    split <;> simpa using hunread
  · rw [hround]
    split
    · exact .inr ⟨_, rfl⟩
    · exact .inl rfl
  · rw [LoopInTime]
    dsimp only
    rw [hcollect]
    dsimp only
    split
    · next hfull =>
      rw [← expired_behind_iff r c returnme, hround]
      cases (expired clock timeout endtime
        (expired clock timeout endtime (roundReceive maxlen r c returnme).2).2).1 with
      | false => exact iff_of_true (fun _ => rfl) rfl
      | true => exact iff_of_false (fun h => nomatch h (le_antisymm hle hfull)) nofun
    · next hshort =>
      refine iff_of_true (fun hfull => absurd hfull.ge hshort) ?_
      rcases hleaves with hdone | hfull | hlate | hzero
      · exact .inl hdone
      · exact absurd hfull.2 hshort
      · exact .inr (.inl hlate)
      · exact .inr (.inr (.inl hzero))
  · have hsame : ∀ rs', getLoop clock maxlen timeout endtime (r :: rs') c returnme
        = getLoop clock maxlen timeout endtime (r :: rs) c returnme := fun rs' => by
      rw [hround, hround]
    have hbroken : r.Ends →
        BrokenOff (getLoop clock maxlen timeout endtime · c returnme) (r :: rs) := fun hends =>
      ⟨[], r, ⟨rs, rfl⟩, congrArg Prod.fst (getLoop_nil hroom c), hsame [], hends⟩
    rcases hleaves with hdone' | hfull | hlate | hzero
    · exact (hdone hdone').imp_right hbroken
    · exact absurd hfull.2 (not_le.mpr hshort)
    · -- had the deadline passed, the loop would have been left with the exception
      rw [hround, if_pos (expired_again hclock hlate)] at hreturns
      cases hreturns
    · exact .inl hzero

/-- A round that does not. -/
theorem LoopCollects.goesOn (hmin : 0 < maxlen) {r : Receive} {c : Conn}
    {returnme b b' : List Byte} {done : Bool} {rs : List Receive} (hroom : Room maxlen returnme)
    (hunread : c.unread = b ++ (roundReceive maxlen r c returnme).2.unread)
    (hcollect : collect timeout returnme (roundReceive maxlen r c returnme).1
      = .ok (returnme ++ b, done))
    (hstays : ¬ Leaves clock maxlen timeout endtime (returnme ++ b) done
      (roundReceive maxlen r c returnme).2)
    (h : LoopCollects clock maxlen timeout endtime rs
      (expired clock timeout endtime (roundReceive maxlen r c returnme).2).2 (returnme ++ b) b') :
    LoopCollects clock maxlen timeout endtime (r :: rs) c returnme (b ++ b') := by
  have hround := getLoop_goesOn hroom hcollect hstays
  obtain ⟨hconsumed, hatMost, hhandedOver, hfull, hfewer⟩ := h
  rw [expired_unread] at hconsumed
  rw [List.append_assoc] at hatMost hhandedOver hfull hfewer
  refine ⟨?_, hatMost, ?_, ?_, fun hreturns hshort => ?_⟩
  · rw [hround, hunread, hconsumed, List.append_assoc]
  · rwa [hround]
  · rw [hround, hfull, LoopInTime]
    dsimp only
    rw [hcollect]
    dsimp only
    rw [if_neg fun hlong => hstays (.inr (.inl ⟨hmin, hlong⟩))]
    refine ⟨fun h => .inr (.inr (.inr h)), fun h => ?_⟩
    rcases h with hdone | hlate | hzero | h
    · exact absurd (.inl hdone) hstays
    · exact absurd (.inr (.inr (.inl hlate))) hstays
    · exact absurd (.inr (.inr (.inr hzero))) hstays
    · exact h
  · rw [hround] at hreturns
    refine (hfewer hreturns hshort).imp_right ?_
    rintro ⟨used, r', hprefix, hblocked, hsame, hends⟩
    refine ⟨r :: used, r', ?_, ?_, ?_, hends⟩
    · rw [List.cons_append, List.cons_prefix_cons]
      exact ⟨rfl, hprefix⟩
    · exact (congrArg Prod.fst (hround used)).trans hblocked
    · exact ((hround (used ++ [r'])).trans hsame).trans (hround rs).symm

/-- A round that throws, which no round does once something has been collected. -/
theorem LoopCollects.throws (hmin : 0 < maxlen) {r : Receive} {c : Conn} {e : Fault}
    (hroom : Room maxlen [])
    (hunread : c.unread = (roundReceive maxlen r c []).2.unread)
    (hcollect : collect timeout [] (roundReceive maxlen r c []).1 = .error e) (rs : List Receive) :
    LoopCollects clock maxlen timeout endtime (r :: rs) c [] [] := by
  refine ⟨?_, hmin.le, fun _ => ?_, ?_, ?_⟩
  · rwa [getLoop_throws hroom hcollect]
  · rw [getLoop_throws hroom hcollect]
    exact .inr ⟨e, rfl⟩
  · rw [LoopInTime]
    dsimp only
    rw [hcollect]
    exact iff_of_true (fun hfull => absurd hfull hmin.ne) trivial
  · rw [getLoop_throws hroom hcollect]
    exact nofun

theorem getLoop_collects (hclock : Monotone clock) (hint : maxlen < 2 ^ 31 - 1)
    (rs : List Receive) {c : Conn} {returnme : List Byte} (hlength : returnme.length < maxlen) :
    ∃ b, LoopCollects clock maxlen timeout endtime rs c returnme b := by
  have hmin : 0 < maxlen := by omega
  induction rs generalizing c returnme with
  | nil =>
    have hblocked : getLoop clock maxlen timeout endtime [] c returnme = (.blocked, c) :=
      getLoop_nil (.of_lt hint hlength.le) c
    refine ⟨[], ?_, ?_, fun h => absurd ?_ h, ?_, ?_⟩
    · rw [hblocked]
      rfl
    · rw [List.append_nil]
      exact hlength.le
    · rw [hblocked]
    · rw [List.append_nil]
      exact iff_of_true (fun hfull => absurd hfull hlength.ne) trivial
    · rw [hblocked]
      exact nofun
  | cons r rs ih =>
    have hroom : Room maxlen returnme := .of_lt hint hlength.le
    obtain ⟨b, hunread, hle, ⟨done, hcollect, hdone⟩ | ⟨rfl, rfl, e, hcollect⟩⟩ :=
      roundReceive_takes (by omega) timeout r c hlength
    · by_cases hleaves : Leaves clock maxlen timeout endtime (returnme ++ b) done
          (roundReceive maxlen r c returnme).2
      · exact ⟨b, .leaves hclock hroom hunread hle hcollect hdone hleaves rs⟩
      · have hshort : ((returnme ++ b).length : Int) < maxlen :=
          not_le.mp fun hlong => hleaves (.inr (.inl ⟨hmin, hlong⟩))
        obtain ⟨b', h⟩ := ih hshort
        exact ⟨b ++ b', .goesOn hmin hroom hunread hcollect hleaves h⟩
    · exact ⟨[], .throws hmin hroom hunread hcollect rs⟩

/-! ## The call -/

/-- `get` collects exactly as long as there is an `int` for its buffer and the deadline has not
passed when it has received the last of `maxlen` bytes. -/
theorem get_collects_iff (clock : Nat → Int) (hclock : Monotone clock) (maxlen timeout : Int)
    (hmin : 1 ≤ maxlen) (hint : maxlen < 2 ^ 31) (rs : List Receive) (c : Conn) :
    (∃ b, Collects maxlen timeout (get clock maxlen timeout · c) rs c.unread b)
      ↔ maxlen < 2 ^ 31 - 1 ∧ InTime clock maxlen timeout rs c := by
  rcases (Int.le_sub_one_iff.mpr hint).lt_or_eq with hlt | heq
  swap
  · -- `bufsize` overflows, and none of the exceptions hands the bytes over
    refine iff_of_false ?_ fun h => h.1.ne heq
    rintro ⟨b, hcollects⟩
    have hundefined : (get clock maxlen timeout rs c).1 = .undefined := by
      rw [heq, get_undefined]
    have hhands := hcollects.handedOver
    rw [hundefined] at hhands
    rcases hhands nofun with h | ⟨e, h⟩ <;> cases h
  rw [and_iff_right hlt]
  have hget : ∀ rs, get clock maxlen timeout rs c
      = getLoop clock maxlen timeout (clock c.reads + timeout) rs c.tick [] := fun rs => by
    rw [get, if_neg (by omega)]
  have hnil : (([] : List Byte).length : Int) < maxlen := hmin
  have hloop : ∃ b, LoopCollects clock maxlen timeout (clock c.reads + timeout) rs c.tick [] b :=
    getLoop_collects hclock hlt rs hnil
  obtain ⟨b, hloop⟩ := hloop
  simp only [hget]
  constructor
  · rintro ⟨b', hcollects⟩
    have hb : b' = b :=
      List.append_cancel_right (hcollects.consumed.symm.trans hloop.consumed)
    subst hb
    exact hloop.full.mp hcollects.full
  · intro htime
    exact ⟨b, hloop.consumed, hloop.atMost, hloop.handedOver, hloop.full.mpr htime, hloop.fewer⟩

/-- Two bytes in two pieces, the second of them in the last second. -/
theorem get_collects_twoPieces :
    ∃ b, Collects 2 5 (get (fun k => k) 2 5 · ⟨[97, 98, 99], 0⟩) [.data 0, .data 0]
      [97, 98, 99] b := by
  refine (get_collects_iff (fun k => k) (fun _ _ h => Int.ofNat_le.mpr h) 2 5 (by decide)
    (by decide) [.data 0, .data 0] ⟨[97, 98, 99], 0⟩).mpr ⟨by decide, ?_⟩
  exact .inr (.inr (.inr fun _ => le_refl 5))

/-- The one byte that is asked for comes, and the second ends before `get` looks at the clock. -/
theorem get_timesOut_complete :
    get (fun k => k) 1 1 [.data 0] ⟨[97], 0⟩ = (.throws .timeout [97], ⟨[], 4⟩)
      ∧ ¬ ∃ b, Collects 1 1 (get (fun k => k) 1 1 · ⟨[97], 0⟩) [.data 0] [97] b := by
  have hcall : get (fun k => k) 1 1 [.data 0] ⟨[97], 0⟩ = (.throws .timeout [97], ⟨[], 4⟩) := by
    decide
  refine ⟨hcall, ?_⟩
  rintro ⟨b, hconsumed, _, _, hfull, _⟩
  simp only [hcall, List.append_nil] at hconsumed hfull
  subst hconsumed
  cases hfull rfl

end Nrtb.TcpSocket
