import Nrtb.Sockets.TcpSocket

/-!
# `tcp_socket::put`

`cpp/common/sockets/base_socket.cpp`, lines 48–51 and 223–299. What the transport does is a
schedule, with one `Transmit` for every call of `transmit`, and `time(NULL)` is a clock that is read
again at every call. The members `_last_error` and `_status`, which `put` only writes, are left out.

A caller wants to know of every byte whether it went out. When `put` returns, all of them have; when
it throws, those that have not are the comment of the exception. What follows the loop compares
lengths that have gone through an `int`, and is right about them as long as the length of the string
is one. The strings for which it is not are all wrong: there is a transport that takes them byte by
byte, and `put` throws although nothing is left.

* `putLoop_ends`: the loop ends with the bytes that have not been accepted.
* `put_conserves`: the strings whose length is an `int`.
* `put_bytewise`, `not_conserves_of_long`: the others.
* `put_conserves_iff`: `put` conserves every string whose length is an `int`, and no other.
-/

namespace Nrtb.TcpSocket

/-! ## The call -/

/-- The values of `errno` that `put` tells apart. -/
inductive TransmitErrno where
  | ebadf
  | enotsock
  | enobufs
  | enomem
  | eintr
  | eagain
  | other (code : Nat)
deriving DecidableEq

/-- What comes of one `send`. -/
inductive Transmit where
  -- up to `k` of the bytes are taken, and no more than the `int` of the result can say
  | accepted (k : Nat)
  | failed (errno : TransmitErrno)
deriving DecidableEq

/-- The exceptions of `put`. -/
inductive PutFault where
  | notOpen
  | bufferFull
  | general
  | timeout
deriving DecidableEq

/-- How a call of `put` ends. -/
inductive PutResult where
  | returns (sent : Int)
  | throws (e : PutFault) (comment : List Byte)
  -- it does not end
  | blocked
deriving DecidableEq

/-- The bytes that the transport has accepted, and how often the clock has been read. -/
structure Wire where
  accepted : List Byte
  reads : Nat
deriving DecidableEq

/-- `time(NULL)` has been called. -/
def Wire.tick (w : Wire) : Wire := { w with reads := w.reads + 1 }

/-- `transmit`: how many bytes have been accepted, or -1 with `errno`. -/
def transmit (s : List Byte) (t : Transmit) (w : Wire) : Except TransmitErrno Nat × Wire :=
  match t with
  | .accepted k =>
    let count := min k (min s.length (2 ^ 31 - 1))
    (.ok count, { w with accepted := w.accepted ++ s.take count })
  | .failed errno => (.error errno, w)

/-- What is left to be sent and `done`, or an exception with it in its comment. -/
def afterTransmit (s : List Byte) : Except TransmitErrno Nat → Except PutFault (List Byte × Bool)
  | .ok results =>
    if 0 < results then
      let s := s.drop results
      .ok (s, s.length = 0)
    else .ok (s, false)
  | .error .ebadf => .error .notOpen
  | .error .enotsock => .error .notOpen
  | .error .enobufs => .error .bufferFull
  | .error .enomem => .error .bufferFull
  | .error .eintr => .ok (s, false)
  | .error .eagain => .ok (s, false)
  | .error (.other _) => .error .general

/-- What follows the loop. The subtraction is one of `size_t` values, converted to an `int`. -/
def sendFinish (orig_len : Int) (s : List Byte) : PutResult :=
  let sent := CInt.toInt (orig_len - s.length)
  if sent ≠ orig_len then .throws .timeout s else .returns sent

section Put

variable (clock : Nat → Int)

/-- `(timeout > 0) && (time(NULL) >= endtime)` -/
def timeUp (timeout endtime : Int) (w : Wire) : Bool × Wire :=
  if 0 < timeout then (decide (endtime ≤ clock w.reads), w.tick) else (false, w)

def putLoop (orig_len timeout endtime : Int) :
    List Transmit → Wire → List Byte → PutResult × Wire
  | [], w, _ => (.blocked, w)
  | t :: ts, w, s =>
    let (results, w) := transmit s t w
    match afterTransmit s results with
    | .error e => (.throws e s, w)
    | .ok (s, done) =>
      let (late, w) := timeUp clock timeout endtime w
      if done || late then (sendFinish orig_len s, w)
      else putLoop orig_len timeout endtime ts w s

def put (s : List Byte) (timeout : Int) (ts : List Transmit) (w : Wire) : PutResult × Wire :=
  putLoop clock (CInt.toInt s.length) timeout (clock w.reads + timeout) ts w.tick s

end Put

/-! ## Where the bytes are -/

variable {clock : Nat → Int} {orig_len timeout endtime : Int}

@[simp] theorem timeUp_accepted (timeout endtime : Int) (w : Wire) :
    (timeUp clock timeout endtime w).2.accepted = w.accepted := by
  unfold timeUp
  split <;> rfl

/-- The bytes that the transport accepts are the ones taken off the front of the string. -/
theorem transmit_takes (s : List Byte) (t : Transmit) (w : Wire) :
    (∃ b rest done, s = b ++ rest ∧ (transmit s t w).2.accepted = w.accepted ++ b
        ∧ afterTransmit s (transmit s t w).1 = .ok (rest, done) ∧ (done = true → rest = []))
      ∨ ∃ e, (transmit s t w).2 = w ∧ afterTransmit s (transmit s t w).1 = .error e := by
  cases t with
  | accepted k =>
    refine .inl ?_
    rw [transmit]
    dsimp only
    rw [afterTransmit]
    split
    · refine ⟨_, _, _, (List.take_append_drop _ s).symm, rfl, rfl, fun hdone => ?_⟩
      exact List.length_eq_zero_iff.mp (of_decide_eq_true hdone)
    · next hnone =>
      rw [Nat.eq_zero_of_not_pos hnone]
      exact ⟨[], s, false, rfl, rfl, rfl, nofun⟩
  | failed errno =>
    cases errno with
    | eintr => exact .inl ⟨[], s, false, rfl, (List.append_nil _).symm, rfl, nofun⟩
    | eagain => exact .inl ⟨[], s, false, rfl, (List.append_nil _).symm, rfl, nofun⟩
    | _ => exact .inr ⟨_, rfl, rfl⟩

/-- How the loop ends when `rest` has not been accepted. -/
def PutEnds (orig_len : Int) (rest : List Byte) (r : PutResult) : Prop :=
  (∃ e, r = .throws e rest) ∨ r = sendFinish orig_len rest ∨ r = .blocked

theorem putLoop_ends (ts : List Transmit) (w : Wire) (s : List Byte) :
    ∃ b rest, s = b ++ rest
      ∧ (putLoop clock orig_len timeout endtime ts w s).2.accepted = w.accepted ++ b
      ∧ PutEnds orig_len rest (putLoop clock orig_len timeout endtime ts w s).1 := by
  induction ts generalizing w s with
  | nil => exact ⟨[], s, rfl, (List.append_nil _).symm, .inr (.inr rfl)⟩
  | cons t ts ih =>
    rw [putLoop]
    dsimp only
    rcases transmit_takes s t w with ⟨b, rest, done, hs, haccepted, hafter, _⟩ | ⟨e, hw, hafter⟩
    · rw [hafter]
      dsimp only
      split
      · refine ⟨b, rest, hs, ?_, .inr (.inl rfl)⟩
        rw [timeUp_accepted, haccepted]
      · obtain ⟨b', rest', hrest, haccepted', hends⟩ :=
          ih (timeUp clock timeout endtime (transmit s t w).2).2 rest
        refine ⟨b ++ b', rest', ?_, ?_, hends⟩
        · rw [hs, hrest, List.append_assoc]
        · rw [haccepted', timeUp_accepted, haccepted, List.append_assoc]
    · rw [hafter]
      exact ⟨[], s, rfl, by rw [hw, List.append_nil], .inl ⟨e, rfl⟩⟩

/-- The bytes that the transport has accepted and those in the comment are the string; a call that
returns has sent all of it, and returns its length. -/
def Conserves (s : List Byte) (w : Wire) : PutResult × Wire → Prop
  | (.returns sent, w') => w'.accepted = w.accepted ++ s ∧ sent = s.length
  | (.throws _ comment, w') => ∃ b, w'.accepted = w.accepted ++ b ∧ b ++ comment = s
  | (.blocked, _) => True

/-- While the length is an `int`, what follows the loop tells a string that has been sent from one
that has not. -/
theorem sendFinish_eq {s b rest : List Byte} (hs : s = b ++ rest) (hint : s.length < 2 ^ 31) :
    sendFinish (CInt.toInt s.length) rest
      = if rest = [] then .returns s.length else .throws .timeout rest := by
  have hlength := congrArg List.length hs
  rw [List.length_append] at hlength
  have horig : CInt.toInt s.length = s.length := CInt.toInt_of_range (by omega) (by omega)
  have hsent : CInt.toInt (s.length - rest.length : Int) = s.length - rest.length :=
    CInt.toInt_of_range (by omega) (by omega)
  rw [sendFinish, horig, hsent]
  cases rest with
  | nil => simp
  | cons x rest =>
    rw [if_neg (List.cons_ne_nil x rest), if_pos]
    rw [List.length_cons]
    omega

theorem put_conserves {s : List Byte} (hint : s.length < 2 ^ 31) (clock : Nat → Int)
    (timeout : Int) (ts : List Transmit) (w : Wire) :
    Conserves s w (put clock s timeout ts w) := by
  obtain ⟨b, rest, hs, haccepted, hends⟩ : ∃ b rest, s = b ++ rest
      ∧ (put clock s timeout ts w).2.accepted = w.accepted ++ b
      ∧ PutEnds (CInt.toInt s.length) rest (put clock s timeout ts w).1 :=
    putLoop_ends ts w.tick s
  generalize put clock s timeout ts w = out at haccepted hends ⊢
  obtain ⟨r, w'⟩ := out
  rcases hends with ⟨e, rfl⟩ | hfinish | rfl
  · exact ⟨b, haccepted, hs.symm⟩
  · rw [sendFinish_eq hs hint] at hfinish
    subst hfinish
    by_cases hnil : rest = []
    · rw [if_pos hnil]
      rw [hnil, List.append_nil] at hs
      subst hs
      exact ⟨haccepted, rfl⟩
    · rw [if_neg hnil]
      exact ⟨b, haccepted, hs.symm⟩
  · trivial

/-! ## Strings that are too long -/

/-- A transport that takes one byte at a time, and no deadline. -/
theorem putLoop_bytewise (clock : Nat → Int) (orig_len endtime : Int) {s : List Byte}
    (hs : s ≠ []) (w : Wire) :
    putLoop clock orig_len 0 endtime (List.replicate s.length (.accepted 1)) w s
      = (sendFinish orig_len [], { w with accepted := w.accepted ++ s }) := by
  induction s generalizing w with
  | nil => exact absurd rfl hs
  | cons x s ih =>
    have htransmit : transmit (x :: s) (.accepted 1) w
        = (.ok 1, { w with accepted := w.accepted ++ [x] }) := by
      have hcount : min 1 (min (x :: s).length (2 ^ 31 - 1)) = 1 := by
        rw [List.length_cons]
        omega
      rw [transmit, hcount]
      rfl
    rw [List.length_cons, List.replicate_succ, putLoop, htransmit]
    show (if decide (s.length = 0) || false then _ else _) = _
    cases s with
    | nil => rfl
    | cons y s =>
      show putLoop clock orig_len 0 endtime _ _ (y :: s) = _
      rw [ih (List.cons_ne_nil y s)]
      show (_, Wire.mk ((w.accepted ++ [x]) ++ y :: s) _) = _
      rw [List.append_assoc]
      rfl

theorem put_bytewise (clock : Nat → Int) {s : List Byte} (hs : s ≠ []) (w : Wire) :
    put clock s 0 (List.replicate s.length (.accepted 1)) w
      = (.returns (CInt.toInt s.length), ⟨w.accepted ++ s, w.reads + 1⟩) := by
  have hfinish : sendFinish (CInt.toInt s.length) [] = .returns (CInt.toInt s.length) := by
    rw [sendFinish, List.length_nil, Nat.cast_zero, sub_zero, CInt.toInt_toInt, if_neg]
    exact not_not.mpr rfl
  rw [put, putLoop_bytewise clock _ _ hs, hfinish]
  rfl

/-- All of a string too long for an `int` has been sent, and the value returned is another one. -/
theorem not_conserves_of_long (clock : Nat → Int) {s : List Byte} (hlong : 2 ^ 31 ≤ s.length)
    (w : Wire) :
    ¬ Conserves s w (put clock s 0 (List.replicate s.length (.accepted 1)) w) := by
  have hne : s ≠ [] := fun hnil => by
    rw [hnil] at hlong
    norm_num at hlong
  rw [put_bytewise clock hne]
  rintro ⟨_, hsent⟩
  have := CInt.toInt_lt s.length
  omega

/-- `put` conserves the strings whose length is an `int`, whatever the transport and the clock do,
and no others. For a longer one the transport that takes a byte at a time is enough. -/
theorem put_conserves_iff (s : List Byte) :
    (∀ clock timeout ts w, Conserves s w (put clock s timeout ts w)) ↔ s.length < 2 ^ 31 := by
  constructor
  · intro h
    by_contra hlong
    exact not_conserves_of_long (fun _ => 0) (Nat.not_lt.mp hlong) ⟨[], 0⟩ (h _ _ _ _)
  · exact fun hint clock timeout ts w => put_conserves hint clock timeout ts w

theorem put_negative {s : List Byte} (hlength : s.length = 2 ^ 31) :
    (put (fun _ => 0) s 0 (List.replicate (2 ^ 31) (.accepted 1)) ⟨[], 0⟩).1 = .returns (-2 ^ 31)
      ∧ ¬ Conserves s ⟨[], 0⟩
        (put (fun _ => 0) s 0 (List.replicate (2 ^ 31) (.accepted 1)) ⟨[], 0⟩) := by
  have hne : s ≠ [] := fun hnil => by
    rw [hnil, List.length_nil] at hlength
    norm_num at hlength
  have hout := put_bytewise (fun _ => 0) hne ⟨[], 0⟩
  have hlong := not_conserves_of_long (fun _ => 0) hlength.ge ⟨[], 0⟩
  rw [hlength] at hout hlong
  refine ⟨?_, hlong⟩
  rw [hout]
  have hwraps : CInt.toInt ((2 ^ 31 : ℕ) : Int) = -2 ^ 31 := by
    rw [CInt.toInt, Nat.cast_pow, Nat.cast_ofNat]
    decide
  rw [hwraps]

/-- Two gibibytes are sent, and what is returned is negative. -/
theorem put_twoGiB_negative :
    (put (fun _ => 0) (List.replicate (2 ^ 31) 97) 0 (List.replicate (2 ^ 31) (.accepted 1))
        ⟨[], 0⟩).1 = .returns (-2 ^ 31)
      ∧ ¬ Conserves (List.replicate (2 ^ 31) 97) ⟨[], 0⟩
        (put (fun _ => 0) (List.replicate (2 ^ 31) 97) 0 (List.replicate (2 ^ 31) (.accepted 1))
          ⟨[], 0⟩) :=
  put_negative List.length_replicate

end Nrtb.TcpSocket
