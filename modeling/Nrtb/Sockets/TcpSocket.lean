import Nrtb.Lib.CInt
import Nrtb.Lib.Search

/-!
# `tcp_socket::get`

`cpp/common/sockets/base_socket.cpp`, lines 53–78 and 301–404. What the peer and the network do
is a schedule, with one `Receive` for every call of `recv`; a call whose schedule ends is
`blocked`. `time(NULL)` is a clock that is read again at every call. The members `_last_error`
and `_status`, which `get` only writes, are left out.

A round of the loop computes the size of its buffer before it calls `recv`, and for the largest
`limit` there is no such `int` (`bufsize`); only a `get` of 2^31 - 1 bytes comes to it, and then in
its first round (`get_undefined`). For every other length the limits are what is left of `maxlen`
(`limit_eq`), and the rounds can be taken one by one (`getLoop_nil`, `getLoop_cons`).

* `get_delivers`: `get` returns the bytes it took or hands them over with its exception. All that
  `getln` needs to know of a `get` is in this lemma; it goes by induction on the schedule, with the
  bytes of a `recv` (`receive_eq`) and what the `switch` makes of them (`collect_eq`).
-/

namespace Nrtb.TcpSocket

abbrev Byte := UInt8

inductive Errno where
  | ebadf
  | enotconn
  | enotsock
  | eagain
  | eintr
  | other (code : Nat)
deriving DecidableEq

/-- What comes of one `recv`. -/
inductive Receive where
  -- up to `n + 1` of the bytes that are pending, if there are any
  | data (n : Nat)
  -- the peer has closed
  | closed
  | failed (errno : Errno)
deriving DecidableEq

/-- The results of `receive`: the bytes, none when `recv` returned 0, or -1 with `errno`. -/
inductive Received where
  | bytes (b : List Byte)
  | error (errno : Errno)

/-- The exceptions of `tcp_socket`. -/
inductive Fault where
  | general
  | notOpen
  | overrun
  | timeout
  | badArgs
deriving DecidableEq

/-- How a call ends. -/
inductive Result where
  | returns (s : List Byte)
  | throws (e : Fault) (comment : List Byte)
  -- `std::length_error`, from `reserve`
  | lengthError
  -- an `int` overflows
  | undefined
  -- it does not end
  | blocked
deriving DecidableEq

/-- The stream from the peer as far as it has not been received, and how often the clock has been
read. -/
structure Conn where
  unread : List Byte
  reads : Nat
deriving DecidableEq

/-- `time(NULL)` has been called. -/
def Conn.tick (c : Conn) : Conn := { c with reads := c.reads + 1 }

@[simp] theorem Conn.tick_unread (c : Conn) : c.tick.unread = c.unread := rfl

@[simp] theorem Conn.tick_reads (c : Conn) : c.tick.reads = c.reads + 1 := rfl

/-! ## `get` -/

/-- `int bufsize = limit + 1`, the first thing in `receive`: an overflow for the largest limit.
Where it wraps around, the `resize` that follows throws `std::length_error`. -/
def bufsize (limit : Int) : Option Int :=
  if limit = (2 ^ 31 - 1 : Nat) then none else some (limit + 1)

/-- `receive`, with room for the bytes in its buffer. -/
def receive (limit : Nat) (r : Receive) (c : Conn) : Received × Conn :=
  match r with
  | .data n =>
    if c.unread = [] ∧ limit ≠ 0 then (.error .eagain, c)
    else
      let count := min (n + 1) limit
      (.bytes (c.unread.take count), { c with unread := c.unread.drop count })
  | .closed => (.bytes [], c)
  | .failed errno => (.error errno, c)

/-- The `switch` over the results: an exception, or what has been collected and `done`. -/
def collect (timeout : Int) (returnme : List Byte) : Received → Except Fault (List Byte × Bool)
  | .bytes [] => if returnme = [] then .error .notOpen else .ok (returnme, true)
  | .bytes b => .ok (returnme ++ b, false)
  | .error .ebadf => if returnme = [] then .error .notOpen else .ok (returnme, true)
  | .error .enotconn => if returnme = [] then .error .notOpen else .ok (returnme, true)
  | .error .enotsock => if returnme = [] then .error .notOpen else .ok (returnme, true)
  | .error .eagain => .ok (returnme, timeout = 0)
  | .error .eintr => .ok (returnme, timeout = 0)
  | .error (.other _) => if returnme = [] then .error .general else .ok (returnme, true)

section Get

variable (clock : Nat → Int)

/-- `(timeout > 0) && (time(NULL) > endtime)` -/
def expired (timeout endtime : Int) (c : Conn) : Bool × Conn :=
  if 0 < timeout then (decide (endtime < clock c.reads), c.tick) else (false, c)

/-- The input loop. The reading at its top, for `waittime`, only sets `SO_RCVTIMEO`. -/
def getLoop (maxlen timeout endtime : Int) :
    List Receive → Conn → List Byte → Result × Conn
  | rs, c, returnme =>
    let limit := CInt.toInt (maxlen - returnme.length)
    if bufsize limit = none then (.undefined, c.tick)
    else match rs with
    | [] => (.blocked, c)
    | r :: rs =>
      let (received, c) := receive limit.toNat r c.tick
      match collect timeout returnme received with
      | .error e => (.throws e [], c)
      | .ok (returnme, done) =>
        let full := decide (0 < maxlen ∧ maxlen ≤ returnme.length)
        let (late, c) := expired clock timeout endtime c
        if done || full || late || timeout = 0 then
          let (late, c) := expired clock timeout endtime c
          if late then (.throws .timeout returnme, c) else (.returns returnme, c)
        else getLoop maxlen timeout endtime rs c returnme

def get (maxlen timeout : Int) (rs : List Receive) (c : Conn) : Result × Conn :=
  if maxlen < 0 then (.lengthError, c)
  else getLoop clock maxlen timeout (clock c.reads + timeout) rs c.tick []

end Get

/-! ## What `get` hands over -/

variable {clock : Nat → Int} {maxlen timeout endtime : Int}

@[simp] theorem expired_unread (timeout endtime : Int) (c : Conn) :
    (expired clock timeout endtime c).2.unread = c.unread := by
  unfold expired
  split <;> rfl

theorem expired_pos {c : Conn} (h : (expired clock timeout endtime c).1 = true) : 0 < timeout := by
  unfold expired at h
  split at h
  · assumption
  · cases h

/-- While no more than `maxlen` bytes have been collected, the limit of a round is what is left. -/
theorem limit_eq (hint : maxlen < 2 ^ 31) {returnme : List Byte}
    (hlength : returnme.length ≤ maxlen) :
    CInt.toInt (maxlen - returnme.length) = maxlen - returnme.length :=
  CInt.toInt_of_range (by omega) (by omega)

/-- There is an `int` for the size of a round's buffer. -/
def Room (maxlen : Int) (returnme : List Byte) : Prop :=
  bufsize (CInt.toInt (maxlen - returnme.length)) ≠ none

theorem Room.of_lt (hint : maxlen < 2 ^ 31 - 1) {returnme : List Byte}
    (hlength : returnme.length ≤ maxlen) : Room maxlen returnme := by
  rw [Room, limit_eq (by omega) hlength, bufsize, if_neg (by omega)]
  exact nofun

theorem Room.nil (hmin : 0 ≤ maxlen) (hint : maxlen < 2 ^ 31 - 1) : Room maxlen [] :=
  have hnil : (([] : List Byte).length : Int) ≤ maxlen := hmin
  .of_lt hint hnil

theorem getLoop_nil {returnme : List Byte} (hroom : Room maxlen returnme) (c : Conn) :
    getLoop clock maxlen timeout endtime [] c returnme = (.blocked, c) := by
  unfold getLoop
  dsimp only
  rw [if_neg hroom]

theorem getLoop_cons {returnme : List Byte} (hroom : Room maxlen returnme) (r : Receive)
    (rs : List Receive) (c : Conn) :
    getLoop clock maxlen timeout endtime (r :: rs) c returnme
      = let (received, c) := receive (CInt.toInt (maxlen - returnme.length)).toNat r c.tick
        match collect timeout returnme received with
        | .error e => (.throws e [], c)
        | .ok (returnme, done) =>
          let full := decide (0 < maxlen ∧ maxlen ≤ returnme.length)
          let (late, c) := expired clock timeout endtime c
          if done || full || late || timeout = 0 then
            let (late, c) := expired clock timeout endtime c
            if late then (.throws .timeout returnme, c) else (.returns returnme, c)
          else getLoop clock maxlen timeout endtime rs c returnme := by
  conv_lhs => unfold getLoop
  dsimp only
  rw [if_neg hroom]

theorem getLoop_overflow {returnme : List Byte} (hroom : ¬ Room maxlen returnme)
    (rs : List Receive) (c : Conn) :
    getLoop clock maxlen timeout endtime rs c returnme = (.undefined, c.tick) := by
  unfold getLoop
  dsimp only
  rw [if_pos (not_not.mp hroom)]

/-- The largest `maxlen` leaves no room before the first `recv`. -/
theorem get_undefined (clock : Nat → Int) (timeout : Int) (rs : List Receive) (c : Conn) :
    get clock (2 ^ 31 - 1) timeout rs c = (.undefined, c.tick.tick) := by
  have hroom : ¬ Room (2 ^ 31 - 1) [] := not_not.mpr (by decide)
  rw [get, if_neg (by decide), getLoop_overflow hroom]

theorem limit_nil (hmin : 0 ≤ maxlen) (hint : maxlen < 2 ^ 31) :
    CInt.toInt (maxlen - ([] : List Byte).length) = maxlen := by
  have hnil : (([] : List Byte).length : Int) ≤ maxlen := hmin
  exact (limit_eq hint hnil).trans (sub_zero maxlen)

/-- The bytes of a `receive` come off the stream, and not more of them than asked for. -/
theorem receive_eq (limit : Nat) (r : Receive) (c : Conn) :
    ∃ b, c.unread = b ++ (receive limit r c).2.unread ∧ b.length ≤ limit
      ∧ ((receive limit r c).1 = .bytes b
        ∨ b = [] ∧ ∃ errno, (receive limit r c).1 = .error errno) := by
  cases r with
  | data n =>
    unfold receive
    dsimp only
    split
    · exact ⟨[], rfl, Nat.zero_le _, .inr ⟨rfl, _, rfl⟩⟩
    · refine ⟨_, (List.take_append_drop _ _).symm, ?_, .inl rfl⟩
      rw [List.length_take]
      omega
  | closed => exact ⟨[], rfl, Nat.zero_le _, .inl rfl⟩
  | failed errno => exact ⟨[], rfl, Nat.zero_le _, .inr ⟨rfl, errno, rfl⟩⟩

/-- An exception leaves the loop only when nothing has been collected. -/
theorem collect_eq (timeout : Int) (returnme : List Byte) {received : Received} {b : List Byte}
    (h : received = .bytes b ∨ b = [] ∧ ∃ errno, received = .error errno) :
    (∃ done, collect timeout returnme received = .ok (returnme ++ b, done))
      ∨ returnme = [] ∧ b = [] ∧ (collect timeout returnme received = .error .notOpen
        ∨ collect timeout returnme received = .error .general) := by
  rcases h with rfl | ⟨rfl, errno, rfl⟩
  · cases b with
    | nil =>
      rw [List.append_nil]
      by_cases hnil : returnme = []
      · exact .inr ⟨hnil, rfl, .inl (if_pos hnil)⟩
      · exact .inl ⟨true, if_neg hnil⟩
    | cons x b => exact .inl ⟨false, rfl⟩
  · rw [List.append_nil]
    by_cases hnil : returnme = []
    · cases errno with
      | eagain => exact .inl ⟨_, rfl⟩
      | eintr => exact .inl ⟨_, rfl⟩
      | other code => exact .inr ⟨hnil, rfl, .inr (if_pos hnil)⟩
      | _ => exact .inr ⟨hnil, rfl, .inl (if_pos hnil)⟩
    · cases errno with
      | eagain => exact .inl ⟨_, rfl⟩
      | eintr => exact .inl ⟨_, rfl⟩
      | _ => exact .inl ⟨true, if_neg hnil⟩

/-- `get` took the bytes `b`, and returns them or throws them. -/
inductive Delivers (timeout : Int) (b : List Byte) : Result → Prop
  | returns : Delivers timeout b (.returns b)
  | timedOut (htimeout : 0 < timeout) : Delivers timeout b (.throws .timeout b)
  | notOpen (hnil : b = []) : Delivers timeout b (.throws .notOpen [])
  | general (hnil : b = []) : Delivers timeout b (.throws .general [])
  | blocked : Delivers timeout b .blocked

theorem getLoop_delivers (hint : maxlen < 2 ^ 31 - 1) (rs : List Receive) (c : Conn)
    {returnme : List Byte} (hlength : returnme.length ≤ maxlen) :
    ∃ b, c.unread = b ++ (getLoop clock maxlen timeout endtime rs c returnme).2.unread
      ∧ (returnme ++ b).length ≤ maxlen
      ∧ Delivers timeout (returnme ++ b)
        (getLoop clock maxlen timeout endtime rs c returnme).1 := by
  induction rs generalizing c returnme with
  | nil =>
    rw [getLoop_nil (.of_lt hint hlength)]
    exact ⟨[], rfl, by simpa using hlength, .blocked⟩
  | cons r rs ih =>
    have hlimit := limit_eq (by omega) hlength
    obtain ⟨b, hunread, hb, hreceived⟩ :=
      receive_eq (CInt.toInt (maxlen - returnme.length)).toNat r c.tick
    have hle : (returnme ++ b).length ≤ maxlen := by
      rw [hlimit] at hb
      rw [List.length_append]
      omega
    rw [getLoop_cons (.of_lt hint hlength)]
    dsimp only
    rcases collect_eq timeout returnme hreceived with ⟨done, hcollect⟩ | ⟨hnil, hb', hcollect⟩
    · rw [hcollect]
      dsimp only
      split
      · -- the loop is left, with one more look at the clock
        refine ⟨b, ?_, hle, ?_⟩
        · split <;> simpa using hunread
        · split
          · next hlate => exact .timedOut (expired_pos hlate)
          · exact .returns
      · obtain ⟨b', hunread', hle', hdelivers⟩ := ih _ hle
        refine ⟨b ++ b', ?_, ?_, ?_⟩
        · rw [expired_unread] at hunread'
          rw [Conn.tick_unread] at hunread
          rw [List.append_assoc, ← hunread', hunread]
        · rwa [← List.append_assoc]
        · rwa [← List.append_assoc]
    · obtain rfl := hnil
      obtain rfl := hb'
      refine ⟨[], ?_, hle, ?_⟩
      · rcases hcollect with hcollect | hcollect <;> rw [hcollect] <;> exact hunread
      · rcases hcollect with hcollect | hcollect <;> rw [hcollect]
        · exact .notOpen rfl
        · exact .general rfl

/-- `get` loses nothing: the bytes it took, at most `maxlen` of them, are what it returns or the
comment of its exception. -/
theorem get_delivers (clock : Nat → Int) (timeout : Int) (hmin : 0 ≤ maxlen)
    (hint : maxlen < 2 ^ 31 - 1) (rs : List Receive) (c : Conn) :
    ∃ b, c.unread = b ++ (get clock maxlen timeout rs c).2.unread ∧ b.length ≤ maxlen
      ∧ Delivers timeout b (get clock maxlen timeout rs c).1 := by
  rw [get, if_neg (Int.not_lt.mpr hmin)]
  have hnil : (([] : List Byte).length : Int) ≤ maxlen := hmin
  obtain ⟨b, hunread, hlength, hdelivers⟩ := getLoop_delivers hint rs c.tick hnil
  exact ⟨b, hunread, hlength, hdelivers⟩

end Nrtb.TcpSocket
