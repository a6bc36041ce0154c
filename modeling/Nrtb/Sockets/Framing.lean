import Nrtb.Sockets.Getln
import Nrtb.Lib.Terminator

/-!
# The lines that `getln` returns

With a terminator of length `n`, the loop of `getln` asks for `n - 1` bytes when no terminator
can have begun in the last `n - 1`. While fewer than that have been collected the difference of
the lengths wraps around, nothing is found, and the chunk may run over the end of the line.

`Frames` is what a caller of `getln` relies on, for every peer and every clock: what is returned is
one line and what follows it is still to be read. `Safe` says for which arguments it may. The words
on terminators (`Unended`, `FirstLine`, and how far a chunk can be read ahead) are those of
`Lib.Terminator`; the code only comes in with the length of a chunk (`getlen_cases`) and the search
in the last bytes (`success_iff`).

* `frames_of_safe`: for `Safe` arguments every returned line is the right one, by an invariant of
  the loop (`getlnLoop_invariant`). Up to three bytes no chunk passes the end of a line. A longer
  terminator may be passed, but then none is found any more before the limit (`Past.not_ends`).
* `getln_frames_iff`: for all others there is a peer and a clock with which it is not. The peers are
  `overrun_returns`, for a chunk that passes the end of a line, and `dropped_returns`, for a `get`
  whose bytes a negative timeout drops.
-/

namespace Nrtb.TcpSocket

open Terminator

variable {clock : Nat → Int} {eol : List Byte} {maxlen timeout endtime : Int}

/-! ## What the tests of the loop say -/

theorem targetlen_eq (hint : eol.length < 2 ^ 31) : targetlen eol = eol.length :=
  CInt.toInt_of_range (by omega) (by exact_mod_cast hint)

/-- There is an `int` for the size of the first buffer. -/
theorem targetlen_room (hint : eol.length < 2 ^ 31 - 1) : targetlen eol < 2 ^ 31 - 1 := by
  rw [targetlen_eq (by omega)]
  omega

theorem toNat_targetlen (hint : eol.length < 2 ^ 31 - 1) : (targetlen eol).toNat = eol.length := by
  rw [targetlen_eq (by omega), Int.toNat_natCast]

theorem success_iff (hint : eol.length < 2 ^ 31 - 1) (returnme : List Byte) :
    success eol returnme = true ↔ eol <:+ returnme := by
  rw [success, toNat_targetlen hint, Bool.and_eq_true, decide_eq_true_iff, Option.isSome_iff_exists]
  constructor
  · rintro ⟨hlength, i, hfind⟩
    rw [CInt.sizeSub_of_le hlength] at hfind
    obtain ⟨hpos, hi, hocc, _⟩ := (Search.find_eq_some_iff _ _ _ _).mp hfind
    have hend := Search.occ_length_le hi hocc
    obtain rfl : i = returnme.length - eol.length := by omega
    rw [hocc.eq_of_length (by rw [List.length_drop]; omega)]
    exact List.drop_suffix _ _
  · rintro ⟨pre, rfl⟩
    refine ⟨by simp, pre.length, ?_⟩
    rw [CInt.sizeSub_of_le (by simp), Search.find_eq_some_iff]
    refine ⟨by simp, by simp, by simp, fun j hj hlt => ?_⟩
    simp at hj
    omega

/-- A terminator too long for an `int` is never found. -/
theorem success_long (hlong : 2 ^ 31 ≤ eol.length) (returnme : List Byte) :
    success eol returnme = false := by
  have hint := targetlen_lt eol
  by_contra h
  rw [Bool.not_eq_false, success, Bool.and_eq_true, decide_eq_true_iff,
    Option.isSome_iff_exists] at h
  obtain ⟨hlength, i, hfind⟩ := h
  rw [CInt.sizeSub_of_le hlength] at hfind
  obtain ⟨hpos, hi, hocc, _⟩ := (Search.find_eq_some_iff _ _ _ _).mp hfind
  have hend := Search.occ_length_le hi hocc
  omega

/-- The chunk is one byte, or one byte less than the terminator: then the collected bytes are too
few, or no terminator has begun in the last of them. -/
theorem getlen_cases {first : Byte} {tail : List Byte} (heol : eol = first :: tail)
    (hint : eol.length < 2 ^ 31 - 1) (returnme : List Byte) :
    getlen eol returnme = 1
      ∨ getlen eol returnme = tail.length
        ∧ (returnme.length < tail.length
          ∨ tail.length ≤ returnme.length
            ∧ first ∉ returnme.drop (returnme.length - tail.length)) := by
  have hlength : eol.length = tail.length + 1 := by rw [heol, List.length_cons]
  have hsearch : searchlen eol = tail.length := by
    rw [searchlen, targetlen_eq (by omega), hlength]
    omega
  unfold getlen
  rw [hsearch, Int.toNat_natCast]
  split
  · next h =>
    refine .inr ⟨rfl, ?_⟩
    rcases Nat.lt_or_ge returnme.length tail.length with hlt | hge
    · exact .inl hlt
    · have hnone := h.2
      rw [CInt.sizeSub_of_le hge, heol] at hnone
      exact .inr ⟨hge, Search.find_singleton_none hnone⟩
  · exact .inl rfl

/-- With less than `n - 1` bytes collected the difference wraps around. -/
theorem getlen_short {first : Byte} {tail : List Byte} (heol : eol = first :: tail)
    (hint : eol.length < 2 ^ 31 - 1) (htail : 0 < tail.length) {returnme : List Byte}
    (hshort : returnme.length < tail.length) : getlen eol returnme = tail.length := by
  have hlength : eol.length = tail.length + 1 := by rw [heol, List.length_cons]
  have hsearch : searchlen eol = tail.length := by
    rw [searchlen, targetlen_eq (by omega), hlength]
    omega
  unfold getlen
  rw [hsearch, Int.toNat_natCast]
  split
  · rfl
  · next h =>
    have hone : tail.length = 1 := by
      by_contra hne
      refine h ⟨by omega, ?_⟩
      rw [CInt.sizeSub_of_lt hshort, Search.find, if_neg (by omega)]
    rw [hone]
    rfl

/-! ## The chunks -/

/-- A chunk that is begun with at most one byte, or with at least `n - 1` bytes collected, does
not pass the end of a terminator. -/
theorem chunk_stops (hne : eol ≠ []) (hint : eol.length < 2 ^ 31 - 1) {r b : List Byte}
    (hunended : Unended eol r) (hb : b.length ≤ getlen eol r)
    (hstart : r.length ≤ 1 ∨ eol.length ≤ r.length + 1) :
    ∀ q, q <+: r ++ b → eol <:+ q → q = r ++ b := by
  obtain ⟨first, tail, heol⟩ := List.exists_cons_of_ne_nil hne
  have hlength : eol.length = tail.length + 1 := by rw [heol, List.length_cons]
  rcases getlen_cases heol hint r with hone | ⟨hchunk, hcase⟩
  · rw [hone] at hb
    exact readAhead_one hunended (by exact_mod_cast hb)
  · rw [hchunk] at hb
    intro q hq hends
    rcases Nat.lt_or_ge r.length q.length with hlt | hge
    · rcases hcase with hshort | ⟨hlong, hnone⟩
      · refine hq.eq_of_length_le ?_
        have := hends.length_le
        rw [List.length_append]
        omega
      · exact absurd hends (no_end_of_readAhead heol hlong hnone (by exact_mod_cast hb) hq hlt)
    · exact absurd hends
        (hunended q (List.prefix_of_prefix_length_le hq (List.prefix_append _ _) hge))

/-- Two terminators that end within such a chunk overlap in all but two bytes. -/
theorem chunk_stops_of_period (hne : eol ≠ []) (hint : eol.length < 2 ^ 31 - 1) {r b : List Byte}
    (hunended : Unended eol r) (hb : b.length ≤ getlen eol r)
    (hperiod : ∀ d, 0 < d → eol.drop d <+: eol → eol.length ≤ d + 2) (hends : eol <:+ r ++ b) :
    ∀ q, q <+: r ++ b → eol <:+ q → q = r ++ b := by
  by_cases hstart : r.length ≤ 1 ∨ eol.length ≤ r.length + 1
  · exact chunk_stops hne hint hunended hb hstart
  · intro q hq hqends
    obtain ⟨first, tail, heol⟩ := List.exists_cons_of_ne_nil hne
    have hlength : eol.length = tail.length + 1 := by rw [heol, List.length_cons]
    have hb' : b.length ≤ tail.length := by
      rcases getlen_cases heol hint r with hone | ⟨hchunk, _⟩ <;> omega
    by_contra hproper
    have hlt : q.length < (r ++ b).length :=
      lt_of_le_of_ne hq.length_le fun heq => hproper (hq.eq_of_length heq)
    have hqlong := hqends.length_le
    rw [List.length_append] at hlt
    have hd : (r ++ b).length - q.length ≤ eol.length := by
      rw [List.length_append]
      omega
    have := hperiod _ (by rw [List.length_append]; omega) (drop_prefix_of_ends hq hqends hends hd)
    rw [List.length_append] at this
    omega

/-! ## The rounds -/

/-- What a returned string and a further round say about the `get` of a round: it returned bytes,
or timed out, and the loop went on with what it had. -/
structure RoundStep (eol : List Byte) (maxlen timeout : Int) (returnme b : List Byte)
    (round : Round) : Prop where
  returned : ∀ s, round = .stop (.returns s) → success eol s = true
    ∧ (s = returnme ++ b ∨ s = returnme)
  went : ∀ held, round = .again held → success eol held = false ∧ overlong maxlen held = false
    ∧ (held = returnme ++ b ∨ held = returnme ∧ timeout < 0)

theorem RoundEnds.step {returnme b : List Byte} {r : Result} {round : Round}
    (h : RoundEnds eol maxlen timeout returnme b r round) :
    RoundStep eol maxlen timeout returnme b round := by
  cases h with
  | returns =>
    refine ⟨fun s hs => ?_, fun held hheld => ?_⟩
    · obtain ⟨rfl, hsuccess⟩ := check_stop hs
      exact ⟨hsuccess, .inl rfl⟩
    · obtain ⟨rfl, hsuccess, _, hlong⟩ := check_again hheld
      exact ⟨hsuccess, hlong, .inl rfl⟩
  | timedOut =>
    refine ⟨fun s hs => ?_, fun held hheld => ?_⟩
    · obtain ⟨rfl, hsuccess⟩ := check_stop hs
      exact ⟨hsuccess, .inr rfl⟩
    · obtain ⟨rfl, hsuccess, hdone, hlong⟩ := check_again hheld
      exact ⟨hsuccess, hlong, .inr ⟨rfl, Int.not_le.mp (of_decide_eq_false hdone)⟩⟩
  | fails e he hnil => exact ⟨nofun, nofun⟩
  | blocked => exact ⟨nofun, nofun⟩

/-- An invariant of the loop, with what it yields for a string that is returned. -/
theorem getlnLoop_invariant {I : List Byte → Conn → Prop} {P : List Byte → Conn → Prop}
    (hstop : ∀ returnme c b c' s, I returnme c → c.unread = b ++ c'.unread →
      b.length ≤ getlen eol returnme → success eol s = true →
      s = returnme ++ b ∨ s = returnme → P s c')
    (hagain : ∀ returnme c b c' held, I returnme c → c.unread = b ++ c'.unread →
      b.length ≤ getlen eol returnme → success eol held = false → overlong maxlen held = false →
      held = returnme ++ b ∨ held = returnme ∧ timeout < 0 → I held c')
    (schedule : List (List Receive)) {c c' : Conn} {returnme s : List Byte} (hI : I returnme c)
    (h : getlnLoop clock eol maxlen timeout endtime schedule c returnme = (.returns s, c')) :
    P s c' := by
  induction schedule generalizing c returnme with
  | nil => cases h
  | cons rs rest ih =>
    obtain ⟨b, hunread, hb, hround⟩ := roundGet_ends clock eol maxlen timeout endtime rs c returnme
    have hstep := hround.step
    rw [getlnLoop] at h
    generalize roundGet clock eol endtime rs c returnme = out at hunread hstep h
    generalize afterGet eol maxlen timeout returnme out.1 = round at hstep h
    cases round with
    | stop r =>
      obtain ⟨rfl, rfl⟩ := Prod.mk.inj h
      obtain ⟨hsuccess, hs⟩ := hstep.returned s rfl
      exact hstop returnme c b out.2 s hI hunread hb hsuccess hs
    | again held =>
      obtain ⟨hsuccess, hlong, hheld⟩ := hstep.went held rfl
      exact ih (hagain returnme c b out.2 held hI hunread hb hsuccess hlong hheld) h

/-! ## The arguments with which every line is the right one -/

/-- Bytes come, or nothing. -/
def Receive.isOpen : Receive → Bool
  | data _ => true
  | failed .eagain => true
  | _ => false

/-- The peer sends or is silent. -/
def OpenSchedule (schedule : List (List Receive)) : Prop :=
  ∀ rs ∈ schedule, ∀ r ∈ rs, r.isOpen = true

theorem openSchedule_cons {r : Receive} {rest : List (List Receive)} (hr : r.isOpen = true)
    (hrest : OpenSchedule rest) : OpenSchedule ([r] :: rest) := by
  intro rs hrs r' hr'
  rcases List.mem_cons.mp hrs with rfl | hrs
  · obtain rfl := List.mem_singleton.mp hr'
    exact hr
  · exact hrest rs hrs r' hr'

theorem openSchedule_replicate (m n : Nat) : OpenSchedule (List.replicate m [.data n]) := by
  intro rs hrs r hr
  obtain rfl := List.eq_of_mem_replicate hrs
  obtain rfl := List.mem_singleton.mp hr
  rfl

/-- Whatever the peer sends, however it is delivered and whatever the clock shows, a string that
is returned is the first line of the stream, and what comes after it is unread. -/
def Frames (eol : List Byte) (maxlen timeout : Int) : Prop :=
  ∀ (clock : Nat → Int) schedule c s c', OpenSchedule schedule →
    getln clock eol maxlen timeout schedule c = (.returns s, c') →
      FirstLine eol s c.unread ∧ c.unread = s ++ c'.unread

/-- The limit ends the call before a second terminator that overlaps the first has been read. -/
def Tight (eol : List Byte) (maxlen : Int) : Prop :=
  0 < maxlen ∧ ∀ d, 0 < d → eol.drop d <+: eol →
    eol.length ≤ d + 2 ∧ maxlen < eol.length + d

/-- The arguments with which `getln` frames lines, or never returns one. -/
def Safe (eol : List Byte) (maxlen timeout : Int) : Prop :=
  maxlen < 0 ∨ 2 ^ 31 - 1 ≤ eol.length
    ∨ (eol.length ≤ 3 ∨ Tight eol maxlen) ∧ (0 ≤ timeout ∨ maxlen = 1 ∧ 2 ≤ eol.length)

/-- A terminator has come to its end before the end of what is held, and the limit is not
reached. -/
def Past (eol : List Byte) (maxlen : Int) (returnme : List Byte) : Prop :=
  overlong maxlen returnme = false ∧ ∃ q, q <+: returnme ∧ eol <:+ q ∧ q ≠ returnme

theorem firstLine_of_chunk (hne : eol ≠ []) (hint : eol.length < 2 ^ 31 - 1)
    (hargs : eol.length ≤ 3 ∨ Tight eol maxlen) {r b rest : List Byte} (hunended : Unended eol r)
    (hb : b.length ≤ getlen eol r) (hends : eol <:+ r ++ b) :
    FirstLine eol (r ++ b) (r ++ b ++ rest) := by
  refine firstLine_of_readAhead ?_ hends
  rcases hargs with hshort | ⟨_, hperiod⟩
  · exact chunk_stops hne hint hunended hb (by omega)
  · exact chunk_stops_of_period hne hint hunended hb
      (fun d hd hdrop => (hperiod d hd hdrop).1) hends

/-- Past a terminator no second one can end before the limit is reached. -/
theorem Past.not_ends (hne : eol ≠ []) (hint : eol.length < 2 ^ 31 - 1) (htight : Tight eol maxlen)
    {r b : List Byte} (h : Past eol maxlen r) (hb : b.length ≤ getlen eol r) :
    ¬ eol <:+ r ++ b := by
  intro hends
  obtain ⟨hpos, hperiod⟩ := htight
  obtain ⟨hlong, q, hq, hqends, hproper⟩ := h
  have hlimit : r.length < maxlen := by
    by_contra hge
    rw [overlong, decide_eq_false_iff_not] at hlong
    exact hlong ⟨hpos, Int.not_lt.mp hge⟩
  have hqlt : q.length < r.length :=
    lt_of_le_of_ne hq.length_le fun heq => hproper (hq.eq_of_length heq)
  have hqlong := hqends.length_le
  have hbound : maxlen < r.length + b.length := by
    rcases Nat.le_or_le ((r ++ b).length - q.length) eol.length with hd | hd
    · have hdrop := drop_prefix_of_ends (hq.trans (List.prefix_append r b)) hqends hends hd
      have := (hperiod _ (by rw [List.length_append]; omega) hdrop).2
      rw [List.length_append] at this
      omega
    · have hdrop : eol.drop eol.length <+: eol := by
        rw [List.drop_length]
        exact List.nil_prefix
      have := (hperiod _ (List.length_pos_of_ne_nil hne) hdrop).2
      rw [List.length_append] at hd
      omega
  obtain ⟨first, tail, heol⟩ := List.exists_cons_of_ne_nil hne
  have hlength : eol.length = tail.length + 1 := by rw [heol, List.length_cons]
  rcases getlen_cases heol hint r with hone | ⟨hchunk, hshort | ⟨hfull, hnone⟩⟩
  · omega
  · omega
  · rw [hchunk] at hb
    refine no_end_of_readAhead heol hfull hnone (by exact_mod_cast hb) (List.prefix_refl _) ?_ hends
    rw [List.length_append]
    omega

theorem Past.append {r b : List Byte} (h : Past eol maxlen r)
    (hlong : overlong maxlen (r ++ b) = false) : Past eol maxlen (r ++ b) := by
  obtain ⟨_, q, hq, hqends, hproper⟩ := h
  refine ⟨hlong, q, hq.trans (List.prefix_append r b), hqends, fun heq => hproper ?_⟩
  refine hq.eq_of_length_le ?_
  rw [heq, List.length_append]
  exact Nat.le_add_right _ _

/-- After a chunk that has not completed a line, none has ended, or the chunk has passed one. -/
theorem unended_or_past (hne : eol ≠ []) (hint : eol.length < 2 ^ 31 - 1)
    (hargs : eol.length ≤ 3 ∨ Tight eol maxlen) {r b : List Byte} (hunended : Unended eol r)
    (hb : b.length ≤ getlen eol r) (hends : ¬ eol <:+ r ++ b)
    (hlong : overlong maxlen (r ++ b) = false) :
    Unended eol (r ++ b) ∨ Tight eol maxlen ∧ Past eol maxlen (r ++ b) := by
  by_cases hall : ∀ q, q <+: r ++ b → eol <:+ q → q = r ++ b
  · exact .inl (unended_of_readAhead hall hends)
  · rcases hargs with hshort | htight
    · exact absurd (chunk_stops hne hint hunended hb (by omega)) hall
    · simp only [not_forall] at hall
      obtain ⟨q, hq, hqends, hproper⟩ := hall
      exact .inr ⟨htight, hlong, q, hq, hqends, hproper⟩

/-- With a timeout the loop never goes on after bytes have been dropped. -/
theorem getlnLoop_frames (hne : eol ≠ []) (hint : eol.length < 2 ^ 31 - 1)
    (hargs : eol.length ≤ 3 ∨ Tight eol maxlen) (htimeout : 0 ≤ timeout)
    (schedule : List (List Receive)) {stream returnme s : List Byte} {c c' : Conn}
    (hstream : stream = returnme ++ c.unread) (hunended : Unended eol returnme)
    (h : getlnLoop clock eol maxlen timeout endtime schedule c returnme = (.returns s, c')) :
    FirstLine eol s stream ∧ stream = s ++ c'.unread := by
  refine getlnLoop_invariant
    (I := fun r c => stream = r ++ c.unread ∧ ¬ eol <:+ r
      ∧ (Unended eol r ∨ Tight eol maxlen ∧ Past eol maxlen r))
    (P := fun s c' => FirstLine eol s stream ∧ stream = s ++ c'.unread)
    ?_ ?_ schedule ⟨hstream, hunended _ (List.prefix_refl _), .inl hunended⟩ h
  · rintro r c b c' s ⟨hr, hfailed, hcase⟩ hunread hb hsuccess hs
    rw [success_iff hint] at hsuccess
    rcases hs with rfl | rfl
    · rw [hunread, ← List.append_assoc] at hr
      rcases hcase with hunended | ⟨htight, hpast⟩
      · rw [hr]
        exact ⟨firstLine_of_chunk hne hint hargs hunended hb hsuccess, rfl⟩
      · exact absurd hsuccess (hpast.not_ends hne hint htight hb)
    · exact absurd hsuccess hfailed
  · rintro r c b c' held ⟨hr, hfailed, hcase⟩ hunread hb hsuccess hlong hheld
    rw [← Bool.not_eq_true, success_iff hint] at hsuccess
    rcases hheld with rfl | ⟨_, hneg⟩
    · refine ⟨by rw [hr, hunread, List.append_assoc], hsuccess, ?_⟩
      rcases hcase with hunended | ⟨htight, hpast⟩
      · exact unended_or_past hne hint hargs hunended hb hsuccess hlong
      · exact .inr ⟨htight, hpast.append hlong⟩
    · exact absurd htimeout (Int.not_le.mpr hneg)

/-- Without a timeout, but with room for one byte only, the loop goes on with nothing. -/
theorem getlnLoop_frames_one (hne : eol ≠ []) (hint : eol.length < 2 ^ 31 - 1)
    (hargs : eol.length ≤ 3 ∨ Tight eol 1) (htwo : 2 ≤ eol.length)
    (schedule : List (List Receive)) {stream returnme s : List Byte} {c c' : Conn}
    (hstream : stream = returnme ++ c.unread) (hunended : Unended eol returnme)
    (h : getlnLoop clock eol 1 timeout endtime schedule c returnme = (.returns s, c')) :
    FirstLine eol s stream ∧ stream = s ++ c'.unread := by
  refine getlnLoop_invariant
    (I := fun r c => r = [] ∨ stream = r ++ c.unread ∧ Unended eol r)
    (P := fun s c' => FirstLine eol s stream ∧ stream = s ++ c'.unread)
    ?_ ?_ schedule (.inr ⟨hstream, hunended⟩) h
  · rintro r c b c' s hI hunread hb hsuccess hs
    rw [success_iff hint] at hsuccess
    obtain ⟨first, tail, heol⟩ := List.exists_cons_of_ne_nil hne
    have hlength : eol.length = tail.length + 1 := by rw [heol, List.length_cons]
    have hslong := hsuccess.length_le
    rcases hI with rfl | ⟨hr, hunended⟩
    · -- from nothing one chunk does not complete a terminator
      have hs' : s.length ≤ b.length := by
        rcases hs with rfl | rfl
        · exact Nat.le_refl _
        · exact Nat.zero_le _
      rcases getlen_cases heol hint [] with hone | ⟨hchunk, _⟩ <;> omega
    · rcases hs with rfl | rfl
      · rw [hunread, ← List.append_assoc] at hr
        rw [hr]
        exact ⟨firstLine_of_chunk hne hint hargs hunended hb hsuccess, rfl⟩
      · exact absurd hsuccess (hunended _ (List.prefix_refl _))
  · rintro r c b c' held _ _ _ _ hlong _
    rw [overlong, decide_eq_false_iff_not] at hlong
    refine .inl (List.length_eq_zero_iff.mp ?_)
    omega

/-- A terminator too long for an `int` never ends the loop. -/
theorem getlnLoop_long (hlong : 2 ^ 31 ≤ eol.length) (schedule : List (List Receive))
    {returnme s : List Byte} {c c' : Conn} :
    getlnLoop clock eol maxlen timeout endtime schedule c returnme ≠ (.returns s, c') := by
  intro h
  refine getlnLoop_invariant (I := fun _ _ => True) (P := fun _ _ => False)
    (fun r c b c' s _ _ _ hsuccess _ => ?_) (fun _ _ _ _ _ _ _ _ _ _ _ => trivial)
    schedule trivial h
  rw [success_long hlong] at hsuccess
  cases hsuccess

/-- What a returned string says about the first `get`: it is the string, or the loop went on. -/
theorem getln_returns {schedule : List (List Receive)} {c c' : Conn} {s : List Byte}
    (hne : eol ≠ []) (h : getln clock eol maxlen timeout schedule c = (.returns s, c')) :
    0 ≤ maxlen ∧ ∃ rest returnme c₁, c.unread = returnme ++ c₁.unread
      ∧ targetlen eol < 2 ^ 31 - 1 ∧ returnme.length ≤ targetlen eol
      ∧ (success eol returnme = true ∧ s = returnme ∧ c' = c₁
        ∨ success eol returnme = false
          ∧ getlnLoop clock eol maxlen timeout (clock c.reads + timeout) rest c₁ returnme
            = (.returns s, c')) := by
  unfold getln at h
  rw [if_neg hne] at h
  split at h
  · cases h
  · next hmaxlen =>
    refine ⟨Int.not_lt.mp hmaxlen, ?_⟩
    split at h
    · cases h
    · split at h
      · cases h
      · next first rest =>
        by_cases htarget : targetlen eol < 0
        · rw [firstGet, get, if_pos htarget] at h
          cases h
        · have hroom : targetlen eol < 2 ^ 31 - 1 := by
            by_contra hlarge
            have hlargest : targetlen eol = 2 ^ 31 - 1 := by
              have := targetlen_lt eol
              omega
            rw [firstGet, hlargest, get_undefined] at h
            cases h
          obtain ⟨b, hunread, hb, hdelivers⟩ :=
            firstGet_delivers clock timeout (Int.not_lt.mp htarget) hroom first c
          generalize firstGet clock eol timeout first c = out at hunread hdelivers h
          obtain ⟨r, c₁⟩ := out
          cases hdelivers with
          | returns =>
            refine ⟨rest, b, c₁, hunread, hroom, hb, ?_⟩
            rw [afterFirst] at h
            split at h
            · next hsuccess =>
              obtain ⟨hs, rfl⟩ := Prod.mk.inj h
              exact .inl ⟨hsuccess, (Result.returns.inj hs).symm, rfl⟩
            · next hsuccess => exact .inr ⟨Bool.not_eq_true _ ▸ hsuccess, h⟩
          | timedOut htimeout =>
            rw [afterFirst, if_pos (nonneg_of_wait_pos htimeout), fail] at h
            split at h <;> cases h
          | notOpen hnil => cases h
          | general hnil => cases h
          | blocked => cases h

theorem frames_of_safe (hne : eol ≠ []) (hsafe : Safe eol maxlen timeout)
    {schedule : List (List Receive)} {c c' : Conn} {s : List Byte}
    (h : getln clock eol maxlen timeout schedule c = (.returns s, c')) :
    FirstLine eol s c.unread ∧ c.unread = s ++ c'.unread := by
  obtain ⟨hmaxlen, rest, returnme, c₁, hunread, hroom, hlength, hcase⟩ := getln_returns hne h
  rcases Nat.lt_or_ge eol.length (2 ^ 31) with hint | hlong
  · have hint : eol.length < 2 ^ 31 - 1 := by
      rw [targetlen_eq hint] at hroom
      omega
    rw [targetlen_eq (by omega)] at hlength
    have hlength : returnme.length ≤ eol.length := by exact_mod_cast hlength
    rcases hcase with ⟨hsuccess, rfl, rfl⟩ | ⟨hfailed, hloop⟩
    · -- the first `get` stops at the end of the shortest possible line
      have hends := (success_iff hint s).mp hsuccess
      refine ⟨⟨⟨c'.unread, hunread.symm⟩, hends, fun q _ hq => ?_⟩, hunread⟩
      exact hlength.trans hq.length_le
    · have hunended : Unended eol returnme := fun q hq hqends => by
        rw [← Bool.not_eq_true, success_iff hint] at hfailed
        have hle := hq.length_le
        have hge := hqends.length_le
        rw [hq.eq_of_length (by omega)] at hqends
        exact hfailed hqends
      rcases hsafe with hneg | hlong | ⟨hargs, htimeout | ⟨hone, htwo⟩⟩
      · exact absurd hneg (Int.not_lt.mpr hmaxlen)
      · exact absurd hint (Nat.not_lt.mpr hlong)
      · exact getlnLoop_frames hne hint hargs htimeout rest hunread hunended hloop
      · rw [hone] at hloop hargs
        exact getlnLoop_frames_one hne hint hargs htwo rest hunread hunended hloop
  · rcases hcase with ⟨hsuccess, _, _⟩ | ⟨_, hloop⟩
    · rw [success_long hlong] at hsuccess
      cases hsuccess
    · exact absurd hloop (getlnLoop_long hlong rest)

/-! ## Peers and clocks for the other arguments -/

theorem min_toNat {n : Nat} {g : Int} (h : n ≤ g) : min n g.toNat = n := by omega

section Single

variable {m t : Int} {k : Nat} {c : Conn}

/-- What one `recv` takes from what is pending. -/
theorem receive_data (hne : c.unread ≠ []) :
    receive m.toNat (.data k) c.tick.tick = (.bytes (c.unread.take (min (k + 1) m.toNat)),
      ⟨c.unread.drop (min (k + 1) m.toNat), c.reads + 2⟩) :=
  if_neg fun h => hne h.1

theorem collect_data (hmin : 0 < m) (hne : c.unread ≠ []) :
    collect t [] (.bytes (c.unread.take (min (k + 1) m.toNat)))
      = .ok (c.unread.take (min (k + 1) m.toNat), false) := by
  obtain ⟨x, rest, hrest⟩ := List.exists_cons_of_ne_nil hne
  obtain ⟨j, hj⟩ : ∃ j, min (k + 1) m.toNat = j + 1 := ⟨min (k + 1) m.toNat - 1, by omega⟩
  rw [hj, hrest, List.take_succ_cons]
  rfl

/-- A `get` without a timeout is one `recv`. -/
theorem get_once (hmin : 0 < m) (hint : m < 2 ^ 31 - 1) (hne : c.unread ≠ []) :
    get clock m 0 [.data k] c = (.returns (c.unread.take (min (k + 1) m.toNat)),
      ⟨c.unread.drop (min (k + 1) m.toNat), c.reads + 2⟩) := by
  rw [get, if_neg (Int.not_lt.mpr hmin.le), getLoop_cons (.nil hmin.le hint),
    limit_nil hmin.le (by omega), receive_data hne]
  dsimp only
  rw [collect_data hmin hne]
  simp [expired]

/-- A `get` whose clock has passed its end after the first `recv`. -/
theorem get_late (hmin : 0 < m) (hint : m < 2 ^ 31 - 1) (ht : 0 < t) (hne : c.unread ≠ [])
    (hlate : clock c.reads + t < clock (c.reads + 2)) :
    get clock m t [.data k] c =
      (if clock c.reads + t < clock (c.reads + 3)
        then .throws .timeout (c.unread.take (min (k + 1) m.toNat))
        else .returns (c.unread.take (min (k + 1) m.toNat)),
      ⟨c.unread.drop (min (k + 1) m.toNat), c.reads + 4⟩) := by
  rw [get, if_neg (Int.not_lt.mpr hmin.le), getLoop_cons (.nil hmin.le hint),
    limit_nil hmin.le (by omega), receive_data hne]
  dsimp only
  rw [collect_data hmin hne]
  simp only [expired, if_pos ht, hlate, Conn.tick, decide_true, Bool.or_true, Bool.true_or, if_true]
  split <;> simp_all

theorem get_nothing (hmin : 0 ≤ m) (hint : m < 2 ^ 31 - 1) :
    get clock m 0 [.failed .eagain] c = (.returns [], ⟨c.unread, c.reads + 2⟩) := by
  rw [get, if_neg (Int.not_lt.mpr hmin), getLoop_cons (.nil hmin hint)]
  simp [receive, collect, expired, Conn.tick]

/-- A round of the loop when its time is up. -/
theorem roundGet_once {r : List Byte} (hclock : clock c.reads = endtime) (hne : c.unread ≠ []) :
    roundGet clock eol endtime [.data k] c r
      = (.returns (c.unread.take (min (k + 1) (getlen eol r).toNat)),
        ⟨c.unread.drop (min (k + 1) (getlen eol r).toNat), c.reads + 3⟩) := by
  obtain ⟨hmin, hint⟩ := getlen_range eol r
  have hleft : CInt.toInt (endtime - clock c.reads) = 0 := by
    rw [hclock, Int.sub_self]
    decide
  rw [roundGet, hleft]
  exact get_once hmin hint hne

end Single

section Runs

variable {c : Conn} {r : List Byte}

theorem check_false (hint : eol.length < 2 ^ 31 - 1)
    (hlong : ¬ eol <:+ r → overlong maxlen r = false) :
    check eol maxlen r false = if eol <:+ r then .stop (.returns r) else .again r := by
  rw [check]
  by_cases hends : eol <:+ r
  · rw [if_pos ((success_iff hint r).mpr hends), if_pos hends]
  · rw [if_neg (fun h => hends ((success_iff hint r).mp h)), if_neg hends, hlong hends]
    rfl

theorem success_of_shorter (hint : eol.length < 2 ^ 31 - 1) (hshort : r.length < eol.length) :
    ¬ eol <:+ r ∧ success eol r = false := by
  have hnot : ¬ eol <:+ r := fun hends => by
    have := hends.length_le
    omega
  exact ⟨hnot, by rw [← Bool.not_eq_true, success_iff hint]; exact hnot⟩

/-- The arguments are usable. -/
theorem getln_start (hne : eol ≠ []) (hint : eol.length < 2 ^ 31 - 1) (hmaxlen : 0 ≤ maxlen)
    (first : List Receive) (rest : List (List Receive)) (c : Conn) :
    getln clock eol maxlen timeout (first :: rest) c
      = afterFirst clock eol maxlen timeout (clock c.reads + timeout) rest
        (firstGet clock eol timeout first c) := by
  have hoverflow : targetlen eol ≠ -2 ^ 31 := by
    rw [targetlen_eq (by omega)]
    omega
  exact getln_eq hne (Int.not_lt.mpr hmaxlen) hoverflow first rest c

theorem rest_ne_nil {rest : List Byte} (hends : eol <:+ r ++ rest) (hfailed : ¬ eol <:+ r) :
    rest ≠ [] := by
  rintro rfl
  rw [List.append_nil] at hends
  exact hfailed hends

/-- One byte after the other, some line is returned in the end. -/
theorem getlnLoop_singles (maxlen timeout : Int) (hint : eol.length < 2 ^ 31 - 1)
    (hclock : ∀ j, c.reads ≤ j → clock j = endtime) (hne : c.unread ≠ [])
    (hends : eol <:+ r ++ c.unread) (hmax : maxlen = 0 ∨ (r ++ c.unread).length ≤ maxlen) :
    ∃ s c', getlnLoop clock eol maxlen timeout endtime
        (List.replicate c.unread.length [.data 0]) c r = (.returns s, c')
      ∧ r.length < s.length := by
  obtain ⟨unread, reads⟩ := c
  dsimp only at *
  induction unread generalizing r reads with
  | nil => exact absurd rfl hne
  | cons x rest ih =>
    have hround : roundGet clock eol endtime [.data 0] ⟨x :: rest, reads⟩ r
        = (.returns [x], ⟨rest, reads + 3⟩) := by
      obtain ⟨hmin, _⟩ := getlen_range eol r
      have hone : min (0 + 1) (getlen eol r).toNat = 1 := by omega
      rw [roundGet_once (hclock reads le_rfl) hne, hone]
      rfl
    have hheld : r ++ x :: rest = r ++ [x] ++ rest := by simp
    rw [hheld] at hends hmax
    rw [List.length_cons, List.replicate_succ, getlnLoop, hround]
    dsimp only [afterGet]
    have hlong : ¬ eol <:+ r ++ [x] → overlong maxlen (r ++ [x]) = false := fun hfailed => by
      have := List.length_pos_of_ne_nil (rest_ne_nil hends hfailed)
      rw [overlong, decide_eq_false_iff_not]
      simp only [List.length_append, List.length_singleton] at hmax ⊢
      omega
    rw [check_false hint hlong]
    split
    · exact ⟨r ++ [x], _, rfl, by simp⟩
    · next hfailed =>
      obtain ⟨s, c', hloop, hlength⟩ := ih (r := r ++ [x]) (reads + 3)
        (fun j hj => hclock j (by omega)) (rest_ne_nil hends hfailed) hends hmax
      refine ⟨s, c', hloop, ?_⟩
      rw [List.length_append, List.length_singleton] at hlength
      omega

/-- A clock that shows the time at which the call ends, once the first `get` is over. A `get`
with a timeout is brought to an early end by a step forward and back. -/
def jumpClock (timeout : Int) (k : Nat) : Int :=
  if 0 < timeout then
    if k < 3 then 0 else if k = 3 then timeout + 1 else if k = 4 then 0 else timeout
  else if k < 3 then 0 else timeout

/-- The readings of that clock during the first `get`. -/
def jumpReads (timeout : Int) : Nat := if 0 < timeout then 5 else 3

theorem jumpClock_late {j : Nat} (hj : jumpReads timeout ≤ j) : jumpClock timeout j = timeout := by
  unfold jumpReads at hj
  unfold jumpClock
  split at hj <;> simp_all <;> omega

/-- With that clock the first `get` is one `recv`. -/
theorem firstGet_jump (timeout : Int) (hint : eol.length < 2 ^ 31 - 1) (hne : eol ≠ []) {k : Nat}
    (hk : k + 1 < eol.length) {stream : List Byte} (hstream : stream ≠ []) :
    firstGet (jumpClock timeout) eol timeout [.data k] ⟨stream, 0⟩
      = (.returns (stream.take (k + 1)), ⟨stream.drop (k + 1), jumpReads timeout⟩) := by
  have hmin : 0 < targetlen eol := by
    rw [targetlen_eq (by omega)]
    exact_mod_cast List.length_pos_of_ne_nil hne
  have hcount : min (k + 1) (targetlen eol).toNat = k + 1 := by
    rw [toNat_targetlen hint]
    omega
  rw [firstGet, jumpReads]
  by_cases ht : 0 < timeout
  · rw [if_neg (by omega), if_pos ht,
      get_late hmin (targetlen_room hint) ht hstream (by simp [jumpClock, ht]), if_neg, hcount]
    · rfl
    · simp [jumpClock, ht]
      omega
  · have hwait : (if timeout < 0 then 0 else timeout) = 0 := by split <;> omega
    rw [hwait, if_neg ht, get_once hmin (targetlen_room hint) hstream, hcount]
    rfl

/-- The first round behind it: the lengths wrap around, and one byte less than the terminator is
asked for. -/
theorem roundGet_jump (hint : eol.length < 2 ^ 31 - 1) {k : Nat} (hk : k + 2 < eol.length)
    {stream : List Byte} (hstream : k + 1 < stream.length) :
    roundGet (jumpClock timeout) eol timeout [.data (eol.length - 2)]
        ⟨stream.drop (k + 1), jumpReads timeout⟩ (stream.take (k + 1))
      = (.returns ((stream.drop (k + 1)).take (eol.length - 1)),
        ⟨stream.drop (k + eol.length), jumpReads timeout + 3⟩) := by
  have hne : eol ≠ [] := List.ne_nil_of_length_pos (by omega)
  obtain ⟨first, tail, heol⟩ := List.exists_cons_of_ne_nil hne
  have htail : eol.length = tail.length + 1 := by rw [heol, List.length_cons]
  have hdrop : stream.drop (k + 1) ≠ [] := by
    rw [Ne, List.drop_eq_nil_iff]
    omega
  have hheld : (stream.take (k + 1)).length = k + 1 := List.length_take_of_le hstream.le
  have hchunk : getlen eol (stream.take (k + 1)) = tail.length :=
    getlen_short heol hint (by omega) (by omega)
  have hcount : min (eol.length - 2 + 1) (tail.length : Int).toNat = eol.length - 1 := by omega
  rw [roundGet_once (jumpClock_late le_rfl) hdrop, hchunk, hcount, List.drop_drop,
    show k + 1 + (eol.length - 1) = k + eol.length from by omega]

/-- What has been read then is a line, or the loop goes on from it. -/
theorem getln_jump (timeout : Int) (hmaxlen : 0 ≤ maxlen) (hint : eol.length < 2 ^ 31 - 1) {k : Nat}
    (hk : k + 2 < eol.length) {stream : List Byte} (hstream : k + 1 < stream.length)
    (hroom : ¬ eol <:+ stream.take (k + eol.length) →
      overlong maxlen (stream.take (k + eol.length)) = false) (rest : List (List Receive)) :
    getln (jumpClock timeout) eol maxlen timeout
        ([.data k] :: [.data (eol.length - 2)] :: rest) ⟨stream, 0⟩
      = if eol <:+ stream.take (k + eol.length)
        then (.returns (stream.take (k + eol.length)),
          ⟨stream.drop (k + eol.length), jumpReads timeout + 3⟩)
        else getlnLoop (jumpClock timeout) eol maxlen timeout timeout rest
          ⟨stream.drop (k + eol.length), jumpReads timeout + 3⟩
          (stream.take (k + eol.length)) := by
  have hne : eol ≠ [] := List.ne_nil_of_length_pos (by omega)
  have hfirst := firstGet_jump timeout hint hne (show k + 1 < eol.length by omega)
    (List.ne_nil_of_length_pos (by omega : 0 < stream.length))
  have hheld : (stream.take (k + 1)).length = k + 1 := List.length_take_of_le hstream.le
  have hfailed : success eol (stream.take (k + 1)) = false :=
    (success_of_shorter hint (by omega)).2
  have happend : stream.take (k + 1) ++ (stream.drop (k + 1)).take (eol.length - 1)
      = stream.take (k + eol.length) := by
    rw [← List.take_add, show k + 1 + (eol.length - 1) = k + eol.length from by omega]
  have hend : jumpClock timeout 0 + timeout = timeout := by simp [jumpClock]
  rw [getln_start hne hint hmaxlen, hfirst, hend, afterFirst, hfailed, if_neg Bool.false_ne_true,
    getlnLoop, roundGet_jump hint hk hstream]
  dsimp only [afterGet]
  rw [happend, check_false hint hroom]
  split <;> rfl

/-- A long terminator behind a part of it: the chunk of the first round passes the end of a first
line as long as the terminator. -/
theorem overrun_returns (timeout : Int) (hmaxlen : 0 ≤ maxlen) (hint : eol.length < 2 ^ 31 - 1)
    (hlong : 4 ≤ eol.length) {d : Nat} (hd : 0 < d)
    (hroom : d + 2 < eol.length ∨ maxlen = 0 ∨ eol.length + d ≤ maxlen) (hdle : d ≤ eol.length) :
    ∃ clock schedule s c', OpenSchedule schedule
      ∧ getln clock eol maxlen timeout schedule ⟨eol.take d ++ eol, 0⟩ = (.returns s, c')
      ∧ eol.length < s.length := by
  obtain ⟨k, hk, hkn, hkd⟩ : ∃ k, 1 ≤ k ∧ k + 3 ≤ eol.length
      ∧ (k = d ∨ k = 1 ∧ (maxlen = 0 ∨ eol.length + d ≤ maxlen)) := by
    rcases hroom with hshort | hroom
    · exact ⟨d, hd, by omega, .inl rfl⟩
    · exact ⟨1, le_rfl, by omega, .inr ⟨rfl, hroom⟩⟩
  let stream := eol.take d ++ eol
  have hlength : stream.length = d + eol.length := by
    rw [List.length_append, List.length_take, Nat.min_eq_left hdle]
  have hstreamEnds : eol <:+ stream := List.suffix_append _ _
  -- unless the stream is read to its end there is room for all of it
  have hrest : ¬ eol <:+ stream.take (k + eol.length) →
      k + eol.length < stream.length ∧ (maxlen = 0 ∨ stream.length ≤ maxlen) := fun hnot => by
    have hlt : k + eol.length < stream.length := by
      by_contra hge
      rw [List.take_of_length_le (Nat.not_lt.mp hge)] at hnot
      exact hnot hstreamEnds
    rcases hkd with hk | ⟨hk, hroom⟩ <;> omega
  have hnotOverlong : ¬ eol <:+ stream.take (k + eol.length) →
      overlong maxlen (stream.take (k + eol.length)) = false := fun hnot => by
    obtain ⟨hlt, hmax⟩ := hrest hnot
    rw [overlong, decide_eq_false_iff_not, List.length_take]
    omega
  have hopen : ∀ m, OpenSchedule
      ([.data k] :: [.data (eol.length - 2)] :: List.replicate m [.data 0]) := fun m =>
    openSchedule_cons rfl (openSchedule_cons rfl (openSchedule_replicate m 0))
  have hgetln := getln_jump timeout hmaxlen hint (show k + 2 < eol.length by omega)
    (show k + 1 < stream.length by omega) hnotOverlong
  by_cases hends : eol <:+ stream.take (k + eol.length)
  · refine ⟨_, _, stream.take (k + eol.length), _, hopen 0, (hgetln _).trans (if_pos hends), ?_⟩
    rw [List.length_take]
    omega
  · obtain ⟨hlt, hmax⟩ := hrest hends
    have hdrop : stream.drop (k + eol.length) ≠ [] := by
      rw [Ne, List.drop_eq_nil_iff]
      omega
    have htogether : stream.take (k + eol.length) ++ stream.drop (k + eol.length) = stream :=
      List.take_append_drop _ _
    obtain ⟨s, c', hloop, hlonger⟩ := getlnLoop_singles maxlen timeout
      (c := ⟨stream.drop (k + eol.length), jumpReads timeout + 3⟩)
      (r := stream.take (k + eol.length)) hint
      (fun j hj => jumpClock_late ((Nat.le_add_right _ 3).trans hj)) hdrop
      (by rw [htogether]; exact hstreamEnds)
      (by rw [htogether]; exact hmax)
    refine ⟨_, _, s, c', hopen _, (hgetln _).trans ((if_neg hends).trans hloop), ?_⟩
    rw [List.length_take] at hlonger
    omega

/-- A clock that is set back in front of the first round of the loop and passes the end of its
`get`. -/
def backClock (timeout : Int) (k : Nat) : Int :=
  if k = 3 then timeout - 1 else if k = 6 then 2 else if k = 7 then 2
  else if k = 8 then timeout else 0

/-- Without a timeout the first `get` brings a part of the terminator, and not all of it. -/
theorem exists_firstGet_part (hint : eol.length < 2 ^ 31 - 1) (hne : eol ≠ [])
    (htimeout : timeout < 0) (hroom : eol.length = 1 ∨ maxlen ≠ 1) :
    ∃ r u v, u ++ v = eol
      ∧ (∀ x, firstGet (backClock timeout) eol timeout [r] ⟨u ++ x :: v, 0⟩
        = (.returns u, ⟨x :: v, 3⟩)) ∧ r.isOpen = true ∧ v ≠ []
      ∧ v.length ≤ getlen eol u ∧ overlong maxlen u = false := by
  obtain ⟨first, tail, heol⟩ := List.exists_cons_of_ne_nil hne
  have htail : eol.length = tail.length + 1 := by rw [heol, List.length_cons]
  have hmin : 0 < targetlen eol := by
    rw [targetlen_eq (by omega)]
    omega
  cases tail with
  | nil =>
    refine ⟨.failed .eagain, [], eol, rfl, fun x => ?_, rfl, hne, ?_, ?_⟩
    · rw [firstGet, if_pos htimeout, get_nothing hmin.le (targetlen_room hint)]
      rfl
    · have := (getlen_range eol []).1
      rw [htail]
      exact_mod_cast this
    · rw [overlong, decide_eq_false_iff_not, List.length_nil]
      omega
  | cons y tail =>
    refine ⟨.data 0, [first], y :: tail, heol.symm, fun x => ?_, rfl, (by simp), ?_, ?_⟩
    · have hcount : min (0 + 1) (targetlen eol).toNat = 1 := by omega
      rw [firstGet, if_pos htimeout, get_once hmin (targetlen_room hint) (by simp), hcount]
      rfl
    · rcases Nat.lt_or_ge 1 (y :: tail).length with hlt | hge
      · have hshort : [first].length < (y :: tail).length := hlt
        exact (getlen_short heol hint (Nat.zero_lt_of_lt hlt) hshort).ge
      · have := (getlen_range eol [first]).1
        omega
    · rw [overlong, decide_eq_false_iff_not, List.length_singleton]
      rw [List.length_cons] at htail
      omega

/-- Without a timeout the loop goes on after a `get` that has timed out, and the byte in the
comment is gone. -/
theorem dropped_returns (hmaxlen : 0 ≤ maxlen) (hint : eol.length < 2 ^ 31 - 1) (hne : eol ≠ [])
    (htimeout : timeout < 0) (hroom : eol.length = 1 ∨ maxlen ≠ 1) :
    ∃ clock schedule stream c', OpenSchedule schedule
      ∧ getln clock eol maxlen timeout schedule ⟨stream, 0⟩ = (.returns eol, c')
      ∧ stream.length = eol.length + 1 ∧ c'.unread = [] := by
  obtain ⟨r, u, v, huv, hfirst, hr, hv, hchunk, hlong⟩ :=
    exists_firstGet_part hint hne htimeout hroom
  have hlength := congrArg List.length huv
  rw [List.length_append] at hlength
  have hvpos := List.length_pos_of_ne_nil hv
  have hchunkMin := (getlen_range eol u).1
  obtain ⟨hshort, hsuccess⟩ := success_of_shorter hint (show u.length < eol.length by omega)
  have hdropped : roundGet (backClock timeout) eol timeout [.data 0] ⟨0 :: v, 3⟩ u
      = (.throws .timeout [0], ⟨v, 8⟩) := by
    have hleft : CInt.toInt (timeout - backClock timeout 3) = 1 := by
      rw [show timeout - backClock timeout 3 = 1 from by simp [backClock]]
      decide
    have hcount : min (0 + 1) (getlen eol u).toNat = 1 := min_toNat hchunkMin
    rw [roundGet, hleft]
    dsimp only [Conn.tick]
    rw [if_pos (by decide), get_late hchunkMin (getlen_range eol u).2 (by decide) (by simp)
      (by simp [backClock]), hcount]
    simp [backClock]
  have hlast : roundGet (backClock timeout) eol timeout [.data (v.length - 1)] ⟨v, 8⟩ u
      = (.returns v, ⟨[], 11⟩) := by
    have hcount : min (v.length - 1 + 1) (getlen eol u).toNat = v.length := by
      rw [Nat.sub_add_cancel hvpos]
      exact min_toNat hchunk
    rw [roundGet_once (by simp [backClock]) hv, hcount, List.take_length, List.drop_length]
  refine ⟨backClock timeout, [[r], [.data 0], [.data (v.length - 1)]], u ++ 0 :: v, ⟨[], 11⟩,
    ?_, ?_, ?_, rfl⟩
  · exact openSchedule_cons hr (openSchedule_cons rfl (openSchedule_replicate 1 _))
  · have hend : backClock timeout 0 + timeout = timeout := by simp [backClock]
    have hagain : check eol maxlen u (decide (0 ≤ timeout)) = .again u := by
      rw [decide_eq_false (Int.not_le.mpr htimeout), check_false hint fun _ => hlong,
        if_neg hshort]
    have hstop : check eol maxlen (u ++ v) false = .stop (.returns eol) := by
      rw [huv, check_false hint fun hnot => absurd (List.suffix_refl _) hnot,
        if_pos (List.suffix_refl _)]
    rw [getln_start hne hint hmaxlen, hfirst, hend, afterFirst, hsuccess,
      if_neg Bool.false_ne_true, getlnLoop, hdropped]
    dsimp only [afterGet]
    rw [hagain, Round.finish, getlnLoop, hlast]
    dsimp only [afterGet]
    rw [hstop]
    rfl
  · rw [List.length_append, List.length_cons]
    omega

end Runs

/-! ## Exactly those arguments -/

/-- Where a second terminator begins before the first has ended, and is read, lines are lost. -/
theorem tight_of_frames (hmaxlen : 0 ≤ maxlen) (hint : eol.length < 2 ^ 31 - 1)
    (hlong : 4 ≤ eol.length) (hframes : Frames eol maxlen timeout) : Tight eol maxlen := by
  have hnot : ∀ d, 0 < d → eol.drop d <+: eol → d ≤ eol.length →
      ¬ (d + 2 < eol.length ∨ maxlen = 0 ∨ eol.length + d ≤ maxlen) := by
    intro d hd hperiod hdle hroom
    obtain ⟨clock, schedule, s, c', hopen, hgetln, hlonger⟩ :=
      overrun_returns timeout hmaxlen hint hlong hd hroom hdle
    have hline := (hframes clock schedule _ s c' hopen hgetln).1
    have := hline.shortest eol (prefix_take_append hperiod) (List.suffix_refl _)
    omega
  have hself := hnot eol.length (by omega) (by rw [List.drop_length]; exact List.nil_prefix) le_rfl
  refine ⟨by omega, fun d hd hperiod => ?_⟩
  rcases Nat.le_or_le d eol.length with hdle | hdle
  · have := hnot d hd hperiod hdle
    omega
  · omega

/-- `getln` frames lines, over every stream, every delivery of it and every clock, exactly for these
arguments. From left to right each argument that is not safe has a peer of its own; from right to
left the invariant of the loop is enough. -/
theorem getln_frames_iff (eol : List Byte) (maxlen timeout : Int) (hne : eol ≠ []) :
    Frames eol maxlen timeout ↔ Safe eol maxlen timeout := by
  refine ⟨fun hframes => ?_, fun hsafe _ _ _ _ _ _ h => frames_of_safe hne hsafe h⟩
  rw [Safe]
  by_cases hmaxlen : maxlen < 0
  · exact .inl hmaxlen
  by_cases hint : 2 ^ 31 - 1 ≤ eol.length
  · exact .inr (.inl hint)
  have hmaxlen : 0 ≤ maxlen := Int.not_lt.mp hmaxlen
  have hint : eol.length < 2 ^ 31 - 1 := Nat.not_le.mp hint
  refine .inr (.inr ⟨?_, ?_⟩)
  · by_cases hshort : eol.length ≤ 3
    · exact .inl hshort
    · exact .inr (tight_of_frames hmaxlen hint (Nat.not_le.mp hshort) hframes)
  · by_contra hargs
    rw [not_or, Int.not_le] at hargs
    obtain ⟨htimeout, hargs⟩ := hargs
    have hpos := List.length_pos_of_ne_nil hne
    obtain ⟨clock, schedule, stream, c', hopen, hgetln, hlength, hrest⟩ :=
      dropped_returns hmaxlen hint hne htimeout (by omega)
    have hunread := (hframes clock schedule _ eol c' hopen hgetln).2
    rw [hrest, List.append_nil] at hunread
    rw [show stream = eol from hunread] at hlength
    omega

/-- One carriage return as the terminator is safe with a timeout. -/
theorem getln_frames_cr : Frames [13] 0 10 :=
  (getln_frames_iff [13] 0 10 nofun).mpr (.inr (.inr ⟨.inl (by decide), .inl (by decide)⟩))

/-- An empty line behind `\r\n`, which comes in two pieces: the second one is read past its end
and the string that is returned holds more than one line. -/
theorem getln_crlf_overruns :
    getln (fun _ => 0) [13, 10, 13, 10] 0 (-1) [[.data 1], [.data 2], [.data 0]]
        ⟨[13, 10, 13, 10, 13, 10], 0⟩ = (.returns [13, 10, 13, 10, 13, 10], ⟨[], 9⟩)
      ∧ ¬ Frames [13, 10, 13, 10] 0 (-1) := by
  have hcall : getln (fun _ => 0) [13, 10, 13, 10] 0 (-1) [[.data 1], [.data 2], [.data 0]]
      ⟨[13, 10, 13, 10, 13, 10], 0⟩ = (.returns [13, 10, 13, 10, 13, 10], ⟨[], 9⟩) := by decide
  refine ⟨hcall, fun hframes => ?_⟩
  have hopen : OpenSchedule [[.data 1], [.data 2], [.data 0]] := by
    intro rs hrs r hr
    simp only [List.mem_cons, List.not_mem_nil, or_false] at hrs
    rcases hrs with rfl | rfl | rfl <;> obtain rfl := List.mem_singleton.mp hr <;> rfl
  have hline := (hframes _ _ _ _ _ hopen hcall).1
  have := hline.shortest [13, 10, 13, 10] (by decide) (by decide)
  revert this
  decide

end Nrtb.TcpSocket
