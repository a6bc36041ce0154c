import Nrtb.Common
import Nrtb.Lib.CInt

/-!
# `cpp/common/common_rl/common.cpp` — percent encoding

Lines 175–247. `http_unhex` rewrites its text in place: it decodes the first `%` there is, puts the
byte where the `%` stood and searches from the start again, until no `%` is left. So a `%` that has
been decoded is searched for again, and decoded once more with what stands behind it. The place of a
`%` is kept in an `int`; at a place that does not fit into one the loop ends or goes on somewhere
else in the text.

Both results about it look at what is in front of the first `%` and at what is behind it. In front
of it everything is decoded and does not change any more, so that a run is an induction on the rest,
with a rest that begins by a `%` as the other half of the same induction (`Room`, `RoomBehind`).
From `2 ^ 31` bytes on the place is cut down and the round may be in front of the first `%`. There
is no such shape then, and the condition follows the places (`Sound`).

* `hextochar_pair`: two digits that `http_chartohex` wrote are read back.
* `unhex_enhex_iff`: the round trip of `http_enhex` and `http_unhex`.
* `unhex_rejects_iff`: when malformed escapes are rejected, and nothing else is.
-/

namespace Nrtb

open Search

namespace Hex

/-! ## The functions -/

/-- What a call of a `http_*` function comes to. -/
inductive HexOutcome where
  | returns (s : Str)
  | hextrans_exception
  -- a read behind the terminator of a string, or an `int` that overflows
  | undefined
deriving DecidableEq, Repr

/-- A round of the loop of `changecase`. -/
def changeChar (upper lower : Str) (c : Byte) : Byte :=
  match find lower [c] 0 with
  | some loc => upper.getD loc Ch.nul
  | none => c

/-- `changecase(s, upper, lower)` -/
def changecase (s upper lower : Str) : Str := s.map (changeChar upper lower)

/-- `__ricks_handy_upper` -/
def upper : Str := str "ABCDEFGHIJKLMNOPQRSTUVWXYZ"

/-- `__ricks_handy_lower` -/
def lower : Str := str "abcdefghijklmnopqrstuvwxyz"

/-- `upcase(s)` -/
def upcase (s : Str) : Str := changecase s upper lower

/-- `__ricks_handy_hexits` -/
def hexits : Str := str "0123456789ABCDEF"

/-- `__ricks_handy_hexits.find(c)`, where a failed search is `npos`. -/
def hexit (c : Byte) : Nat := (find hexits [c] 0).getD (2 ^ 64 - 1)

/-- `s[pos]`: a byte of the string or its terminator; further behind there is nothing to read. -/
def charAt (s : Str) (pos : Nat) : Option Byte := (s ++ [Ch.nul])[pos]?

/-- The `unsigned char` that the `size_t` sum of two digits is cut down to. -/
def hexByte (hi lo : Byte) : Byte := UInt8.ofNat ((16 * hexit hi + hexit lo) % 2 ^ 64)

/-- `http_hextochar(s)` -/
def http_hextochar (s : Str) : HexOutcome :=
  let s := upcase s
  match charAt s 0, charAt s 1 with
  | some hi, some lo => .returns [hexByte hi lo]
  | _, _ => .undefined

/-- The two digits of a byte, `hexval.quot` and `hexval.rem`. -/
def hexPair (v : Byte) : Str :=
  [hexits.getD (v.toNat / 16) Ch.nul, hexits.getD (v.toNat % 16) Ch.nul]

/-- `http_chartohex(s)` -/
def http_chartohex (s : Str) : Str := s.flatMap hexPair

/-- `http_enhex(s)` -/
def http_enhex (s : Str) : Str := s.flatMap fun v => Ch.percent :: hexPair v

/-- How a round of the loop of `http_unhex` begins. -/
inductive UnhexRound where
  | stop (r : HexOutcome)
  -- the `%` is decoded at this place
  | decode (loc : Nat)
deriving DecidableEq, Repr

/-- `int where = s.find('%')`: the place is cut down to an `int`, so that `where+1` can overflow;
with a negative place `substr` or `erase` throws. -/
def unhexPlace (loc : Int) : UnhexRound :=
  if loc = 2 ^ 31 - 1 then .stop .undefined
  else if loc < 0 then .stop .hextrans_exception
  else .decode loc.toNat

def unhexRound (s : Str) : UnhexRound :=
  match find s [Ch.percent] 0 with
  | none => .stop (.returns s)
  | some loc => unhexPlace (CInt.toInt loc)

/-- `s.substr(where+1,2)` -/
def hexchar (s : Str) (loc : Nat) : Str := (s.drop (loc + 1)).take 2

/-- `s.erase(where,3)` and `s.insert(where,c)` -/
def putChar (s : Str) (loc : Nat) (c : Str) : Str := s.take loc ++ c ++ s.drop (loc + 3)

theorem hextochar_returns_length {s c : Str} (h : http_hextochar s = .returns c) :
    0 < s.length ∧ c.length = 1 := by
  cases s with
  | nil => cases h
  | cons a s =>
    simp only [http_hextochar] at h
    split at h
    · cases h
      exact ⟨by simp, rfl⟩
    · cases h

theorem putChar_length {s c : Str} {loc : Nat} (h : http_hextochar (hexchar s loc) = .returns c) :
    (putChar s loc c).length < s.length := by
  obtain ⟨hgroup, hc⟩ := hextochar_returns_length h
  rw [hexchar, List.length_take, List.length_drop] at hgroup
  simp only [putChar, List.length_append, List.length_take, List.length_drop, hc]
  omega

/-- The loop of `http_unhex`: the groups given to `http_hextochar`, and how it ends. -/
def unhexRun (s : Str) : List Str × HexOutcome :=
  match unhexRound s with
  | .stop r => ([], r)
  | .decode loc =>
    match _ : http_hextochar (hexchar s loc) with
    | .returns c =>
      let (groups, r) := unhexRun (putChar s loc c)
      (hexchar s loc :: groups, r)
    | r => ([hexchar s loc], r)
  termination_by s.length
  decreasing_by exact putChar_length ‹_›

/-- `http_unhex(s)` -/
def http_unhex (s : Str) : HexOutcome := (unhexRun s).2

/-! ## A pair of digits -/

/-- What a character counts for in a group, in either case. -/
def digit (c : Byte) : Nat := hexit (changeChar upper lower c)

/-- The byte that a group stands for. -/
def decoded (hi lo : Byte) : Byte := UInt8.ofNat ((16 * digit hi + digit lo) % 2 ^ 64)

theorem hextochar_cons_cons (hi lo : Byte) (s : Str) :
    http_hextochar (hi :: lo :: s) = .returns [decoded hi lo] := rfl

theorem hextochar_singleton (hi : Byte) :
    http_hextochar [hi] = .returns [hexByte (changeChar upper lower hi) Ch.nul] := rfl

/-- A character outside the digits counts for `npos`. -/
theorem hexit_range (c : Byte) : hexit c < 16 ∨ hexit c = 2 ^ 64 - 1 := by
  unfold hexit
  cases h : find hexits [c] 0 with
  | none => exact Or.inr rfl
  | some loc =>
    have hloc := (List.getElem?_eq_some_iff.mp (find_singleton_some h).2.1).1
    exact Or.inl hloc

/-- A digit of its own value stands for nothing else. -/
theorem eq_of_hexit {c : Byte} (h : hexit c < 16) : hexits[hexit c]? = some c := by
  unfold hexit at h ⊢
  cases hfind : find hexits [c] 0 with
  | none =>
    rw [hfind] at h
    exact absurd h (by decide)
  | some loc => exact (find_singleton_some hfind).2.1

theorem hexit_hexits : ∀ k < 16, digit (hexits.getD k Ch.nul) = k := by decide +kernel

/-- A decimal digit has no other case. -/
theorem digit_eq_iff {k : Nat} (hk : k < 10) (c : Byte) :
    digit c = k ↔ c = hexits.getD k Ch.nul := by
  constructor
  · intro h
    have hget := eq_of_hexit (c := changeChar upper lower c) (by unfold digit at h; omega)
    rw [show hexit (changeChar upper lower c) = k from h] at hget
    rw [List.getD_eq_getElem?_getD, hget, Option.getD_some]
    unfold changeChar at hget ⊢
    split at hget
    · next loc hloc =>
      have hlt := (List.getElem?_eq_some_iff.mp (find_singleton_some hloc).2.1).1
      have hnone : ∀ k < 10, ∀ loc < 26, hexits[k]? ≠ some (upper.getD loc Ch.nul) := by
        decide +kernel
      exact absurd hget (hnone k hk loc hlt)
    · rfl
  · rintro rfl
    exact hexit_hexits k (by omega)

/-- Only the escape `25` stands for another `%`. -/
theorem decoded_eq_percent_iff (hi lo : Byte) :
    decoded hi lo = Ch.percent ↔ hi = 50 ∧ lo = 53 := by
  have hhi : digit hi = 2 ↔ hi = 50 := digit_eq_iff (by omega) hi
  have hlo : digit lo = 5 ↔ lo = 53 := digit_eq_iff (by omega) lo
  rw [← hhi, ← hlo, ← UInt8.toNat_inj]
  show (16 * digit hi + digit lo) % 2 ^ 64 % 2 ^ 8 = 37 ↔ _
  have h1 : digit hi < 16 ∨ digit hi = 2 ^ 64 - 1 := hexit_range _
  have h2 : digit lo < 16 ∨ digit lo = 2 ^ 64 - 1 := hexit_range _
  omega

/-- Two digits that were written for a byte are read back. -/
theorem hextochar_pair (v : Byte) : http_hextochar (hexPair v) = .returns [v] := by
  have hv := v.toNat_lt
  have hhi := hexit_hexits (v.toNat / 16) (by omega)
  have hlo := hexit_hexits (v.toNat % 16) (by omega)
  rw [hexPair, hextochar_cons_cons, decoded, hhi, hlo]
  congr 2
  rw [← UInt8.toNat_inj]
  show (16 * (v.toNat / 16) + v.toNat % 16) % 2 ^ 64 % 2 ^ 8 = v.toNat
  omega

/-! ## Rounds of the decoder -/

theorem find_percent {a : Str} (ha : Ch.percent ∉ a) (t : Str) :
    find (a ++ Ch.percent :: t) [Ch.percent] 0 = some a.length := by
  rw [find_eq_some_iff]
  refine ⟨Nat.zero_le _, by simp, by simp, fun j _ hj hocc => ?_⟩
  rw [singleton_prefix_drop_iff, List.getElem?_append_left hj] at hocc
  exact ha (List.mem_of_getElem? hocc)

theorem find_percent_none {s : Str} (hs : Ch.percent ∉ s) : find s [Ch.percent] 0 = none := by
  rw [find_eq_none_iff]
  intro j _ _ hocc
  exact hs (List.mem_of_getElem? ((singleton_prefix_drop_iff s _ j).mp hocc))

theorem unhexRun_stop {s : Str} {r : HexOutcome} (h : unhexRound s = .stop r) :
    unhexRun s = ([], r) := by
  rw [unhexRun, h]

theorem unhexRun_decode {s c : Str} {loc : Nat} (h : unhexRound s = .decode loc)
    (hc : http_hextochar (hexchar s loc) = .returns c) :
    unhexRun s = (hexchar s loc :: (unhexRun (putChar s loc c)).1,
      (unhexRun (putChar s loc c)).2) := by
  rw [unhexRun]
  simp only [h]
  split
  · next c' hc' =>
    obtain rfl := HexOutcome.returns.inj (hc.symm.trans hc')
    rfl
  · next hne => exact absurd hc (hne c)

theorem unhexRun_undefined {s : Str} {loc : Nat} (h : unhexRound s = .decode loc)
    (hc : http_hextochar (hexchar s loc) = .undefined) :
    unhexRun s = ([hexchar s loc], .undefined) := by
  rw [unhexRun]
  simp only [h]
  split
  · next c' hc' => cases hc.symm.trans hc'
  · rw [hc]

theorem hextochar_cases (s : Str) :
    (s = [] ∧ http_hextochar s = .undefined) ∨ ∃ c, http_hextochar s = .returns c := by
  match s with
  | [] => exact Or.inl ⟨rfl, rfl⟩
  | [hi] => exact Or.inr ⟨_, hextochar_singleton hi⟩
  | hi :: lo :: rest => exact Or.inr ⟨_, hextochar_cons_cons hi lo rest⟩

theorem hexchar_cases (s : Str) (loc : Nat) :
    (hexchar s loc).length < 2 ∨ ∃ hi lo, hexchar s loc = [hi, lo] := by
  unfold hexchar
  match s.drop (loc + 1) with
  | [] => exact Or.inl (by simp)
  | [hi] => exact Or.inl (by simp)
  | hi :: lo :: rest => exact Or.inr ⟨hi, lo, rfl⟩

/-- A property of whole runs, from what a round does. -/
theorem unhexRun_induction {P : Str → List Str × HexOutcome → Prop}
    (stop : ∀ s r, unhexRound s = .stop r → P s ([], r))
    (undefined : ∀ s loc, unhexRound s = .decode loc → hexchar s loc = [] →
      P s ([[]], .undefined))
    (decode : ∀ s loc c run, unhexRound s = .decode loc →
      http_hextochar (hexchar s loc) = .returns c → P (putChar s loc c) run →
      P s (hexchar s loc :: run.1, run.2)) (s : Str) : P s (unhexRun s) := by
  induction hn : s.length using Nat.strong_induction_on generalizing s with
  | _ n ih =>
    cases hround : unhexRound s with
    | stop r =>
      rw [unhexRun_stop hround]
      exact stop s r hround
    | decode loc =>
      rcases hextochar_cases (hexchar s loc) with ⟨hnil, hc⟩ | ⟨c, hc⟩
      · rw [unhexRun_undefined hround hc, hnil]
        exact undefined s loc hround hnil
      · rw [unhexRun_decode hround hc]
        exact decode s loc c _ hround hc (ih _ (hn ▸ putChar_length hc) _ rfl)

/-! ## Decoding behind a decoded text -/

/-- A text without a `%` is finished. -/
theorem unhexRun_finished {s : Str} (hs : Ch.percent ∉ s) : unhexRun s = ([], .returns s) :=
  unhexRun_stop (by rw [unhexRound, find_percent_none hs])

/-- What a finished call returns has no `%` left. -/
theorem unhex_returns_no_percent {s r : Str} (h : http_unhex s = .returns r) :
    Ch.percent ∉ r := by
  unfold http_unhex at h
  revert h
  refine unhexRun_induction (P := fun _ run => run.2 = .returns r → Ch.percent ∉ r)
    (fun s r' hround h => ?_) (fun _ _ _ _ h => by cases h) (fun _ _ _ _ _ _ ih => ih) s
  obtain rfl : r' = .returns r := h
  unfold unhexRound at hround
  split at hround
  · next hnone =>
    cases hround
    simpa using find_singleton_none hnone
  · unfold unhexPlace at hround
    split at hround
    · cases hround
    · split at hround <;> cases hround

theorem unhexRound_percent {a : Str} (ha : Ch.percent ∉ a) (t : Str) :
    unhexRound (a ++ Ch.percent :: t) = unhexPlace (CInt.toInt a.length) := by
  rw [unhexRound, find_percent ha]

/-- A place that fits into an `int` twice. -/
theorem unhexPlace_near {n : Nat} (hn : n < 2 ^ 31 - 1) :
    unhexPlace (CInt.toInt n) = .decode n := by
  rw [CInt.toInt_of_range (by omega) (by omega), unhexPlace, if_neg (by omega), if_neg (by omega),
    Int.toNat_natCast]

/-- A `%` at the place of the greatest `int`. -/
theorem unhexPlace_greatest {n : Nat} (hn : n = 2 ^ 31 - 1) :
    unhexPlace (CInt.toInt n) = .stop .undefined := by
  rw [CInt.toInt_of_range (by omega) (by omega), unhexPlace, if_pos (by omega)]

theorem hexchar_percent (a t : Str) : hexchar (a ++ Ch.percent :: t) a.length = t.take 2 := by
  rw [hexchar, ← List.drop_drop, List.drop_left, List.drop_one, List.tail_cons]

theorem putChar_percent (a t c : Str) :
    putChar (a ++ Ch.percent :: t) a.length c = a ++ (c ++ t.drop 2) := by
  rw [putChar, List.take_left, ← List.drop_drop, List.drop_left, List.drop_succ_cons,
    List.append_assoc]

section Behind

-- what has been decoded, with the next `%` at a place that fits
variable {a : Str} (ha : Ch.percent ∉ a) (hlen : a.length < 2 ^ 31 - 1)

include ha hlen

/-- The `%` has two characters behind it. -/
theorem unhexRun_group (hi lo : Byte) (t : Str) :
    unhexRun (a ++ Ch.percent :: hi :: lo :: t)
      = ([hi, lo] :: (unhexRun (a ++ decoded hi lo :: t)).1,
        (unhexRun (a ++ decoded hi lo :: t)).2) := by
  have hround := (unhexRound_percent ha (hi :: lo :: t)).trans (unhexPlace_near hlen)
  have hgroup : hexchar (a ++ Ch.percent :: hi :: lo :: t) a.length = [hi, lo] :=
    hexchar_percent a _
  rw [unhexRun_decode hround (hgroup ▸ hextochar_cons_cons hi lo []), hgroup, putChar_percent]
  rfl

end Behind

/-! ## The round trip -/

theorem enhex_cons (v : Byte) (s : Str) :
    http_enhex (v :: s) = Ch.percent :: (hexPair v ++ http_enhex s) := rfl

/-- The first escape of an encoded text is decoded. -/
theorem unhex_enhex_cons {a : Str} (ha : Ch.percent ∉ a) (hlen : a.length < 2 ^ 31 - 1) (v : Byte)
    (s : Str) :
    (unhexRun (a ++ http_enhex (v :: s))).2 = (unhexRun ((a ++ [v]) ++ http_enhex s)).2 := by
  have hpair := hextochar_pair v
  rw [hexPair, hextochar_cons_cons] at hpair
  have hv := List.head_eq_of_cons_eq (HexOutcome.returns.inj hpair)
  rw [enhex_cons, hexPair, List.cons_append, List.cons_append, List.nil_append,
    unhexRun_group ha hlen, hv, List.append_assoc]
  rfl

/-- Escapes of other bytes than `%` are decoded in place, one after the other. -/
theorem unhexRun_enhex {a s : Str} (ha : Ch.percent ∉ a) (hs : Ch.percent ∉ s)
    (hlen : a.length + s.length < 2 ^ 31) :
    (unhexRun (a ++ http_enhex s)).2 = .returns (a ++ s) := by
  induction s generalizing a with
  | nil =>
    rw [show http_enhex [] = [] from rfl, List.append_nil, unhexRun_finished ha]
  | cons v s ih =>
    rw [List.length_cons] at hlen
    rw [List.mem_cons, not_or] at hs
    have hav : Ch.percent ∉ a ++ [v] := by simp [ha, hs.1]
    rw [unhex_enhex_cons ha (by omega), ih hav hs.2 (by simp; omega), List.append_assoc]
    rfl

/-- The place of the escape behind 2 ^ 31 - 1 decoded bytes is no `int` that can be counted up. -/
theorem unhexRun_enhex_long {a s : Str} (ha : Ch.percent ∉ a) (hs : Ch.percent ∉ s)
    (halen : a.length < 2 ^ 31) (hlen : 2 ^ 31 ≤ a.length + s.length) :
    (unhexRun (a ++ http_enhex s)).2 = .undefined := by
  induction s generalizing a with
  | nil =>
    rw [List.length_nil] at hlen
    omega
  | cons v s ih =>
    rw [List.length_cons] at hlen
    rw [List.mem_cons, not_or] at hs
    by_cases hgreatest : a.length = 2 ^ 31 - 1
    · rw [enhex_cons,
        unhexRun_stop ((unhexRound_percent ha _).trans (unhexPlace_greatest hgreatest))]
    · have hav : Ch.percent ∉ a ++ [v] := by simp [ha, hs.1]
      rw [unhex_enhex_cons ha (by omega), ih hav hs.2 (by simp; omega) (by simp; omega)]

/-- The consecutive groups of two characters. -/
def groups : Str → List Str
  | hi :: lo :: s => [hi, lo] :: groups s
  | [] => []
  | s => [s]

theorem hextochar_groups (s : Str) :
    (groups (http_chartohex s)).map http_hextochar = s.map fun v => .returns [v] := by
  induction s with
  | nil => rfl
  | cons v s ih =>
    show http_hextochar (hexPair v) :: (groups (http_chartohex s)).map http_hextochar = _
    rw [hextochar_pair, ih, List.map_cons]

/-- The decoder starts over at the first `%` there is, also at one that it has decoded itself: a
text comes back exactly when it has no `%`, and its last place is an `int` that can be counted
up. -/
theorem unhex_enhex_iff (s : Str) :
    (http_unhex (http_enhex s) = .returns s ∧
      (groups (http_chartohex s)).map http_hextochar = s.map fun v => .returns [v]) ↔
    Ch.percent ∉ s ∧ s.length < 2 ^ 31 := by
  constructor
  · rintro ⟨hback, -⟩
    have hs := unhex_returns_no_percent hback
    refine ⟨hs, ?_⟩
    by_contra hlen
    have hrun : http_unhex (http_enhex s) = .undefined :=
      unhexRun_enhex_long (a := []) (by simp) hs (by simp) (by simpa using hlen)
    rw [hrun] at hback
    cases hback
  · rintro ⟨hs, hlen⟩
    exact ⟨unhexRun_enhex (a := []) (by simp) hs (by simpa using hlen), hextochar_groups s⟩

/-- `"%"` is encoded as `"%25"`; the `%` that this decodes to is taken for another escape, with
nothing behind it to read. -/
theorem unhex_enhex_percent :
    ¬ (http_unhex (http_enhex (str "%")) = .returns (str "%") ∧
      (groups (http_chartohex (str "%"))).map http_hextochar
        = (str "%").map fun v => .returns [v]) := by
  rintro ⟨hback, -⟩
  exact unhex_returns_no_percent hback (by decide)

/-! ## Malformed escapes -/

def isHexDigit (c : Byte) : Bool :=
  (48 ≤ c && c ≤ 57) || (65 ≤ c && c ≤ 70) || (97 ≤ c && c ≤ 102)

/-- Two digits at the start of a text. -/
def startsHex : Str → Bool
  | hi :: lo :: _ => isHexDigit hi && isHexDigit lo
  | _ => false

/-- Some `%` of the text is not followed by two digits. -/
def malformed : Str → Bool
  | [] => false
  | c :: t => (c == Ch.percent && !startsHex t) || malformed t

/-- A malformed text is rejected, another one is decoded, and `http_hextochar` reads its two
characters inside the groups it is given. -/
def RejectsMalformed (s : Str) : Prop :=
  (if malformed s then http_unhex s = .hextrans_exception else ∃ r, http_unhex s = .returns r) ∧
    ∀ g ∈ (unhexRun s).1, 2 ≤ g.length

mutual

/-- Every `%` that decoding meets, one of the text or one that an escape `25` stands for, has two
characters behind it. -/
def Room : Str → Prop
  | [] => True
  | c :: t => if c = Ch.percent then RoomBehind t else Room t

/-- The same of the text behind such a `%`. -/
def RoomBehind : Str → Prop
  | hi :: lo :: t => if hi = 50 ∧ lo = 53 then RoomBehind t else Room t
  | _ => False

end

/-- What a text of any length has to meet: the `%` in hand is decoded at its place cut down to an
`int`, with a whole group behind that place; where the place is negative, the call throws, as it
should for a malformed text only. -/
def Sound (bad : Bool) (s : Str) : Prop :=
  match unhexRound s with
  | .stop (.returns _) => bad = false
  | .stop .hextrans_exception => bad = true
  | .stop .undefined => False
  | .decode loc =>
    match _ : hexchar s loc with
    | [hi, lo] => Sound bad (putChar s loc [decoded hi lo])
    | _ => False
  termination_by s.length
  decreasing_by exact putChar_length (by rw [‹hexchar s loc = [hi, lo]›]; rfl)

theorem sound_group {bad : Bool} {s : Str} {loc : Nat} {hi lo : Byte}
    (h : unhexRound s = .decode loc) (hgroup : hexchar s loc = [hi, lo]) :
    Sound bad s ↔ Sound bad (putChar s loc [decoded hi lo]) := by
  conv_lhs => rw [Sound]
  simp only [h]
  split
  · next hi' lo' hgroup' =>
    cases hgroup.symm.trans hgroup'
    rfl
  · next hne => exact absurd hgroup (hne hi lo)

theorem not_sound_short {bad : Bool} {s : Str} {loc : Nat} (h : unhexRound s = .decode loc)
    (hgroup : (hexchar s loc).length < 2) : ¬ Sound bad s := by
  rw [Sound]
  simp only [h]
  split
  · next hi lo hgroup' =>
    rw [hgroup'] at hgroup
    exact absurd hgroup (Nat.lt_irrefl 2)
  · exact not_false

/-- What a run has to come to for a malformed and for another text. -/
def Handled (bad : Bool) (run : List Str × HexOutcome) : Prop :=
  (if bad then run.2 = .hextrans_exception else ∃ r, run.2 = .returns r) ∧
    ∀ g ∈ run.1, 2 ≤ g.length

theorem handled_cons {bad : Bool} {g : Str} {run : List Str × HexOutcome} :
    Handled bad (g :: run.1, run.2) ↔ 2 ≤ g.length ∧ Handled bad run := by
  simp only [Handled, List.forall_mem_cons]
  tauto

theorem handled_iff (bad : Bool) (s : Str) : Handled bad (unhexRun s) ↔ Sound bad s := by
  refine unhexRun_induction (P := fun s run => Handled bad run ↔ Sound bad s)
    (fun s r hround => ?_) (fun s loc hround hnil => ?_) (fun s loc c run hround hc ih => ?_) s
  · rw [Sound, hround]
    cases r <;> cases bad <;> simp [Handled]
  · refine iff_of_false (fun h => ?_) (not_sound_short hround (by rw [hnil]; decide))
    exact absurd (h.2 [] (List.mem_singleton.mpr rfl)) (by decide)
  · rw [handled_cons]
    rcases hexchar_cases s loc with hshort | ⟨hi, lo, hgroup⟩
    · exact iff_of_false (fun h => absurd h.1 (by omega)) (not_sound_short hround hshort)
    · rw [sound_group hround hgroup, hgroup]
      rw [hgroup, hextochar_cons_cons] at hc
      obtain rfl := HexOutcome.returns.inj hc
      rw [← ih]
      exact and_iff_right le_rfl

/-- The group of a `%` near the end is cut short. -/
theorem not_sound_percent (bad : Bool) {a t : Str} (ha : Ch.percent ∉ a)
    (hlen : a.length < 2 ^ 31 - 1) (ht : t.length < 2) : ¬ Sound bad (a ++ Ch.percent :: t) :=
  not_sound_short ((unhexRound_percent ha t).trans (unhexPlace_near hlen))
    (by rw [hexchar_percent, List.length_take]; omega)

mutual

/-- In a text whose places are small nothing is thrown. -/
theorem sound_append_iff (bad : Bool) {a : Str} (ha : Ch.percent ∉ a) :
    ∀ t : Str, a.length + t.length < 2 ^ 31 → (Sound bad (a ++ t) ↔ bad = false ∧ Room t)
  | [], _ => by
    rw [Sound, unhexRound, List.append_nil, find_percent_none ha, Room, and_true]
  | c :: t, hlen => by
    rw [List.length_cons] at hlen
    rw [Room]
    split
    · next hc =>
      rw [hc]
      exact sound_percent_iff bad ha t (by omega)
    · next hc =>
      have hac : Ch.percent ∉ a ++ [c] := by simp [ha, Ne.symm hc]
      rw [← sound_append_iff bad hac t (by simp; omega), List.append_assoc]
      rfl

theorem sound_percent_iff (bad : Bool) {a : Str} (ha : Ch.percent ∉ a) :
    ∀ t : Str, a.length + t.length + 1 < 2 ^ 31 →
      (Sound bad (a ++ Ch.percent :: t) ↔ bad = false ∧ RoomBehind t)
  | [], hlen => by
    refine iff_of_false (not_sound_percent bad ha (by omega) (by decide)) ?_
    simp [RoomBehind]
  | [hi], hlen => by
    refine iff_of_false (not_sound_percent bad ha (by omega) (Nat.lt_succ_self 1)) ?_
    simp [RoomBehind]
  | hi :: lo :: t, hlen => by
    rw [List.length_cons, List.length_cons] at hlen
    have hround := (unhexRound_percent ha (hi :: lo :: t)).trans (unhexPlace_near (by omega))
    rw [sound_group hround (hexchar_percent a _), putChar_percent, RoomBehind]
    show Sound bad (a ++ decoded hi lo :: t) ↔ _
    split
    · next h25 =>
      rw [(decoded_eq_percent_iff hi lo).mpr h25]
      exact sound_percent_iff bad ha t (by omega)
    · next h25 =>
      have hav : Ch.percent ∉ a ++ [decoded hi lo] := by
        simp [ha, Ne.symm (mt (decoded_eq_percent_iff hi lo).mp h25)]
      rw [← sound_append_iff bad hav t (by simp; omega), List.append_assoc]
      rfl

end

/-- `http_hextochar` takes whatever it finds in its group and never throws: malformed texts are
decoded to something. The rest are decoded as they should be when every `%` that is met has room
for its group, in a text of less than 2 ^ 31 bytes. -/
theorem unhex_rejects_iff (s : Str) :
    RejectsMalformed s ↔
      if s.length < 2 ^ 31 then malformed s = false ∧ Room s else Sound (malformed s) s := by
  have hsound : RejectsMalformed s ↔ Sound (malformed s) s := handled_iff (malformed s) s
  split
  · next hlen =>
    rw [hsound]
    exact sound_append_iff (malformed s) (a := []) (by simp) s (by simpa using hlen)
  · exact hsound

/-- `"%zz"` comes back as one byte. -/
theorem unhex_accepts_malformed : ¬ RejectsMalformed (str "%zz") := by
  intro h
  have hsound := (handled_iff (malformed (str "%zz")) (str "%zz")).mp h
  have hroom := (sound_append_iff (malformed (str "%zz")) (a := []) (by simp) (str "%zz")
    (by decide)).mp hsound
  exact absurd hroom.1 (by decide)

end Hex

end Nrtb
