import Nrtb.Common.Hex
import Nrtb.Lib.TransitionSystem

/-!
# The rounds of `http_unhex`

`cpp/common/common_rl/common.cpp`, lines 175–188 and 230–247. A round may put in another `%`, and a
`%` at the end of the text is replaced by one character; what is read behind the terminator is
whatever stands there. The length of the text and the number of its `%` go down together.

A loop that searches its own output from the start might go on for ever. It does not, and not only
where its behaviour is defined: `Round` lets every read behind the text give any byte and every
decoding any result. The measure is the length with every `%` counted twice. A round takes a `%` out
and puts in one byte, and what it takes out of the text behind is no gain.

* `Round.measure_lt`: what a round does to the measure.
* `run_unhexRun`: the rounds of `Hex.unhexRun` are among these.
* `rounds_le`: how many rounds there are.
-/

namespace Nrtb

open Search

namespace Hex

/-- What `s[pos]` may read: any character where there is none. -/
def ReadsAs (s : Str) (pos : Nat) (c : Byte) : Prop := ∀ d, charAt s pos = some d → c = d

/-- What `http_hextochar` may return. -/
def DecodesTo (s : Str) (v : Byte) : Prop :=
  ∃ hi lo, ReadsAs (upcase s) 0 hi ∧ ReadsAs (upcase s) 1 lo ∧ v = hexByte hi lo

/-- A round of the loop that comes to its end, with the group that is decoded. Where the place is
negative `substr` or `erase` throws; so may a `where+1` that overflows. -/
inductive Round : Str → Str → Str → Prop
  | decode (s : Str) (loc : Nat) (v : Byte) (hfind : find s [Ch.percent] 0 = some loc)
      (hplace : 0 ≤ CInt.toInt loc) (hv : DecodesTo (hexchar s (CInt.toInt loc).toNat) v) :
      Round s (hexchar s (CInt.toInt loc).toNat) (putChar s (CInt.toInt loc).toNat [v])

/-- The length, and the number of `%`. -/
def measure (s : Str) : Nat := s.length + s.count Ch.percent

variable {s t g : Str}

/-- No digit stands behind a `%` at the end, so no `%` is put in its place. -/
theorem ne_percent_of_nil {v : Byte} (h : DecodesTo [] v) : v ≠ Ch.percent := by
  obtain ⟨hi, lo, hhi, _, rfl⟩ := h
  obtain rfl : hi = Ch.nul := hhi Ch.nul rfl
  rw [← UInt8.toNat_inj.ne]
  show (16 * hexit Ch.nul + hexit lo) % 2 ^ 64 % 2 ^ 8 ≠ 37
  have hnul : hexit Ch.nul = 2 ^ 64 - 1 := by decide +kernel
  have hlo := hexit_range lo
  omega

/-- The place is that of the `%`, or far in front of it. -/
theorem place_cases (loc : Nat) (h : 0 ≤ CInt.toInt loc) :
    (CInt.toInt loc).toNat = loc ∨ (CInt.toInt loc).toNat + 2 ^ 32 ≤ loc := by
  unfold CInt.toInt at *
  rw [Int.bmod_def] at *
  split at h <;> split <;> omega

theorem measure_append (a b : Str) : measure (a ++ b) = measure a + measure b := by
  unfold measure
  rw [List.length_append, List.count_append]
  omega

theorem measure_singleton_le (v : Byte) : measure [v] ≤ 2 := by
  have hcount : [v].count Ch.percent ≤ 1 := List.count_le_length
  unfold measure
  rw [List.length_singleton]
  omega

theorem measure_percent (s : Str) : measure (Ch.percent :: s) = measure s + 2 := by
  unfold measure
  rw [List.length_cons, List.count_cons_self]
  omega

/-- What is erased. -/
theorem measure_eq_put (s : Str) (n : Nat) (v : Byte) :
    measure (putChar s n [v]) + measure ((s.drop n).take 3) = measure s + measure [v] := by
  have hcut : s = s.take n ++ ((s.drop n).take 3 ++ s.drop (n + 3)) := by
    rw [← List.drop_drop, List.take_append_drop, List.take_append_drop]
  have hmeasure := congrArg measure hcut
  rw [measure_append, measure_append] at hmeasure
  rw [putChar, measure_append, measure_append, hmeasure]
  omega

theorem Round.measure_lt (h : Round s g t) : measure t < measure s := by
  cases h with
  | decode loc v hfind hplace hv =>
    obtain ⟨_, hget, _⟩ := find_singleton_some hfind
    obtain ⟨hlt, hpercent⟩ := List.getElem?_eq_some_iff.mp hget
    have hput := measure_eq_put s (CInt.toInt loc).toNat v
    suffices hless : measure [v] < measure ((s.drop (CInt.toInt loc).toNat).take 3) by omega
    have hle := measure_singleton_le v
    rcases place_cases loc hplace with hsame | hfar
    · -- the `%` goes, and its group
      rw [hsame] at hv ⊢
      have herased : (s.drop loc).take 3 = Ch.percent :: hexchar s loc := by
        rw [List.drop_eq_getElem_cons hlt, hpercent, List.take_succ_cons]
        rfl
      rw [herased, measure_percent]
      cases hgroup : hexchar s loc with
      | nil =>
        rw [hgroup] at hv
        have hcount : [v].count Ch.percent = 0 :=
          List.count_eq_zero.mpr fun hmem => ne_percent_of_nil hv (List.mem_singleton.mp hmem).symm
        unfold measure
        rw [hcount, List.length_singleton]
        exact Nat.lt_succ_self 1
      | cons c rest =>
        have hpos : 0 < measure (c :: rest) := by
          unfold measure
          rw [List.length_cons]
          omega
        omega
    · -- three characters go
      have hthree : ((s.drop (CInt.toInt loc).toNat).take 3).length = 3 := by
        rw [List.length_take, List.length_drop]
        omega
      have hlow : 3 ≤ measure ((s.drop (CInt.toInt loc).toNat).take 3) := by
        unfold measure
        omega
      omega

/-! ## Runs -/

/-- Each round takes off one. -/
theorem run_measure {gs : List Str} (h : Run Round s gs t) :
    gs.length + measure t ≤ measure s := by
  refine h.history (P := fun gs t => gs.length + measure t ≤ measure s) ?_ ?_
  · rw [List.length_nil, Nat.zero_add]
  · intro gs t g u hle hround
    have hlt := hround.measure_lt
    rw [List.length_append, List.length_singleton]
    omega

theorem exists_readsAs (s : Str) (pos : Nat) : ∃ c, ReadsAs s pos c := by
  cases hread : charAt s pos with
  | none =>
    refine ⟨Ch.nul, fun d hd => ?_⟩
    rw [hread] at hd
    cases hd
  | some c =>
    refine ⟨c, fun d hd => ?_⟩
    rw [hread] at hd
    exact Option.some.inj hd

theorem exists_decodesTo (g : Str) : ∃ v, DecodesTo g v := by
  obtain ⟨hi, hhi⟩ := exists_readsAs (upcase g) 0
  obtain ⟨lo, hlo⟩ := exists_readsAs (upcase g) 1
  exact ⟨hexByte hi lo, hi, lo, hhi, hlo, rfl⟩

theorem decodesTo_of_returns {c : Str} (h : http_hextochar g = .returns c) :
    ∃ v, c = [v] ∧ DecodesTo g v := by
  simp only [http_hextochar] at h
  split at h
  · next hi lo hhi hlo =>
    refine ⟨hexByte hi lo, (HexOutcome.returns.inj h).symm, hi, lo, fun d hd => ?_, fun d hd => ?_,
      rfl⟩
    · exact Option.some.inj (hhi.symm.trans hd)
    · exact Option.some.inj (hlo.symm.trans hd)
  · cases h

/-- A round comes to its end unless the place of its `%` is negative. -/
theorem exists_round_iff :
    (∃ g t, Round s g t) ↔ ∃ loc, find s [Ch.percent] 0 = some loc ∧ 0 ≤ CInt.toInt loc := by
  constructor
  · rintro ⟨g, t, loc, v, hfind, hplace, _⟩
    exact ⟨loc, hfind, hplace⟩
  · rintro ⟨loc, hfind, hplace⟩
    obtain ⟨v, hv⟩ := exists_decodesTo (hexchar s (CInt.toInt loc).toNat)
    exact ⟨_, _, .decode s loc v hfind hplace hv⟩

theorem round_of_decode {loc : Nat} {v : Byte} (h : unhexRound s = .decode loc)
    (hv : DecodesTo (hexchar s loc) v) : Round s (hexchar s loc) (putChar s loc [v]) := by
  unfold unhexRound at h
  split at h
  · cases h
  · next where_ hfind =>
    unfold unhexPlace at h
    split at h
    · cases h
    · split at h
      · cases h
      · next hplace =>
        obtain rfl := UnhexRound.decode.inj h
        exact .decode s where_ v hfind (not_lt.mp hplace) hv

/-- The rounds that `unhexRun` records can be made. -/
theorem run_unhexRun (s : Str) : ∃ t, Run Round s (unhexRun s).1 t := by
  refine unhexRun_induction (P := fun s run => ∃ t, Run Round s run.1 t)
    (fun s r _ => ⟨s, .nil⟩) (fun s loc hround hnil => ?_) (fun s loc c run hround hc ih => ?_) s
  · obtain ⟨v, hv⟩ := exists_decodesTo (hexchar s loc)
    have hdecode := round_of_decode hround hv
    rw [hnil] at hdecode
    exact ⟨_, .single hdecode⟩
  · obtain ⟨v, rfl, hv⟩ := decodesTo_of_returns hc
    obtain ⟨t, ht⟩ := ih
    exact ⟨t, .cons (round_of_decode hround hv) ht⟩

/-- However the loop goes on, its rounds are no more than the characters and the `%` of the text;
the last one may begin and throw. By induction on the run, as every round makes the measure smaller.
-/
theorem rounds_le (s : Str) {gs : List Str} (h : Run Round s gs t) :
    gs.length + (if Ch.percent ∈ t then 1 else 0) ≤ s.length + s.count Ch.percent := by
  have hle : gs.length + measure t ≤ measure s := run_measure h
  have hlast : (if Ch.percent ∈ t then 1 else 0) ≤ measure t := by
    split
    · next hmem =>
      have hcount := List.count_pos_iff.mpr hmem
      unfold measure
      omega
    · exact Nat.zero_le _
  unfold measure at hle hlast
  omega

/-- The first round puts in a `%`, which the second one finds. -/
theorem rounds_le_twice :
    [str "25", str "41"].length + (if Ch.percent ∈ str "A" then 1 else 0)
      ≤ (str "%2541").length + (str "%2541").count Ch.percent := by
  have hpercent : DecodesTo (str "25") Ch.percent := by
    obtain ⟨v, hv, hdecodes⟩ := decodesTo_of_returns (hextochar_cons_cons 50 53 [])
    obtain rfl : decoded 50 53 = v := List.head_eq_of_cons_eq hv
    exact hdecodes
  have hletter : DecodesTo (str "41") 65 := by
    obtain ⟨v, hv, hdecodes⟩ := decodesTo_of_returns (hextochar_cons_cons 52 49 [])
    obtain rfl : decoded 52 49 = v := List.head_eq_of_cons_eq hv
    exact hdecodes
  have hfirst : Round (str "%2541") (str "25") (str "%41") :=
    have hplace : unhexRound (str "%2541") = .decode 0 := by decide +kernel
    round_of_decode hplace hpercent
  have hsecond : Round (str "%41") (str "41") (str "A") :=
    have hplace : unhexRound (str "%41") = .decode 0 := by decide +kernel
    round_of_decode hplace hletter
  exact rounds_le (str "%2541") (.cons hfirst (.single hsecond))

end Hex

end Nrtb
