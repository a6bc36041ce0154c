import Nrtb.WorkProgress
import Nrtb.SimCore.Verdicts
import Mathlib.Data.List.Count
import Mathlib.Data.List.Perm.Basic
import Mathlib.Tactic.Ring

/-!
# `tick()`

`cpp/sim_engine/sim_core/sim_core.cpp`, lines 122–172 and 493–537: `tick`, `collision_check` and the
workers, as three phases of work packets of which one begins when the one before has returned from
`join`.

What a turn relies on is that `tick()` is a barrier three times over: every object is ticked before
any pair is checked, every pair is checked before any object is applied, and nothing is left out or
done twice, although the packets are dealt to whichever worker comes first. That the packets hold
every object and every pair once is a fact about the two loops that deal them; that every packet is
worked off once comes from the accounts of each phase; and the order between the phases from the
counters, which a phase leaves equal.

* `deal_eq_some`, `pairs_exactly_once`: what the packets hold.
* `TickHistory.step`: what holds of the three phases at every moment.
* `TickStep.effort`: the phases together come to an end.
* `tick_exactly_once`: one call of `tick()`, for any number of workers under any scheduling of them.
  It leaves the workers as it has found them, so that it can be used for one turn after the other.
-/

namespace Nrtb.SimCore

/-! ## The packets -/

section Deal

variable {ι : Type*}

/-- `packets[current++ % worker_count].push_back(item)` for one item after the other. `none`: the
`int` overflows, or there is no packet. -/
def dealLoop (workerCount : Nat) : List ι → Nat → List (List ι) → Option (List (List ι))
  | [], _, packets => some packets
  | item :: rest, current, packets =>
    if current = 2 ^ 31 - 1 ∨ workerCount = 0 then none
    else dealLoop workerCount rest (current + 1)
      (packets.modify (current % workerCount) (· ++ [item]))

def deal (workerCount : Nat) (items : List ι) : Option (List (List ι)) :=
  dealLoop workerCount items 0 (List.replicate workerCount [])

theorem flatten_modify_perm (packets : List (List ι)) {k : Nat} (hk : k < packets.length)
    (item : ι) : (packets.modify k (· ++ [item])).flatten.Perm (packets.flatten ++ [item]) := by
  induction packets generalizing k with
  | nil => simp at hk
  | cons p rest ih =>
    cases k with
    | zero =>
      simp only [List.modify_zero_cons, List.flatten_cons, List.append_assoc]
      exact List.Perm.append_left p List.perm_append_comm
    | succ k =>
      simp only [List.modify_succ_cons, List.flatten_cons, List.append_assoc]
      exact (ih (by simpa using hk)).append_left p

theorem dealLoop_eq_some {workerCount : Nat} (hworkers : 0 < workerCount) (items : List ι)
    {current : Nat} {packets : List (List ι)} (hint : current + items.length < 2 ^ 31)
    (hlength : packets.length = workerCount) :
    ∃ dealt, dealLoop workerCount items current packets = some dealt
      ∧ dealt.length = workerCount ∧ dealt.flatten.Perm (packets.flatten ++ items) := by
  induction items generalizing current packets with
  | nil => exact ⟨packets, rfl, hlength, by simp⟩
  | cons item rest ih =>
    rw [List.length_cons] at hint
    rw [dealLoop, if_neg (by omega)]
    have hk : current % workerCount < packets.length := by
      rw [hlength]
      exact Nat.mod_lt _ hworkers
    have hint' : current + 1 + rest.length < 2 ^ 31 := by omega
    obtain ⟨dealt, hdealt, hlen, hperm⟩ := ih hint' ((List.length_modify _ _ _).trans hlength)
    refine ⟨dealt, hdealt, hlen, hperm.trans ?_⟩
    have := (flatten_modify_perm packets hk item).append_right rest
    simpa using this

/-- With at least one packet and no overflow, the packets hold what was dealt out. -/
theorem deal_eq_some {workerCount : Nat} (hworkers : 0 < workerCount) {items : List ι}
    (hint : items.length < 2 ^ 31) :
    ∃ packets, deal workerCount items = some packets
      ∧ packets.length = workerCount ∧ packets.flatten.Perm items := by
  have hint' : 0 + items.length < 2 ^ 31 := by omega
  obtain ⟨packets, hdeal, hlength, hperm⟩ :=
    dealLoop_eq_some hworkers items hint' (List.length_replicate (a := []))
  exact ⟨packets, hdeal, hlength, by simpa using hperm⟩

/-- The nested iterator loops of `collision_check`: `c` over all, `b` over those behind `c`. -/
def pairs : List ι → List (ι × ι)
  | [] => []
  | c :: behind => behind.map (fun b => (c, b)) ++ pairs behind

theorem length_pairs (items : List ι) :
    (pairs items).length = items.length * (items.length - 1) / 2 := by
  have htwice : 2 * (pairs items).length = items.length * (items.length - 1) := by
    induction items with
    | nil => rfl
    | cons c behind ih =>
      simp only [pairs, List.length_append, List.length_map, List.length_cons,
        Nat.add_sub_cancel, Nat.mul_add, ih]
      cases behind.length with
      | zero => rfl
      | succ n =>
        rw [Nat.add_sub_cancel]
        ring
  rw [← htwice, Nat.mul_div_cancel_left _ (by omega)]

theorem mem_of_mem_pairs {items : List ι} {r : ι × ι} (h : r ∈ pairs items) :
    r.1 ∈ items ∧ r.2 ∈ items := by
  induction items with
  | nil => cases h
  | cons c behind ih =>
    rcases List.mem_append.mp h with h | h
    · obtain ⟨b, hb, rfl⟩ := List.mem_map.mp h
      exact ⟨by simp, List.mem_cons_of_mem _ hb⟩
    · exact ⟨List.mem_cons_of_mem _ (ih h).1, List.mem_cons_of_mem _ (ih h).2⟩

theorem ne_of_mem_pairs {items : List ι} (hnodup : items.Nodup) {r : ι × ι}
    (h : r ∈ pairs items) : r.1 ≠ r.2 := by
  induction items with
  | nil => cases h
  | cons c behind ih =>
    obtain ⟨hc, hbehind⟩ := List.nodup_cons.mp hnodup
    rcases List.mem_append.mp h with h | h
    · obtain ⟨b, hb, rfl⟩ := List.mem_map.mp h
      intro heq
      rw [show c = b from heq] at hc
      exact hc hb
    · exact ih hbehind h

/-- Every unordered pair of distinct items comes up once, in one of its orders. -/
theorem pairs_exactly_once [DecidableEq ι] {items : List ι} (hnodup : items.Nodup) {a b : ι}
    (ha : a ∈ items) (hb : b ∈ items) (hne : a ≠ b) :
    (pairs items).count (a, b) + (pairs items).count (b, a) = 1 := by
  induction items with
  | nil => cases ha
  | cons c behind ih =>
    obtain ⟨hc, hbehind⟩ := List.nodup_cons.mp hnodup
    have hfront : ∀ x y, (behind.map fun b => (c, b)).count (x, y)
        = if x = c then behind.count y else 0 := fun x y => by
      split
      · next hx =>
        rw [hx]
        exact List.count_map_of_injective behind _ (Prod.mk_right_injective c) y
      · next hx =>
        refine List.count_eq_zero.mpr fun hmem => hx ?_
        obtain ⟨z, _, hz⟩ := List.mem_map.mp hmem
        exact (Prod.mk.inj hz).1.symm
    have hout : ∀ r : ι × ι, r.1 = c ∨ r.2 = c → (pairs behind).count r = 0 := fun r hr =>
      List.count_eq_zero.mpr fun hmem => by
        rcases hr with hr | hr <;> rw [← hr] at hc
        · exact hc (mem_of_mem_pairs hmem).1
        · exact hc (mem_of_mem_pairs hmem).2
    have hone : ∀ x ∈ c :: behind, x ≠ c → behind.count x = 1 := fun x hx hxc =>
      List.count_eq_one_of_mem hbehind ((List.mem_cons.mp hx).resolve_left hxc)
    simp only [pairs, List.count_append, hfront]
    by_cases hac : a = c
    · have hbc : b ≠ c := fun heq => hne (hac.trans heq.symm)
      rw [if_pos hac, if_neg hbc, hone b hb hbc, hout (a, b) (.inl hac), hout (b, a) (.inr hac)]
    · by_cases hbc : b = c
      · rw [if_neg hac, if_pos hbc, hone a ha hac, hout (a, b) (.inr hbc), hout (b, a) (.inl hbc)]
      · rw [if_neg hac, if_neg hbc, Nat.zero_add, Nat.zero_add]
        exact ih hbehind ((List.mem_cons.mp ha).resolve_left hac)
          ((List.mem_cons.mp hb).resolve_left hbc)

theorem count_pairs_le [DecidableEq ι] {items : List ι} (hnodup : items.Nodup) (r : ι × ι) :
    (pairs items).count r ≤ 1 := by
  by_cases hr : r ∈ pairs items
  · have hone := pairs_exactly_once hnodup (mem_of_mem_pairs hr).1 (mem_of_mem_pairs hr).2
      (ne_of_mem_pairs hnodup hr)
    exact (Nat.le_add_right _ _).trans hone.le
  · rw [List.count_eq_zero.mpr hr]
    exact Nat.zero_le 1

end Deal

/-! ## The three phases -/

open WorkPhase

/-- The three phases of a call, with `ticklist`, `clsn_work_list` and `applylist`. The second
queue of the checks is `collisions`; the other phases have none. -/
structure TickState where
  ticks : WorkPhase.Phase Object
  checks : WorkPhase.Phase (Object × Object)
  applies : WorkPhase.Phase Object

inductive TickLabel where
  | tick (l : WorkPhase.Label Object)
  | check (l : WorkPhase.Label (Object × Object))
  | apply (l : WorkPhase.Label Object)
deriving DecidableEq

namespace TickLabel

def asTick : TickLabel → Option (WorkPhase.Label Object)
  | tick l => some l
  | _ => none

def asCheck : TickLabel → Option (WorkPhase.Label (Object × Object))
  | check l => some l
  | _ => none

def asApply : TickLabel → Option (WorkPhase.Label Object)
  | apply l => some l
  | _ => none

/-- The step is a spurious wake-up. -/
def isSpurious : TickLabel → Bool
  | tick l => l.isSpurious
  | check l => l.isSpurious
  | apply l => l.isSpurious

end TickLabel

/-- The part of a log that belongs to `ticklist`. -/
def tickLog (ls : List TickLabel) : List (WorkPhase.Label Object) := ls.filterMap TickLabel.asTick

def checkLog (ls : List TickLabel) : List (WorkPhase.Label (Object × Object)) :=
  ls.filterMap TickLabel.asCheck

def applyLog (ls : List TickLabel) : List (WorkPhase.Label Object) :=
  ls.filterMap TickLabel.asApply

/-- The calls that throw. -/
structure Throws where
  tick : Object → Prop
  check : Object × Object → Prop
  apply : Object → Prop

def Throws.never : Throws := ⟨fun _ => False, fun _ => False, fun _ => False⟩

/-- A step of any of the threads. The thread of `run_sim` comes to a phase when it has returned
from the `join` of the one before. -/
inductive TickStep (packets : List (List Object)) (clsnPackets : List (List (Object × Object)))
    (throws : Throws) : TickState → TickLabel → TickState → Prop
  | tick (s : TickState) (l : WorkPhase.Label Object) (p : WorkPhase.Phase Object)
      (h : Step packets (fun _ _ => false) throws.tick s.ticks l p) :
      TickStep packets clsnPackets throws s (.tick l) { s with ticks := p }
  | check (s : TickState) (l : WorkPhase.Label (Object × Object))
      (p : WorkPhase.Phase (Object × Object))
      (hturn : l = .start → s.ticks.shared.main = .returned)
      (h : Step clsnPackets (fun _ answer => answer) throws.check s.checks l p) :
      TickStep packets clsnPackets throws s (.check l) { s with checks := p }
  | apply (s : TickState) (l : WorkPhase.Label Object) (p : WorkPhase.Phase Object)
      (hturn : l = .start → s.checks.shared.main = .returned)
      (h : Step packets (fun _ _ => false) throws.apply s.applies l p) :
      TickStep packets clsnPackets throws s (.apply l) { s with applies := p }

section History

variable {packets : List (List Object)} {clsnPackets : List (List (Object × Object))}
  {baseTick baseCheck baseApply : Nat} {ls : List TickLabel} {l : TickLabel} {s s' : TickState}

/-- What holds at every moment of a call whose methods return. -/
structure TickHistory (packets : List (List Object))
    (clsnPackets : List (List (Object × Object))) (baseTick baseCheck baseApply : Nat)
    (ls : List TickLabel) (s : TickState) : Prop where
  ticks : Sound packets (fun _ _ => false) baseTick (tickLog ls) s.ticks
  checks : Sound clsnPackets (fun _ answer => answer) baseCheck (checkLog ls) s.checks
  applies : Sound packets (fun _ _ => false) baseApply (applyLog ls) s.applies
  checked : s.checks.shared.main ≠ .idle → s.ticks.shared.main = .returned
  applied : s.applies.shared.main ≠ .idle → s.checks.shared.main = .returned

theorem TickHistory.step (hpackets : packets.length < 2 ^ 32)
    (hclsnPackets : clsnPackets.length < 2 ^ 32)
    (h : TickHistory packets clsnPackets baseTick baseCheck baseApply ls s)
    (hstep : TickStep packets clsnPackets .never s l s') :
    TickHistory packets clsnPackets baseTick baseCheck baseApply (ls ++ [l]) s' := by
  obtain ⟨hticks, hchecks, happlies, hchecked, happlied⟩ := h
  cases hstep with
  | tick l p hphase =>
    refine ⟨?_, ?_, ?_, fun hmain => hphase.returned (hchecked hmain), happlied⟩
    · simpa [tickLog, List.filterMap_cons, TickLabel.asTick] using hticks.step hpackets hphase
    · simpa [checkLog, List.filterMap_cons, TickLabel.asCheck] using hchecks
    · simpa [applyLog, List.filterMap_cons, TickLabel.asApply] using happlies
  | check l p hturn hphase =>
    refine ⟨?_, ?_, ?_, fun hmain => ?_, fun hmain => hphase.returned (happlied hmain)⟩
    · simpa [tickLog, List.filterMap_cons, TickLabel.asTick] using hticks
    · have hnext := hchecks.step hclsnPackets hphase
      simpa [checkLog, List.filterMap_cons, TickLabel.asCheck] using hnext
    · simpa [applyLog, List.filterMap_cons, TickLabel.asApply] using happlies
    · by_cases hstart : l = .start
      · exact hturn hstart
      · exact hchecked fun hidle => hmain (hphase.idle hstart hidle)
  | apply l p hturn hphase =>
    refine ⟨?_, ?_, ?_, hchecked, fun hmain => ?_⟩
    · simpa [tickLog, List.filterMap_cons, TickLabel.asTick] using hticks
    · simpa [checkLog, List.filterMap_cons, TickLabel.asCheck] using hchecks
    · simpa [applyLog, List.filterMap_cons, TickLabel.asApply] using happlies.step hpackets hphase
    · by_cases hstart : l = .start
      · exact hturn hstart
      · exact happlied fun hidle => hmain (hphase.idle hstart hidle)

theorem TickHistory.run {start : TickState} (hpackets : packets.length < 2 ^ 32)
    (hclsnPackets : clsnPackets.length < 2 ^ 32)
    (hstart : TickHistory packets clsnPackets baseTick baseCheck baseApply [] start)
    (hrun : Run (TickStep packets clsnPackets .never) start ls s) :
    TickHistory packets clsnPackets baseTick baseCheck baseApply ls s :=
  hrun.history hstart fun _ _ _ _ => TickHistory.step hpackets hclsnPackets

/-- At the first call of a phase, the phase before it is over. -/
theorem TickHistory.turn (h : TickHistory packets clsnPackets baseTick baseCheck baseApply ls s)
    (hstep : TickStep packets clsnPackets .never s l s') :
    ((∃ r, l = .check (.begin r)) → s.ticks.shared.main = .returned)
      ∧ ((∃ o, l = .apply (.begin o)) → s.checks.shared.main = .returned) := by
  cases hstep with
  | tick l p hphase => exact ⟨nofun, nofun⟩
  | check l p hturn hphase =>
    refine ⟨?_, nofun⟩
    rintro ⟨r, hr⟩
    obtain rfl := TickLabel.check.inj hr
    exact h.checked (h.checks.accounts.begins hphase).1
  | apply l p hturn hphase =>
    refine ⟨nofun, ?_⟩
    rintro ⟨o, ho⟩
    obtain rfl := TickLabel.apply.inj ho
    exact h.applied (h.applies.accounts.begins hphase).1

end History

/-! ## One call -/

section Call

/-- No check begins before all ticks have finished, and no apply before all checks. -/
structure InOrder (objs : List Object) (ls : List TickLabel) : Prop where
  check : ∀ pre post r, ls = pre ++ .check (.begin r) :: post →
    (∀ o ∈ objs, ((tickLog pre).flatMap Label.finished).count o = 1)
      ∧ (tickLog post).flatMap Label.begun = []
  apply : ∀ pre post o, ls = pre ++ .apply (.begin o) :: post →
    (∀ r ∈ pairs objs, ((checkLog pre).flatMap Label.finished).count r = 1)
      ∧ (checkLog post).flatMap Label.begun = []

/-- Every object had one `tick` and one `apply` and every pair one `check_collision`, which all
returned, and each pair found to collide is recorded once. -/
structure ExactlyOnce (objs : List Object) (ls : List TickLabel)
    (collisions : List (Object × Object)) : Prop where
  tick : ∀ o, ((tickLog ls).flatMap Label.begun).count o = (if o ∈ objs then 1 else 0)
    ∧ ((tickLog ls).flatMap Label.finished).count o = if o ∈ objs then 1 else 0
  apply : ∀ o, ((applyLog ls).flatMap Label.begun).count o = (if o ∈ objs then 1 else 0)
    ∧ ((applyLog ls).flatMap Label.finished).count o = if o ∈ objs then 1 else 0
  check : ∀ a ∈ objs, ∀ b ∈ objs, a ≠ b →
    ((checkLog ls).flatMap Label.begun).count (a, b)
        + ((checkLog ls).flatMap Label.begun).count (b, a) = 1
      ∧ ((checkLog ls).flatMap Label.finished).count (a, b)
        + ((checkLog ls).flatMap Label.finished).count (b, a) = 1
  others : ∀ r, r ∈ (checkLog ls).flatMap Label.begun ∨ r ∈ (checkLog ls).flatMap Label.finished →
    r.1 ∈ objs ∧ r.2 ∈ objs ∧ r.1 ≠ r.2
  recorded : ∀ r, collisions.count r = if TickLabel.check (.finish r true) ∈ ls then 1 else 0

/-- The thread pool of a queue as a call of `tick()` finds it: `worker_count` workers in their
loops, none with a packet, and the queue drained. -/
def PoolReady {ι : Type*} (workerCount : Nat) (p : WorkPhase.Phase ι) : Prop :=
  Begins p ∧ p.workers.length = workerCount ∧ ∀ w ∈ p.workers, w.running = true

def TickStart (workerCount : Nat) (s : TickState) : Prop :=
  PoolReady workerCount s.ticks ∧ PoolReady workerCount s.checks ∧ PoolReady workerCount s.applies

theorem PoolReady.sound {ι : Type*} [DecidableEq ι] {workerCount : Nat}
    (hworkers : 0 < workerCount) {p : WorkPhase.Phase ι} (h : PoolReady workerCount p)
    (packets : List (List ι)) (records : ι → Bool → Bool) :
    Sound packets records p.shared.queue.inCount [] p := by
  obtain ⟨hbegins, hlength, hrunning⟩ := h
  refine hbegins.sound hrunning fun hnil => ?_
  rw [hnil] at hlength
  exact hworkers.ne hlength

/-- Among items whose methods returned once, those are recorded whose answer was true. -/
theorem recorded_count {ι : Type*} [DecidableEq ι] {ls : List (WorkPhase.Label ι)} {x : ι}
    (hone : (ls.flatMap Label.finished).count x ≤ 1) :
    (ls.flatMap (Label.recorded fun _ answer => answer)).count x
      = if WorkPhase.Label.finish x true ∈ ls then 1 else 0 := by
  have hsub : (ls.flatMap (Label.recorded fun _ answer => answer)).Sublist
      (ls.flatMap Label.finished) := by
    induction ls with
    | nil => exact .slnil
    | cons l rest ih =>
      refine List.Sublist.append ?_ (ih ?_)
      · cases l with
        | finish i answer => cases answer <;> simp [Label.recorded, Label.finished]
        | _ => exact List.nil_sublist _
      · rw [List.flatMap_cons, List.count_append] at hone
        exact (Nat.le_add_left _ _).trans hone
  have hmem : x ∈ ls.flatMap (Label.recorded fun _ answer => answer)
      ↔ WorkPhase.Label.finish x true ∈ ls := by
    rw [List.mem_flatMap]
    constructor
    · rintro ⟨l, hl, hx⟩
      cases l with
      | finish i answer => cases answer <;> simp_all [Label.recorded]
      | _ => cases hx
    · exact fun hl => ⟨_, hl, by simp [Label.recorded]⟩
  have hle := (hsub.count_le x).trans hone
  split
  · next hl =>
    have := List.count_pos_iff.mpr (hmem.mpr hl)
    omega
  · next hl => exact List.count_eq_zero.mpr fun hx => hl (hmem.mp hx)

/-- Pairs are compared in one way only. -/
theorem beq_pair : (instBEqOfDecidableEq : BEq (Object × Object)) = instBEqProd :=
  lawful_beq_subsingleton _ _

section Run

variable {objs : List Object} {packets : List (List Object)}
  {clsnPackets : List (List (Object × Object))} {baseTick baseCheck baseApply : Nat}
  {start s : TickState} {ls : List TickLabel}

theorem mem_checkLog_iff {l : WorkPhase.Label (Object × Object)} :
    l ∈ checkLog ls ↔ TickLabel.check l ∈ ls := by
  rw [checkLog, List.mem_filterMap]
  constructor
  · rintro ⟨x, hx, hl⟩
    cases x with
    | check m =>
      obtain rfl := Option.some.inj hl
      exact hx
    | _ => cases hl
  · exact fun hl => ⟨_, hl, rfl⟩

theorem TickStart.history {workerCount : Nat} (hworkers : 0 < workerCount)
    (h : TickStart workerCount start) (packets : List (List Object))
    (clsnPackets : List (List (Object × Object))) :
    TickHistory packets clsnPackets start.ticks.shared.queue.inCount
      start.checks.shared.queue.inCount start.applies.shared.queue.inCount [] start := by
  obtain ⟨hticks, hchecks, happlies⟩ := h
  exact ⟨hticks.sound hworkers _ _, hchecks.sound hworkers _ _, happlies.sound hworkers _ _,
    fun hmain => absurd hchecks.1.main hmain, fun hmain => absurd happlies.1.main hmain⟩

theorem TickHistory.inOrder (hpackets : packets.length < 2 ^ 32)
    (hclsnPackets : clsnPackets.length < 2 ^ 32) (hobjs : packets.flatten.Perm objs)
    (hpairs : clsnPackets.flatten.Perm (pairs objs)) (hnodup : objs.Nodup)
    (hstart : TickHistory packets clsnPackets baseTick baseCheck baseApply [] start)
    (hrun : Run (TickStep packets clsnPackets .never) start ls s) : InOrder objs ls := by
  have hend := hstart.run hpackets hclsnPackets hrun
  constructor
  · rintro pre post r rfl
    obtain ⟨t, t', hpre, hstep, _⟩ := hrun.split
    have hmid := hstart.run hpackets hclsnPackets hpre
    have hmain := (hmid.turn hstep).1 ⟨r, rfl⟩
    have hticks : tickLog (pre ++ .check (.begin r) :: post) = tickLog pre ++ tickLog post := by
      simp [tickLog, List.filterMap_cons, TickLabel.asTick]
    have hover := hmid.ticks.over hmain (hticks ▸ hend.ticks)
    refine ⟨fun o ho => ?_, hover.2⟩
    rw [hover.1, hobjs.count_eq, List.count_eq_one_of_mem hnodup ho]
  · rintro pre post o rfl
    obtain ⟨t, t', hpre, hstep, _⟩ := hrun.split
    have hmid := hstart.run hpackets hclsnPackets hpre
    have hmain := (hmid.turn hstep).2 ⟨o, rfl⟩
    have hchecks : checkLog (pre ++ .apply (.begin o) :: post) = checkLog pre ++ checkLog post := by
      simp [checkLog, List.filterMap_cons, TickLabel.asCheck]
    have hover := hmid.checks.over hmain (hchecks ▸ hend.checks)
    rw [beq_pair] at hover
    refine ⟨fun r hr => ?_, hover.2⟩
    have hpos := List.count_pos_iff.mpr hr
    have hle := count_pairs_le hnodup r
    rw [hover.1, hpairs.count_eq]
    omega

theorem TickHistory.exactlyOnce (hobjs : packets.flatten.Perm objs)
    (hpairs : clsnPackets.flatten.Perm (pairs objs)) (hnodup : objs.Nodup)
    (h : TickHistory packets clsnPackets baseTick baseCheck baseApply ls s)
    (hreturned : s.applies.shared.main = .returned) :
    ExactlyOnce objs ls s.checks.shared.out.buffer := by
  have hchecksMain : s.checks.shared.main = .returned := h.applied (by rw [hreturned]; exact nofun)
  have hticksMain : s.ticks.shared.main = .returned := h.checked (by rw [hchecksMain]; exact nofun)
  have hcount : ∀ o, packets.flatten.count o = if o ∈ objs then 1 else 0 := fun o => by
    rw [hobjs.count_eq]
    split
    · next ho => exact List.count_eq_one_of_mem hnodup ho
    · next ho => exact List.count_eq_zero.mpr ho
  have hchecks := h.checks.returned hchecksMain
  have hrecorded := fun r => (h.checks.accounts.returned hchecksMain h.checks.unthrown r).2.2
  have hanswer := fun r => @recorded_count (Object × Object) _ (checkLog ls) r
  rw [beq_pair] at hchecks hrecorded hanswer
  constructor
  · intro o
    rw [← hcount]
    exact h.ticks.returned hticksMain o
  · intro o
    rw [← hcount]
    exact h.applies.returned hreturned o
  · intro a ha b hb hne
    rw [(hchecks (a, b)).1, (hchecks (b, a)).1, (hchecks (a, b)).2, (hchecks (b, a)).2,
      hpairs.count_eq, hpairs.count_eq]
    have hone := pairs_exactly_once hnodup ha hb hne
    exact ⟨hone, hone⟩
  · intro r hr
    have hpos : 0 < (pairs objs).count r := by
      rw [← hpairs.count_eq]
      rcases hr with hr | hr
      · exact (hchecks r).1 ▸ List.count_pos_iff.mpr hr
      · exact (hchecks r).2 ▸ List.count_pos_iff.mpr hr
    have hmem := List.count_pos_iff.mp hpos
    exact ⟨(mem_of_mem_pairs hmem).1, (mem_of_mem_pairs hmem).2, ne_of_mem_pairs hnodup hmem⟩
  · intro r
    have hone : ((checkLog ls).flatMap Label.finished).count r ≤ 1 := by
      rw [(hchecks r).2, hpairs.count_eq]
      exact count_pairs_le hnodup r
    rw [hrecorded, hanswer r hone]
    simp only [mem_checkLog_iff]

/-- Until the last `join` has returned, there is a step that is no spurious wake-up. -/
theorem TickHistory.progress (h : TickHistory packets clsnPackets baseTick baseCheck baseApply ls s)
    (hreturned : s.applies.shared.main ≠ .returned) :
    ∃ l t, TickStep packets clsnPackets .never s l t ∧ l.isSpurious = false := by
  have hspurious : ∀ {ι : Type} {l : WorkPhase.Label ι}, l ≠ .spurious → l.isSpurious = false :=
    fun {ι l} hl => by
      cases l with
      | spurious => exact absurd rfl hl
      | _ => rfl
  by_cases hticks : s.ticks.shared.main = .returned
  · by_cases hchecks : s.checks.shared.main = .returned
    · obtain ⟨l, p, hstep, hl⟩ := WorkPhase.progress h.applies.awake h.applies.accounts hreturned
      exact ⟨_, _, .apply s l p (fun _ => hchecks) hstep, hspurious hl⟩
    · obtain ⟨l, p, hstep, hl⟩ := WorkPhase.progress h.checks.awake h.checks.accounts hchecks
      exact ⟨_, _, .check s l p (fun _ => hticks) hstep, hspurious hl⟩
  · obtain ⟨l, p, hstep, hl⟩ := WorkPhase.progress h.ticks.awake h.ticks.accounts hticks
    exact ⟨_, _, .tick s l p hstep, hspurious hl⟩

/-- The effort left in all three phases. -/
def TickState.effort (packets : List (List Object)) (clsnPackets : List (List (Object × Object)))
    (s : TickState) : Nat :=
  s.ticks.effort packets + s.checks.effort clsnPackets + s.applies.effort packets

theorem TickStep.effort {throws : Throws} {l : TickLabel} {t : TickState}
    (h : TickStep packets clsnPackets throws s l t) :
    t.effort packets clsnPackets + 1
      ≤ s.effort packets clsnPackets + if l.isSpurious then 2 else 0 := by
  cases h with
  | tick l p hphase =>
    have := effort_step hphase
    show _ ≤ _ + l.slack
    simp only [TickState.effort]
    omega
  | check l p hturn hphase =>
    have := effort_step hphase
    show _ ≤ _ + l.slack
    simp only [TickState.effort]
    omega
  | apply l p hturn hphase =>
    have := effort_step hphase
    show _ ≤ _ + l.slack
    simp only [TickState.effort]
    omega

theorem length_le_effort {throws : Throws}
    (hrun : Run (TickStep packets clsnPackets throws) start ls s) :
    ls.length ≤ start.effort packets clsnPackets + 2 * ls.countP TickLabel.isSpurious := by
  have hspent : s.effort packets clsnPackets + ls.length
      ≤ start.effort packets clsnPackets + 2 * ls.countP TickLabel.isSpurious := by
    induction hrun with
    | nil => simp
    | @snoc ls t u l _ hstep ih =>
      have := hstep.effort
      simp only [List.length_append, List.length_singleton, List.countP_append,
        List.countP_singleton]
      split at this <;> simp_all <;> omega
  omega

/-- The state at the next call. -/
def TickState.next (s : TickState) : TickState := ⟨s.ticks.next, s.checks.next, s.applies.next⟩

theorem length_workers_eq {throws : Throws}
    (hrun : Run (TickStep packets clsnPackets throws) start ls s) :
    s.ticks.workers.length = start.ticks.workers.length
      ∧ s.checks.workers.length = start.checks.workers.length
      ∧ s.applies.workers.length = start.applies.workers.length := by
  induction hrun with
  | nil => exact ⟨rfl, rfl, rfl⟩
  | snoc _ hstep ih =>
    obtain ⟨hticks, hchecks, happlies⟩ := ih
    cases hstep with
    | tick l p hphase => exact ⟨hphase.length_workers.trans hticks, hchecks, happlies⟩
    | check l p hturn hphase => exact ⟨hticks, hphase.length_workers.trans hchecks, happlies⟩
    | apply l p hturn hphase => exact ⟨hticks, hchecks, hphase.length_workers.trans happlies⟩

/-- When `tick()` returns, the workers are as its next call expects them. -/
theorem TickStart.next {workerCount : Nat} (hstart : TickStart workerCount start)
    (hrun : Run (TickStep packets clsnPackets .never) start ls s)
    (h : TickHistory packets clsnPackets baseTick baseCheck baseApply ls s)
    (hreturned : s.applies.shared.main = .returned) : TickStart workerCount s.next := by
  have hchecks : s.checks.shared.main = .returned := h.applied (by rw [hreturned]; exact nofun)
  have hticks : s.ticks.shared.main = .returned := h.checked (by rw [hchecks]; exact nofun)
  obtain ⟨hlengthTicks, hlengthChecks, hlengthApplies⟩ := length_workers_eq hrun
  obtain ⟨⟨_, hcountTicks, _⟩, ⟨_, hcountChecks, _⟩, ⟨_, hcountApplies, _⟩⟩ := hstart
  exact ⟨⟨h.ticks.next hticks, hlengthTicks.trans hcountTicks, h.ticks.awake.running⟩,
    ⟨h.checks.next hchecks, hlengthChecks.trans hcountChecks, h.checks.awake.running⟩,
    ⟨h.applies.next hreturned, hlengthApplies.trans hcountApplies, h.applies.awake.running⟩⟩

end Run

theorem lt_of_pairs_lt {n : Nat} (h : n * (n - 1) / 2 < 2 ^ 31) : n < 2 ^ 31 := by
  by_contra hge
  have hmul : n * 2 ≤ n * (n - 1) := Nat.mul_le_mul_left n (by omega)
  omega

/-- One call of `tick()`, from any state in which a turn can find the workers, under any
scheduling of them: the calls are made in order and exactly once, somebody can go on until
`tick()` returns, it leaves the workers ready for the next call, and without spurious wake-ups it
does so within a bound. -/
theorem tick_exactly_once {s : State} (hkeyed : Keyed s.objects) {workerCount : Nat}
    (hworkers : 0 < workerCount) (hint : workerCount < 2 ^ 31)
    (hpairs : s.stored.length * (s.stored.length - 1) / 2 < 2 ^ 31) :
    ∃ packets clsnPackets, deal workerCount s.stored = some packets
      ∧ deal workerCount (pairs s.stored) = some clsnPackets
      ∧ ∀ start, TickStart workerCount start → ∃ bound, ∀ ls t,
        Run (TickStep packets clsnPackets .never) start ls t →
          InOrder s.stored ls
          ∧ (t.applies.shared.main = .returned →
            ExactlyOnce s.stored ls t.checks.shared.out.buffer)
          ∧ (t.applies.shared.main ≠ .returned →
            ∃ l u, TickStep packets clsnPackets .never t l u ∧ l.isSpurious = false)
          ∧ (t.applies.shared.main = .returned → TickStart workerCount t.next)
          ∧ ls.length ≤ bound + 2 * ls.countP TickLabel.isSpurious := by
  have hnodup : s.stored.Nodup := stored_nodup hkeyed
  obtain ⟨packets, hdeal, hlength, hperm⟩ := deal_eq_some hworkers (lt_of_pairs_lt hpairs)
  have hcount : (pairs s.stored).length < 2 ^ 31 := by rwa [length_pairs]
  obtain ⟨clsnPackets, hclsnDeal, hclsnLength, hclsnPerm⟩ := deal_eq_some hworkers hcount
  refine ⟨packets, clsnPackets, hdeal, hclsnDeal, fun start hstart => ?_⟩
  refine ⟨start.effort packets clsnPackets, fun ls t hrun => ?_⟩
  have hfew : packets.length < 2 ^ 32 := by omega
  have hclsnFew : clsnPackets.length < 2 ^ 32 := by omega
  have hbegin := hstart.history hworkers packets clsnPackets
  have hend := hbegin.run hfew hclsnFew hrun
  exact ⟨hbegin.inOrder hfew hclsnFew hperm hclsnPerm hnodup hrun,
    hend.exactlyOnce hperm hclsnPerm hnodup, hend.progress, hstart.next hrun hend,
    length_le_effort hrun⟩

/-- Two objects. -/
def twoObjects : State where
  objects := (OrdMap.empty.insert 1 ⟨10, 1⟩).insert 2 ⟨11, 2⟩
  alive := fun _ => true
  messages := []
  collisions := []
  endRun := false
  isRunning := true

/-- A pool that has just been started. -/
def newPool (ι : Type) (workerCount : Nat) : WorkPhase.Phase ι :=
  ⟨⟨.idle, .empty, .empty⟩, List.replicate workerCount .pop⟩

theorem newPool_ready (ι : Type) (workerCount : Nat) :
    PoolReady workerCount (newPool ι workerCount) := by
  have hpop : ∀ w ∈ (newPool ι workerCount).workers, w = .pop :=
    fun w hw => List.eq_of_mem_replicate hw
  refine ⟨⟨rfl, ⟨rfl, rfl, rfl⟩, rfl, rfl, rfl, fun w hw => ?_⟩, List.length_replicate,
    fun w hw => ?_⟩
  · rw [hpop w hw]
    rfl
  · rw [hpop w hw]
    rfl

theorem tick_exactly_once_twoObjects :
    ∃ packets clsnPackets, deal 2 twoObjects.stored = some packets
      ∧ deal 2 (pairs twoObjects.stored) = some clsnPackets
      ∧ ∃ bound, ∀ ls t,
        Run (TickStep packets clsnPackets .never)
            ⟨newPool Object 2, newPool (Object × Object) 2, newPool Object 2⟩ ls t →
          ls.length ≤ bound + 2 * ls.countP TickLabel.isSpurious
          ∧ (t.applies.shared.main = .returned →
            ((tickLog ls).flatMap Label.begun).count ⟨10, 1⟩ = 1) := by
  have hkeyed : Keyed twoObjects.objects :=
    Keyed.insert (Keyed.insert (by intro k o h; simp at h) ⟨10, 1⟩) ⟨11, 2⟩
  obtain ⟨packets, clsnPackets, hdeal, hclsnDeal, hruns⟩ :=
    tick_exactly_once hkeyed (show 0 < 2 by decide) (by decide) (by decide)
  have hstart : TickStart 2 ⟨newPool Object 2, newPool (Object × Object) 2, newPool Object 2⟩ :=
    ⟨newPool_ready Object 2, newPool_ready (Object × Object) 2, newPool_ready Object 2⟩
  obtain ⟨bound, hbound⟩ := hruns _ hstart
  refine ⟨packets, clsnPackets, hdeal, hclsnDeal, bound, fun ls t hrun => ?_⟩
  obtain ⟨_, honce, _, _, hlength⟩ := hbound ls t hrun
  exact ⟨hlength, fun hmain => ((honce hmain).tick ⟨10, 1⟩).1⟩

end Call

/-! ## The call as a part of the turn -/

/-- The method calls that have returned, with their answers. -/
def answers {ι : Type*} : WorkPhase.Label ι → List (ι × Bool)
  | .finish i answer => [(i, answer)]
  | _ => []

theorem map_fst_answers {ι : Type*} (ls : List (WorkPhase.Label ι)) :
    (ls.flatMap answers).map Prod.fst = ls.flatMap Label.finished := by
  rw [List.map_flatMap]
  congr 1
  funext l
  cases l <;> rfl

/-- `o->alive = !verdict`, for one verdict after the other. -/
def setVerdicts (s : State) (verdicts : List (Object × Bool)) : State :=
  verdicts.foldl (fun s v => s.setAlive v.1 (!v.2)) s

/-- The verdicts of `do_tick`, or of `do_apply`, in the order in which they come. -/
theorem run_verdicts {phase : List Object → Phase} {event : Object → Bool → Event}
    (hstep : ∀ s pre post o v, TurnStep ⟨s, phase (pre ++ o :: post)⟩ (event o v)
      ⟨s.setAlive o (!v), phase (pre ++ post)⟩)
    (s : State) {todo : List Object} {verdicts : List (Object × Bool)}
    (h : (verdicts.map Prod.fst).Perm todo) :
    Run TurnStep ⟨s, phase todo⟩ (verdicts.map fun v => event v.1 v.2)
      ⟨setVerdicts s verdicts, phase []⟩ := by
  induction verdicts generalizing s todo with
  | nil =>
    obtain rfl := List.nil_perm.mp h
    exact .nil
  | cons v rest ih =>
    obtain ⟨pre, post, rfl⟩ := List.append_of_mem (h.subset (List.mem_cons_self ..))
    have hrest := (List.perm_cons v.1).mp (h.trans List.perm_middle)
    exact .cons (hstep s pre post v.1 v.2) (ih (s.setAlive v.1 (!v.2)) hrest)

theorem setVerdicts_stored (s : State) (verdicts : List (Object × Bool)) :
    (setVerdicts s verdicts).stored = s.stored := by
  induction verdicts generalizing s with
  | nil => rfl
  | cons v rest ih => exact ih (s.setAlive v.1 (!v.2))

/-- What the log of a call that made its calls exactly once comes to in a turn: the ticks, the
records of the checks and the applies, in the order of their answers. -/
theorem ExactlyOnce.run {s : State} (hkeyed : Keyed s.objects) {ls : List TickLabel}
    {hits : List (Object × Object)} (h : ExactlyOnce s.stored ls hits) :
    ∃ after, Run TurnStep ⟨s, .ticking s.stored⟩
      (((tickLog ls).flatMap answers).map (fun v => Event.tick v.1 v.2) ++ .check hits ::
        (((applyLog ls).flatMap answers).map (fun v => Event.apply v.1 v.2) ++ [.applied]))
      ⟨after, .resolving⟩ := by
  have hperm : ∀ log : List (WorkPhase.Label Object),
      (∀ o, (log.flatMap Label.finished).count o = if o ∈ s.stored then 1 else 0) →
        ((log.flatMap answers).map Prod.fst).Perm s.stored := fun log hlog => by
    rw [map_fst_answers, List.perm_iff_count]
    intro o
    rw [hlog]
    split
    · next ho => exact (List.count_eq_one_of_mem (stored_nodup hkeyed) ho).symm
    · next ho => exact (List.count_eq_zero.mpr ho).symm
  have hticking := run_verdicts TurnStep.tick s (hperm _ fun o => (h.tick o).2)
  let ticked := setVerdicts s ((tickLog ls).flatMap answers)
  have hstored : ticked.stored = s.stored := setVerdicts_stored s _
  have hhits : ∀ r ∈ hits, r.1 ∈ ticked.stored ∧ r.2 ∈ ticked.stored := fun r hr => by
    have hpos := List.count_pos_iff.mpr hr
    rw [h.recorded] at hpos
    have hfinish : TickLabel.check (.finish r true) ∈ ls := by
      by_contra hnot
      rw [if_neg hnot] at hpos
      exact lt_irrefl 0 hpos
    have hfinished : r ∈ (checkLog ls).flatMap Label.finished :=
      List.mem_flatMap.mpr ⟨_, mem_checkLog_iff.mpr hfinish, by simp [Label.finished]⟩
    rw [hstored]
    exact ⟨(h.others r (.inr hfinished)).1, (h.others r (.inr hfinished)).2.1⟩
  let checked : State := { ticked with collisions := ticked.collisions ++ hits }
  have happlying : Run TurnStep ⟨checked, .applying ticked.stored⟩ _ _ :=
    run_verdicts TurnStep.apply checked (hstored ▸ hperm _ fun o => (h.apply o).2)
  exact ⟨_, hticking.append (.cons (.check ticked hits hhits)
    (happlying.append (.single (.applied _))))⟩

end Nrtb.SimCore
