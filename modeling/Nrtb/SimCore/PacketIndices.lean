import Nrtb.SimCore.Tick

/-!
# The indices of the work packets

The counters of `tick` and `collision_check` (`cpp/sim_engine/sim_core/sim_core.cpp`, lines
122–172), which are `int`s, and the remainders that they are used for. `start_sim` stores any `int`
as `worker_count`, and `main` hands it what `hardware_concurrency` returns, which may be 0.

An index is valid when it is computed at all, by a remainder that is not by zero and from a counter
that has not overflowed, and when it is below the number of packets. For a positive count this fails
only by the overflow, which the pairs of 65537 objects come to; for zero it fails as soon as there
is an object, and for a negative one there are no packets.

* `computed_valid_iff`: one loop over `packets[counter++ % worker_count]`, by induction on how often
  it is gone through.
* `indices_valid_iff`: both loops, for any population and any `worker_count`.
* `deal_of_valid`: what `deal` makes of valid indices, which connects them with the packets of
  `Tick`.
-/

namespace Nrtb.SimCore

/-! ## The loops -/

variable {ι : Type*}

/-- `counter++`; `none`: it overflows. -/
def increment (counter : Int) : Option Int :=
  if counter = 2 ^ 31 - 1 then none else some (counter + 1)

/-- `counter++ % worker_count`; `none`: an overflow or a division by zero. -/
def packetIndex (counter workerCount : Int) : Option Int :=
  (increment counter).bind fun _ =>
    if workerCount = 0 then none else some (counter.tmod workerCount)

/-- The counter and the index of every `packets[counter++ % worker_count]` of a loop. After an
overflow there is no counter. -/
def computed (workerCount : Int) : List ι → Option Int → List (Option Int × Option Int)
  | [], _ => []
  | _ :: rest, counter =>
    (counter, counter.bind (packetIndex · workerCount))
      :: computed workerCount rest (counter.bind increment)

/-- The indices of `tick`. For a negative count the constructor of `packets` throws before the
first one. -/
def tickIndices (workerCount : Int) (objs : List ι) : List (Option Int × Option Int) :=
  if workerCount < 0 then [] else computed workerCount objs (some 0)

/-- The indices of `collision_check`. -/
def collisionIndices (workerCount : Int) (objs : List ι) : List (Option Int × Option Int) :=
  if workerCount < 0 then [] else computed workerCount (pairs objs) (some 0)

/-! ## Valid indices -/

/-- The index is defined, comes from a counter that has not overflowed, and is one of a packet. -/
def ValidIndex (workerCount : Int) (e : Option Int × Option Int) : Prop :=
  ∃ counter index, e = (some counter, some index) ∧ 0 ≤ counter ∧ counter < 2 ^ 31
    ∧ 0 ≤ index ∧ index < workerCount

def IndicesValid (workerCount : Int) (objs : List ι) : Prop :=
  ∀ e ∈ tickIndices workerCount objs ++ collisionIndices workerCount objs, ValidIndex workerCount e

theorem validIndex_iff {workerCount : Int} (hworkers : 0 ≤ workerCount) {counter : Int}
    (hlow : 0 ≤ counter) (hhigh : counter < 2 ^ 31) :
    ValidIndex workerCount (some counter, packetIndex counter workerCount)
      ↔ 0 < workerCount ∧ counter + 1 < 2 ^ 31 := by
  rw [packetIndex, increment]
  constructor
  · rintro ⟨c, i, heq, _, _, hi, hlt⟩
    have hmax : counter ≠ 2 ^ 31 - 1 := fun hmax => by simp [hmax] at heq
    omega
  · rintro ⟨hpos, hnext⟩
    refine ⟨counter, counter.tmod workerCount, ?_, hlow, hhigh, Int.tmod_nonneg _ hlow,
      Int.tmod_lt_of_pos _ hpos⟩
    rw [if_neg (by omega), Option.bind_some, if_neg hpos.ne']

/-- A loop that begins with a counter in range. -/
theorem computed_valid_iff {workerCount : Int} (hworkers : 0 ≤ workerCount) (items : List ι)
    {counter : Int} (hlow : 0 ≤ counter) (hhigh : counter < 2 ^ 31) :
    (∀ e ∈ computed workerCount items (some counter), ValidIndex workerCount e)
      ↔ items = [] ∨ (0 < workerCount ∧ counter + items.length < 2 ^ 31) := by
  induction items generalizing counter with
  | nil => simp [computed]
  | cons item rest ih =>
    have hhead : (∀ e ∈ computed workerCount (item :: rest) (some counter),
          ValidIndex workerCount e)
        ↔ ValidIndex workerCount (some counter, packetIndex counter workerCount)
          ∧ ∀ e ∈ computed workerCount rest (increment counter), ValidIndex workerCount e := by
      rw [computed, List.forall_mem_cons]
      rfl
    have hlength : ((item :: rest).length : Int) = rest.length + 1 := by
      rw [List.length_cons, Nat.cast_add, Nat.cast_one]
    rw [hhead, validIndex_iff hworkers hlow hhigh, hlength, and_assoc]
    simp only [reduceCtorEq, false_or]
    refine and_congr_right fun hpos => ?_
    constructor
    · rintro ⟨hnext, hrest⟩
      rw [increment, if_neg (by omega), ih (by omega) hnext] at hrest
      rcases hrest with rfl | ⟨_, hle⟩
      · simpa using hnext
      · omega
    · intro hle
      have hnext : counter + 1 < 2 ^ 31 := by omega
      refine ⟨hnext, ?_⟩
      rw [increment, if_neg (by omega), ih (by omega) hnext]
      exact .inr ⟨hpos, by omega⟩

/-! ## Both loops -/

/-- The pairs of a population can be counted with an `int` up to 65536 objects. -/
theorem pairs_lt_iff (n : Nat) : n * (n - 1) / 2 < 2 ^ 31 ↔ n ≤ 65536 := by
  constructor
  · intro h
    by_contra hlarge
    have hmul : 65537 * 65536 ≤ n * (n - 1) := Nat.mul_le_mul (by omega) (by omega)
    omega
  · intro h
    have hmul : n * (n - 1) ≤ 65536 * 65535 := Nat.mul_le_mul h (by omega)
    omega

/-- Every index of `tick` and `collision_check` is valid, exactly when there is a worker or nothing
to do, and an `int` can count the pairs. The pairs are what runs out first: 65537 objects have more
of them than an `int` can count. -/
theorem indices_valid_iff (workerCount : Int) (objs : List ι) :
    IndicesValid workerCount objs
      ↔ (workerCount = 0 → objs = []) ∧ (0 < workerCount → objs.length ≤ 65536) := by
  rcases lt_or_ge workerCount 0 with hneg | hworkers
  · have hnone : IndicesValid workerCount objs := by
      rw [IndicesValid, tickIndices, collisionIndices, if_pos hneg, if_pos hneg]
      exact nofun
    exact iff_of_true hnone ⟨fun h => absurd h hneg.ne, fun h => absurd h hneg.not_gt⟩
  · have hticks := computed_valid_iff hworkers objs le_rfl (by norm_num : (0 : Int) < 2 ^ 31)
    have hpairs := computed_valid_iff hworkers (pairs objs) le_rfl
      (by norm_num : (0 : Int) < 2 ^ 31)
    have hcount := pairs_lt_iff objs.length
    rw [IndicesValid, tickIndices, collisionIndices, if_neg hworkers.not_gt,
      if_neg hworkers.not_gt, List.forall_mem_append, hticks, hpairs, ← List.length_eq_zero_iff,
      ← List.length_eq_zero_iff, length_pairs]
    have hempty : objs.length = 0 → objs.length * (objs.length - 1) / 2 = 0 := fun h => by
      rw [h]
    generalize objs.length * (objs.length - 1) / 2 = count at hcount hempty ⊢
    rcases hworkers.eq_or_lt with rfl | hpos
    · simp only [lt_irrefl, false_and, or_false, false_implies, and_true, true_implies]
      exact ⟨fun h => h.1, fun h => ⟨h, hempty h⟩⟩
    · simp only [hpos, true_and, hpos.ne', false_implies, true_implies, ← hcount]
      omega

/-- Then `deal` fills the packets. -/
theorem deal_of_valid {workerCount : Nat} (hworkers : 0 < workerCount) {items : List ι}
    (hvalid : ∀ e ∈ computed workerCount items (some 0), ValidIndex workerCount e) :
    ∃ packets, deal workerCount items = some packets ∧ packets.length = workerCount
      ∧ packets.flatten.Perm items := by
  rw [computed_valid_iff (Int.natCast_nonneg _) items le_rfl (by norm_num)] at hvalid
  refine deal_eq_some hworkers ?_
  rcases hvalid with rfl | ⟨_, hle⟩
  · norm_num
  · omega

/-- One object and no worker: the first index of `tick` is divided by zero. -/
theorem no_worker_divides_by_zero :
    tickIndices 0 [()] = [(some 0, none)] ∧ ¬ IndicesValid 0 [()] := by
  refine ⟨rfl, fun h => ?_⟩
  obtain ⟨counter, index, heq, _⟩ := h (some 0, none) List.mem_cons_self
  cases heq

end Nrtb.SimCore
