import Nrtb.ConfReader.Grammar

/-!
# Where a comment starts

`cpp/common/confreader/confreader.cpp`, lines 59–72, by positions in the line. The loop of `read`
looks at the character in front of every `#` that it finds, also in front of one in the first
column.

`Grammar` has the same loop against a function on lists, which is what reading a file needs. Here
the documented text is put in terms of places, as a reader of the documentation would: the line ends
in front of the first `#` that has no backslash in front of it, or is whole. That the function on
lists does this is an induction on the line with the character in front of it.

* `uncomment_cut`: the documented text ends in front of the first `#` that is not escaped.
* `cutComment_exact_iff`: when the loop cuts there.
-/

namespace Nrtb

namespace ConfReader

/-- The character in front of a position; `prev` is the one in front of the list. -/
def charBefore (prev : Option Byte) (s : Str) : Nat → Option Byte
  | 0 => prev
  | i + 1 => s[i]?

/-- A `#` without a backslash in front of it. -/
def StartsComment (prev : Option Byte) (s : Str) (i : Nat) : Prop :=
  s[i]? = some Ch.hash ∧ charBefore prev s i ≠ some Ch.backslash

/-- The line ends in front of its first comment, or is whole. -/
def CutAtComment (prev : Option Byte) (s r : Str) : Prop :=
  (∃ i, StartsComment prev s i ∧ (∀ j < i, ¬ StartsComment prev s j) ∧ r = s.take i)
    ∨ (∀ i, ¬ StartsComment prev s i) ∧ r = s

theorem startsComment_zero {prev : Option Byte} {c : Byte} {s : Str} :
    StartsComment prev (c :: s) 0 ↔ c = Ch.hash ∧ prev ≠ some Ch.backslash := by
  unfold StartsComment charBefore
  rw [List.getElem?_cons_zero, Option.some.injEq]

theorem startsComment_succ {prev : Option Byte} {c : Byte} {s : Str} {i : Nat} :
    StartsComment prev (c :: s) (i + 1) ↔ StartsComment (some c) s i := by
  cases i with
  | zero => exact Iff.rfl
  | succ i => exact Iff.rfl

theorem uncomment_cut (prev : Option Byte) (s : Str) :
    CutAtComment prev s (uncomment prev s) := by
  induction s generalizing prev with
  | nil =>
    refine .inr ⟨fun i h => ?_, rfl⟩
    have hget := h.1
    rw [List.getElem?_nil] at hget
    cases hget
  | cons c s ih =>
    unfold uncomment
    split
    · next hstarts =>
      refine .inl ⟨0, startsComment_zero.mpr hstarts, fun j hj => ?_, rfl⟩
      exact absurd hj (Nat.not_lt_zero j)
    · next hnot =>
      have hzero : ¬ StartsComment prev (c :: s) 0 := mt startsComment_zero.mp hnot
      rcases ih (some c) with ⟨i, hi, hfirst, hcut⟩ | ⟨hnone, hwhole⟩
      · refine .inl ⟨i + 1, startsComment_succ.mpr hi, fun j hj => ?_, ?_⟩
        · cases j with
          | zero => exact hzero
          | succ j => exact mt startsComment_succ.mp (hfirst j (by omega))
        · rw [hcut, List.take_succ_cons]
      · refine .inr ⟨fun i => ?_, ?_⟩
        · cases i with
          | zero => exact hzero
          | succ i => exact mt startsComment_succ.mp (hnone i)
        · rw [hwhole]

/-- The loop reads in front of the line when a `#` stands there in the first column; any other line
is cut at its first comment. A `#` behind a backslash begins none, and the search goes on behind it.
-/
theorem cutComment_exact_iff (line : Str) :
    (∃ r, cutComment line = some r ∧ CutAtComment none line r) ↔ line.head? ≠ some Ch.hash := by
  rw [cutComment_eq]
  constructor
  · rintro ⟨r, hr, _⟩ hcolumn
    rw [if_pos hcolumn] at hr
    cases hr
  · intro hcolumn
    exact ⟨uncomment none line, if_neg hcolumn, uncomment_cut none line⟩

/-- A line that is a comment. -/
theorem first_column_undefined :
    cutComment (str "# port") = none
      ∧ ¬ ∃ r, cutComment (str "# port") = some r ∧ CutAtComment none (str "# port") r := by
  have hnone : cutComment (str "# port") = none := by
    rw [cutComment_eq]
    decide
  refine ⟨hnone, ?_⟩
  rintro ⟨r, hr, _⟩
  rw [hnone] at hr
  cases hr

end ConfReader

end Nrtb
