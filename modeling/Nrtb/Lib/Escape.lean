import Mathlib.Algebra.Ring.Parity
import Mathlib.Data.List.Basic
import Mathlib.Data.List.Induction
import Mathlib.Tactic.SplitIfs

/-!
# Escaping characters of a text

Some characters are written as an escape character and a letter, the others as themselves; the
escape character is one of the former. Reading goes from left to right. Which characters are escaped
and by which letters is a parameter, so that the lemmas hold for the quoting of any language of that
kind.

A text is safe to stand between quotes when no quote in it is read as one. Whether it is depends on
how many escape characters stand in front of it, which a reader follows from left to right (`opens`)
and a definition of safety counts from the right (`trailing`).

* `escape_append`: escaping distributes over concatenation.
* `unescape_escape`: reading back what was escaped.
* `opens_iff_odd`: an escape is open exactly behind an odd number of escape characters.
* `odd_trailing_of_escape`: behind how many escape characters a character stands that is to be
  escaped.
-/

namespace Nrtb.Escape

variable {α : Type*}

/-- A character as it is written. -/
def write (esc : α) (letter : α → Option α) (c : α) : List α :=
  match letter c with
  | some d => [esc, d]
  | none => [c]

def escape (esc : α) (letter : α → Option α) (s : List α) : List α := s.flatMap (write esc letter)

theorem escape_append (esc : α) (letter : α → Option α) (s t : List α) :
    escape esc letter (s ++ t) = escape esc letter s ++ escape esc letter t :=
  List.flatMap_append

variable [DecidableEq α]

/-- Read from left to right; `meant` is what a letter behind the escape character stands for. -/
def unescape (esc : α) (meant : α → α) : List α → List α
  | [] => []
  | [c] => [c]
  | c :: d :: s =>
    if c = esc then meant d :: unescape esc meant s else c :: unescape esc meant (d :: s)

theorem unescape_cons_of_ne {esc : α} {meant : α → α} {c : α} (hc : c ≠ esc) (s : List α) :
    unescape esc meant (c :: s) = c :: unescape esc meant s := by
  cases s with
  | nil => rfl
  | cons d s => rw [unescape, if_neg hc]

theorem unescape_escape {esc : α} {letter : α → Option α} {meant : α → α}
    (hesc : (letter esc).isSome) (hmeant : ∀ c d, letter c = some d → meant d = c) (s : List α) :
    unescape esc meant (escape esc letter s) = s := by
  induction s with
  | nil => rfl
  | cons c s ih =>
    show unescape esc meant (write esc letter c ++ escape esc letter s) = c :: s
    unfold write
    cases hc : letter c with
    | some d =>
      show unescape esc meant (esc :: d :: escape esc letter s) = c :: s
      rw [unescape, if_pos rfl, ih, hmeant c d hc]
    | none =>
      have hne : c ≠ esc := fun heq => by
        rw [← heq, hc] at hesc
        cases hesc
      show unescape esc meant (c :: escape esc letter s) = c :: s
      rw [unescape_cons_of_ne hne, ih]

/-! ## Escape characters in front of a character -/

/-- How many escape characters a text ends with. -/
def trailing (esc : α) (s : List α) : Nat := (s.reverse.takeWhile fun c => c = esc).length

theorem trailing_concat (esc : α) (s : List α) (c : α) :
    trailing esc (s ++ [c]) = if c = esc then trailing esc s + 1 else 0 := by
  unfold trailing
  rw [List.reverse_append, List.reverse_singleton, List.singleton_append]
  by_cases hc : c = esc
  · rw [List.takeWhile_cons_of_pos (by simpa using hc), if_pos hc, List.length_cons]
  · rw [List.takeWhile_cons_of_neg (by simpa using hc), if_neg hc, List.length_nil]

/-- Whether the next character is a letter behind an escape character, after a text that is read
with the answer `opened` in front of it. -/
def opens (esc : α) : Bool → List α → Bool
  | opened, [] => opened
  | opened, c :: s => opens esc (decide (c = esc) && !opened) s

theorem opens_append (esc : α) (opened : Bool) (s t : List α) :
    opens esc opened (s ++ t) = opens esc (opens esc opened s) t := by
  induction s generalizing opened with
  | nil => rfl
  | cons c s ih => exact ih _

theorem opens_iff_odd (esc : α) (s : List α) : opens esc false s = true ↔ Odd (trailing esc s) := by
  induction s using List.reverseRecOn with
  | nil => exact iff_of_false Bool.false_ne_true (by simp [trailing])
  | append_singleton s c ih =>
    rw [opens_append, trailing_concat]
    show (decide (c = esc) && !opens esc false s) = true ↔ _
    split_ifs with hc
    · rw [Nat.odd_add_one, ← ih]
      simp [hc]
    · simp [hc]

/-- What stands for whole characters leaves no escape open. -/
theorem opens_write {esc : α} {letter : α → Option α} (hesc : (letter esc).isSome) (c : α) :
    opens esc false (write esc letter c) = false := by
  unfold write
  cases hc : letter c with
  | some d => simp [opens]
  | none =>
    have hne : c ≠ esc := fun heq => by
      rw [← heq, hc] at hesc
      cases hesc
    simp [opens, hne]

/-- In what stands for one character. -/
theorem opens_of_write {esc : α} {letter : α → Option α} {x c : α} {a b : List α}
    (hc : (letter c).isSome) (hne : c ≠ esc) (h : write esc letter x = a ++ c :: b) :
    opens esc false a = true := by
  unfold write at h
  cases hx : letter x with
  | some d =>
    rw [hx] at h
    rcases List.cons_eq_append_iff.mp h with ⟨_, hhead⟩ | ⟨a', rfl, htail⟩
    · exact absurd (List.cons_eq_cons.mp hhead).1 hne
    · rcases List.cons_eq_append_iff.mp htail with ⟨rfl, _⟩ | ⟨a'', rfl, hnil⟩
      · simp [opens]
      · cases a'' <;> cases hnil
  | none =>
    rw [hx] at h
    rcases List.cons_eq_append_iff.mp h with ⟨rfl, hhead⟩ | ⟨a', _, hnil⟩
    · obtain ⟨rfl, _⟩ := List.cons_eq_cons.mp hhead
      rw [hx] at hc
      cases hc
    · cases a' <;> cases hnil

/-- A character that is to be escaped stands behind an escape that is open. -/
theorem opens_of_escape {esc : α} {letter : α → Option α} (hesc : (letter esc).isSome)
    {s a b : List α} {c : α} (hc : (letter c).isSome) (hne : c ≠ esc)
    (h : escape esc letter s = a ++ c :: b) :
    opens esc false a = true := by
  induction s generalizing a with
  | nil => cases a <;> cases h
  | cons x s ih =>
    have hcut : write esc letter x ++ escape esc letter s = a ++ c :: b := h
    rcases List.append_eq_append_iff.mp hcut with ⟨a', ha, hrest⟩ | ⟨c', hx, hrest⟩
    · -- behind what stands for the first character
      rw [ha, opens_append, opens_write hesc]
      exact ih hrest
    · cases c' with
      | nil =>
        -- the text goes on with no open escape
        exact absurd (ih (a := []) hrest.symm) Bool.false_ne_true
      | cons d c' =>
        obtain ⟨rfl, _⟩ := List.cons_eq_cons.mp hrest
        exact opens_of_write hc hne hx

/-- A character that is to be escaped, other than the escape character, stands behind an odd number
of these: the last one is its own. -/
theorem odd_trailing_of_escape {esc : α} {letter : α → Option α} (hesc : (letter esc).isSome)
    {s a b : List α} {c : α} (hc : (letter c).isSome) (hne : c ≠ esc)
    (h : escape esc letter s = a ++ c :: b) : Odd (trailing esc a) :=
  (opens_iff_odd esc a).mp (opens_of_escape hesc hc hne h)

end Nrtb.Escape
