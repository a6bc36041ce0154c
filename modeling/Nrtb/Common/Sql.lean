import Nrtb.Common
import Nrtb.Lib.Escape

/-!
# `mconvert` — escaping for SQL

`cpp/common/common_rl/common.cpp`, lines 136–158: four passes of `gsub` over the whole string, one
behind the other. The backslash comes first, so no pass finds what an earlier one has put in.

A string that is put between quotes in a statement must not end the quotes, and must come back as it
was. Both are properties of a substitution character by character, which `Lib.Escape` has for any
escape character and any letters. So what is shown of the code is that its passes are such a
substitution: each of them distributes over concatenation, and on a single character the four come
to what is written for it.

* `pass_append`, `passes_singleton`: the two halves of that.
* `mconvert_eq`: the four passes are one substitution, character by character.
* `mconvert_exact`: what follows for the result.
-/

namespace Nrtb

namespace Sql

open Search Escape

/-- `mconvert(s)` -/
def mconvert (s : Str) : Except CommonException Str :=
  if s.length > 0 then do
    let returnme ← gsub s [Ch.backslash] [Ch.backslash, Ch.backslash]
    let returnme ← gsub returnme [Ch.singleQuote] [Ch.backslash, Ch.singleQuote]
    let returnme ← gsub returnme [Ch.doubleQuote] [Ch.backslash, Ch.doubleQuote]
    -- `"\\0"` is a backslash and the digit
    gsub returnme [Ch.nul] [Ch.backslash, Ch.zero]
  else pure []

/-- What stands behind the backslash for a character that is escaped. -/
def letter (c : Byte) : Option Byte :=
  if c = Ch.backslash then some Ch.backslash
  else if c = Ch.singleQuote then some Ch.singleQuote
  else if c = Ch.doubleQuote then some Ch.doubleQuote
  else if c = Ch.nul then some Ch.zero
  else none

/-- What a character behind a backslash stands for. -/
def meant (c : Byte) : Byte := if c = Ch.zero then Ch.nul else c

/-- One pass over a string. -/
def pass (c : Byte) (put s : Str) : Str := s.flatMap fun d => if d = c then put else [d]

theorem gsub_singleton {s : Str} (hs : s ≠ []) (c : Byte) (put : Str) :
    gsub s [c] put = .ok (pass c put s) := by
  rw [gsub_eq put hs (List.cons_ne_nil c []), replaceFrom_singleton]
  rfl

theorem pass_ne_nil {s : Str} (hs : s ≠ []) (c b : Byte) (put : Str) :
    pass c (b :: put) s ≠ [] := by
  cases s with
  | nil => exact absurd rfl hs
  | cons d s =>
    unfold pass
    rw [List.flatMap_cons]
    apply List.append_ne_nil_of_left_ne_nil
    split
    · exact List.cons_ne_nil b put
    · exact List.cons_ne_nil d []

theorem pass_append (c : Byte) (put s t : Str) :
    pass c put (s ++ t) = pass c put s ++ pass c put t :=
  List.flatMap_append

/-- The passes, one behind the other. -/
def passes (s : Str) : Str :=
  pass Ch.nul [Ch.backslash, Ch.zero] (pass Ch.doubleQuote [Ch.backslash, Ch.doubleQuote]
    (pass Ch.singleQuote [Ch.backslash, Ch.singleQuote]
      (pass Ch.backslash [Ch.backslash, Ch.backslash] s)))

/-- A single character goes through all passes as it is substituted. -/
theorem passes_singleton (c : Byte) : passes [c] = write Ch.backslash letter c := by
  unfold write letter
  split_ifs with h1 h2 h3 h4
  · rw [h1]
    decide
  · rw [h2]
    decide
  · rw [h3]
    decide
  · rw [h4]
    decide
  · simp [passes, pass, h1, h2, h3, h4]

theorem passes_eq (s : Str) : passes s = escape Ch.backslash letter s := by
  induction s with
  | nil => rfl
  | cons c s ih =>
    have hcut : passes ([c] ++ s) = passes [c] ++ passes s := by
      unfold passes
      rw [pass_append, pass_append, pass_append, pass_append]
    rw [List.singleton_append] at hcut
    rw [hcut, passes_singleton, ih]
    rfl

theorem mconvert_eq (s : Str) : mconvert s = .ok (escape Ch.backslash letter s) := by
  cases s with
  | nil => rfl
  | cons c s =>
    have h1 := pass_ne_nil (List.cons_ne_nil c s) Ch.backslash Ch.backslash [Ch.backslash]
    have h2 := pass_ne_nil h1 Ch.singleQuote Ch.backslash [Ch.singleQuote]
    have h3 := pass_ne_nil h2 Ch.doubleQuote Ch.backslash [Ch.doubleQuote]
    have hlen : (c :: s).length > 0 := Nat.succ_pos _
    rw [← passes_eq, mconvert, if_pos hlen]
    simp only [bind, Except.bind, gsub_singleton (List.cons_ne_nil c s), gsub_singleton h1,
      gsub_singleton h2, gsub_singleton h3]
    rfl

theorem letter_backslash : (letter Ch.backslash).isSome := by decide

theorem meant_letter (c d : Byte) (h : letter c = some d) : meant d = c := by
  unfold letter at h
  split_ifs at h with h1 h2 h3 h4
  · rw [← Option.some.inj h, h1]
    decide
  · rw [← Option.some.inj h, h2]
    decide
  · rw [← Option.some.inj h, h3]
    decide
  · rw [← Option.some.inj h, h4]
    decide

/-- `mconvert` substitutes character by character, so it distributes over concatenation. In its
result a quote or NUL stands behind an odd number of backslashes, and reading it from left to right
gives back the string. -/
theorem mconvert_exact (s : Str) :
    ∃ r, mconvert s = .ok r ∧ r = s.flatMap (write Ch.backslash letter)
      ∧ (∀ t, mconvert (s ++ t) = (mconvert t).map fun u => r ++ u)
      ∧ (∀ a c b, r = a ++ c :: b → c = Ch.singleQuote ∨ c = Ch.doubleQuote ∨ c = Ch.nul →
        Odd (trailing Ch.backslash a))
      ∧ unescape Ch.backslash meant r = s := by
  refine ⟨_, mconvert_eq s, rfl, fun t => ?_, fun a c b hr hc => ?_,
    unescape_escape letter_backslash meant_letter s⟩
  · rw [mconvert_eq, mconvert_eq, escape_append]
    rfl
  · have hspecial : (letter c).isSome ∧ c ≠ Ch.backslash := by
      rcases hc with rfl | rfl | rfl
      · decide
      · decide
      · decide
    exact odd_trailing_of_escape letter_backslash hspecial.1 hspecial.2 hr

end Sql

end Nrtb
