import Nrtb.Common

/-!
# What `gsub`, `split` and `trim` are for

`cpp/common/common_rl/common.cpp`, lines 71–134. `gsub` puts its replacement between the gaps that
the text searched for leaves; `split` is undone by joining its parts; `trim` strips both ends of a
string, except of one that has nothing but white space.

The lemmas of `Common` say what the helpers return. These are the statements that a caller would
make about them, in which no loop and no index occurs: one decomposition of a text that is right for
every replacement, a cut and a join that undo each other, and a part of the string with visible
characters at both ends.

* `gsub_gaps`: the result, for any replacement. The gaps are the only ones there are (`Gaps`).
* `split_join`: both directions; a single part has no separator to tell it by.
* `trim_strips_iff`: when both ends are stripped.
-/

namespace Nrtb

open Search

/-! ## `gsub` -/

/-- A text that is searched for something has one decomposition into gaps, from the left, and none
of them has what is searched for in it. The gaps depend on what is searched for alone: what is put
in is not looked at, so that replacing something by itself changes nothing. -/
theorem gsub_gaps {target findme : Str} (htarget : target ≠ []) (hfind : findme ≠ []) :
    ∃ gaps, (∀ gaps', Gaps findme target gaps' ↔ gaps' = gaps)
      ∧ (∀ gap ∈ gaps, ¬ findme <:+: gap)
      ∧ (∀ putme, gsub target findme putme = .ok (putme.intercalate gaps))
      ∧ gsub target findme findme = .ok target := by
  obtain ⟨gaps, hgaps⟩ := exists_gaps hfind target
  have hput : ∀ putme, gsub target findme putme = .ok (putme.intercalate gaps) := fun putme => by
    rw [gsub_eq putme htarget hfind, hgaps.replaceFrom hfind]
  refine ⟨gaps, fun gaps' => ⟨fun h => h.unique hgaps, ?_⟩, hgaps.not_occurs hfind, hput, ?_⟩
  · rintro rfl
    exact hgaps
  · rw [hput, hgaps.intercalate]

/-- Overlapping occurrences, and a replacement that has what is searched for in it. -/
theorem gsub_gaps_overlap :
    gsub (str "aaaxa") (str "aa") (str "(aa)") = .ok (str "(aa)axa")
      ∧ gsub (str "aaaxa") (str "aa") (str "aa") = .ok (str "aaaxa") := by
  have htarget : str "aaaxa" ≠ [] := by decide
  have hfind : str "aa" ≠ [] := by decide
  obtain ⟨gaps, hgaps, _, hput, hself⟩ := gsub_gaps htarget hfind
  have hcut : Gaps (str "aa") ([] ++ str "aa" ++ str "axa") [[], str "axa"] := by
    refine .next [] _ _ (fun j hj => ?_) (.last _ (by decide))
    exact absurd hj (Nat.not_lt_zero j)
  have hgap : [[], str "axa"] = gaps := (hgaps _).mp hcut
  rw [hput, hself, ← hgap]
  exact ⟨by decide, rfl⟩

/-! ## `split` -/

/-- A string that is not empty is cut into one part more than it has separators, none of which has a
separator in it, and is what the parts join to; and two parts or more that have no separator in them
are the parts of what they join to. -/
theorem split_join (c : Byte) :
    (∀ s : Str, s ≠ [] → (split s c).length = s.count c + 1 ∧ (∀ part ∈ split s c, c ∉ part)
        ∧ [c].intercalate (split s c) = s)
      ∧ ∀ parts : List Str, 2 ≤ parts.length → (∀ part ∈ parts, c ∉ part) →
        split ([c].intercalate parts) c = parts := by
  constructor
  · intro s hs
    rw [split_eq hs]
    exact ⟨length_splitOn c s, not_mem_of_mem_splitOn c s, List.intercalate_splitOn c⟩
  · intro parts hlen hparts
    have hne : parts ≠ [] := by
      rintro rfl
      exact absurd hlen (by decide)
    have hjoin : [c].intercalate parts ≠ [] := by
      match parts with
      | first :: second :: rest =>
        rw [List.intercalate_cons_cons]
        simp
    rw [split_eq hjoin, List.splitOn_intercalate c hparts hne]

/-- A separator at the start, and two of them in a row. -/
theorem split_join_commas :
    (∀ part ∈ split (str ",x") Ch.comma, Ch.comma ∉ part)
      ∧ [Ch.comma].intercalate (split (str ",x") Ch.comma) = str ",x"
      ∧ split ([Ch.comma].intercalate [str "a", [], str "b"]) Ch.comma
        = [str "a", [], str "b"] := by
  obtain ⟨hparts, hjoins⟩ := split_join Ch.comma
  obtain ⟨_, hfree, hjoin⟩ := hparts (str ",x") (by decide)
  refine ⟨hfree, hjoin, hjoins _ (by decide) fun part hpart => ?_⟩
  simp only [List.mem_cons, List.not_mem_nil, or_false] at hpart
  rcases hpart with rfl | rfl | rfl <;> decide

/-! ## `trim` -/

/-- A string without any visible character is returned as it is, also when it is not empty. Every
other string is stripped on both ends, and to strip it again does nothing. -/
theorem trim_strips_iff (s : Str) :
    (Stripped trimWs s (trim s) ∧ trim (trim s) = trim s) ↔
      s = [] ∨ ∃ c ∈ s, trimWs c = false := by
  by_cases hblank : ∀ c ∈ s, trimWs c = true
  · have hnone : ¬ ∃ c ∈ s, trimWs c = false := by
      rintro ⟨c, hc, hvisible⟩
      exact absurd (hblank c hc) (by rw [hvisible]; decide)
    rw [trim_of_blank hblank, trim_of_blank hblank, stripped_iff, strip_eq_nil_iff.mpr hblank,
      and_iff_left rfl, or_iff_left hnone]
  · have hvisible : ∃ c ∈ s, trimWs c = false := by simpa using hblank
    have hkeeps : ¬ ∀ c ∈ strip trimWs s, trimWs c = true := fun hall => by
      have hnil := strip_eq_nil_iff.mpr hall
      rw [strip_strip] at hnil
      exact hblank (strip_eq_nil_iff.mp hnil)
    rw [trim_of_not_blank hblank, trim_of_not_blank hkeeps, strip_strip]
    exact iff_of_true ⟨stripped_strip trimWs s, rfl⟩ (.inr hvisible)

/-- Three blanks come back. -/
theorem trim_keeps_blanks :
    trim (str "   ") = str "   " ∧ ¬ Stripped trimWs (str "   ") (trim (str "   ")) := by
  have hsame : trim (str "   ") = str "   " := by decide
  refine ⟨hsame, fun hstripped => ?_⟩
  have hstarts := hstripped.starts Ch.blank (by rw [hsame]; decide)
  exact absurd hstarts (by decide)

end Nrtb
