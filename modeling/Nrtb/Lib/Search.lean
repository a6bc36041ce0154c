import Mathlib.Data.List.Basic
import Mathlib.Data.List.DropRight
import Mathlib.Data.List.Infix
import Mathlib.Data.Nat.Find

/-!
# Searching and replacing inside a list

`std::string` style search over an arbitrary alphabet, with the facts the string code of a
program needs and no program in sight.

* `find s pat pos`: the least position `≥ pos` at which `pat` occurs in `s`
  (`find_eq_some_iff`, `find_eq_none_iff`).
* `replaceFrom`: one left-to-right pass that copies `s` and puts `put` for every
  non-overlapping occurrence of `pat`; it jumps from occurrence to occurrence
  (`replaceFrom_of_first`, `replaceFrom_of_none`).
* `Gaps`: the decomposition by the leftmost non-overlapping occurrences of `pat`; it is unique
  (`exists_gaps`, `Gaps.unique`), and replacing puts `put` between the gaps (`Gaps.replaceFrom`).
* `length_splitOn`, `not_mem_of_mem_splitOn`: the parts between an element.
* `strip p`: the list without the leading and trailing elements that satisfy `p`
  (`stripped_iff`).
-/

namespace Nrtb.Search

variable {α : Type*} [DecidableEq α]

/-! ## First occurrence -/

/-- Scan a suffix that starts at position `k` of the whole list. -/
def findFrom (pat : List α) : List α → Nat → Option Nat
  | [], k => if pat <+: [] then some k else none
  | c :: s, k => if pat <+: c :: s then some k else findFrom pat s (k + 1)

/-- The least position `≥ pos` at which `pat` occurs in `s`. -/
def find (s pat : List α) (pos : Nat) : Option Nat :=
  if pos ≤ s.length then findFrom pat (s.drop pos) pos else none

theorem findFrom_eq_some_iff (pat : List α) (s : List α) (k i : Nat) :
    findFrom pat s k = some i ↔
      ∃ d, i = k + d ∧ d ≤ s.length ∧ pat <+: s.drop d ∧ ∀ j, j < d → ¬ pat <+: s.drop j := by
  induction s generalizing k with
  | nil =>
    unfold findFrom
    constructor
    · intro h
      split at h
      · next hp => exact ⟨0, by simpa using h.symm, le_rfl, hp, by omega⟩
      · cases h
    · rintro ⟨d, rfl, hd, hp, _⟩
      obtain rfl : d = 0 := by simpa using hd
      simp [show pat <+: [] from hp]
  | cons c s ih =>
    unfold findFrom
    split
    · next hp =>
      constructor
      · intro h
        exact ⟨0, by simpa using h.symm, by simp, hp, by omega⟩
      · rintro ⟨d, rfl, _, _, hfirst⟩
        rcases Nat.eq_zero_or_pos d with rfl | hpos
        · rfl
        · exact absurd hp (hfirst 0 hpos)
    · next hp =>
      rw [ih]
      constructor
      · rintro ⟨d, rfl, hd, hocc, hfirst⟩
        refine ⟨d + 1, by omega, by simpa using hd, by simpa using hocc, ?_⟩
        intro j hj
        cases j with
        | zero => exact hp
        | succ j => exact hfirst j (by omega)
      · rintro ⟨d, rfl, hd, hocc, hfirst⟩
        cases d with
        | zero => exact absurd hocc hp
        | succ d =>
          refine ⟨d, by omega, by simpa using hd, by simpa using hocc, ?_⟩
          intro j hj
          simpa using hfirst (j + 1) (by omega)

/-- `find` returns the first occurrence at or after `pos`. -/
theorem find_eq_some_iff (s pat : List α) (pos i : Nat) :
    find s pat pos = some i ↔
      pos ≤ i ∧ i ≤ s.length ∧ pat <+: s.drop i ∧ ∀ j, pos ≤ j → j < i → ¬ pat <+: s.drop j := by
  unfold find
  split
  · next hpos =>
    rw [findFrom_eq_some_iff]
    constructor
    · rintro ⟨d, rfl, hd, hocc, hfirst⟩
      rw [List.length_drop] at hd
      refine ⟨by omega, by omega, by rwa [List.drop_drop] at hocc, fun j hj hlt => ?_⟩
      have := hfirst (j - pos) (by omega)
      rwa [List.drop_drop, show pos + (j - pos) = j from by omega] at this
    · rintro ⟨hle, hi, hocc, hfirst⟩
      refine ⟨i - pos, by omega, by rw [List.length_drop]; omega, ?_, fun j hj => ?_⟩
      · rwa [List.drop_drop, show pos + (i - pos) = i from by omega]
      · rw [List.drop_drop]
        exact hfirst (pos + j) (by omega) (by omega)
  · next hpos =>
    simp only [reduceCtorEq, false_iff]
    rintro ⟨hle, hi, _⟩
    omega

/-- `find` fails when there is no occurrence at or after `pos`. -/
theorem find_eq_none_iff (s pat : List α) (pos : Nat) :
    find s pat pos = none ↔ ∀ j, pos ≤ j → j ≤ s.length → ¬ pat <+: s.drop j := by
  constructor
  · intro hnone j hj hlen hocc
    -- the least occurrence would have been found
    have hex : ∃ j, pos ≤ j ∧ j ≤ s.length ∧ pat <+: s.drop j := ⟨j, hj, hlen, hocc⟩
    have hfind : find s pat pos = some (Nat.find hex) := by
      rw [find_eq_some_iff]
      obtain ⟨h1, h2, h3⟩ := Nat.find_spec hex
      exact ⟨h1, h2, h3, fun i hi hlt hp => Nat.find_min hex hlt ⟨hi, by omega, hp⟩⟩
    rw [hnone] at hfind
    cases hfind
  · intro h
    by_contra hne
    obtain ⟨i, hi⟩ := Option.ne_none_iff_exists'.mp hne
    rw [find_eq_some_iff] at hi
    exact h i hi.1 hi.2.1 hi.2.2.1

omit [DecidableEq α] in
/-- An occurrence fits into the list. -/
theorem occ_length_le {s pat : List α} {i : Nat} (hi : i ≤ s.length) (h : pat <+: s.drop i) :
    i + pat.length ≤ s.length := by
  have := h.length_le
  rw [List.length_drop] at this
  omega

/-! ## Searching for one element -/

omit [DecidableEq α] in
theorem singleton_prefix_drop_iff (s : List α) (c : α) (i : Nat) :
    [c] <+: s.drop i ↔ s[i]? = some c := by
  rw [← List.head?_drop]
  cases s.drop i with
  | nil => simp
  | cons d t =>
    rw [List.cons_prefix_cons, List.head?_cons, Option.some.injEq]
    exact ⟨fun h => h.1.symm, fun h => ⟨h.symm, List.nil_prefix⟩⟩

/-- The found element, and no such element between the start of the search and it. -/
theorem find_singleton_some {s : List α} {c : α} {pos i : Nat} (h : find s [c] pos = some i) :
    pos ≤ i ∧ s[i]? = some c ∧ c ∉ (s.drop pos).take (i - pos) := by
  obtain ⟨hle, _, hocc, hfirst⟩ := (find_eq_some_iff _ _ _ _).mp h
  refine ⟨hle, (singleton_prefix_drop_iff s c i).mp hocc, fun hmem => ?_⟩
  obtain ⟨j, hj⟩ := List.mem_iff_getElem?.mp hmem
  rw [List.getElem?_take] at hj
  split at hj
  · next hlt =>
    rw [List.getElem?_drop, ← singleton_prefix_drop_iff] at hj
    exact hfirst (pos + j) (by omega) (by omega) hj
  · cases hj

theorem find_singleton_none {s : List α} {c : α} {pos : Nat} (h : find s [c] pos = none) :
    c ∉ s.drop pos := by
  rw [find_eq_none_iff] at h
  intro hmem
  obtain ⟨j, hj⟩ := List.mem_iff_getElem?.mp hmem
  rw [List.getElem?_drop] at hj
  have hlen := (List.getElem?_eq_some_iff.mp hj).1
  exact h (pos + j) (by omega) (by omega) ((singleton_prefix_drop_iff s c _).mpr hj)

/-! ## Leftmost non-overlapping replacement -/

/-- Copy the list, `put` for every occurrence of `pat`; `skip` elements of the occurrence in
hand are still to be passed over. -/
def replaceFrom (pat put : List α) : Nat → List α → List α
  | _, [] => []
  | skip + 1, _ :: s => replaceFrom pat put skip s
  | 0, c :: s =>
    if pat <+: c :: s then put ++ replaceFrom pat put (pat.length - 1) s
    else c :: replaceFrom pat put 0 s

theorem replaceFrom_skip (pat put : List α) (k : Nat) (s : List α) :
    replaceFrom pat put k s = replaceFrom pat put 0 (s.drop k) := by
  induction s generalizing k with
  | nil => cases k <;> simp [replaceFrom]
  | cons c s ih =>
    cases k with
    | zero => rfl
    | succ k => rw [replaceFrom, ih, List.drop_succ_cons]

/-- Nothing to replace: the list is copied. -/
theorem replaceFrom_of_none (pat put : List α) (s : List α)
    (h : ∀ j, j ≤ s.length → ¬ pat <+: s.drop j) : replaceFrom pat put 0 s = s := by
  induction s with
  | nil => rfl
  | cons c s ih =>
    have hhead : ¬ pat <+: c :: s := h 0 (by simp)
    rw [replaceFrom, if_neg hhead, ih]
    intro j hj
    simpa using h (j + 1) (by simpa using hj)

/-- The pass copies up to the first occurrence, replaces it and goes on behind it. -/
theorem replaceFrom_of_first {pat : List α} (hne : pat ≠ []) (put : List α) (s : List α) {d : Nat}
    (hocc : pat <+: s.drop d) (hfirst : ∀ j, j < d → ¬ pat <+: s.drop j) :
    replaceFrom pat put 0 s
      = s.take d ++ put ++ replaceFrom pat put 0 (s.drop (d + pat.length)) := by
  induction s generalizing d with
  | nil =>
    have : pat = [] := by simpa using hocc
    exact absurd this hne
  | cons c s ih =>
    cases d with
    | zero =>
      have hlen : 0 < pat.length := List.length_pos_iff.mpr hne
      rw [replaceFrom, if_pos (by simpa using hocc), replaceFrom_skip]
      rw [show 0 + pat.length = (pat.length - 1) + 1 from by omega, List.drop_succ_cons]
      simp
    | succ d =>
      have hhead : ¬ pat <+: c :: s := by simpa using hfirst 0 (by omega)
      have hrest := ih (d := d) (by simpa using hocc)
        (fun j hj => by simpa using hfirst (j + 1) (by omega))
      rw [replaceFrom, if_neg hhead, hrest]
      rw [show d + 1 + pat.length = (d + pat.length) + 1 from by omega, List.drop_succ_cons]
      simp

/-- Replacing one element is done element by element. -/
theorem replaceFrom_singleton (c : α) (put s : List α) :
    replaceFrom [c] put 0 s = s.flatMap fun d => if d = c then put else [d] := by
  induction s with
  | nil => rfl
  | cons d s ih =>
    have hocc : [c] <+: d :: s ↔ d = c := by
      rw [List.cons_prefix_cons]
      exact ⟨fun h => h.1.symm, fun h => ⟨h.symm, List.nil_prefix⟩⟩
    rw [replaceFrom, List.flatMap_cons]
    simp only [hocc, List.length_singleton, Nat.sub_self, ih]
    by_cases hd : d = c
    · rw [if_pos hd, if_pos hd]
    · rw [if_neg hd, if_neg hd, List.singleton_append]

/-! ## The leftmost decomposition -/

/-- The gaps between the occurrences of `pat`, each looked for behind the one before it. -/
inductive Gaps (pat : List α) : List α → List (List α) → Prop
  | last (s : List α) (hnone : ∀ j ≤ s.length, ¬ pat <+: s.drop j) : Gaps pat s [s]
  | next (gap s : List α) (gaps : List (List α))
      (hfirst : ∀ j < gap.length, ¬ pat <+: (gap ++ pat ++ s).drop j) (hrest : Gaps pat s gaps) :
      Gaps pat (gap ++ pat ++ s) (gap :: gaps)

section Gaps

variable {pat s : List α} {gaps gaps' : List (List α)}

omit [DecidableEq α] in
theorem Gaps.ne_nil (h : Gaps pat s gaps) : gaps ≠ [] := by
  cases h <;> exact List.cons_ne_nil _ _

omit [DecidableEq α] in
/-- With `pat` between them they are the list. -/
theorem Gaps.intercalate (h : Gaps pat s gaps) : pat.intercalate gaps = s := by
  induction h with
  | last s _ => exact List.intercalate_singleton
  | next gap s gaps _ hrest ih =>
    rw [List.intercalate_cons_of_ne_nil hrest.ne_nil, ih]

omit [DecidableEq α] in
/-- An occurrence in a part is one in the whole. -/
theorem occurs_drop {gap : List α} (hne : pat ≠ []) (h : pat <:+: gap) :
    ∃ j < gap.length, ∀ rest, pat <+: (gap ++ rest).drop j := by
  obtain ⟨front, back, rfl⟩ := h
  have hpos := List.length_pos_of_ne_nil hne
  refine ⟨front.length, by simp only [List.length_append]; omega, fun rest => ?_⟩
  rw [List.append_assoc, List.append_assoc, List.drop_left]
  exact List.prefix_append _ _

omit [DecidableEq α] in
theorem Gaps.not_occurs (hne : pat ≠ []) (h : Gaps pat s gaps) : ∀ gap ∈ gaps, ¬ pat <:+: gap := by
  induction h with
  | last s hnone =>
    intro gap hmem hin
    rw [List.mem_singleton.mp hmem] at hin
    obtain ⟨j, hj, hocc⟩ := occurs_drop hne hin
    exact hnone j hj.le (by simpa using hocc [])
  | next gap s gaps hfirst _ ih =>
    refine List.forall_mem_cons.mpr ⟨fun hin => ?_, ih⟩
    obtain ⟨j, hj, hocc⟩ := occurs_drop hne hin
    have := hocc (pat ++ s)
    rw [← List.append_assoc] at this
    exact hfirst j hj this

omit [DecidableEq α] in
theorem prefix_drop_gap (gap s : List α) : pat <+: (gap ++ pat ++ s).drop gap.length := by
  rw [List.append_assoc, List.drop_left]
  exact List.prefix_append _ _

omit [DecidableEq α] in
/-- There is one such decomposition only. -/
theorem Gaps.unique (h : Gaps pat s gaps) (h' : Gaps pat s gaps') : gaps = gaps' := by
  induction h generalizing gaps' with
  | last s hnone =>
    cases h' with
    | last => rfl
    | next gap t gaps =>
      exact absurd (prefix_drop_gap gap t) (hnone gap.length (by simp))
  | next gap t gaps hfirst hrest ih =>
    generalize hs : gap ++ pat ++ t = s at h'
    cases h' with
    | last _ hnone =>
      subst hs
      exact absurd (prefix_drop_gap gap t) (hnone gap.length (by simp))
    | next gap' t' gaps' hfirst' hrest' =>
      -- neither first occurrence stands in front of the other
      have hlength : gap.length = gap'.length := by
        rcases Nat.lt_trichotomy gap.length gap'.length with hlt | heq | hgt
        · exact absurd (hs ▸ prefix_drop_gap gap t) (hfirst' gap.length hlt)
        · exact heq
        · exact absurd (hs ▸ prefix_drop_gap gap' t') (hfirst gap'.length hgt)
      rw [List.append_assoc, List.append_assoc] at hs
      obtain ⟨rfl, htail⟩ := List.append_inj hs hlength
      obtain rfl := List.append_cancel_left htail
      rw [ih hrest']

theorem exists_gaps (hne : pat ≠ []) (s : List α) : ∃ gaps, Gaps pat s gaps := by
  induction hn : s.length using Nat.strong_induction_on generalizing s with
  | _ n ih =>
    cases hfind : find s pat 0 with
    | none =>
      exact ⟨[s], .last s fun j hj => (find_eq_none_iff s pat 0).mp hfind j (Nat.zero_le j) hj⟩
    | some i =>
      obtain ⟨_, hi, ⟨t, ht⟩, hfirst⟩ := (find_eq_some_iff s pat 0 i).mp hfind
      have hpos := List.length_pos_of_ne_nil hne
      have hs : s = s.take i ++ pat ++ t := by
        rw [List.append_assoc, ht, List.take_append_drop]
      have hgap : (s.take i).length = i := List.length_take_of_le hi
      have hlength := congrArg List.length hs
      rw [List.length_append, List.length_append, hgap] at hlength
      obtain ⟨gaps, hgaps⟩ := ih t.length (by omega) t rfl
      have hnext : Gaps pat (s.take i ++ pat ++ t) (s.take i :: gaps) := by
        refine .next _ t gaps (fun j hj => ?_) hgaps
        rw [← hs]
        exact hfirst j (Nat.zero_le j) (by omega)
      rw [← hs] at hnext
      exact ⟨s.take i :: gaps, hnext⟩

/-- The replacement stands between the gaps. -/
theorem Gaps.replaceFrom (hne : pat ≠ []) (h : Gaps pat s gaps) (put : List α) :
    replaceFrom pat put 0 s = put.intercalate gaps := by
  induction h with
  | last s hnone => rw [replaceFrom_of_none pat put s hnone, List.intercalate_singleton]
  | next gap s gaps hfirst hrest ih =>
    rw [replaceFrom_of_first hne put _ (prefix_drop_gap gap s) hfirst,
      List.intercalate_cons_of_ne_nil hrest.ne_nil, ← ih, List.append_assoc gap, List.take_left,
      ← List.append_assoc gap, ← List.length_append, List.drop_left]

end Gaps

/-! ## Parts between an element -/

/-- There is one part more than there are such elements. -/
theorem length_splitOn (c : α) (s : List α) : (s.splitOn c).length = s.count c + 1 := by
  induction s with
  | nil => rfl
  | cons d s ih =>
    rw [List.splitOn_cons_eq_if_modifyHead, List.count_cons]
    split
    · rw [List.length_cons, ih]
    · rw [List.length_modifyHead, ih, Nat.add_zero]

theorem not_mem_of_mem_splitOn (c : α) (s : List α) : ∀ part ∈ s.splitOn c, c ∉ part := by
  induction s with
  | nil => simp
  | cons d s ih =>
    rw [List.splitOn_cons_eq_if_modifyHead]
    split
    · exact List.forall_mem_cons.mpr ⟨List.not_mem_nil, ih⟩
    · next hd =>
      cases hparts : s.splitOn c with
      | nil => simp
      | cons part parts =>
        rw [hparts] at ih
        obtain ⟨hpart, hrest⟩ := List.forall_mem_cons.mp ih
        refine List.forall_mem_cons.mpr ⟨fun hmem => ?_, hrest⟩
        rcases List.mem_cons.mp hmem with rfl | hmem
        · exact hd (beq_self_eq_true _)
        · exact hpart hmem

/-! ## Stripping both ends -/

/-- The list without the elements satisfying `p` at either end. -/
def strip (p : α → Bool) (s : List α) : List α := (s.dropWhile p).rdropWhile p

omit [DecidableEq α] in
/-- Stripping looks at the elements of the list only. -/
theorem strip_congr {p q : α → Bool} {s : List α} (h : ∀ c ∈ s, p c = q c) :
    strip p s = strip q s := by
  have hdrop : ∀ t : List α, (∀ c ∈ t, p c = q c) → t.dropWhile p = t.dropWhile q := by
    intro t ht
    induction t with
    | nil => rfl
    | cons c t ih =>
      rw [List.dropWhile_cons, List.dropWhile_cons, ht c (by simp),
        ih fun d hd => ht d (List.mem_cons_of_mem c hd)]
  have hsub : ∀ c ∈ (s.dropWhile q).reverse, p c = q c := fun c hc =>
    h c ((List.dropWhile_suffix q).subset (List.mem_reverse.mp hc))
  rw [strip, strip, List.rdropWhile, List.rdropWhile, hdrop s h, hdrop _ hsub]

omit [DecidableEq α] in
/-- Nothing is stripped from a list without such elements. -/
theorem strip_of_none {p : α → Bool} {s : List α} (h : ∀ c ∈ s, p c = false) : strip p s = s := by
  have hdrop : s.dropWhile p = s := by
    cases s with
    | nil => rfl
    | cons c s => rw [List.dropWhile_cons, h c (by simp), if_neg Bool.false_ne_true]
  rw [strip, hdrop, List.rdropWhile_eq_self_iff]
  exact fun hne => by simp [h _ (List.getLast_mem hne)]

omit [DecidableEq α] in
/-- Text behind a stripped text, starting after elements of `p`, is appended to it; what stood
between them comes back. -/
theorem strip_append_of {p : α → Bool} {s t : List α} {c : α} (hs : ¬ ∀ d ∈ s, p d = true)
    (ht : ∀ d ∈ t, p d = true) (hc : p c = false) (m : List α) :
    ∃ t' r, (∀ d ∈ t', p d = true) ∧ strip p (s ++ t ++ c :: m) = strip p s ++ (t' ++ c :: r) := by
  have hdrop : (s.dropWhile p).isEmpty = false := by
    rw [List.isEmpty_eq_false_iff]
    intro hnil
    exact hs (List.dropWhile_eq_nil_iff.mp hnil)
  have hleft : (s ++ t ++ c :: m).dropWhile p = s.dropWhile p ++ (t ++ c :: m) := by
    rw [List.append_assoc, List.dropWhile_append, hdrop, if_neg Bool.false_ne_true]
  have hright : ∀ w : List α, ∃ r, (w ++ c :: m).rdropWhile p = w ++ c :: r := by
    intro w
    have hrev : (w ++ c :: m).reverse = (m.reverse ++ [c]) ++ w.reverse := by simp
    have hcut : ∃ r, (m.reverse ++ [c]).dropWhile p = r ++ [c] := by
      rw [List.dropWhile_append]
      split
      · exact ⟨[], by simp [hc]⟩
      · exact ⟨_, rfl⟩
    obtain ⟨r, hr⟩ := hcut
    refine ⟨r.reverse, ?_⟩
    rw [List.rdropWhile, hrev, List.dropWhile_append, hr, if_neg (by simp)]
    simp
  obtain ⟨r, hr⟩ := hright (s.dropWhile p ++ t)
  refine ⟨(s.dropWhile p).rtakeWhile p ++ t, r, fun d hd => ?_, ?_⟩
  · rcases List.mem_append.mp hd with h | h
    · exact List.mem_rtakeWhile_imp h
    · exact ht d h
  · conv_rhs =>
      rw [strip, ← List.append_assoc, ← List.append_assoc, List.rdropWhile_append_rtakeWhile]
    rw [strip, hleft, ← List.append_assoc, hr]

omit [DecidableEq α] in
/-- Dropping up to the first element outside `p` is `dropWhile`. -/
theorem drop_findIdx?_not {p : α → Bool} {s : List α} {i : Nat}
    (h : s.findIdx? (fun c => !p c) = some i) : s.drop i = s.dropWhile p := by
  induction s generalizing i with
  | nil => simp at h
  | cons c s ih =>
    rw [List.findIdx?_cons] at h
    cases hc : p c with
    | false =>
      simp only [hc, Bool.not_false, if_true, Option.some.injEq] at h
      subst h
      simp [hc]
    | true =>
      simp only [hc, Bool.not_true, Bool.false_eq_true, if_false, Option.map_eq_some_iff] at h
      obtain ⟨j, hj, rfl⟩ := h
      rw [List.drop_succ_cons, ih hj, List.dropWhile_cons_of_pos hc]

omit [DecidableEq α] in
/-- Keeping up to the last element outside `p` is `rdropWhile`. -/
theorem take_findIdx?_reverse_not {p : α → Bool} {s : List α} {i : Nat}
    (h : s.reverse.findIdx? (fun c => !p c) = some i) :
    s.take (s.length - 1 - i + 1) = s.rdropWhile p := by
  have hi : i < s.length := by
    have := (List.findIdx?_eq_some_iff_getElem.mp h).1
    simpa using this
  rw [List.rdropWhile, ← drop_findIdx?_not h, List.drop_reverse, List.reverse_reverse]
  congr 1
  omega

omit [DecidableEq α] in
theorem strip_eq_nil_iff {p : α → Bool} {s : List α} : strip p s = [] ↔ ∀ c ∈ s, p c = true := by
  rw [strip, List.rdropWhile_eq_nil_iff]
  constructor
  · intro h c hc
    rw [← List.takeWhile_append_dropWhile (p := p) (l := s)] at hc
    rcases List.mem_append.mp hc with htake | hdrop
    · exact List.mem_takeWhile_imp htake
    · exact h c hdrop
  · intro h c hc
    exact h c ((List.dropWhile_suffix p).subset hc)

omit [DecidableEq α] in
/-- What is left after stripping does not start with an element of `p`. -/
theorem strip_head_not {p : α → Bool} {s : List α} (hne : strip p s ≠ []) :
    p ((strip p s).head hne) = false := by
  have hpre : strip p s <+: s.dropWhile p := List.rdropWhile_prefix p _
  have hne' : s.dropWhile p ≠ [] := fun h => hne (List.prefix_nil.mp (h ▸ hpre))
  rw [hpre.head hne]
  simpa using List.head_dropWhile_not p hne'

omit [DecidableEq α] in
/-- What is left after stripping does not end with an element of `p`. -/
theorem strip_getLast_not {p : α → Bool} {s : List α} (hne : strip p s ≠ []) :
    p ((strip p s).getLast hne) = false := by
  simpa [strip] using List.rdropWhile_last_not p (s.dropWhile p) hne

/-- `t` goes from the first to the last element of `s` that does not satisfy `p`. -/
structure Stripped (p : α → Bool) (s t : List α) : Prop where
  cut : ∃ front back, s = front ++ t ++ back ∧ (∀ c ∈ front, p c = true) ∧ ∀ c ∈ back, p c = true
  starts : ∀ c, t.head? = some c → p c = false
  ends : ∀ c, t.getLast? = some c → p c = false

omit [DecidableEq α] in
theorem stripped_strip (p : α → Bool) (s : List α) : Stripped p s (strip p s) := by
  refine ⟨⟨s.takeWhile p, (s.dropWhile p).rtakeWhile p, ?_, ?_, ?_⟩, fun c hc => ?_, fun c hc => ?_⟩
  · rw [List.append_assoc, strip, List.rdropWhile_append_rtakeWhile,
      List.takeWhile_append_dropWhile]
  · exact fun c hc => List.mem_takeWhile_imp hc
  · exact fun c hc => List.mem_rtakeWhile_imp hc
  · have hne : strip p s ≠ [] := fun h => by simp [h] at hc
    rw [List.head?_eq_some_head hne, Option.some.injEq] at hc
    exact hc ▸ strip_head_not hne
  · have hne : strip p s ≠ [] := fun h => by simp [h] at hc
    rw [List.getLast?_eq_some_getLast hne, Option.some.injEq] at hc
    exact hc ▸ strip_getLast_not hne

omit [DecidableEq α] in
/-- There is one such part only. -/
theorem stripped_iff {p : α → Bool} {s t : List α} : Stripped p s t ↔ t = strip p s := by
  constructor
  · rintro ⟨⟨front, back, rfl, hfront, hback⟩, hstarts, hends⟩
    have hkeep : ∀ u : List α, (∀ c, u.head? = some c → p c = false) → u.dropWhile p = u := by
      intro u hu
      cases u with
      | nil => rfl
      | cons c u => rw [List.dropWhile_cons_of_neg (by simp [hu c rfl])]
    unfold strip
    rw [List.append_assoc, List.dropWhile_append_of_pos hfront]
    by_cases ht : t = []
    · subst ht
      rw [List.nil_append, List.dropWhile_eq_nil_iff.mpr hback, List.rdropWhile_nil]
    · have hhead : (t ++ back).dropWhile p = t ++ back := by
        refine hkeep _ fun c hc => hstarts c ?_
        rwa [List.head?_append_of_ne_nil t ht] at hc
      have hlast : t.reverse.dropWhile p = t.reverse :=
        hkeep _ fun c hc => hends c (List.head?_reverse ▸ hc)
      rw [hhead, List.rdropWhile, List.reverse_append,
        List.dropWhile_append_of_pos fun c hc => hback c (List.mem_reverse.mp hc), hlast,
        List.reverse_reverse]
  · rintro rfl
    exact stripped_strip p s

omit [DecidableEq α] in
theorem strip_strip (p : α → Bool) (s : List α) : strip p (strip p s) = strip p s := by
  have h := stripped_strip p s
  refine (stripped_iff.mp ⟨⟨[], [], ?_, ?_, ?_⟩, h.starts, h.ends⟩).symm
  · rw [List.nil_append, List.append_nil]
  · exact List.forall_mem_nil _
  · exact List.forall_mem_nil _

end Nrtb.Search
