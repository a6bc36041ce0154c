import Mathlib.Data.List.Basic
import Mathlib.Data.List.Perm.Basic

/-!
# Stable multimaps

A multimap kept in iteration order: a list of pairs sorted by key, a new pair going behind every
entry whose key is not greater. Entries of one key therefore stay in the order of their insertion
(`filter_ofList`), and nothing is lost or invented (`ofList_perm`).

A program asks a multimap for the entries of one key, so that the lemmas say of each operation what
it does to those: the list filtered by the key. That the entries of a key are also next to each
other is only needed for a range of iterators.

* `filter_insert`, `filter_overwrite`: inserting a pair and overwriting the first entry of its key.
* `foldl_overwrite_filter`: pairs that overwrite the first entry of their key, one after another.
* `equalRange_eq`: the entries of a key are next to each other.
-/

namespace Nrtb.Multimap

variable {κ β : Type*} [LT κ] [DecidableLT κ]

/-- Insert behind every entry whose key is not greater. -/
def insert (arg : κ × β) : List (κ × β) → List (κ × β)
  | [] => [arg]
  | p :: ps => if arg.1 < p.1 then arg :: p :: ps else p :: insert arg ps

/-- The multimap obtained by inserting the pairs of a list in order. -/
def ofList (pairs : List (κ × β)) : List (κ × β) :=
  pairs.foldl (fun values arg => insert arg values) []

/-- No key is smaller than one before it. -/
def Sorted (values : List (κ × β)) : Prop := values.Pairwise fun p q => ¬ q.1 < p.1

theorem insert_perm (arg : κ × β) (values : List (κ × β)) :
    (insert arg values).Perm (arg :: values) := by
  induction values with
  | nil => exact .refl _
  | cons p ps ih =>
    unfold insert
    split
    · exact .refl _
    · exact (ih.cons p).trans (.swap arg p ps)

theorem foldl_insert_perm (pairs values : List (κ × β)) :
    (pairs.foldl (fun values arg => insert arg values) values).Perm (pairs ++ values) := by
  induction pairs generalizing values with
  | nil => exact .refl _
  | cons arg pairs ih =>
    rw [List.foldl_cons]
    refine (ih (insert arg values)).trans ?_
    exact ((insert_perm arg values).append_left pairs).trans List.perm_middle

/-- The multimap holds exactly the inserted pairs. -/
theorem ofList_perm (pairs : List (κ × β)) : (ofList pairs).Perm pairs := by
  simpa [ofList] using foldl_insert_perm pairs []

section Order

variable [Std.Asymm (α := κ) (· < ·)] [DecidableEq κ]

/-- Among the entries of one key the new pair comes last. -/
theorem filter_insert (arg : κ × β) {values : List (κ × β)} (h : Sorted values) (k : κ) :
    (insert arg values).filter (fun p => p.1 = k)
      = values.filter (fun p => p.1 = k) ++ [arg].filter (fun p => p.1 = k) := by
  induction values with
  | nil => simp [insert]
  | cons p ps ih =>
    have hp := List.pairwise_cons.mp h
    unfold insert
    split
    · next hlt =>
      by_cases hk : arg.1 = k
      · -- everything from `p` on has a greater key
        have hnone : (p :: ps).filter (fun p => p.1 = k) = [] := by
          rw [List.filter_eq_nil_iff]
          intro q hq hqk
          have hqk : q.1 = arg.1 := (of_decide_eq_true hqk).trans hk.symm
          rcases List.mem_cons.mp hq with rfl | hq
          · rw [hqk] at hlt
            exact Std.Asymm.asymm _ _ hlt hlt
          · exact hp.1 q hq (by rw [hqk]; exact hlt)
        rw [List.filter_cons, hnone]
        simp [hk]
      · simp [List.filter_cons, hk]
    · by_cases hpk : p.1 = k
      · simp only [List.filter_cons, hpk, decide_true, if_true, ih hp.2, List.cons_append]
      · simp only [List.filter_cons, hpk, decide_false, Bool.false_eq_true, if_false, ih hp.2]

variable [Trans (α := κ) (β := κ) (γ := κ) (· < ·) (· < ·) (· < ·)]

omit [DecidableEq κ] in
theorem sorted_insert (arg : κ × β) {values : List (κ × β)} (h : Sorted values) :
    Sorted (insert arg values) := by
  induction values with
  | nil => simp [insert, Sorted]
  | cons p ps ih =>
    have hp := List.pairwise_cons.mp h
    unfold insert
    split
    · next hlt =>
      refine List.pairwise_cons.mpr ⟨fun q hq hqa => ?_, h⟩
      rcases List.mem_cons.mp hq with rfl | hq
      · exact Std.Asymm.asymm _ _ hlt hqa
      · exact hp.1 q hq (Trans.trans hqa hlt)
    · next hnlt =>
      refine List.pairwise_cons.mpr ⟨fun q hq => ?_, ih hp.2⟩
      rcases List.mem_cons.mp ((insert_perm arg ps).mem_iff.mp hq) with rfl | hq
      · exact hnlt
      · exact hp.1 q hq

theorem foldl_insert_filter (pairs : List (κ × β)) {values : List (κ × β)} (h : Sorted values)
    (k : κ) :
    (pairs.foldl (fun values arg => insert arg values) values).filter (fun p => p.1 = k)
      = values.filter (fun p => p.1 = k) ++ pairs.filter (fun p => p.1 = k) := by
  induction pairs generalizing values with
  | nil => simp
  | cons arg pairs ih =>
    rw [List.foldl_cons, ih (sorted_insert arg h), filter_insert arg h, List.append_assoc,
      ← List.filter_append]
    rfl

/-- The entries of one key stand in the order of their insertion. -/
theorem filter_ofList (pairs : List (κ × β)) (k : κ) :
    (ofList pairs).filter (fun p => p.1 = k) = pairs.filter (fun p => p.1 = k) := by
  simpa [ofList] using foldl_insert_filter pairs List.Pairwise.nil k

end Order

/-! ## Overwriting -/

section Overwrite

variable [DecidableEq κ]

/-- The first entry of a key. -/
def find? (k : κ) (values : List (κ × β)) : Option (κ × β) := values.find? fun p => p.1 = k

/-- The entries from the first of a key on, as long as they have that key. -/
def equalRange (k : κ) (values : List (κ × β)) : List (κ × β) :=
  (values.dropWhile fun p => p.1 ≠ k).takeWhile fun p => p.1 = k

/-- Give the first entry of a key another value. -/
def setFirst (k : κ) (v : β) : List (κ × β) → List (κ × β)
  | [] => []
  | p :: ps => if p.1 = k then (p.1, v) :: ps else p :: setFirst k v ps

/-- Overwrite the first entry of a key, or insert one if there is none. -/
def overwrite (arg : κ × β) (values : List (κ × β)) : List (κ × β) :=
  match find? arg.1 values with
  | some _ => setFirst arg.1 arg.2 values
  | none => insert arg values

omit [LT κ] [DecidableLT κ] in
theorem find?_eq (k : κ) (values : List (κ × β)) :
    find? k values = (values.filter fun p => p.1 = k).head? :=
  List.head?_filter.symm

omit [LT κ] [DecidableLT κ] in
theorem map_fst_setFirst (k : κ) (v : β) (values : List (κ × β)) :
    (setFirst k v values).map Prod.fst = values.map Prod.fst := by
  induction values with
  | nil => rfl
  | cons p ps ih =>
    unfold setFirst
    split
    · rfl
    · rw [List.map_cons, List.map_cons, ih]

omit [LT κ] [DecidableLT κ] in
/-- Nothing else changes. -/
theorem filter_setFirst_of_ne {k k' : κ} (hne : k' ≠ k) (v : β) (values : List (κ × β)) :
    (setFirst k v values).filter (fun p => p.1 = k') = values.filter (fun p => p.1 = k') := by
  induction values with
  | nil => rfl
  | cons p ps ih =>
    unfold setFirst
    split
    · next hp =>
      have hp' : p.1 ≠ k' := fun h => hne (h.symm.trans hp)
      simp [hp']
    · simp only [List.filter_cons, ih]

omit [LT κ] [DecidableLT κ] in
theorem filter_setFirst {k : κ} (v : β) {values : List (κ × β)} (hfound : find? k values ≠ none) :
    (setFirst k v values).filter (fun p => p.1 = k)
      = (k, v) :: (values.filter fun p => p.1 = k).tail := by
  induction values with
  | nil => exact absurd rfl hfound
  | cons p ps ih =>
    unfold setFirst
    split
    · next hp => simp [hp]
    · next hp =>
      have hrest : find? k ps ≠ none := by simpa [find?, List.find?_cons, hp] using hfound
      simpa [List.filter_cons, hp] using ih hrest

omit [DecidableLT κ] in
theorem sorted_setFirst (k : κ) (v : β) {values : List (κ × β)} (h : Sorted values) :
    Sorted (setFirst k v values) := by
  have hkeys : ∀ values : List (κ × β),
      Sorted values ↔ (values.map Prod.fst).Pairwise fun a b => ¬ b < a := fun values => by
    rw [List.pairwise_map]
    rfl
  rwa [hkeys, map_fst_setFirst, ← hkeys]

variable [Std.Asymm (α := κ) (· < ·)]

theorem filter_overwrite (arg : κ × β) {values : List (κ × β)} (h : Sorted values) (k : κ) :
    (overwrite arg values).filter (fun p => p.1 = k)
      = if arg.1 = k then arg :: (values.filter fun p => p.1 = k).tail
        else values.filter fun p => p.1 = k := by
  unfold overwrite
  split
  · next hfound =>
    by_cases hk : arg.1 = k
    · subst hk
      rw [if_pos rfl]
      exact filter_setFirst arg.2 (by rw [hfound]; exact nofun)
    · rw [if_neg hk]
      exact filter_setFirst_of_ne (Ne.symm hk) _ _
  · next hnone =>
    rw [filter_insert arg h]
    by_cases hk : arg.1 = k
    · -- there is no entry of the key yet
      have hnil : (values.filter fun p => p.1 = k) = [] := by
        rwa [← hk, ← List.head?_eq_none_iff, ← find?_eq]
      simp [hk, hnil]
    · simp [hk]

variable [Trans (α := κ) (β := κ) (γ := κ) (· < ·) (· < ·) (· < ·)]

theorem sorted_overwrite (arg : κ × β) {values : List (κ × β)} (h : Sorted values) :
    Sorted (overwrite arg values) := by
  unfold overwrite
  split
  · exact sorted_setFirst _ _ h
  · exact sorted_insert arg h

/-- The last of the pairs of a key replaces its first entry. -/
theorem foldl_overwrite_filter (pairs : List (κ × β)) {values : List (κ × β)} (h : Sorted values)
    (k : κ) :
    (pairs.foldl (fun values arg => overwrite arg values) values).filter (fun p => p.1 = k)
      = match (pairs.filter fun p => p.1 = k).getLast? with
        | none => values.filter fun p => p.1 = k
        | some p => p :: (values.filter fun p => p.1 = k).tail := by
  induction pairs generalizing values with
  | nil => rfl
  | cons arg pairs ih =>
    rw [List.foldl_cons, ih (sorted_overwrite arg h), filter_overwrite arg h, List.filter_cons]
    by_cases hk : arg.1 = k
    · rw [if_pos hk, if_pos (by simpa using hk), List.getLast?_cons]
      cases (pairs.filter fun p => p.1 = k).getLast? <;> rfl
    · rw [if_neg hk, if_neg (by simpa using hk)]

variable [Std.Trichotomous (α := κ) (· < ·)]

end Overwrite

/-! ## The range of a key -/

section Range

variable [DecidableEq κ] [Std.Asymm (α := κ) (· < ·)] [Std.Trichotomous (α := κ) (· < ·)]

omit [DecidableLT κ] [Std.Asymm (α := κ) (· < ·)] in
/-- Behind an entry with another key no entry of the key comes. -/
theorem takeWhile_eq_filter {k : κ} {values : List (κ × β)} (h : Sorted values)
    (hge : ∀ p ∈ values, ¬ p.1 < k) :
    values.takeWhile (fun p => p.1 = k) = values.filter fun p => p.1 = k := by
  induction values with
  | nil => rfl
  | cons p ps ih =>
    have hp := List.pairwise_cons.mp h
    by_cases hk : p.1 = k
    · rw [List.takeWhile_cons_of_pos (by simpa using hk),
        List.filter_cons_of_pos (by simpa using hk),
        ih hp.2 fun q hq => hge q (List.mem_cons_of_mem p hq)]
    · rw [List.takeWhile_cons_of_neg (by simpa using hk)]
      symm
      rw [List.filter_eq_nil_iff]
      intro q hq hqk
      have hqk : q.1 = k := by simpa using hqk
      rcases List.mem_cons.mp hq with rfl | hq
      · exact hk hqk
      · have hle : ¬ k < p.1 := hqk ▸ hp.1 q hq
        exact hk (Std.Trichotomous.trichotomous _ _ (hge p List.mem_cons_self) hle)

omit [DecidableLT κ] in
theorem equalRange_eq (k : κ) {values : List (κ × β)} (h : Sorted values) :
    equalRange k values = values.filter fun p => p.1 = k := by
  induction values with
  | nil => rfl
  | cons p ps ih =>
    have hp := List.pairwise_cons.mp h
    by_cases hk : p.1 = k
    · have hge : ∀ q ∈ p :: ps, ¬ q.1 < k := by
        intro q hq
        rcases List.mem_cons.mp hq with rfl | hq
        · exact hk ▸ fun hlt => Std.Asymm.asymm _ _ hlt hlt
        · exact hk ▸ hp.1 q hq
      rw [equalRange, List.dropWhile_cons_of_neg (by simpa using hk)]
      exact takeWhile_eq_filter h hge
    · rw [equalRange, List.dropWhile_cons_of_pos (by simpa using hk),
        List.filter_cons_of_neg (by simpa using hk)]
      exact ih hp.2

end Range

end Nrtb.Multimap
