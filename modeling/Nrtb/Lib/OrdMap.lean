import Mathlib.Data.List.Basic
import Mathlib.Data.List.Induction
import Mathlib.Order.Lattice

/-!
# Ordered maps

A map kept as the list of its entries in iteration order: strictly increasing in the key. The order
is a field, so every key has one entry at most and a map is determined by its look-ups
(`ext_find?`). Proofs go by look-ups where the order does not matter, and by the list where a loop
runs over the entries while the map changes.

* `find?_insert`, `find?_erase`, `find?_filter`: what the operations do to a look-up.
* `entries_erase`: what an erasure does to the list.
* `above_eq`: where an iterator goes from a key.
* `size_insert_le`, `size_filter_le`: what they do to the size.
* `find?_emplaceAll`: inserting without overwriting, for entries that come one after the other.
-/

namespace Nrtb

/-- A map from keys to values. -/
structure OrdMap (κ β : Type*) [LinearOrder κ] where
  entries : List (κ × β)
  sorted : entries.Pairwise fun p q => p.1 < q.1

namespace OrdMap

variable {κ β : Type*} [LinearOrder κ]

instance [DecidableEq β] : DecidableEq (OrdMap κ β)
  | ⟨es, _⟩, ⟨fs, _⟩ => decidable_of_iff (es = fs) (by simp)

/-! ## Lists of entries -/

/-- The value stored under a key. -/
def lookup (k : κ) : List (κ × β) → Option β
  | [] => none
  | p :: ps => if p.1 = k then some p.2 else lookup k ps

/-- Store a value under a key, over the old one if there is one. -/
def insertEntry (k : κ) (v : β) : List (κ × β) → List (κ × β)
  | [] => [(k, v)]
  | p :: ps =>
    if k < p.1 then (k, v) :: p :: ps
    else if p.1 = k then (k, v) :: ps
    else p :: insertEntry k v ps

theorem lookup_eq_none {k : κ} {ps : List (κ × β)} (h : ∀ p ∈ ps, p.1 ≠ k) :
    lookup k ps = none := by
  induction ps with
  | nil => rfl
  | cons p ps ih =>
    rw [lookup, if_neg (h p (by simp))]
    exact ih fun q hq => h q (List.mem_cons_of_mem _ hq)

theorem lookup_ne {k : κ} {ps : List (κ × β)} (h : lookup k ps = none) : ∀ p ∈ ps, p.1 ≠ k := by
  induction ps with
  | nil => simp
  | cons p ps ih =>
    rw [lookup] at h
    split_ifs at h with hk
    exact List.forall_mem_cons.mpr ⟨hk, ih h⟩

theorem lookup_filter (keep : κ × β → Bool) (k : κ) {ps : List (κ × β)}
    (h : ps.Pairwise fun p q => p.1 < q.1) :
    lookup k (ps.filter keep) = (lookup k ps).filter fun v => keep (k, v) := by
  induction ps with
  | nil => rfl
  | cons p ps ih =>
    have hp := List.pairwise_cons.mp h
    have hrest := ih hp.2
    rw [lookup]
    by_cases hk : p.1 = k
    · -- no other entry has this key
      have hnone : lookup k ps = none :=
        lookup_eq_none fun q hq => by rw [← hk]; exact (hp.1 q hq).ne'
      have hpair : (k, p.2) = p := by rw [← hk]
      rw [if_pos hk, Option.filter_some, hpair]
      cases hkeep : keep p with
      | true => simp [hkeep, lookup, hk]
      | false =>
        rw [List.filter_cons_of_neg (by simp [hkeep]), hrest, hnone]
        rfl
    · rw [if_neg hk]
      cases hkeep : keep p with
      | true => rw [List.filter_cons_of_pos hkeep, lookup, if_neg hk, hrest]
      | false => rw [List.filter_cons_of_neg (by simp [hkeep]), hrest]

theorem lookup_insertEntry (k k' : κ) (v : β) {ps : List (κ × β)}
    (h : ps.Pairwise fun p q => p.1 < q.1) :
    lookup k' (insertEntry k v ps) = if k = k' then some v else lookup k' ps := by
  induction ps with
  | nil => rfl
  | cons p ps ih =>
    have hp := List.pairwise_cons.mp h
    by_cases hlt : k < p.1
    · rw [insertEntry, if_pos hlt, lookup]
    by_cases heq : p.1 = k
    · rw [insertEntry, if_neg hlt, if_pos heq, lookup, lookup, heq]
      split_ifs <;> rfl
    rw [insertEntry, if_neg hlt, if_neg heq, lookup, lookup, ih hp.2]
    by_cases hk : k = k'
    · rw [if_pos hk, if_pos hk, if_neg fun hp' => heq (hp'.trans hk.symm)]
    · rw [if_neg hk, if_neg hk]

theorem mem_insertEntry {k : κ} {v : β} {ps : List (κ × β)} {q : κ × β}
    (hq : q ∈ insertEntry k v ps) : q = (k, v) ∨ q ∈ ps := by
  induction ps with
  | nil => simpa [insertEntry] using hq
  | cons p ps ih =>
    rw [insertEntry] at hq
    split_ifs at hq with hlt heq
    · exact List.mem_cons.mp hq
    · rcases List.mem_cons.mp hq with hq | hq
      · exact .inl hq
      · exact .inr (List.mem_cons_of_mem _ hq)
    · rcases List.mem_cons.mp hq with hq | hq
      · exact .inr (by simp [hq])
      · exact (ih hq).imp id fun h => List.mem_cons_of_mem _ h

theorem sorted_insertEntry (k : κ) (v : β) {ps : List (κ × β)}
    (h : ps.Pairwise fun p q => p.1 < q.1) :
    (insertEntry k v ps).Pairwise fun p q => p.1 < q.1 := by
  induction ps with
  | nil => simp [insertEntry]
  | cons p ps ih =>
    have hp := List.pairwise_cons.mp h
    rw [insertEntry]
    split_ifs with hlt heq
    · refine List.pairwise_cons.mpr ⟨fun q hq => ?_, h⟩
      rcases List.mem_cons.mp hq with rfl | hq
      · exact hlt
      · exact hlt.trans (hp.1 q hq)
    · refine List.pairwise_cons.mpr ⟨fun q hq => ?_, hp.2⟩
      rw [← heq]
      exact hp.1 q hq
    · refine List.pairwise_cons.mpr ⟨fun q hq => ?_, ih hp.2⟩
      rcases mem_insertEntry hq with rfl | hq
      · exact lt_of_le_of_ne (not_lt.mp hlt) heq
      · exact hp.1 q hq

theorem length_insertEntry_le (k : κ) (v : β) (ps : List (κ × β)) :
    (insertEntry k v ps).length ≤ ps.length + 1 := by
  induction ps with
  | nil => simp [insertEntry]
  | cons p ps ih =>
    rw [insertEntry]
    split_ifs <;> simp only [List.length_cons] <;> omega

theorem mem_iff_lookup {k : κ} {v : β} {ps : List (κ × β)}
    (h : ps.Pairwise fun p q => p.1 < q.1) : (k, v) ∈ ps ↔ lookup k ps = some v := by
  induction ps with
  | nil => simp [lookup]
  | cons p ps ih =>
    have hp := List.pairwise_cons.mp h
    rw [List.mem_cons, ih hp.2, lookup]
    split_ifs with hk
    · have hnone : lookup k ps = none :=
        lookup_eq_none fun q hq => by rw [← hk]; exact (hp.1 q hq).ne'
      rw [hnone, ← hk]
      simp only [reduceCtorEq, or_false, Option.some.injEq]
      exact ⟨fun h => by rw [← h], fun h => by rw [← h]⟩
    · refine ⟨fun h => h.resolve_left fun heq => hk ?_, .inr⟩
      rw [← heq]

/-! ## Maps -/

/-- `find` -/
def find? (m : OrdMap κ β) (k : κ) : Option β := lookup k m.entries

/-- `operator[]` on the left of an assignment. -/
def insert (m : OrdMap κ β) (k : κ) (v : β) : OrdMap κ β :=
  ⟨insertEntry k v m.entries, sorted_insertEntry k v m.sorted⟩

/-- The entries that a test keeps. -/
def filter (m : OrdMap κ β) (keep : κ × β → Bool) : OrdMap κ β :=
  ⟨m.entries.filter keep, m.sorted.filter keep⟩

/-- `erase` by key. -/
def erase (m : OrdMap κ β) (k : κ) : OrdMap κ β := m.filter fun p => p.1 ≠ k

/-- `size` -/
def size (m : OrdMap κ β) : Nat := m.entries.length

/-- The map without entries. -/
def empty : OrdMap κ β := ⟨[], .nil⟩

@[simp] theorem find?_empty (k : κ) : (empty : OrdMap κ β).find? k = none := rfl

@[simp] theorem size_empty : (empty : OrdMap κ β).size = 0 := rfl

theorem mem_entries_iff {m : OrdMap κ β} {k : κ} {v : β} :
    (k, v) ∈ m.entries ↔ m.find? k = some v :=
  mem_iff_lookup m.sorted

@[simp] theorem find?_insert (m : OrdMap κ β) (k k' : κ) (v : β) :
    (m.insert k v).find? k' = if k = k' then some v else m.find? k' :=
  lookup_insertEntry k k' v m.sorted

theorem find?_filter (m : OrdMap κ β) (keep : κ × β → Bool) (k : κ) :
    (m.filter keep).find? k = (m.find? k).filter fun v => keep (k, v) :=
  lookup_filter keep k m.sorted

@[simp] theorem find?_erase (m : OrdMap κ β) (k k' : κ) :
    (m.erase k).find? k' = if k = k' then none else m.find? k' := by
  rw [erase, find?_filter]
  split_ifs with hk
  · cases m.find? k' <;> simp [hk]
  · cases m.find? k' <;> simp [Ne.symm hk]

theorem size_insert_le (m : OrdMap κ β) (k : κ) (v : β) : (m.insert k v).size ≤ m.size + 1 :=
  length_insertEntry_le k v m.entries

theorem size_filter_le (m : OrdMap κ β) (keep : κ × β → Bool) : (m.filter keep).size ≤ m.size :=
  List.length_filter_le keep m.entries

/-- The first entry behind a key: where an iterator goes from there. -/
def above (m : OrdMap κ β) (k : κ) : Option (κ × β) := m.entries.find? fun p => k < p.1

theorem above_eq {m : OrdMap κ β} {k : κ} {pre post : List (κ × β)} (hm : m.entries = pre ++ post)
    (hpre : ∀ p ∈ pre, p.1 ≤ k) (hpost : ∀ p ∈ post, k < p.1) : m.above k = post.head? := by
  have hnone : pre.find? (fun p => k < p.1) = none := by
    rw [List.find?_eq_none]
    intro p hp
    simpa using hpre p hp
  rw [above, hm, List.find?_append, hnone, Option.none_or]
  cases post with
  | nil => rfl
  | cons p post => exact List.find?_cons_of_pos (by simpa using hpost p List.mem_cons_self)

theorem entries_erase {m : OrdMap κ β} {p : κ × β} {pre post : List (κ × β)}
    (hm : m.entries = pre ++ p :: post) : (m.erase p.1).entries = pre ++ post := by
  have hsorted := m.sorted
  rw [hm, List.pairwise_append] at hsorted
  obtain ⟨_, hpost, hpre⟩ := hsorted
  have hkeepPre : pre.filter (fun q => q.1 ≠ p.1) = pre := by
    rw [List.filter_eq_self]
    intro q hq
    simpa using (hpre q hq p List.mem_cons_self).ne
  have hkeepPost : post.filter (fun q => q.1 ≠ p.1) = post := by
    rw [List.filter_eq_self]
    intro q hq
    simpa using ((List.pairwise_cons.mp hpost).1 q hq).ne'
  have hdrop : (p :: post).filter (fun q => q.1 ≠ p.1) = post.filter fun q => q.1 ≠ p.1 :=
    List.filter_cons_of_neg (by simp)
  have herase : (m.erase p.1).entries = m.entries.filter fun q => q.1 ≠ p.1 := rfl
  rw [herase, hm, List.filter_append, hdrop, hkeepPre, hkeepPost]

/-- A map is what its look-ups say. -/
theorem ext_find? {m n : OrdMap κ β} (h : ∀ k, m.find? k = n.find? k) : m = n := by
  have hmem : ∀ p, p ∈ m.entries ↔ p ∈ n.entries := by
    rintro ⟨k, v⟩
    rw [mem_entries_iff, mem_entries_iff, h k]
  obtain ⟨es, hes⟩ := m
  obtain ⟨fs, hfs⟩ := n
  have heq : es = fs := by
    have hnodup : ∀ {l : List (κ × β)}, l.Pairwise (fun p q => p.1 < q.1) → l.Nodup :=
      fun hl => hl.imp fun hlt heq => absurd (congrArg Prod.fst heq) hlt.ne
    have hperm := (List.perm_ext_iff_of_nodup (hnodup hes) (hnodup hfs)).mpr hmem
    exact hperm.eq_of_pairwise (fun a b _ _ hab hba => absurd (hab.trans hba) (lt_irrefl _))
      hes hfs
  subst heq
  rfl

/-! ## Inserting without overwriting -/

/-- `insert` of an entry: what is stored under the key stays. -/
def emplace (m : OrdMap κ β) (p : κ × β) : OrdMap κ β :=
  if (m.find? p.1).isSome then m else m.insert p.1 p.2

/-- The entries of a list, inserted one after the other. -/
def emplaceAll (ps : List (κ × β)) : OrdMap κ β := ps.foldl emplace empty

theorem find?_emplace (m : OrdMap κ β) (p : κ × β) (k : κ) :
    (m.emplace p).find? k = (m.find? k).or (if p.1 = k then some p.2 else none) := by
  unfold emplace
  by_cases hsome : (m.find? p.1).isSome
  · rw [if_pos hsome]
    split_ifs with hk
    · obtain ⟨v, hv⟩ := Option.isSome_iff_exists.mp hsome
      rw [← hk, hv, Option.some_or]
    · rw [Option.or_none]
  · rw [if_neg hsome, find?_insert]
    split_ifs with hk
    · rw [← hk, Option.not_isSome_iff_eq_none.mp hsome, Option.none_or]
    · rw [Option.or_none]

theorem lookup_append (k : κ) (ps qs : List (κ × β)) :
    lookup k (ps ++ qs) = (lookup k ps).or (lookup k qs) := by
  induction ps with
  | nil => rfl
  | cons p ps ih =>
    rw [List.cons_append, lookup, lookup, ih]
    split_ifs <;> rfl

/-- The first entry under a key is the one that is stored. -/
theorem find?_emplaceAll (ps : List (κ × β)) (k : κ) : (emplaceAll ps).find? k = lookup k ps := by
  induction ps using List.reverseRecOn with
  | nil => rfl
  | append_singleton ps p ih =>
    have hlast : emplaceAll (ps ++ [p]) = (emplaceAll ps).emplace p := List.foldl_append
    rw [hlast, find?_emplace, ih, lookup_append]
    rfl

/-- The entries of a map make up the map. -/
theorem emplaceAll_entries (m : OrdMap κ β) : emplaceAll m.entries = m :=
  ext_find? (find?_emplaceAll m.entries)

/-- Every key that is inserted is there. -/
theorem mem_keys_emplaceAll {ps : List (κ × β)} {k : κ} (h : k ∈ ps.map Prod.fst) :
    k ∈ (emplaceAll ps).entries.map Prod.fst := by
  obtain ⟨p, hp, rfl⟩ := List.mem_map.mp h
  cases hfind : (emplaceAll ps).find? p.1 with
  | some v => exact List.mem_map.mpr ⟨(p.1, v), mem_entries_iff.mpr hfind, rfl⟩
  | none =>
    rw [find?_emplaceAll] at hfind
    exact absurd rfl (lookup_ne hfind p hp)

end OrdMap

end Nrtb
