import Nrtb.ConfReader.Basic

/-!
# The configuration file grammar

The grammar that `confreader.h` documents, stated on its own (`documentedPair`), against what
`conf_reader::read` makes of a line (`cpp/common/confreader/confreader.cpp`, lines 59–91). The
grammar is written as a reader of the documentation would write it: cut the comment off, strip the
line, take the first word for the name and the stripped rest for the value, and let `\#` stand for
`#`. The code does the same in other steps, with places in the line and replacements of text, and
each of the steps has a lemma that says when it comes to the same.

* `cutComment_eq`: the comment loop cuts at the first unescaped `#`, unless a `#` stands in the
  first column, where it reads in front of the line.
* `gsub_escapedHash`: the `gsub` of both halves is `unescape`.
* `lineAction_eq`: one line is read as documented, with three exceptions: a name without a value is
  dropped, a line that is blank but not empty throws, and everything behind a NUL is invisible.
-/

namespace Nrtb

open Search

namespace ConfReader

/-! ## The documented grammar -/

/-- The line up to its first `#` that is not preceded by a backslash; `prev` is the character
in front of the list. -/
def uncomment (prev : Option Byte) : Str → Str
  | [] => []
  | c :: s => if c = Ch.hash ∧ prev ≠ some Ch.backslash then [] else c :: uncomment (some c) s

/-- `\#` stands for `#`. -/
def unescape : Str → Str
  | [] => []
  | [c] => [c]
  | c :: d :: s => if c = Ch.backslash ∧ d = Ch.hash then Ch.hash :: unescape s
      else c :: unescape (d :: s)

/-- What is left of a line: the comment cut off, blanks and tabs stripped. -/
def body (line : Str) : Str := strip isBlank (uncomment none line)

/-- The name and the value of a non-empty body: its first word and the stripped remainder. -/
def bodyPair (text : Str) : Pair :=
  (unescape (text.takeWhile fun c => !isBlank c),
    unescape (strip isBlank (text.dropWhile fun c => !isBlank c)))

/-- The pair a line stands for, if any. -/
def documentedPair (line : Str) : Option Pair :=
  if body line = [] then none else some (bodyPair (body line))

/-- The lines of a file. -/
def lines (content : Str) : List Str := content.splitOn Ch.newline

/-! ## The comment loop -/

theorem uncomment_append {a : Str} (ha : Ch.hash ∉ a) (prev : Option Byte) (b : Str) :
    uncomment prev (a ++ b) = a ++ uncomment (a.getLast?.or prev) b := by
  induction a generalizing prev with
  | nil => simp
  | cons c a ih =>
    have hc : c ≠ Ch.hash := fun h => ha (by simp [h])
    have hlast : (c :: a).getLast?.or prev = a.getLast?.or (some c) := by
      rw [List.getLast?_cons]
      cases a.getLast? <;> rfl
    rw [List.cons_append, uncomment, if_neg (by simp [hc]), ih (fun h => ha (by simp [h])), hlast]
    rfl

theorem uncomment_of_no_hash {s : Str} (hs : Ch.hash ∉ s) (prev : Option Byte) :
    uncomment prev s = s := by
  have := uncomment_append hs prev []
  simpa [uncomment] using this

/-- Around the `#` at `loc`, the first one behind `start`: what the line looks like to the cut. -/
theorem uncomment_split {line : Str} {start loc : Nat} (hle : start ≤ loc)
    (hlen : loc < line.length) (hget : (line)[loc]? = some Ch.hash)
    (hmid : Ch.hash ∉ (line.drop start).take (loc - start)) (hloc : loc ≠ 0) :
    line.take start ++ uncomment (line.take start).getLast? (line.drop start)
      = line.take loc
        ++ uncomment (line)[loc - 1]? (Ch.hash :: line.drop (loc + 1)) := by
  have hdrop : line.drop start
      = (line.drop start).take (loc - start) ++ Ch.hash :: line.drop (loc + 1) := by
    conv_lhs => rw [← List.take_append_drop (loc - start) (line.drop start)]
    rw [List.drop_drop, show start + (loc - start) = loc from by omega,
      List.drop_eq_getElem_cons hlen]
    rw [List.getElem?_eq_getElem hlen, Option.some.injEq] at hget
    rw [hget]
  have htake : line.take loc = line.take start ++ (line.drop start).take (loc - start) := by
    rw [← List.take_add, show start + (loc - start) = loc from by omega]
  have hlast : (line)[loc - 1]? = (line.take loc).getLast? := by
    rw [List.getLast?_eq_getElem?, List.length_take, List.getElem?_take]
    rw [show min loc line.length - 1 = loc - 1 from by omega, if_pos (by omega)]
  rw [hlast, htake, List.getLast?_append]
  conv_lhs => rw [hdrop, uncomment_append hmid]
  rw [List.append_assoc]

/-- The comment loop from `start` on, given that no `#` stands in the first column: what was
passed stays, and the rest is cut at its first unescaped `#`. -/
theorem cutLoop_eq (line : Str) (start : Nat) (hstart : start ≤ line.length)
    (hcol : line.head? ≠ some Ch.hash) :
    cutLoop line start
      = some (line.take start ++ uncomment (line.take start).getLast? (line.drop start)) := by
  fun_induction cutLoop line start with
  | case1 start h =>
    -- no `#` is left
    rw [uncomment_of_no_hash (find_singleton_none h), List.take_append_drop]
  | case2 start h =>
    -- a `#` at position 0 is one in the first column
    have hhead := (find_singleton_some h).2.1
    rw [List.head?_eq_getElem?] at hcol
    exact absurd hhead hcol
  | case3 start loc h hloc hesc ih =>
    obtain ⟨hle, hget, hmid⟩ := find_singleton_some h
    have hlen := (List.getElem?_eq_some_iff.mp hget).1
    have htake : line.take (loc + 1) = line.take loc ++ [Ch.hash] := by
      rw [List.take_add_one, hget]
      rfl
    -- the escaped `#` is kept and the search goes on behind it
    rw [ih (by omega), uncomment_split hle hlen hget hmid hloc, hesc, htake]
    simp [uncomment]
  | case4 start loc h hloc hesc =>
    obtain ⟨hle, hget, hmid⟩ := find_singleton_some h
    have hlen := (List.getElem?_eq_some_iff.mp hget).1
    rw [uncomment_split hle hlen hget hmid hloc, uncomment, if_pos ⟨rfl, hesc⟩, List.append_nil]

/-- The comment loop: undefined on a `#` in the first column, else the documented cut. -/
theorem cutComment_eq (line : Str) :
    cutComment line
      = if line.head? = some Ch.hash then none else some (uncomment none line) := by
  split
  · next hcol =>
    have hfind : find line [Ch.hash] 0 = some 0 := by
      rw [find_eq_some_iff]
      refine ⟨le_rfl, Nat.zero_le _, ?_, fun j _ hj => absurd hj (Nat.not_lt_zero j)⟩
      rw [singleton_prefix_drop_iff, ← List.head?_eq_getElem?, hcol]
    rw [cutComment, cutLoop]
    split
    · next h => rw [hfind] at h; cases h
    · next loc h =>
      rw [hfind, Option.some.injEq] at h
      rw [if_pos h.symm]
  · next hcol =>
    rw [cutComment, cutLoop_eq line 0 (Nat.zero_le _) hcol]
    simp

/-! ## The `gsub` of names and values -/

theorem replaceFrom_escapedHash (s : Str) :
    replaceFrom escapedHash [Ch.hash] 0 s = unescape s := by
  fun_induction unescape s with
  | case1 => rfl
  | case2 c => simp [replaceFrom, escapedHash]
  | case3 c d s h ih =>
    obtain ⟨rfl, rfl⟩ := h
    have hocc : escapedHash <+: Ch.backslash :: Ch.hash :: s := ⟨s, rfl⟩
    rw [replaceFrom, if_pos hocc, show escapedHash.length - 1 = 1 from rfl, replaceFrom_skip,
      List.drop_succ_cons, List.drop_zero, ih]
    rfl
  | case4 c d s h ih =>
    have hocc : ¬ escapedHash <+: c :: d :: s := by
      rintro ⟨t, ht⟩
      simp only [escapedHash, List.cons_append, List.nil_append, List.cons.injEq] at ht
      exact h ⟨ht.1.symm, ht.2.1.symm⟩
    rw [replaceFrom, if_neg hocc, ih]

/-- The `gsub` of a name or value. -/
theorem gsub_escapedHash {s : Str} (hs : s ≠ []) :
    gsub s escapedHash [Ch.hash] = .ok (unescape s) := by
  rw [gsub_eq _ hs (by decide), replaceFrom_escapedHash]

theorem unescape_ne_nil {s : Str} (hs : s ≠ []) : unescape s ≠ [] := by
  fun_cases unescape s with
  | case1 => exact absurd rfl hs
  | case2 c => simp
  | case3 c d s h => simp
  | case4 c d s h => simp

/-! ## One line -/

/-- On a line the white space of `trim` is the white space of the split. -/
theorem trimWs_eq_isBlank {c : Byte} (hc : c ≠ Ch.newline) : trimWs c = isBlank c := by
  have hne : (c == Ch.newline) = false := beq_false_of_ne hc
  simp [trimWs, isBlank, hne]

theorem uncomment_subset (prev : Option Byte) (s : Str) : uncomment prev s ⊆ s := by
  induction s generalizing prev with
  | nil => simp [uncomment]
  | cons c s ih =>
    unfold uncomment
    split
    · simp
    · exact List.cons_subset_cons c (ih (some c))

/-- `trim` of a piece of a line with a visible character. -/
theorem trim_eq_strip {s : Str} (hnl : Ch.newline ∉ s) (hvis : ¬ ∀ c ∈ s, isBlank c = true) :
    trim s = strip isBlank s := by
  have hws : ∀ c ∈ s, trimWs c = isBlank c := fun c hc =>
    trimWs_eq_isBlank fun h => hnl (h ▸ hc)
  rw [trim_of_not_blank (fun hall => hvis fun c hc => (hws c hc) ▸ hall c hc), strip_congr hws]

/-- `trim` of a piece of a line without a visible character. -/
theorem trim_eq_self {s : Str} (hblank : ∀ c ∈ s, isBlank c = true) : trim s = s := by
  refine trim_of_blank fun c hc => ?_
  have := hblank c hc
  simp only [isBlank, Bool.or_eq_true] at this
  rcases this with h | h <;> simp [trimWs, h]

/-- Splitting at the first blank. -/
theorem findIdx?_isBlank {s : Str} {i : Nat} (h : s.findIdx? isBlank = some i) :
    s.take i = (s.takeWhile fun c => !isBlank c) ∧ s.drop i = s.dropWhile fun c => !isBlank c := by
  induction s generalizing i with
  | nil => simp at h
  | cons c s ih =>
    rw [List.findIdx?_cons] at h
    cases hc : isBlank c with
    | true =>
      simp only [hc, if_true, Option.some.injEq] at h
      subst h
      simp [hc]
    | false =>
      simp only [hc, Bool.false_eq_true, if_false, Option.map_eq_some_iff] at h
      obtain ⟨j, hj, rfl⟩ := h
      obtain ⟨htake, hdrop⟩ := ih hj
      simp [hc, htake, hdrop]

/-- A stripped text with a blank inside: both halves of the split are visible. -/
theorem split_halves_visible {s : Str} (hne : strip isBlank s ≠ []) {i : Nat}
    (h : (strip isBlank s).findIdx? isBlank = some i) :
    (strip isBlank s).take i ≠ []
      ∧ ¬ ∀ c ∈ (strip isBlank s).drop i, isBlank c = true := by
  obtain ⟨hi, hblank, _⟩ := List.findIdx?_eq_some_iff_getElem.mp h
  constructor
  · intro hnil
    -- the first character is not a blank, so the split is not at 0
    have hi0 : i = 0 := by
      rcases List.take_eq_nil_iff.mp hnil with h0 | h0
      · exact h0
      · exact absurd h0 hne
    subst hi0
    have hhead := strip_head_not hne
    rw [List.head_eq_getElem, hblank] at hhead
    cases hhead
  · intro hall
    have hlast := strip_getLast_not hne
    have hmem : (strip isBlank s).getLast hne ∈ (strip isBlank s).drop i := by
      have hdne : (strip isBlank s).drop i ≠ [] := by
        simpa using hi
      rw [← List.getLast_drop hdne]
      exact List.getLast_mem hdne
    rw [hall _ hmem] at hlast
    cases hlast

/-- What the loop body does with one line, all cases. -/
theorem lineAction_eq {inbuff : Str} (hnl : Ch.newline ∉ inbuff) :
    lineAction inbuff =
      let line := inbuff.takeWhile fun c => c != Ch.nul
      if line.head? = some Ch.hash then .undefined
      else if uncomment none line = [] then .ignore
      else if (uncomment none line).all isBlank then .throws
      else if !(body line).any isBlank then .ignore
      else if (bodyPair (body line)).1 = includeName then .includeFile (bodyPair (body line)).2
      else .insertPair (bodyPair (body line)) := by
  have hline : Ch.newline ∉ inbuff.takeWhile fun c => c != Ch.nul := fun h =>
    hnl (List.takeWhile_subset _ h)
  simp only [lineAction, cutComment_eq]
  generalize (inbuff.takeWhile fun c => c != Ch.nul) = line at hline ⊢
  by_cases hcol : line.head? = some Ch.hash
  · simp only [hcol, if_true]
  simp only [if_neg hcol]
  have hcut : Ch.newline ∉ uncomment none line := fun h => hline (uncomment_subset none line h)
  by_cases hnil : uncomment none line = []
  · simp [hnil, trim_eq_self]
  rw [if_neg hnil]
  by_cases hblank : ∀ c ∈ uncomment none line, isBlank c = true
  · -- the split point is the first character, and `gsub` gets an empty name
    rw [if_pos (List.all_eq_true.mpr hblank), trim_eq_self hblank]
    obtain ⟨c, s, hcs⟩ := List.exists_cons_of_ne_nil hnil
    have hc : isBlank c = true := hblank c (by simp [hcs])
    have htrim : trim ([] : Str) = [] := trim_eq_self (by simp)
    simp [hcs, List.findIdx?_cons, hc, htrim, gsub_nil]
  rw [if_neg (mt List.all_eq_true.mp hblank), trim_eq_strip hcut hblank, ← body]
  have hbody : body line ≠ [] := fun h => hblank (strip_eq_nil_iff.mp h)
  have hbnl : Ch.newline ∉ body line := by
    intro h
    refine hcut ?_
    exact (List.dropWhile_suffix _).subset ((List.rdropWhile_prefix _ _).subset h)
  cases hsplit : (body line).findIdx? isBlank with
  | none =>
    rw [List.findIdx?_eq_none_iff] at hsplit
    rw [if_pos (by simpa using hsplit)]
  | some i =>
    have hsome : ¬ (!(body line).any isBlank) = true := by
      obtain ⟨hi, hblank, _⟩ := List.findIdx?_eq_some_iff_getElem.mp hsplit
      simpa using ⟨_, List.getElem_mem hi, hblank⟩
    obtain ⟨hname, hvalue⟩ := split_halves_visible hbody hsplit
    rw [← body] at hname hvalue
    obtain ⟨htake, hdrop⟩ := findIdx?_isBlank hsplit
    have hword : ∀ c ∈ (body line).take i, isBlank c = false := by
      intro c hc
      rw [htake] at hc
      have := List.mem_takeWhile_imp hc
      rwa [Bool.not_eq_true'] at this
    have hfirst : trim ((body line).take i) = (body line).take i := by
      rw [trim_eq_strip (fun h => hbnl (List.take_subset _ _ h)), strip_of_none hword]
      intro hall
      obtain ⟨c, s, hcs⟩ := List.exists_cons_of_ne_nil hname
      have hmem : c ∈ (body line).take i := by simp [hcs]
      exact Bool.false_ne_true ((hword c hmem).symm.trans (hall c hmem))
    have hsecond : trim ((body line).drop i) = strip isBlank ((body line).drop i) :=
      trim_eq_strip (fun h => hbnl (List.drop_subset _ _ h)) hvalue
    have hrest : strip isBlank ((body line).drop i) ≠ [] := fun h =>
      hvalue (strip_eq_nil_iff.mp h)
    rw [if_neg hsome]
    simp only [hfirst, hsecond, gsub_escapedHash hname, gsub_escapedHash hrest, bodyPair, ← htake,
      ← hdrop, if_pos (unescape_ne_nil hname)]

end ConfReader

end Nrtb
