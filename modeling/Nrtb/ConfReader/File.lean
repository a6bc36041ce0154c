import Nrtb.ConfReader.Grammar
import Mathlib.Algebra.BigOperators.Group.List.Basic
import Mathlib.Algebra.GroupWithZero.Nat

/-!
# A whole configuration file

`read` over all lines of a file without includes, against the documented pairs
(`cpp/common/confreader/confreader.cpp`, lines 41–101).

The condition is on the lines of the file, and it has to be exact: a file with a line that the code
does not read as documented must come out wrong, whatever the other lines are. One wrong line cannot
be made up for by another, because what is stored weighs something. A line that is read wrongly
loses bytes of its pair, no line ever adds any, and the documented pairs have all of them, so that
the sums differ.

* `lineAction_readable`, `lineAction_lossy`: a `Readable` line is read as documented; any other line
  that does not throw as a blank line loses bytes of its pair.
* `inbuffs_eq`: with lines shorter than the buffer, the buffers are the lines of the file, with at
  most an empty one behind them.
* `read_documented_iff`: the stored values are the documented ones exactly for a `ReadableFile`.
-/

namespace Nrtb

open Search

namespace ConfReader

/-! ## Lines that are read as documented -/

/-- A line the code reads as documented: no `#` in the first column, no NUL in front of the
comment, and either nothing or a name with a value. -/
def Readable (line : Str) : Prop :=
  line.head? ≠ some Ch.hash ∧ Ch.nul ∉ uncomment none line
    ∧ (uncomment none line = [] ∨ ∃ c ∈ body line, isBlank c = true)

/-- A line that is blank, but not empty, once its comment is cut off. -/
def BlankLine (line : Str) : Prop :=
  uncomment none line ≠ [] ∧ ∀ c ∈ uncomment none line, isBlank c = true

instance (line : Str) : Decidable (Readable line) :=
  have : Decidable (∃ c ∈ body line, isBlank c = true) := List.decidableBEx _ _
  inferInstanceAs (Decidable (_ ∧ _ ∧ (_ ∨ _)))

instance (line : Str) : Decidable (BlankLine line) :=
  have : Decidable (∀ c ∈ uncomment none line, isBlank c = true) := List.decidableBAll _ _
  inferInstanceAs (Decidable (_ ∧ _))

theorem Readable.not_blankLine {line : Str} (h : Readable line) : ¬ BlankLine line := by
  rintro ⟨hne, hblank⟩
  rcases h.2.2 with hnil | ⟨c, hc, _⟩
  · exact hne hnil
  · rw [body, strip_eq_nil_iff.mpr hblank] at hc
    cases hc

/-- The lines up to the first blank one are readable, and nothing behind it stores a value. -/
def ReadableFile : List Str → Prop
  | [] => True
  | line :: rest =>
    (Readable line ∧ ReadableFile rest)
      ∨ (BlankLine line ∧ ∀ other ∈ rest, documentedPair other = none)

instance ReadableFile.decidable : (ls : List Str) → Decidable (ReadableFile ls)
  | [] => .isTrue trivial
  | line :: rest =>
    have := ReadableFile.decidable rest
    inferInstanceAs (Decidable ((Readable line ∧ ReadableFile rest)
      ∨ (BlankLine line ∧ ∀ other ∈ rest, documentedPair other = none)))

/-! ## NUL bytes -/

/-- A NUL behind the comment is harmless. -/
theorem uncomment_takeWhile_of_not_mem {line : Str} (prev : Option Byte)
    (h : Ch.nul ∉ uncomment prev line) :
    uncomment prev (line.takeWhile fun c => c != Ch.nul) = uncomment prev line := by
  induction line generalizing prev with
  | nil => rfl
  | cons c s ih =>
    by_cases hc : c = Ch.hash ∧ prev ≠ some Ch.backslash
    · obtain ⟨rfl, hprev⟩ := hc
      have hne : (Ch.hash != Ch.nul) = true := by decide
      rw [List.takeWhile_cons, if_pos hne, uncomment, uncomment, if_pos ⟨rfl, hprev⟩,
        if_pos ⟨rfl, hprev⟩]
    · rw [uncomment, if_neg hc, List.mem_cons, not_or] at h
      have hne : (c != Ch.nul) = true := by simpa using Ne.symm h.1
      rw [List.takeWhile_cons, if_pos hne, uncomment, uncomment, if_neg hc, if_neg hc,
        ih (some c) h.2]

/-- A NUL in front of the comment hides the rest of the line. -/
theorem uncomment_takeWhile_of_mem {line : Str} (prev : Option Byte)
    (h : Ch.nul ∈ uncomment prev line) :
    ∃ more, uncomment prev line
      = uncomment prev (line.takeWhile fun c => c != Ch.nul) ++ Ch.nul :: more := by
  induction line generalizing prev with
  | nil => simp [uncomment] at h
  | cons c s ih =>
    by_cases hc : c = Ch.hash ∧ prev ≠ some Ch.backslash
    · rw [uncomment, if_pos hc] at h
      cases h
    · by_cases hnul : c = Ch.nul
      · subst hnul
        refine ⟨uncomment (some Ch.nul) s, ?_⟩
        rw [uncomment, if_neg hc]
        simp [uncomment]
      · rw [uncomment, if_neg hc, List.mem_cons] at h
        obtain ⟨more, hmore⟩ := ih (some c) (h.resolve_left (Ne.symm hnul))
        have hne : (c != Ch.nul) = true := by simpa using hnul
        refine ⟨more, ?_⟩
        rw [List.takeWhile_cons, if_pos hne, uncomment, uncomment, if_neg hc, if_neg hc, hmore,
          List.cons_append]

/-- Text that does not start with a `#` does not touch what stands in front of it. -/
theorem unescape_append {a b : Str} (hb : b.head? ≠ some Ch.hash) :
    unescape (a ++ b) = unescape a ++ unescape b := by
  fun_induction unescape a with
  | case1 => rfl
  | case2 c =>
    cases b with
    | nil => rfl
    | cons d b =>
      rw [List.cons_append, List.nil_append, unescape, if_neg]
      · rfl
      · rintro ⟨_, rfl⟩
        exact hb rfl
  | case3 c d s h ih => rw [List.cons_append, List.cons_append, unescape, if_pos h, ih]; rfl
  | case4 c d s h ih =>
    rw [List.cons_append, List.cons_append, unescape, if_neg h, ← List.cons_append, ih]
    rfl

/-- The bytes of a pair, and one for the pair itself. -/
def weight (p : Pair) : Nat := p.1.length + p.2.length + 1

/-- The first word of a text that goes on behind it does not change with what is appended. -/
theorem span_append {p : Byte → Bool} {b : Str} (h : b.dropWhile p ≠ []) (s : Str) :
    (b ++ s).takeWhile p = b.takeWhile p ∧ (b ++ s).dropWhile p = b.dropWhile p ++ s := by
  induction b with
  | nil => exact absurd rfl h
  | cons c b ih =>
    cases hc : p c with
    | true =>
      rw [List.dropWhile_cons_of_pos hc] at h
      obtain ⟨htake, hdrop⟩ := ih h
      rw [List.cons_append, List.takeWhile_cons_of_pos hc, List.takeWhile_cons_of_pos hc,
        List.dropWhile_cons_of_pos hc, List.dropWhile_cons_of_pos hc, htake]
      exact ⟨rfl, hdrop⟩
    | false =>
      have hneg : ¬ p c = true := by rw [hc]; exact Bool.false_ne_true
      rw [List.cons_append, List.takeWhile_cons_of_neg hneg, List.takeWhile_cons_of_neg hneg,
        List.dropWhile_cons_of_neg hneg, List.dropWhile_cons_of_neg hneg]
      exact ⟨rfl, rfl⟩

/-- Blanks and a NUL do not start with a comment sign. -/
theorem head?_ne_hash {t : Str} (ht : ∀ c ∈ t, isBlank c = true) (r : Str) :
    (t ++ Ch.nul :: r).head? ≠ some Ch.hash := by
  cases t with
  | nil => simp [Ch.nul, Ch.hash]
  | cons c t =>
    have hc : isBlank c = true := ht c (by simp)
    intro hhead
    rw [List.cons_append, List.head?_cons, Option.some.injEq] at hhead
    rw [hhead] at hc
    cases hc

/-- A pair that goes on with a NUL behind the part the code sees: the name is the same and the
value is longer. -/
theorem bodyPair_append_nul {text : Str} (hvis : ¬ ∀ c ∈ text, isBlank c = true)
    (hpair : ∃ c ∈ strip isBlank text, isBlank c = true) (more : Str) :
    (bodyPair (strip isBlank (text ++ Ch.nul :: more))).1 = (bodyPair (strip isBlank text)).1
      ∧ weight (bodyPair (strip isBlank text))
        < weight (bodyPair (strip isBlank (text ++ Ch.nul :: more))) := by
  have hnul : isBlank Ch.nul = false := by decide
  obtain ⟨t, r, ht, hstrip⟩ :=
    strip_append_of (t := []) hvis (by simp) hnul more
  rw [List.append_nil] at hstrip
  rw [hstrip]
  have hne : strip isBlank text ≠ [] := fun h => hvis (strip_eq_nil_iff.mp h)
  -- split the visible body at its first blank
  obtain ⟨i, hi⟩ : ∃ i, (strip isBlank text).findIdx? isBlank = some i := by
    rw [← Option.ne_none_iff_exists', ne_eq, List.findIdx?_eq_none_iff]
    intro hall
    obtain ⟨c, hc, hblank⟩ := hpair
    rw [hall c hc] at hblank
    cases hblank
  obtain ⟨_, hvalue⟩ := split_halves_visible hne hi
  obtain ⟨htake, hdrop⟩ := findIdx?_isBlank hi
  rw [hdrop] at hvalue
  generalize hb : strip isBlank text = b at *
  have hdne : b.dropWhile (fun c => !isBlank c) ≠ [] := by
    intro h
    rw [h] at hvalue
    simp at hvalue
  obtain ⟨hword, hbehind⟩ := span_append hdne (t ++ Ch.nul :: r)
  have hrest : ((b ++ (t ++ Ch.nul :: r)).dropWhile fun c => !isBlank c)
      = (b.dropWhile fun c => !isBlank c) ++ t ++ Ch.nul :: r := by
    rw [hbehind, List.append_assoc]
  obtain ⟨t', r', ht', hval⟩ := strip_append_of hvalue ht hnul r
  have hpos : 0 < (unescape (t' ++ Ch.nul :: r')).length :=
    List.length_pos_iff.mpr (unescape_ne_nil (by simp))
  refine ⟨by simp only [bodyPair, hword], ?_⟩
  simp only [weight, bodyPair, hword, hrest, hval, unescape_append (head?_ne_hash ht' r'), List.length_append]
  omega

/-! ## One line against the grammar -/

/-- What the loop body does when it follows the grammar. -/
def documentedAction (line : Str) : LineAction :=
  match documentedPair line with
  | none => .ignore
  | some p => if p.1 = includeName then .includeFile p.2 else .insertPair p

theorem head?_takeWhile_hash {line : Str} :
    (line.takeWhile fun c => c != Ch.nul).head? = some Ch.hash ↔ line.head? = some Ch.hash := by
  cases line with
  | nil => simp
  | cons c s =>
    rw [List.takeWhile_cons]
    split
    · simp
    · next h =>
      have hc : c = Ch.nul := by simpa using h
      simp [hc, Ch.nul, Ch.hash]

/-- A `#` in the first column: the loop reads in front of the line. -/
theorem lineAction_hash {line : Str} (hnl : Ch.newline ∉ line) (h : line.head? = some Ch.hash) :
    lineAction line = .undefined := by
  rw [lineAction_eq hnl]
  exact if_pos (head?_takeWhile_hash.mpr h)

/-- A readable line is read as documented. -/
theorem lineAction_readable {line : Str} (hnl : Ch.newline ∉ line) (h : Readable line) :
    lineAction line = documentedAction line := by
  obtain ⟨hcol, hnul, hpair⟩ := h
  have hcut := uncomment_takeWhile_of_not_mem none hnul
  have hbody : body (line.takeWhile fun c => c != Ch.nul) = body line := by
    rw [body, body, hcut]
  rw [lineAction_eq hnl, documentedAction, documentedPair]
  simp only [hcut, hbody, if_neg (fun h => hcol (head?_takeWhile_hash.mp h))]
  rcases hpair with hnil | ⟨c, hc, hblank⟩
  · simp [hnil, body, strip]
  · have hbne : body line ≠ [] := List.ne_nil_of_mem hc
    have hcne : ¬ ∀ c ∈ uncomment none line, isBlank c = true := fun hall =>
      hbne (strip_eq_nil_iff.mpr hall)
    have hcutne : uncomment none line ≠ [] := fun hnil => hcne (by simp [hnil])
    have hsome : ¬ (!(body line).any isBlank) = true := by
      simpa using ⟨c, hc, hblank⟩
    rw [if_neg hcutne, if_neg (mt List.all_eq_true.mp hcne), if_neg hsome, if_neg hbne]

/-- A blank line makes `gsub` throw. It stands for no pair. -/
theorem lineAction_blankLine {line : Str} (hnl : Ch.newline ∉ line) (h : BlankLine line) :
    lineAction line = .throws ∧ documentedPair line = none := by
  obtain ⟨hne, hblank⟩ := h
  have hnul : Ch.nul ∉ uncomment none line := by
    intro hmem
    have := hblank _ hmem
    revert this
    decide
  have hcut := uncomment_takeWhile_of_not_mem none hnul
  have hcol : line.head? ≠ some Ch.hash := by
    intro h
    cases line with
    | nil => cases h
    | cons c s =>
      obtain rfl : c = Ch.hash := by simpa using h
      exact hne (by simp [uncomment])
  constructor
  · rw [lineAction_eq hnl]
    simp only [hcut, if_neg (fun h => hcol (head?_takeWhile_hash.mp h)), if_neg hne,
      if_pos (List.all_eq_true.mpr hblank)]
  · rw [documentedPair, if_pos]
    exact strip_eq_nil_iff.mpr hblank

/-- Any other line stands for a pair of which bytes are lost; an include is still recognised by
its documented name. -/
theorem lineAction_lossy {line : Str} (hnl : Ch.newline ∉ line) (hcol : line.head? ≠ some Ch.hash)
    (hread : ¬ Readable line) (hblank : ¬ BlankLine line) :
    ∃ q, documentedPair line = some q
      ∧ (∀ p, lineAction line = .insertPair p → weight p < weight q)
      ∧ (∀ name, lineAction line = .includeFile name → q.1 = includeName) := by
  by_cases hnul : Ch.nul ∈ uncomment none line
  · -- the code sees the part in front of the NUL
    obtain ⟨more, hmore⟩ := uncomment_takeWhile_of_mem none hnul
    have hbne : body line ≠ [] := by
      intro h
      have := strip_eq_nil_iff.mp h _ hnul
      revert this
      decide
    refine ⟨bodyPair (body line), by rw [documentedPair, if_neg hbne], ?_⟩
    have hlonger : (¬ (uncomment none (line.takeWhile fun c => c != Ch.nul)).all isBlank = true) →
        (¬ (!(body (line.takeWhile fun c => c != Ch.nul)).any isBlank) = true) →
        (bodyPair (body line)).1 = (bodyPair (body (line.takeWhile fun c => c != Ch.nul))).1
          ∧ weight (bodyPair (body (line.takeWhile fun c => c != Ch.nul)))
            < weight (bodyPair (body line)) := by
      intro hvis hsome
      have hpair : ∃ c ∈ body (line.takeWhile fun c => c != Ch.nul), isBlank c = true := by
        simpa using hsome
      rw [body, hmore]
      exact bodyPair_append_nul (mt List.all_eq_true.mpr hvis) hpair more
    have hact := lineAction_eq hnl
    simp only at hact
    constructor
    · intro p hp
      rw [hp] at hact
      split_ifs at hact with _ _ hvis hsome
      rw [LineAction.insertPair.inj hact]
      exact (hlonger hvis hsome).2
    · intro name hname
      rw [hname] at hact
      split_ifs at hact with _ _ hvis hsome hincl
      exact (hlonger hvis hsome).1.trans hincl
  · -- a name without a value
    have hcut := uncomment_takeWhile_of_not_mem none hnul
    have hbody : body (line.takeWhile fun c => c != Ch.nul) = body line := by
      rw [body, body, hcut]
    have hcutne : uncomment none line ≠ [] := fun h => hread ⟨hcol, hnul, .inl h⟩
    have hvis : ¬ ∀ c ∈ uncomment none line, isBlank c = true := fun h => hblank ⟨hcutne, h⟩
    have hbne : body line ≠ [] := fun h => hvis (strip_eq_nil_iff.mp h)
    have hword : (!(body line).any isBlank) = true := by
      rw [Bool.not_eq_true', List.any_eq_false]
      intro c hc hblank
      exact hread ⟨hcol, hnul, .inr ⟨c, hc, hblank⟩⟩
    have hignore : lineAction line = .ignore := by
      rw [lineAction_eq hnl]
      simp only [hcut, hbody, if_neg (fun h => hcol (head?_takeWhile_hash.mp h)), if_neg hcutne,
        if_neg (mt List.all_eq_true.mp hvis), if_pos hword]
    refine ⟨bodyPair (body line), by rw [documentedPair, if_neg hbne], ?_, ?_⟩
    · intro p hp
      rw [hignore] at hp
      cases hp
    · intro n hn
      rw [hignore] at hn
      cases hn

/-! ## The line loop without includes -/

/-- The pairs the loop inserts, in order, until it is left. -/
def storedPairs : List Str → List Pair
  | [] => []
  | line :: rest =>
    match lineAction line with
    | .insertPair p => p :: storedPairs rest
    | .throws => []
    | .undefined => []
    | _ => storedPairs rest

/-- The loop stays within the defined behaviour. -/
def Defined : List Str → Prop
  | [] => True
  | line :: rest =>
    match lineAction line with
    | .throws => True
    | .undefined => False
    | _ => Defined rest

instance Defined.decidable : (ls : List Str) → Decidable (Defined ls)
  | [] => .isTrue trivial
  | line :: rest =>
    match h : lineAction line with
    | .ignore => @decidable_of_iff _ _ (by rw [Defined, h]) (Defined.decidable rest)
    | .includeFile _ => @decidable_of_iff _ _ (by rw [Defined, h]) (Defined.decidable rest)
    | .insertPair _ => @decidable_of_iff _ _ (by rw [Defined, h]) (Defined.decidable rest)
    | .throws => .isTrue (by rw [Defined, h]; trivial)
    | .undefined => .isFalse (by rw [Defined, h]; exact id)

section Loop

variable {inc : Str → ConfReader → Outcome ConfReader}

theorem readLines_of_defined {ls : List Str}
    (hinc : ∀ l ∈ ls, ∀ name, lineAction l ≠ .includeFile name) (h : Defined ls)
    (self : ConfReader) :
    readLines inc ls self
      = .done { self with
          values := (storedPairs ls).foldl (fun v p => Multimap.insert p v) self.values } := by
  induction ls generalizing self with
  | nil => rfl
  | cons line rest ih =>
    have hrest := ih fun l hl => hinc l (List.mem_cons_of_mem _ hl)
    rw [readLines, storedPairs]
    rw [Defined] at h
    cases hact : lineAction line with
    | ignore => rw [hact] at h; exact hrest h self
    | includeFile name => exact absurd hact (hinc line (by simp) name)
    | insertPair p => rw [hact] at h; exact hrest h _
    | throws => rfl
    | undefined => rw [hact] at h; exact h.elim

theorem readLines_of_not_defined {ls : List Str}
    (hinc : ∀ l ∈ ls, ∀ name, lineAction l ≠ .includeFile name) (h : ¬ Defined ls)
    (self : ConfReader) : readLines inc ls self = .undefined := by
  induction ls generalizing self with
  | nil => exact absurd trivial h
  | cons line rest ih =>
    have hrest := ih fun l hl => hinc l (List.mem_cons_of_mem _ hl)
    rw [readLines]
    rw [Defined] at h
    cases hact : lineAction line with
    | ignore => rw [hact] at h; exact hrest h self
    | includeFile name => exact absurd hact (hinc line (by simp) name)
    | insertPair p => rw [hact] at h; exact hrest h _
    | throws => rw [hact] at h; exact absurd trivial h
    | undefined => rfl

/-- An empty buffer behind the last line changes nothing. -/
theorem readLines_append_empty (ls : List Str) (self : ConfReader) :
    readLines inc (ls ++ [[]]) self = readLines inc ls self := by
  induction ls generalizing self with
  | nil =>
    have hact : lineAction [] = .ignore := by
      rw [lineAction_eq (by simp)]
      simp [uncomment]
    simp [readLines, hact]
  | cons line rest ih =>
    rw [List.cons_append, readLines, readLines]
    cases lineAction line with
    | ignore => exact ih self
    | includeFile name =>
      dsimp only
      congr 1
      exact funext ih
    | insertPair p => exact ih _
    | throws => rfl
    | undefined => rfl

end Loop

/-! ## The weight of what is stored -/

/-- All bytes of a list of pairs. -/
def totalWeight (pairs : List Pair) : Nat := (pairs.map weight).sum

@[simp] theorem totalWeight_nil : totalWeight [] = 0 := rfl

@[simp] theorem totalWeight_cons (p : Pair) (pairs : List Pair) :
    totalWeight (p :: pairs) = weight p + totalWeight pairs := by
  simp [totalWeight]

theorem totalWeight_perm {a b : List Pair} (h : a.Perm b) : totalWeight a = totalWeight b :=
  (h.map weight).sum_eq

theorem totalWeight_eq_zero_iff {pairs : List Pair} : totalWeight pairs = 0 ↔ pairs = [] := by
  cases pairs with
  | nil => simp
  | cons p pairs => simp [weight]

section Weight

variable {ls : List Str} (hnl : ∀ l ∈ ls, Ch.newline ∉ l)
  (hinc : ∀ l ∈ ls, ∀ p, documentedPair l = some p → p.1 ≠ includeName)

include hnl hinc

/-- Without documented includes the loop does not include. -/
theorem lineAction_ne_include : ∀ l ∈ ls, ∀ name, lineAction l ≠ .includeFile name := by
  intro l hl name hact
  by_cases hcol : l.head? = some Ch.hash
  · rw [lineAction_hash (hnl l hl) hcol] at hact
    cases hact
  by_cases hread : Readable l
  · rw [lineAction_readable (hnl l hl) hread, documentedAction] at hact
    cases hp : documentedPair l with
    | none => rw [hp] at hact; cases hact
    | some p =>
      rw [hp] at hact
      simp only [if_neg (hinc l hl p hp)] at hact
      cases hact
  by_cases hblank : BlankLine l
  · rw [(lineAction_blankLine (hnl l hl) hblank).1] at hact
    cases hact
  obtain ⟨q, hq, _, hname⟩ := lineAction_lossy (hnl l hl) hcol hread hblank
  exact hinc l hl q hq (hname name hact)

/-- The loop stores no more bytes than the file documents. -/
theorem totalWeight_storedPairs_le :
    totalWeight (storedPairs ls) ≤ totalWeight (ls.filterMap documentedPair) := by
  induction ls with
  | nil => exact le_rfl
  | cons line rest ih =>
    have hline := hnl line (by simp)
    have hrest := ih (fun l hl => hnl l (List.mem_cons_of_mem _ hl))
      fun l hl => hinc l (List.mem_cons_of_mem _ hl)
    rw [storedPairs, List.filterMap_cons]
    by_cases hcol : line.head? = some Ch.hash
    · simp [lineAction_hash hline hcol]
    by_cases hread : Readable line
    · rw [lineAction_readable hline hread, documentedAction]
      cases hp : documentedPair line with
      | none => exact hrest
      | some p =>
        simp only [if_neg (hinc line (by simp) p hp), totalWeight_cons]
        exact Nat.add_le_add_left hrest _
    by_cases hblank : BlankLine line
    · simp [(lineAction_blankLine hline hblank).1]
    obtain ⟨q, hq, hweight, hname⟩ := lineAction_lossy hline hcol hread hblank
    rw [hq]
    cases hact : lineAction line with
    | ignore => exact hrest.trans (by simp)
    | includeFile name => exact absurd (hname name hact) (hinc line (by simp) q hq)
    | insertPair p =>
      have := hweight p hact
      simp only [totalWeight_cons]
      omega
    | throws => exact Nat.zero_le _
    | undefined => exact Nat.zero_le _

/-- The loop stores every documented byte exactly on a `ReadableFile`. -/
theorem totalWeight_storedPairs_eq_iff :
    (Defined ls ∧ totalWeight (storedPairs ls) = totalWeight (ls.filterMap documentedPair))
      ↔ ReadableFile ls := by
  induction ls with
  | nil => simp [Defined, ReadableFile, storedPairs]
  | cons line rest ih =>
    have hline := hnl line (by simp)
    have hnl' : ∀ l ∈ rest, Ch.newline ∉ l := fun l hl => hnl l (List.mem_cons_of_mem _ hl)
    have hinc' : ∀ l ∈ rest, ∀ p, documentedPair l = some p → p.1 ≠ includeName :=
      fun l hl => hinc l (List.mem_cons_of_mem _ hl)
    rw [Defined, storedPairs, List.filterMap_cons, ReadableFile, ← ih hnl' hinc']
    by_cases hread : Readable line
    · have hnot : ¬ BlankLine line := hread.not_blankLine
      rw [lineAction_readable hline hread, documentedAction]
      cases hp : documentedPair line with
      | none => simp [hread, hnot]
      | some p => simp [hread, hnot, hinc line (by simp) p hp]
    by_cases hblank : BlankLine line
    · -- the loop is left here
      obtain ⟨hact, hnone⟩ := lineAction_blankLine hline hblank
      simp only [hact, hnone, hread, hblank, false_and, true_and, false_or, totalWeight_nil]
      rw [eq_comm, totalWeight_eq_zero_iff, List.filterMap_eq_nil_iff]
    simp only [hread, hblank, false_and, or_self, iff_false]
    by_cases hcol : line.head? = some Ch.hash
    · simp [lineAction_hash hline hcol]
    obtain ⟨q, hq, hweight, hname⟩ := lineAction_lossy hline hcol hread hblank
    have hle := totalWeight_storedPairs_le hnl' hinc'
    have hpos : 0 < weight q := Nat.succ_pos _
    rw [hq]
    cases hact : lineAction line with
    | ignore => simp only [totalWeight_cons]; omega
    | includeFile name => exact absurd (hname name hact) (hinc line (by simp) q hq)
    | insertPair p =>
      have := hweight p hact
      simp only [totalWeight_cons]
      omega
    | throws => simp only [totalWeight_cons, totalWeight_nil]; omega
    | undefined => simp

/-- On a `ReadableFile` the loop stores the documented pairs, in file order. -/
theorem storedPairs_of_readableFile (h : ReadableFile ls) :
    storedPairs ls = ls.filterMap documentedPair := by
  induction ls with
  | nil => rfl
  | cons line rest ih =>
    have hline := hnl line (by simp)
    rw [storedPairs, List.filterMap_cons]
    rcases h with ⟨hread, hrest⟩ | ⟨hblank, hnone⟩
    · have hrest := ih (fun l hl => hnl l (List.mem_cons_of_mem _ hl))
        (fun l hl => hinc l (List.mem_cons_of_mem _ hl)) hrest
      rw [lineAction_readable hline hread, documentedAction]
      cases hp : documentedPair line with
      | none => exact hrest
      | some p => simp only [if_neg (hinc line (by simp) p hp), hrest]
    · obtain ⟨hact, hpair⟩ := lineAction_blankLine hline hblank
      rw [hact, hpair]
      exact (List.filterMap_eq_nil_iff.mpr hnone).symm

end Weight

/-! ## The buffers of a file -/

theorem newline_not_mem_of_mem_lines {content l : Str} (hl : l ∈ lines content) :
    Ch.newline ∉ l := by
  induction content generalizing l with
  | nil =>
    obtain rfl : l = [] := by simpa [lines] using hl
    exact List.not_mem_nil
  | cons c s ih =>
    rw [lines, List.splitOn_cons_eq_if_modifyHead] at hl
    split at hl
    · rcases List.mem_cons.mp hl with rfl | hl
      · exact List.not_mem_nil
      · exact ih hl
    · next hc =>
      obtain ⟨first, rest, hsplit⟩ := List.exists_cons_of_ne_nil (List.splitOn_ne_nil Ch.newline s)
      rw [hsplit, List.modifyHead_cons] at hl
      rw [lines, hsplit] at ih
      rcases List.mem_cons.mp hl with rfl | hl
      · have hfirst := ih (l := first) (by simp)
        have hne : Ch.newline ≠ c := fun h => hc (by simp [h])
        simp [hne, hfirst]
      · exact ih (List.mem_cons_of_mem _ hl)

theorem lines_of_no_newline {s : Str} (h : Ch.newline ∉ s) : lines s = [s] :=
  List.splitOn_eq_singleton h

theorem lines_append_newline {line : Str} (h : Ch.newline ∉ line) (s : Str) :
    lines (line ++ Ch.newline :: s) = line :: lines s := by
  rw [lines, List.splitOn_append_cons_self, List.splitOn_eq_singleton h]
  rfl

/-- The first line and what is behind its terminator. -/
theorem takeWhile_newline_cases (content : Str) :
    (content = content.takeWhile fun c => c != Ch.newline)
      ∨ ∃ rest, content = (content.takeWhile fun c => c != Ch.newline) ++ Ch.newline :: rest := by
  induction content with
  | nil => exact .inl rfl
  | cons c s ih =>
    by_cases hc : c = Ch.newline
    · subst hc
      exact .inr ⟨s, by simp⟩
    · have hne : (c != Ch.newline) = true := by simpa using hc
      rw [List.takeWhile_cons, if_pos hne]
      rcases ih with hs | ⟨rest, hs⟩
      · exact .inl (congrArg _ hs)
      · exact .inr ⟨rest, congrArg _ hs⟩

theorem newline_not_mem_takeWhile (content : Str) :
    Ch.newline ∉ content.takeWhile fun c => c != Ch.newline := by
  intro h
  simpa using List.mem_takeWhile_imp h

theorem takeWhile_newline_mem_lines (content : Str) :
    (content.takeWhile fun c => c != Ch.newline) ∈ lines content := by
  have hline := newline_not_mem_takeWhile content
  have hcases := takeWhile_newline_cases content
  generalize (content.takeWhile fun c => c != Ch.newline) = line at hline hcases ⊢
  rcases hcases with hs | ⟨rest, hs⟩
  · rw [hs, lines_of_no_newline hline]
    exact List.mem_singleton_self _
  · rw [hs, lines_append_newline hline]
    exact List.mem_cons_self

/-- With lines that fit, the buffers are the lines, with at most an empty buffer behind them. -/
theorem inbuffs_eq (content : Str) (h : ∀ l ∈ lines content, l.length < bufSize) :
    ∃ tail, (tail = [] ∨ tail = [[]]) ∧ inbuffs content = lines content ++ tail := by
  fun_induction inbuffs content with
  | case1 => exact ⟨[], .inl rfl, rfl⟩
  | case2 content hne line hlt ih =>
    have hline : Ch.newline ∉ line := newline_not_mem_takeWhile content
    have hcases : content = line ∨ ∃ rest, content = line ++ Ch.newline :: rest :=
      takeWhile_newline_cases content
    clear_value line
    rcases hcases with hall | ⟨rest, hsplit⟩
    · -- the last line has no terminator: one more buffer, an empty one
      subst hall
      rw [lines_of_no_newline hline, List.drop_eq_nil_of_le (by omega), inbuffs, if_pos rfl]
      exact ⟨[[]], .inr rfl, rfl⟩
    · have hdrop : content.drop (line.length + 1) = rest := by
        simp [hsplit, List.drop_append]
      rw [hdrop] at ih ⊢
      rw [hsplit, lines_append_newline hline] at h ⊢
      obtain ⟨tail, htail, hrest⟩ := ih fun l hl => h l (List.mem_cons_of_mem _ hl)
      exact ⟨tail, htail, by rw [hrest]; rfl⟩
  | case3 content hne line hge =>
    -- such a line does not fit
    have hmem : line ∈ lines content := takeWhile_newline_mem_lines content
    exact absurd (h line hmem) hge

/-! ## `read` on one file -/

/-- The multimap holds the given pairs and no others, those of one name in the given order. -/
def StoresExactly (values pairs : List Pair) : Prop :=
  ∀ name, values.filter (fun p => p.1 = name) = pairs.filter (fun p => p.1 = name)

theorem StoresExactly.perm {values pairs : List Pair} (h : StoresExactly values pairs) :
    values.Perm pairs := by
  rw [List.perm_iff_count]
  intro p
  have hname := congrArg (List.count p) (h p.1)
  rwa [List.count_filter (by simp), List.count_filter (by simp)] at hname

theorem storesExactly_ofList (pairs : List Pair) :
    StoresExactly (Multimap.ofList pairs) pairs :=
  Multimap.filter_ofList pairs

section Read

variable {fs : Str → Option Str} {depth : Nat} {fname content : Str} {self : ConfReader}
  (hname : fname ≠ []) (hfile : fs fname = some content)
  (hfit : ∀ l ∈ lines content, l.length < bufSize)
  (hinc : ∀ l ∈ lines content, ∀ p, documentedPair l = some p → p.1 ≠ includeName)

include hname hfile hfit hinc

/-- `read` on a file without includes: the line loop over its lines. -/
theorem read_eq :
    read fs (depth + 1) fname true self
      = if Defined (lines content) then
          .done (⟨Multimap.ofList (storedPairs (lines content)), fname⟩,
            (Multimap.ofList (storedPairs (lines content))).length % 2 ^ 32)
        else .undefined := by
  have hnotInc := lineAction_ne_include (fun l hl => newline_not_mem_of_mem_lines hl) hinc
  obtain ⟨tail, htail, hbuffs⟩ := inbuffs_eq content hfit
  have hloop : ∀ inc s, readLines inc (inbuffs content) s = readLines inc (lines content) s := by
    intro inc s
    rw [hbuffs]
    rcases htail with rfl | rfl
    · rw [List.append_nil]
    · exact readLines_append_empty _ s
  simp only [read, if_pos hname, hfile, if_true, hloop]
  by_cases hdef : Defined (lines content)
  · rw [readLines_of_defined hnotInc hdef, if_pos hdef]
    rfl
  · rw [readLines_of_not_defined hnotInc hdef, if_neg hdef]
    rfl

/-- A readable file stores the documented pairs. -/
theorem read_stores (hread : ReadableFile (lines content)) :
    ∃ after, read fs (depth + 1) fname true self = .done after
      ∧ StoresExactly after.1.values ((lines content).filterMap documentedPair) := by
  have hnl : ∀ l ∈ lines content, Ch.newline ∉ l := fun l hl => newline_not_mem_of_mem_lines hl
  have hweight := totalWeight_storedPairs_eq_iff hnl hinc
  rw [read_eq hname hfile hfit hinc, if_pos (hweight.mpr hread).1]
  refine ⟨_, rfl, ?_⟩
  rw [storedPairs_of_readableFile hnl hinc hread]
  exact storesExactly_ofList _

/-- `conf_reader::read(filename)` stores exactly the documented pairs, in file order, if and only if
the file is a `ReadableFile`. For such a file this is line by line; for any other one the stored
pairs weigh less than the documented ones, or the loop leaves the defined behaviour. -/
theorem read_documented_iff :
    (∃ after, read fs (depth + 1) fname true self = .done after
        ∧ StoresExactly after.1.values ((lines content).filterMap documentedPair))
      ↔ ReadableFile (lines content) := by
  have hnl : ∀ l ∈ lines content, Ch.newline ∉ l := fun l hl => newline_not_mem_of_mem_lines hl
  have hweight := totalWeight_storedPairs_eq_iff hnl hinc
  refine ⟨?_, read_stores hname hfile hfit hinc⟩
  rw [read_eq hname hfile hfit hinc]
  rintro ⟨after, hdone, hstores⟩
  split_ifs at hdone with hdef
  cases hdone
  refine hweight.mp ⟨hdef, ?_⟩
  calc totalWeight (storedPairs (lines content))
      = totalWeight (Multimap.ofList (storedPairs (lines content))) :=
        (totalWeight_perm (Multimap.ofList_perm _)).symm
    _ = totalWeight ((lines content).filterMap documentedPair) := totalWeight_perm hstores.perm

end Read

/-- Every name opens the same file. -/
def oneFile (content : Str) : Str → Option Str := fun _ => some content

/-- `"port 80\t# web\n\nname \#1\n"` -/
def sampleFile : Str :=
  [112, 111, 114, 116, 32, 56, 48, 9, 35, 32, 119, 101, 98, 10, 10,
    110, 97, 109, 101, 32, 92, 35, 49, 10]

/-- A comment, an empty line and an escaped `#`: all read as documented. -/
theorem read_documented_sample :
    (lines sampleFile).filterMap documentedPair
        = [([112, 111, 114, 116], [56, 48]), ([110, 97, 109, 101], [35, 49])]
      ∧ ∃ after, read (oneFile sampleFile) 1 [99] true ⟨[], []⟩ = .done after
        ∧ StoresExactly after.1.values ((lines sampleFile).filterMap documentedPair) := by
  have hfile : oneFile sampleFile [99] = some sampleFile := rfl
  exact ⟨by decide, (read_documented_iff (by decide) hfile (by decide) (by decide)).mpr (by decide)⟩

/-- `"  \nport 80\n"` -/
def blankLineFile : Str := [32, 32, 10, 112, 111, 114, 116, 32, 56, 48, 10]

/-- The whitespace-only line hides the pair behind it. -/
theorem read_blankLine_loses :
    (lines blankLineFile).filterMap documentedPair = [([112, 111, 114, 116], [56, 48])]
      ∧ read (oneFile blankLineFile) 1 [99] true ⟨[], []⟩ = .done (⟨[], [99]⟩, 0) := by
  refine ⟨by decide, ?_⟩
  have hlines : lines blankLineFile = [[32, 32], [112, 111, 114, 116, 32, 56, 48], []] := by decide
  have hthrows : lineAction [32, 32] = .throws :=
    (lineAction_blankLine (by decide) (by decide)).1
  have hdef : Defined (lines blankLineFile) := by
    rw [hlines, Defined, hthrows]
    trivial
  have hstored : storedPairs (lines blankLineFile) = [] := by
    rw [hlines, storedPairs, hthrows]
  have hfile : oneFile blankLineFile [99] = some blankLineFile := rfl
  rw [read_eq (by decide) hfile (by decide) (by decide), if_pos hdef, hstored]
  rfl

end ConfReader

end Nrtb
