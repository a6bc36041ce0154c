import Mathlib.Data.List.Basic
import Mathlib.Data.List.TakeWhile

/-!
# Formatted extraction

Reading numbers from an input stream: white space is skipped, the number at the start of the word
behind it is taken off, and nothing is read any more after a failure. How the characters of a word
are read as a number is a parameter, the `num_get` of the type.

* `number_glue_nil`, `number_glue_cons`: reading from words that are put one behind the other.
* `numbers_glue_iff`: when the numbers that are read one after the other are those at the start of
  given words, by induction on the words (`Reads`).
* `reads_three_iff`: for three words, the cases in which that is so (`InPlace`). There is the one
  that is meant, in which every number comes from its own word. In the others a number is taken from
  a word that is not its own and happens to be the same.
-/

namespace Nrtb.Istream

variable {α T : Type*}

/-- What the start of a word is as a number. -/
inductive Scan (T : Type*) where
  -- a number in so many characters
  | good (v : T) (used : Nat)
  -- no number of the type; what is stored all the same
  | bad (stored : T)

/-- What is left to read, and whether an extraction has failed. -/
structure State (α : Type*) where
  text : List α
  failed : Bool

section Extraction

variable (space : α → Bool) (scan : List α → Scan T)

/-- The first word of a text, and what is behind it. -/
def word (text : List α) : List α × List α :=
  let text := text.dropWhile space
  (text.takeWhile fun c => !space c, text.dropWhile fun c => !space c)

/-- `stream >> target` for a number: what is stored, if anything. -/
def number (f : State α) : Option T × State α :=
  if f.failed then (none, f)
  else
    let (w, rest) := word space f.text
    if w.isEmpty then (none, ⟨[], true⟩)
    else match scan w with
      | .good v used => (some v, ⟨w.drop used ++ rest, false⟩)
      | .bad v => (some v, ⟨w ++ rest, true⟩)

/-- One extraction after the other. -/
def numbers : Nat → State α → List (Option T)
  | 0, _ => []
  | n + 1, f => (number space scan f).1 :: numbers n (number space scan f).2

theorem number_failed {f : State α} (h : f.failed = true) : number space scan f = (none, f) :=
  if_pos h

/-- A word in front of a character between words. -/
theorem word_append {w : List α} {c : α} (hw : ∀ d ∈ w, space d = false) (hne : w ≠ [])
    (hc : space c = true) (rest : List α) :
    word space (w ++ c :: rest) = (w, c :: rest) := by
  have hdrop : (w ++ c :: rest).dropWhile space = w ++ c :: rest := by
    cases w with
    | nil => exact absurd rfl hne
    | cons d w => rw [List.cons_append, List.dropWhile_cons_of_neg (by simp [hw d (by simp)])]
  have hall : ∀ d ∈ w, (!space d) = true := fun d hd => by rw [hw d hd]; rfl
  have htake : (c :: rest).takeWhile (fun d => !space d) = [] := by simp [hc]
  have hrest : (c :: rest).dropWhile (fun d => !space d) = c :: rest := by simp [hc]
  unfold word
  simp only [hdrop, List.takeWhile_append_of_pos hall, List.dropWhile_append_of_pos hall, htake,
    hrest, List.append_nil]

/-- A word that stands at the beginning. -/
theorem word_initial {w rest : List α} (hw : ∀ d ∈ w, space d = false) (hne : w ≠ [])
    (hrest : rest.head?.all space = true) : word space (w ++ rest) = (w, rest) := by
  cases rest with
  | cons c rest => exact word_append space hw hne (by simpa using hrest) rest
  | nil =>
    have hall : ∀ d ∈ w, (!space d) = true := fun d hd => by rw [hw d hd]; rfl
    have hdrop : w.dropWhile space = w := by
      cases w with
      | nil => rfl
      | cons d w => rw [List.dropWhile_cons_of_neg (by simp [hw d (by simp)])]
    unfold word
    simp only [List.append_nil, hdrop, List.takeWhile_eq_self_iff.mpr hall,
      List.dropWhile_eq_nil_iff.mpr hall]

theorem word_cons_space {c : α} (hc : space c = true) (text : List α) :
    word space (c :: text) = word space text := by
  unfold word
  rw [List.dropWhile_cons_of_pos hc]

/-- A number that a word is to its end, behind white space. -/
theorem number_word {c : α} {w rest : List α} {v : T} (hc : space c = true)
    (hw : ∀ d ∈ w, space d = false) (hne : w ≠ []) (hrest : rest.head?.all space = true)
    (hscan : scan w = .good v w.length) :
    number space scan ⟨c :: (w ++ rest), false⟩ = (some v, ⟨rest, false⟩) := by
  unfold number
  simp only [word_cons_space space hc, word_initial space hw hne hrest, Bool.false_eq_true,
    if_false, List.isEmpty_eq_false_iff.mpr hne, hscan, List.drop_length, List.nil_append]

/-- What a text converts to; nothing when there is no number. -/
def converts (text : List α) : Option T :=
  if (word space text).1.isEmpty then none
  else match scan (word space text).1 with
    | .good v _ => some v
    | .bad _ => none

/-- A text that converts is read as what it converts to. -/
theorem number_of_converts {text : List α} {v : T} (h : converts space scan text = some v) :
    (number space scan ⟨text, false⟩).1 = some v := by
  unfold converts at h
  unfold number
  split at h
  · cases h
  · next hne =>
    simp only [Bool.false_eq_true, if_false, if_neg hne]
    cases hscan : scan (word space text).1 with
    | good w used =>
      rw [hscan] at h
      exact h
    | bad w =>
      rw [hscan] at h
      cases h

/-- The number that a text starts with; nothing when its first word is no number to its end. -/
def numeral (text : List α) : Option T :=
  if (word space text).1.isEmpty then none
  else match scan (word space text).1 with
    | .good v used => if used = (word space text).1.length then some v else none
    | .bad _ => none

theorem converts_of_numeral {text : List α} {v : T} (h : numeral space scan text = some v) :
    converts space scan text = some v := by
  unfold numeral at h
  unfold converts
  split at h
  · cases h
  · next hne =>
    rw [if_neg hne]
    cases hscan : scan (word space text).1 with
    | good w used =>
      rw [hscan] at h
      exact (Option.ite_none_right_eq_some.mp h).2
    | bad w =>
      rw [hscan] at h
      cases h

end Extraction

/-! ## Words one behind the other -/

/-- The words, each with a separator behind it. -/
def glue (sep : α) (ws : List (List α)) : List α := ws.flatMap fun w => w ++ [sep]

theorem glue_cons (sep : α) (w : List α) (ws : List (List α)) :
    glue sep (w :: ws) = w ++ sep :: glue sep ws := by
  rw [glue, List.flatMap_cons, List.append_assoc]
  rfl

section Words

variable (space : α → Bool) (scan : List α → Scan T) {sep : α} (hsep : space sep = true)

include hsep

/-- An empty word is passed over. -/
theorem number_glue_nil (ws : List (List α)) :
    number space scan ⟨glue sep ([] :: ws), false⟩ = number space scan ⟨glue sep ws, false⟩ := by
  have hword : word space (glue sep ([] :: ws)) = word space (glue sep ws) := by
    rw [glue_cons, List.nil_append, word, word, List.dropWhile_cons_of_pos hsep]
  simp only [number, hword, Bool.false_eq_true, if_false]

/-- The number at the start of the first word; the next one is looked for behind it, in the same
word. -/
theorem number_glue_cons {w : List α} (hw : ∀ c ∈ w, space c = false) (hne : w ≠ [])
    (ws : List (List α)) :
    number space scan ⟨glue sep (w :: ws), false⟩ = match scan w with
      | .good v used => (some v, ⟨glue sep (w.drop used :: ws), false⟩)
      | .bad v => (some v, ⟨glue sep (w :: ws), true⟩) := by
  have hword : word space (w ++ sep :: glue sep ws) = (w, sep :: glue sep ws) :=
    word_append space hw hne hsep _
  simp only [number, glue_cons, hword, Bool.false_eq_true, if_false,
    List.isEmpty_eq_false_iff.mpr hne]

end Words

/-! ## Numbers of given words -/

section Reads

variable [Zero T] (scan : List α → Scan T)

/-- The number at the start of a word, or zero. -/
def start (w : List α) : T :=
  if w.isEmpty then 0
  else match scan w with
    | .good v _ => v
    | .bad _ => 0

/-- Reading on from the words `ws` gives the numbers at the start of the words of the second
list, one after the other. -/
def Reads : List (List α) → List (List α) → Prop
  | _, [] => True
  | ws, p :: ps =>
    match ws.dropWhile List.isEmpty with
    | [] => False
    | w :: ws =>
      match scan w with
      | .good v used => v = start scan p ∧ Reads (w.drop used :: ws) ps
      -- behind a failure nothing is read
      | .bad v => v = start scan p ∧ ps = []

theorem reads_nil_cons (ws ps : List (List α)) : Reads scan ([] :: ws) ps ↔ Reads scan ws ps := by
  cases ps with
  | nil => rw [Reads, Reads]
  | cons p ps => rw [Reads, Reads, List.dropWhile_cons_of_pos rfl]

variable {space : α → Bool} {sep : α}

omit [Zero T] in
theorem numbers_failed {f : State α} (h : f.failed = true) (n : Nat) :
    numbers space scan n f = List.replicate n none := by
  induction n with
  | zero => rfl
  | succ n ih => rw [numbers, number_failed space scan h, ih, List.replicate_succ]

omit [Zero T] in
theorem number_dropWhile (hsep : space sep = true) (ws : List (List α)) :
    number space scan ⟨glue sep ws, false⟩
      = number space scan ⟨glue sep (ws.dropWhile List.isEmpty), false⟩ := by
  induction ws with
  | nil => rfl
  | cons w ws ih =>
    cases w with
    | nil => rw [number_glue_nil space scan hsep, ih, List.dropWhile_cons_of_pos rfl]
    | cons c w => rw [List.dropWhile_cons_of_neg (by simp)]

/-- What is read from words one behind the other is what stands at the start of the words of a
list exactly when it goes on so word after word. -/
theorem numbers_glue_iff (hsep : space sep = true) {ws ps : List (List α)}
    (hws : ∀ w ∈ ws, ∀ c ∈ w, space c = false) :
    numbers space scan ps.length ⟨glue sep ws, false⟩ = ps.map (fun p => some (start scan p))
      ↔ Reads scan ws ps := by
  induction ps generalizing ws with
  | nil => simp [numbers, Reads]
  | cons p ps ih =>
    rw [List.length_cons, numbers, List.map_cons, List.cons_eq_cons, Reads,
      number_dropWhile scan hsep]
    have hmem : ∀ w ∈ ws.dropWhile List.isEmpty, ∀ c ∈ w, space c = false := fun w hw =>
      hws w ((List.dropWhile_suffix _).subset hw)
    cases hcut : ws.dropWhile List.isEmpty with
    | nil => simp [glue, number, word]
    | cons w rest =>
      rw [hcut] at hmem
      have hne : w ≠ [] := by
        have := List.head_dropWhile_not List.isEmpty (l := ws) (by simp [hcut])
        simpa [hcut] using this
      rw [number_glue_cons space scan hsep (hmem w (by simp)) hne]
      cases hscan : scan w with
      | good v used =>
        have hrest : ∀ u ∈ w.drop used :: rest, ∀ c ∈ u, space c = false := by
          intro u hu
          rcases List.mem_cons.mp hu with rfl | hu
          · exact fun c hc => hmem w (by simp) c (List.mem_of_mem_drop hc)
          · exact hmem u (by simp [hu])
        simp only [Option.some.injEq, hscan]
        exact and_congr_right' (ih hrest)
      | bad v =>
        simp only [Option.some.injEq, hscan, numbers_failed scan (f := ⟨_, true⟩) rfl]
        cases ps with
        | nil => simp
        | cons q ps => simp [List.replicate_succ]

end Reads

/-! ## Three words -/

section Three

variable [Zero T] (scan : List α → Scan T)

/-- A word begins with the number `v`, and `rest` stands behind it. -/
def Cut (w : List α) (v : T) (rest : List α) : Prop :=
  w ≠ [] ∧ ∃ used, scan w = .good v used ∧ w.drop used = rest

/-- From a word `v` is stored, whether it begins with a number or not. -/
def Stores (w : List α) (v : T) : Prop :=
  w ≠ [] ∧ (scan w = .bad v ∨ ∃ used, scan w = .good v used)

/-- Three words, from which three numbers are read one after the other, each as the number of its
own word. -/
inductive InPlace : List α → List α → List α → Prop
  -- the first two words are numerals to their end, and there is a third one
  | own {p q r : List α} {v w : T} (hp : Cut scan p v []) (hq : Cut scan q w [])
      (hr : Stores scan r (start scan r)) : InPlace p q r
  -- what follows the number in the second word reads like the third word
  | secondGoesOn {p q q' r : List α} {v w : T} (hp : Cut scan p v []) (hq : Cut scan q w q')
      (hr : Stores scan q' (start scan r)) : InPlace p q r
  -- the second word is empty, and the third one reads as two zeros
  | secondEmpty {p r r' : List α} {v : T} (hp : Cut scan p v []) (hr : Cut scan r 0 r')
      (hr' : Stores scan r' 0) : InPlace p [] r
  -- what follows the number in the first word reads like the other two words
  | firstGoesOn {p p' p'' q r : List α} {v : T} (hp : Cut scan p v p')
      (hp' : Cut scan p' (start scan q) p'') (hr : Stores scan p'' (start scan r)) : InPlace p q r
  -- it reads like the second word, and the second word reads like the third
  | firstIsSecond {p p' q r : List α} {v : T} (hp : Cut scan p v p')
      (hp' : Cut scan p' (start scan q) []) (hr : Stores scan q (start scan r)) : InPlace p q r
  -- it reads as zero, and the second word is empty
  | firstForEmpty {p p' r : List α} {v : T} (hp : Cut scan p v p') (hp' : Cut scan p' 0 [])
      (hr : Stores scan r (start scan r)) : InPlace p [] r
  -- the first word is empty, and the second one reads as two zeros and then like the third word
  | firstEmpty {q q' q'' r : List α} (hq : Cut scan q 0 q') (hq' : Cut scan q' 0 q'')
      (hr : Stores scan q'' (start scan r)) : InPlace [] q r
  -- the second one reads as two zeros and nothing more
  | firstEmptySecond {q q' r : List α} (hq : Cut scan q 0 q') (hq' : Cut scan q' 0 [])
      (hr : Stores scan r (start scan r)) : InPlace [] q r
  -- the second one is a zero, and the third one reads as two
  | firstEmptyThird {q r r' : List α} (hq : Cut scan q 0 []) (hr : Cut scan r 0 r')
      (hr' : Stores scan r' 0) : InPlace [] q r
  -- both are empty, and the third one reads as three zeros
  | bothEmpty {r r' r'' : List α} (hr : Cut scan r 0 r') (hr' : Cut scan r' 0 r'')
      (hr'' : Stores scan r'' 0) : InPlace [] [] r

variable {scan}

theorem Cut.start_eq {w rest : List α} {v : T} (h : Cut scan w v rest) : start scan w = v := by
  obtain ⟨hne, used, hscan, _⟩ := h
  rw [start, if_neg (by simpa using hne), hscan]

theorem not_reads_nil (p : List α) (ps : List (List α)) : ¬ Reads scan [] (p :: ps) := by
  rw [Reads]
  exact id

/-- A number that is not the last one: an empty word is passed over, and another one begins with
the number. -/
theorem reads_cons_iff (w : List α) (ws : List (List α)) (p q : List α) (ps : List (List α)) :
    Reads scan (w :: ws) (p :: q :: ps)
      ↔ w = [] ∧ Reads scan ws (p :: q :: ps)
        ∨ ∃ rest, Cut scan w (start scan p) rest ∧ Reads scan (rest :: ws) (q :: ps) := by
  by_cases hne : w = []
  · subst hne
    rw [reads_nil_cons, and_iff_right rfl, or_iff_left]
    rintro ⟨_, ⟨hne, _⟩, _⟩
    exact hne rfl
  rw [or_iff_right (fun h => hne h.1), Reads, List.dropWhile_cons_of_neg (by simpa using hne)]
  dsimp only
  cases hscan : scan w with
  | good v used =>
    constructor
    · rintro ⟨rfl, h⟩
      exact ⟨_, ⟨hne, used, hscan, rfl⟩, h⟩
    · rintro ⟨rest, ⟨_, used', hcut, rfl⟩, h⟩
      obtain ⟨rfl, rfl⟩ := Scan.good.inj (hscan.symm.trans hcut)
      exact ⟨rfl, h⟩
  | bad v =>
    refine iff_of_false (fun h => nomatch h.2) ?_
    rintro ⟨rest, ⟨_, used, hcut, _⟩, _⟩
    cases hscan.symm.trans hcut

/-- The last number. -/
theorem reads_last_iff (w : List α) (ws : List (List α)) (p : List α) :
    Reads scan (w :: ws) [p] ↔ w = [] ∧ Reads scan ws [p] ∨ Stores scan w (start scan p) := by
  by_cases hne : w = []
  · subst hne
    rw [reads_nil_cons, and_iff_right rfl, or_iff_left]
    exact fun h => h.1 rfl
  rw [or_iff_right (fun h => hne h.1), Reads, List.dropWhile_cons_of_neg (by simpa using hne),
    Stores, and_iff_right hne]
  dsimp only
  cases hscan : scan w with
  | good v used => simp [Reads]
  | bad v => simp

theorem reads_skip {ws ps : List (List α)} (h : Reads scan ws ps) : Reads scan ([] :: ws) ps :=
  (reads_nil_cons scan ws ps).mpr h

theorem Cut.reads {w rest p q : List α} {v : T} {ws ps : List (List α)} (h : Cut scan w v rest)
    (hv : v = start scan p) (hrest : Reads scan (rest :: ws) (q :: ps)) :
    Reads scan (w :: ws) (p :: q :: ps) :=
  (reads_cons_iff ..).mpr (.inr ⟨rest, hv ▸ h, hrest⟩)

theorem Stores.reads {w p : List α} {ws : List (List α)} (h : Stores scan w (start scan p)) :
    Reads scan (w :: ws) [p] :=
  (reads_last_iff ..).mpr (.inr h)

/-- In the last word that there is, every number begins what is left of it. -/
theorem reads_word_cons_iff (w p q : List α) (ps : List (List α)) :
    Reads scan [w] (p :: q :: ps)
      ↔ ∃ rest, Cut scan w (start scan p) rest ∧ Reads scan [rest] (q :: ps) := by
  rw [reads_cons_iff, or_iff_right]
  exact fun h => not_reads_nil _ _ h.2

theorem reads_word_last_iff (w p : List α) :
    Reads scan [w] [p] ↔ Stores scan w (start scan p) := by
  rw [reads_last_iff, or_iff_right]
  exact fun h => not_reads_nil _ _ h.2

variable {p q r : List α}

theorem inPlace_of_reads (h : Reads scan [p, q, r] [p, q, r]) : InPlace scan p q r := by
  rcases (reads_cons_iff ..).mp h with ⟨rfl, h₁⟩ | ⟨p', hp, h₁⟩
  · rcases (reads_cons_iff ..).mp h₁ with ⟨rfl, h₂⟩ | ⟨q', hq, h₂⟩
    · obtain ⟨r', hr, h₃⟩ := (reads_word_cons_iff ..).mp h₂
      obtain ⟨r'', hr', h₄⟩ := (reads_word_cons_iff ..).mp h₃
      have hr'' := (reads_word_last_iff ..).mp h₄
      rw [hr.start_eq] at hr''
      exact .bothEmpty hr hr' hr''
    rcases (reads_cons_iff ..).mp h₂ with ⟨rfl, h₃⟩ | ⟨q'', hq', h₃⟩
    · obtain ⟨r', hr, h₄⟩ := (reads_word_cons_iff ..).mp h₃
      have hr' := (reads_word_last_iff ..).mp h₄
      rw [hr.start_eq] at hr'
      rw [hq.start_eq] at hr hr'
      exact .firstEmptyThird hq hr hr'
    rw [hq.start_eq] at hq'
    rcases (reads_last_iff ..).mp h₃ with ⟨rfl, h₄⟩ | hr
    · exact .firstEmptySecond hq hq' ((reads_word_last_iff ..).mp h₄)
    · exact .firstEmpty hq hq' hr
  rcases (reads_cons_iff ..).mp h₁ with ⟨rfl, h₂⟩ | ⟨p'', hp', h₂⟩
  · rcases (reads_cons_iff ..).mp h₂ with ⟨rfl, h₃⟩ | ⟨q', hq, h₃⟩
    · obtain ⟨r', hr, h₄⟩ := (reads_word_cons_iff ..).mp h₃
      have hr' := (reads_word_last_iff ..).mp h₄
      rw [hr.start_eq] at hr'
      exact .secondEmpty hp hr hr'
    rcases (reads_last_iff ..).mp h₃ with ⟨rfl, h₄⟩ | hr
    · exact .own hp hq ((reads_word_last_iff ..).mp h₄)
    · exact .secondGoesOn hp hq hr
  rcases (reads_last_iff ..).mp h₂ with ⟨rfl, h₃⟩ | hr
  · rcases (reads_last_iff ..).mp h₃ with ⟨rfl, h₄⟩ | hr
    · exact .firstForEmpty hp hp' ((reads_word_last_iff ..).mp h₄)
    · exact .firstIsSecond hp hp' hr
  · exact .firstGoesOn hp hp' hr

theorem InPlace.reads (h : InPlace scan p q r) : Reads scan [p, q, r] [p, q, r] := by
  cases h with
  | own hp hq hr =>
    exact hp.reads hp.start_eq.symm (reads_skip (hq.reads hq.start_eq.symm (reads_skip hr.reads)))
  | secondGoesOn hp hq hr =>
    exact hp.reads hp.start_eq.symm (reads_skip (hq.reads hq.start_eq.symm hr.reads))
  | secondEmpty hp hr hr' =>
    rw [← hr.start_eq] at hr'
    exact hp.reads hp.start_eq.symm (reads_skip (reads_skip (hr.reads rfl hr'.reads)))
  | firstGoesOn hp hp' hr => exact hp.reads hp.start_eq.symm (hp'.reads rfl hr.reads)
  | firstIsSecond hp hp' hr =>
    exact hp.reads hp.start_eq.symm (hp'.reads rfl (reads_skip hr.reads))
  | firstForEmpty hp hp' hr =>
    exact hp.reads hp.start_eq.symm (hp'.reads rfl (reads_skip (reads_skip hr.reads)))
  | firstEmpty hq hq' hr =>
    exact reads_skip (hq.reads rfl (hq'.reads hq.start_eq.symm hr.reads))
  | firstEmptySecond hq hq' hr =>
    exact reads_skip (hq.reads rfl (hq'.reads hq.start_eq.symm (reads_skip hr.reads)))
  | firstEmptyThird hq hr hr' =>
    rw [← hr.start_eq] at hr'
    exact reads_skip (hq.reads rfl (reads_skip (hr.reads hq.start_eq.symm hr'.reads)))
  | bothEmpty hr hr' hr'' =>
    rw [← hr.start_eq] at hr''
    exact reads_skip (reads_skip (hr.reads rfl (hr'.reads rfl hr''.reads)))

/-- Reading three numbers from three words comes to each word's own number in these cases only. -/
theorem reads_three_iff (p q r : List α) :
    Reads scan [p, q, r] [p, q, r] ↔ InPlace scan p q r :=
  ⟨inPlace_of_reads, InPlace.reads⟩

end Three

/-! ## Decimal digits -/

/-- The number that decimal digits at the start of a word stand for. -/
def decimal (w : List UInt8) : Scan Int :=
  let digits := w.takeWhile fun c => 48 ≤ c && c ≤ 57
  if digits.isEmpty then .bad 0
  else .good (digits.foldl (fun n c => 10 * n + (c.toNat - 48)) 0) digits.length

end Nrtb.Istream
