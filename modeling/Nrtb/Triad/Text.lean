import Nrtb.Common
import Nrtb.Lib.Istream
import Nrtb.Triad

/-!
# Text of a `triad`

`cpp/common/point/triad.h`, lines 386–420. `operator >>` cuts a word at its commas, puts the three
parts into one stream with blanks between them and reads three numbers from it, one after the other.
How a part is read as a number of the coordinate type is the parameter `scan`.

The comment above the operator promises that each coordinate is the number of its own part, or zero.
Once the parts are in one stream, that is lost: an empty part lets the numbers behind it move up,
and a part that is no number to its end leaves a rest that is read for the next coordinate.
`Lib.Istream` says when three readings from one stream are the readings of the three parts, and the
operator is an instance of it.

* `extraction_three`: the numbers that are read, in the order of the stream.
* `extraction_insertion`: text that `operator <<` has written is read back.
* `extraction_documented_iff`: when each coordinate is the number of its own part. It is so when the
  first two parts are numerals to their end and the third one is not empty, and else only by a
  coincidence (`InPlace`).
-/

namespace Nrtb

open Istream

namespace Triad

variable {T : Type*} [Zero T] (scan : Str → Scan T)

/-! ## The operators -/

/-- `operator <<`, where `print` writes a coordinate. -/
def insertion (print : T → Str) (a : Triad T) : Str :=
  str "(" ++ print a.x ++ str "," ++ print a.y ++ str "," ++ print a.z ++ str ")"

/-- `if (t[0][0] == '(') { t[0].erase(0,1); }` -/
def dropParen : List Str → List Str
  | [] => []
  | first :: rest => (if first.head? = some Ch.paren then first.drop 1 else first) :: rest

/-- `f >> element`; nothing is stored by a stream that has failed. -/
def element (f : State Byte) : Str × State Byte :=
  if f.failed then ([], f)
  else
    let (w, rest) := word isspace f.text
    (w, ⟨rest, w.isEmpty⟩)

/-- `operator >>` -/
def extraction (f : State Byte) (a : Triad T) : Triad T × State Byte :=
  let (element, f) := element f
  let t := split element Ch.comma
  if t.length ≠ 3 then (⟨0, 0, 0⟩, f)
  else
    let transmorgrafier : State Byte := ⟨glue Ch.blank (dropParen t), false⟩
    let (x, transmorgrafier) := number isspace scan transmorgrafier
    let (y, transmorgrafier) := number isspace scan transmorgrafier
    let (z, _) := number isspace scan transmorgrafier
    (⟨x.getD a.x, y.getD a.y, z.getD a.z⟩, f)

/-! ## What is documented -/

/-- The comma-separated parts, the first one without its parenthesis. -/
def parts (token : Str) : List Str := dropParen (token.splitOn Ch.comma)

/-- Each coordinate is the number at the start of its own part, or zero. -/
def documented (token : Str) : Triad T :=
  match parts token with
  | [x, y, z] => ⟨start scan x, start scan y, start scan z⟩
  | _ => ⟨0, 0, 0⟩

theorem dropParen_length (t : List Str) : (dropParen t).length = t.length := by
  cases t <;> rfl

/-- The parts of a word have no white space. -/
theorem parts_no_space {token : Str} (hblank : ∀ c ∈ token, isspace c = false) :
    ∀ p ∈ parts token, ∀ c ∈ p, isspace c = false := by
  intro p hp c hc
  unfold parts at hp
  cases hsplit : token.splitOn Ch.comma with
  | nil =>
    rw [hsplit] at hp
    cases hp
  | cons first rest =>
    have hmem : ∀ q ∈ first :: rest, ∀ d ∈ q, isspace d = false := fun q hq d hd =>
      hblank d (mem_of_mem_splitOn (hsplit ▸ hq) hd)
    rw [hsplit, dropParen] at hp
    rcases List.mem_cons.mp hp with rfl | hrest
    · split at hc
      · exact hmem first (by simp) c (List.mem_of_mem_drop hc)
      · exact hmem first (by simp) c hc
    · exact hmem p (by simp [hrest]) c hc

/-- A word is the element that is read from it. -/
theorem element_word {token : Str} (hblank : ∀ c ∈ token, isspace c = false) :
    (element ⟨token, false⟩).1 = token := by
  have hdrop : token.dropWhile isspace = token := by
    cases token with
    | nil => rfl
    | cons c token => rw [List.dropWhile_cons_of_neg (by simp [hblank c (by simp)])]
  have htake : token.takeWhile (fun c => !isspace c) = token :=
    List.takeWhile_eq_self_iff.mpr fun c hc => by rw [hblank c hc]; rfl
  simp only [element, word, hdrop, htake, Bool.false_eq_true, if_false]

theorem split_length_ne_three_iff (token : Str) :
    (split token Ch.comma).length ≠ 3 ↔ (parts token).length ≠ 3 := by
  rw [parts, dropParen_length]
  cases token with
  | nil => decide
  | cons c token => rw [split_eq (List.cons_ne_nil c token)]

theorem extraction_not_three {token : Str} (hblank : ∀ c ∈ token, isspace c = false)
    (hparts : (parts token).length ≠ 3) (a : Triad T) :
    (extraction scan ⟨token, false⟩ a).1 = ⟨0, 0, 0⟩ := by
  unfold extraction
  simp only [element_word hblank, if_pos ((split_length_ne_three_iff token).mpr hparts)]

/-- The numbers that are read, in the order of the stream; a coordinate for which there is none
keeps its value. -/
theorem extraction_three {token : Str} (hblank : ∀ c ∈ token, isspace c = false)
    (hparts : (parts token).length = 3) :
    ∃ x y z, numbers isspace scan 3 ⟨glue Ch.blank (parts token), false⟩ = [x, y, z] ∧
      ∀ a : Triad T, (extraction scan ⟨token, false⟩ a).1
        = ⟨x.getD a.x, y.getD a.y, z.getD a.z⟩ := by
  have hne : token ≠ [] := by
    rintro rfl
    exact absurd hparts (by decide)
  have hsplit : dropParen (split token Ch.comma) = parts token := by rw [split_eq hne, parts]
  have hthree : ¬ (split token Ch.comma).length ≠ 3 := by
    rw [split_length_ne_three_iff]
    exact not_not.mpr hparts
  refine ⟨_, _, _, rfl, fun a => ?_⟩
  unfold extraction
  simp only [element_word hblank, if_neg hthree, hsplit]

/-! ## Which texts are read as documented -/

omit [Zero T] in
/-- Only what is stored does not depend on what was there before. -/
theorem forall_getD_eq_iff [Nontrivial T] (o : Option T) (v : T) :
    (∀ d, o.getD d = v) ↔ o = some v := by
  cases o with
  | none =>
    obtain ⟨d, hd⟩ := exists_ne v
    refine iff_of_false (fun h => hd (h d)) (by simp)
  | some w => simp

theorem documented_three {token p q r : Str} (hparts : parts token = [p, q, r]) :
    documented scan token = ⟨start scan p, start scan q, start scan r⟩ := by
  rw [documented, hparts]

theorem documented_not_three {token : Str} (hparts : (parts token).length ≠ 3) :
    documented scan token = ⟨0, 0, 0⟩ := by
  unfold documented
  split
  · next x y z hthree => exact absurd (by rw [hthree]; rfl) hparts
  · rfl

/-- The parts in one stream: the numbers that are read are those of the parts. -/
theorem extraction_reads_iff [Nontrivial T] {token : Str}
    (hblank : ∀ c ∈ token, isspace c = false) (hthree : (parts token).length = 3) :
    (∀ a, (extraction scan ⟨token, false⟩ a).1 = documented scan token) ↔
      Reads scan (parts token) (parts token) := by
  obtain ⟨x, y, z, hnumbers, hread⟩ := extraction_three scan hblank hthree
  obtain ⟨p, q, r, hparts⟩ := List.length_eq_three.mp hthree
  have hreads : numbers isspace scan (parts token).length ⟨glue Ch.blank (parts token), false⟩
      = (parts token).map (fun p => some (start scan p)) ↔ Reads scan (parts token) (parts token) :=
    numbers_glue_iff scan rfl (parts_no_space hblank)
  rw [hthree, hnumbers, hparts] at hreads
  rw [hparts, ← hreads, documented_three scan hparts]
  simp only [hread, Triad.mk.injEq, List.map_cons, List.map_nil, List.cons.injEq, and_true,
    ← forall_getD_eq_iff]
  constructor
  · intro h
    exact ⟨fun d => (h ⟨d, d, d⟩).1, fun d => (h ⟨d, d, d⟩).2.1, fun d => (h ⟨d, d, d⟩).2.2⟩
  · rintro ⟨hx, hy, hz⟩ a
    exact ⟨hx a.x, hy a.y, hz a.z⟩

/-! ## Text that was written -/

/-- A number that is written without commas and white space, and read from what was written. -/
structure Numeral (print : T → Str) (v : T) : Prop where
  no_comma : Ch.comma ∉ print v
  no_space : ∀ c ∈ print v, isspace c = false
  ne_nil : print v ≠ []
  reads : scan (print v) = .good v (print v).length
  -- a parenthesis is no part of a number
  reads_close : scan (print v ++ [Ch.close]) = .good v (print v).length

omit [Zero T] in
theorem insertion_eq (print : T → Str) (a : Triad T) :
    insertion print a = (Ch.paren :: print a.x) ++ Ch.comma ::
      (print a.y ++ Ch.comma :: (print a.z ++ [Ch.close])) := by
  have hparen : str "(" = [Ch.paren] := by decide
  have hcomma : str "," = [Ch.comma] := by decide
  have hclose : str ")" = [Ch.close] := by decide
  simp [insertion, hparen, hcomma, hclose]

omit [Zero T] in
/-- The text of a triad is one word. -/
theorem no_space_insertion {print : T → Str} {a : Triad T}
    (hx : ∀ c ∈ print a.x, isspace c = false) (hy : ∀ c ∈ print a.y, isspace c = false)
    (hz : ∀ c ∈ print a.z, isspace c = false) : ∀ c ∈ insertion print a, isspace c = false := by
  have hsep : isspace Ch.paren = false ∧ isspace Ch.comma = false ∧ isspace Ch.close = false := by
    decide
  intro c hc
  rw [insertion_eq] at hc
  simp only [List.mem_append, List.mem_cons, List.not_mem_nil, or_false] at hc
  rcases hc with (rfl | hc) | rfl | hc | rfl | hc | rfl
  · exact hsep.1
  · exact hx c hc
  · exact hsep.2.1
  · exact hy c hc
  · exact hsep.2.1
  · exact hz c hc
  · exact hsep.2.2

omit [Zero T] in
theorem Numeral.cut {print : T → Str} {v : T} (h : Numeral scan print v) :
    Cut scan (print v) v [] :=
  ⟨h.ne_nil, _, h.reads, List.drop_length⟩

theorem Numeral.start_eq {print : T → Str} {v : T} (h : Numeral scan print v) :
    start scan (print v) = v :=
  h.cut.start_eq

section Written

variable {scan} {print : T → Str} {a : Triad T} (hx : Numeral scan print a.x)
  (hy : Numeral scan print a.y) (hz : Numeral scan print a.z)

include hx hy hz

omit [Zero T] in
theorem parts_insertion :
    parts (insertion print a) = [print a.x, print a.y, print a.z ++ [Ch.close]] := by
  have hfirst : Ch.comma ∉ Ch.paren :: print a.x := by
    rw [List.mem_cons, not_or]
    exact ⟨by decide, hx.no_comma⟩
  have hlast : Ch.comma ∉ print a.z ++ [Ch.close] := by
    rw [List.mem_append, not_or]
    exact ⟨hz.no_comma, by decide⟩
  rw [parts, insertion_eq, List.splitOn_append_cons_self_of_not_mem hfirst,
    List.splitOn_append_cons_self_of_not_mem hy.no_comma, List.splitOn_eq_singleton hlast]
  rfl

omit [Zero T] in
theorem insertion_no_space : ∀ c ∈ insertion print a, isspace c = false :=
  no_space_insertion hx.no_space hy.no_space hz.no_space

/-- What was written is read back. -/
theorem extraction_insertion [Nontrivial T] (b : Triad T) :
    (extraction scan ⟨insertion print a, false⟩ b).1 = a := by
  have hparts := parts_insertion hx hy hz
  have hlast : print a.z ++ [Ch.close] ≠ [] := by simp
  have hclose : start scan (print a.z ++ [Ch.close]) = a.z := by
    unfold start
    rw [if_neg (by simp), hz.reads_close]
  have hreads : Reads scan (parts (insertion print a)) (parts (insertion print a)) := by
    rw [hparts, reads_three_iff]
    refine .own hx.cut hy.cut ⟨hlast, .inr ⟨(print a.z).length, ?_⟩⟩
    rw [hclose]
    exact hz.reads_close
  rw [(extraction_reads_iff scan (insertion_no_space hx hy hz) (by rw [hparts]; rfl)).mpr hreads b,
    documented_three scan hparts, hx.start_eq, hy.start_eq, hclose]

end Written

/-- The parts are put into one stream, so that a part which is empty, or no number to its end,
shifts or stops the reading of those behind it: a word is read as documented exactly when it has
not three parts, or each of the three gives its number in place. What was written is read back. -/
theorem extraction_documented_iff [Nontrivial T] (token : Str)
    (hblank : ∀ c ∈ token, isspace c = false) :
    ((∀ a, (extraction scan ⟨token, false⟩ a).1 = documented scan token) ↔
        ∀ p q r, parts token = [p, q, r] → InPlace scan p q r) ∧
      ∀ (print : T → Str) (a b : Triad T), Numeral scan print a.x → Numeral scan print a.y →
        Numeral scan print a.z → (extraction scan ⟨insertion print a, false⟩ b).1 = a := by
  refine ⟨?_, fun print a b hx hy hz => extraction_insertion hx hy hz b⟩
  by_cases hthree : (parts token).length = 3
  · obtain ⟨p, q, r, hparts⟩ := List.length_eq_three.mp hthree
    rw [extraction_reads_iff scan hblank hthree, hparts, reads_three_iff]
    refine ⟨fun h p' q' r' hsame => ?_, fun h => h p q r rfl⟩
    obtain ⟨rfl, rfl, rfl⟩ : p = p' ∧ q = q' ∧ r = r' := by simpa using hsame
    exact h
  · refine iff_of_true (fun a => ?_) fun p q r hparts => absurd (by rw [hparts]; rfl) hthree
    rw [extraction_not_three scan hblank hthree, documented_not_three scan hthree]

/-! ## Integers as coordinates -/

/-- How an integer of one digit is written. -/
def printDigit (v : ℤ) : Str := [48 + UInt8.ofNat v.toNat]

theorem extraction_documented_two_three_seven :
    (∀ a, (extraction decimal ⟨str "(2,3,7)", false⟩ a).1 = documented decimal (str "(2,3,7)")) ∧
      (extraction decimal ⟨insertion printDigit ⟨2, 3, 7⟩, false⟩ ⟨0, 0, 0⟩).1 = ⟨2, 3, 7⟩ := by
  have hparts : parts (str "(2,3,7)") = [str "2", str "3", str "7)"] := by decide
  have hplace : InPlace decimal (str "2") (str "3") (str "7)") := by
    refine .own (v := 2) (w := 3) ⟨by decide, 1, rfl, rfl⟩ ⟨by decide, 1, rfl, rfl⟩ ?_
    exact ⟨by decide, .inr ⟨1, rfl⟩⟩
  have hnumeral : ∀ v : ℤ, v = 2 ∨ v = 3 ∨ v = 7 → Numeral decimal printDigit v := by
    rintro v (rfl | rfl | rfl) <;>
      exact ⟨by decide, no_space_of_all (by decide), by decide, rfl, rfl⟩
  obtain ⟨hiff, hwritten⟩ := extraction_documented_iff decimal (str "(2,3,7)")
    (no_space_of_all (by decide))
  refine ⟨hiff.mpr fun p q r hsame => ?_, hwritten printDigit ⟨2, 3, 7⟩ ⟨0, 0, 0⟩
    (hnumeral 2 (by simp)) (hnumeral 3 (by simp)) (hnumeral 7 (by simp))⟩
  rw [hparts] at hsame
  obtain ⟨rfl, rfl, rfl⟩ : str "2" = p ∧ str "3" = q ∧ str "7)" = r := by simpa using hsame
  exact hplace

/-- With the second part empty, `3` becomes the second coordinate, and the third one keeps its
value. -/
theorem extraction_shifted :
    ¬ ∀ a, (extraction decimal ⟨str "1,,3", false⟩ a).1 = documented decimal (str "1,,3") := by
  intro h
  have hparts : parts (str "1,,3") = [str "1", [], str "3"] := by decide
  have hblank : ∀ c ∈ str "1,,3", isspace c = false := no_space_of_all (by decide)
  have hreads := (extraction_reads_iff decimal hblank (by rw [hparts]; rfl)).mp h
  rw [hparts] at hreads
  exact absurd hreads.2.1 (by decide)

end Triad

end Nrtb
