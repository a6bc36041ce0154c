import Nrtb.Lib.Search

/-!
# `cpp/common/common_rl/common.cpp` — string helpers

Strings are byte strings. The helpers are translated with their index arithmetic and their
exceptions; each gets one lemma that says what it returns, in terms of `Lib.Search`, which knows
nothing of indices. No other module unfolds a helper: the configuration reader, the escaping, the
socket addresses and the text of triads all go by these lemmas. What has a name in the source but no
definition in it, like `std::isspace`, is here as well.

* `gsub_eq`: `gsub` is one leftmost non-overlapping replacement pass, and throws on an empty
  argument. Its loop is followed by induction on what is left of the target.
* `split_eq`: `split` cuts at every occurrence of the token; an empty string has no part.
* `split_eq_pair_iff`: when there are two parts.
* `trim_of_blank`, `trim_of_not_blank`: `trim` strips both ends of a string with some visible
  character, and returns an all-blank string unchanged.
-/

namespace Nrtb

open Search

/-- `char` of a `std::string`. -/
abbrev Byte := UInt8

/-- `std::string` -/
abbrev Str := List Byte

/-- The bytes of a string literal. -/
def str (text : String) : Str := text.toUTF8.data.toList

/-! ## The characters the code names -/

namespace Ch

def nul : Byte := 0
def tab : Byte := 9
def newline : Byte := 10
def blank : Byte := 32
def doubleQuote : Byte := 34
def hash : Byte := 35
def percent : Byte := 37
def singleQuote : Byte := 39
def paren : Byte := 40
def close : Byte := 41
def comma : Byte := 44
def zero : Byte := 48
def colon : Byte := 58
def equals : Byte := 61
def backslash : Byte := 92

end Ch

/-- `std::isspace` -/
def isspace (c : Byte) : Bool := c == Ch.blank || (9 ≤ c && c ≤ 13)

theorem no_space_of_all {s : Str} (h : (s.all fun c => !isspace c) = true) :
    ∀ c ∈ s, isspace c = false := by
  simpa using h

/-- The visible characters of ASCII are behind the blank. -/
theorem isspace_of_lt {c : Byte} (h : 32 < c.toNat) : isspace c = false := by
  have hblank : c ≠ Ch.blank := by
    rintro rfl
    exact absurd h (by decide)
  have hupper : ¬ c ≤ 13 := fun hle => by
    have : c.toNat ≤ 13 := UInt8.le_iff_toNat_le.mp hle
    omega
  simp [isspace, hblank, hupper]

/-- The exceptions thrown by the helpers. -/
inductive CommonException where
  | gsub_exception
deriving DecidableEq, Repr

/-! ## `gsub` -/

-- `h` is used by `decreasing_by` only, where the linter does not look.
set_option linter.unusedVariables false in
/-- The `while` loop of `gsub`: `returnme` collects the output for `target[0, okay_through)`. -/
def gsubLoop (target findme putme : Str) (hne : findme ≠ []) (returnme : Str)
    (okay_through : Nat) : Str :=
  match h : find target findme okay_through with
  | some loc =>
    gsubLoop target findme putme hne
      (returnme ++ ((target.drop okay_through).take (loc - okay_through) ++ putme))
      (loc + findme.length)
  | none => returnme ++ target.drop okay_through
  termination_by target.length - okay_through
  decreasing_by
    have hspec := (find_eq_some_iff _ _ _ _).mp h
    have hfit := occ_length_le hspec.2.1 hspec.2.2.1
    have hlen : 0 < findme.length := List.length_pos_iff.mpr hne
    omega

/-- `gsub(target, findme, putme)` -/
def gsub (target findme putme : Str) : Except CommonException Str :=
  if hne : findme = [] then .error .gsub_exception
  else if target = [] then .error .gsub_exception
  else .ok (gsubLoop target findme putme hne [] 0)

theorem gsubLoop_eq (target findme putme : Str) (hne : findme ≠ []) (returnme : Str)
    (okay_through : Nat) :
    gsubLoop target findme putme hne returnme okay_through
      = returnme ++ replaceFrom findme putme 0 (target.drop okay_through) := by
  fun_induction gsubLoop target findme putme hne returnme okay_through with
  | case1 returnme okay_through loc h ih =>
    obtain ⟨hle, hi, hocc, hfirst⟩ := (find_eq_some_iff _ _ _ _).mp h
    rw [ih]
    rw [replaceFrom_of_first (d := loc - okay_through) hne putme (target.drop okay_through)]
    · rw [List.drop_drop, show okay_through + (loc - okay_through + findme.length)
        = loc + findme.length from by omega]
      simp only [List.append_assoc]
    · rwa [List.drop_drop, show okay_through + (loc - okay_through) = loc from by omega]
    · intro j hj
      rw [List.drop_drop]
      exact hfirst (okay_through + j) (by omega) (by omega)
  | case2 returnme okay_through h =>
    rw [find_eq_none_iff] at h
    rw [replaceFrom_of_none]
    intro j hj
    rw [List.drop_drop]
    rw [List.length_drop] at hj
    rcases Nat.le_total okay_through target.length with hle | hge
    · exact h (okay_through + j) (by omega) (by omega)
    · rw [List.drop_eq_nil_of_le (by omega)]
      simpa using hne

/-- `gsub` throws on an empty argument and otherwise makes one replacement pass. -/
theorem gsub_eq {target findme : Str} (putme : Str) (htarget : target ≠ []) (hfind : findme ≠ []) :
    gsub target findme putme = .ok (replaceFrom findme putme 0 target) := by
  rw [gsub, dif_neg hfind, if_neg htarget, gsubLoop_eq]
  simp

theorem gsub_nil (findme putme : Str) : gsub [] findme putme = .error .gsub_exception := by
  unfold gsub
  split
  · rfl
  · rw [if_pos rfl]

/-! ## `split` -/

-- `h` is used by `decreasing_by` only, where the linter does not look.
set_option linter.unusedVariables false in
/-- The `while` loop of `split`, with the `push_back` behind it. -/
def splitLoop (source : Str) (token : Byte) (returnme : List Str) (processed : Nat) : List Str :=
  match h : find source [token] processed with
  | some loc =>
    splitLoop source token (returnme ++ [(source.drop processed).take (loc - processed)]) (loc + 1)
  | none => returnme ++ [source.drop processed]
  termination_by source.length - processed
  decreasing_by
    have hspec := find_singleton_some h
    have hlt := (List.getElem?_eq_some_iff.mp hspec.2.1).1
    omega

/-- `split(source, token)` -/
def split (source : Str) (token : Byte) : List Str :=
  if source.length > 0 then splitLoop source token [] 0 else []

theorem splitLoop_eq (source : Str) (token : Byte) (returnme : List Str) (processed : Nat) :
    splitLoop source token returnme processed
      = returnme ++ (source.drop processed).splitOn token := by
  fun_induction splitLoop source token returnme processed with
  | case1 returnme processed loc h ih =>
    obtain ⟨hle, hloc, hnone⟩ := find_singleton_some h
    have hcut : source.drop processed
        = (source.drop processed).take (loc - processed) ++ token :: source.drop (loc + 1) := by
      obtain ⟨hlt, htoken⟩ := List.getElem?_eq_some_iff.mp hloc
      calc source.drop processed
          = (source.drop processed).take (loc - processed)
              ++ (source.drop processed).drop (loc - processed) :=
            (List.take_append_drop _ _).symm
        _ = (source.drop processed).take (loc - processed) ++ source.drop loc := by
            rw [List.drop_drop, Nat.add_sub_cancel' hle]
        _ = _ := by rw [List.drop_eq_getElem_cons hlt, htoken]
    rw [ih, List.append_assoc]
    congr 1
    generalize (source.drop processed).take (loc - processed) = part at hcut hnone ⊢
    rw [hcut, List.splitOn_append_cons_self_of_not_mem hnone]
    rfl
  | case2 returnme processed h =>
    rw [List.splitOn_eq_singleton (find_singleton_none h)]

/-- `split` cuts at every occurrence of the token. -/
theorem split_eq {source : Str} (hne : source ≠ []) (token : Byte) :
    split source token = source.splitOn token := by
  rw [split, if_pos (List.length_pos_iff.mpr hne), splitLoop_eq]
  rfl

/-- Two parts are those at both sides of the only token. -/
theorem split_eq_pair_iff {source a b : Str} {token : Byte} :
    split source token = [a, b] ↔ source = a ++ token :: b ∧ token ∉ a ∧ token ∉ b := by
  constructor
  · intro h
    have hne : source ≠ [] := by
      rintro rfl
      cases h
    rw [split_eq hne] at h
    have hjoin : [token].intercalate (source.splitOn token) = source :=
      List.intercalate_splitOn token
    have hparts := not_mem_of_mem_splitOn token source
    rw [h] at hjoin hparts
    exact ⟨by simpa using hjoin.symm, hparts a (by simp), hparts b (by simp)⟩
  · rintro ⟨rfl, ha, hb⟩
    have hparts : ∀ part ∈ [a, b], token ∉ part := by simp [ha, hb]
    have hsplit := List.splitOn_intercalate token hparts (List.cons_ne_nil a [b])
    rw [split_eq (by simp)]
    simpa using hsplit

/-- The parts have no other characters than the text. -/
theorem mem_of_mem_splitOn {source part : Str} {token c : Byte}
    (hpart : part ∈ source.splitOn token)
    (hc : c ∈ part) : c ∈ source := by
  obtain ⟨i, hi⟩ := List.mem_iff_getElem?.mp hpart
  have hmem : part ∈ (source.splitOn token).intersperse [token] :=
    List.mem_of_getElem? ((List.getElem?_intersperse_two_mul (i := i)).trans hi)
  have hjoin : [token].intercalate (source.splitOn token) = source := List.intercalate_splitOn token
  rw [← hjoin]
  exact List.mem_flatten.mpr ⟨part, hmem, hc⟩

/-! ## `trim` -/

/-- The white space of `trim`: `"\t\n "`. -/
def trimWs (c : Byte) : Bool := c == Ch.tab || c == Ch.newline || c == Ch.blank

/-- `s.find_first_not_of(ws)` -/
def findFirstNotOf (s : Str) (p : Byte → Bool) : Option Nat := s.findIdx? fun c => !p c

/-- `s.find_last_not_of(ws)` -/
def findLastNotOf (s : Str) (p : Byte → Bool) : Option Nat :=
  (s.reverse.findIdx? fun c => !p c).map fun i => s.length - 1 - i

/-- `trim(s)` -/
def trim (s : Str) : Str :=
  let s := match findFirstNotOf s trimWs with
    | some loc => s.drop loc
    | none => s
  match findLastNotOf s trimWs with
  | some loc => s.take (loc + 1)
  | none => s

/-- A string without a visible character comes back unchanged: neither search finds a place
to cut at. -/
theorem trim_of_blank {s : Str} (h : ∀ c ∈ s, trimWs c = true) : trim s = s := by
  have hfirst : findFirstNotOf s trimWs = none := by
    rw [findFirstNotOf, List.findIdx?_eq_none_iff]
    intro c hc
    simp [h c hc]
  have hlast : findLastNotOf s trimWs = none := by
    rw [findLastNotOf, Option.map_eq_none_iff, List.findIdx?_eq_none_iff]
    intro c hc
    simp [h c (List.mem_reverse.mp hc)]
  simp only [trim, hfirst, hlast]

/-- A string with a visible character loses the white space at both ends. -/
theorem trim_of_not_blank {s : Str} (h : ¬ ∀ c ∈ s, trimWs c = true) :
    trim s = strip trimWs s := by
  obtain ⟨i, hi⟩ : ∃ i, findFirstNotOf s trimWs = some i := by
    rw [← Option.ne_none_iff_exists', findFirstNotOf, ne_eq, List.findIdx?_eq_none_iff]
    intro hall
    exact h fun c hc => by simpa using hall c hc
  have hdrop : s.drop i = s.dropWhile trimWs := drop_findIdx?_not hi
  have hvis : strip trimWs s ≠ [] := fun hnil => h (strip_eq_nil_iff.mp hnil)
  obtain ⟨j, hj⟩ : ∃ j, (s.dropWhile trimWs).reverse.findIdx? (fun c => !trimWs c) = some j := by
    rw [← Option.ne_none_iff_exists', ne_eq, List.findIdx?_eq_none_iff]
    intro hall
    apply hvis
    rw [strip, List.rdropWhile_eq_nil_iff]
    exact fun c hc => by simpa using hall c (List.mem_reverse.mpr hc)
  have htake := take_findIdx?_reverse_not hj
  simp only [trim, hi, hdrop, findLastNotOf, hj, Option.map_some]
  exact htake

end Nrtb
