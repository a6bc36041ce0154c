import Nrtb.ConfReader.CommandLine
import Nrtb.Lib.Istream
import Mathlib.Algebra.Ring.Int.Defs

/-!
# `conf_reader::get<T>` and `getall<T>`

`cpp/common/confreader/confreader.h`, lines 226–281, for a type that is no `std::string`. How a word
is read as a value of the type is the parameter `scan`. A value that nothing was stored in is not
known.

`confreader.h` says that a value which does not convert is left out by `getall`, and is a zero for
`get`. `lexical_cast` does not look at the stream behind its extraction, so that it never throws,
and what would be left out is returned as whatever the extraction has stored. The conversions are
those of `Lib.Istream`, where a failed one stores a value or none. From `2 ^ 32` values on `getall`
reads only a part of them, and the condition then compares the conversions one by one.

* `map_lexical_cast_eq_iff`: the conversions are those of the values, and those only, when every
  value converts. By induction on the values: one that does not convert makes a list that is longer.
* `typed_access_iff`: the documented rules.
-/

namespace Nrtb

open Istream

namespace ConfReader

variable {T : Type*} (scan : Str → Scan T)

/-! ## The accessors -/

/-- `lexical_cast<T>(arg)`; `none` when `returnme` is returned as it was declared, without a
value. -/
def lexical_cast (arg : Str) : Option T := (number isspace scan ⟨arg, false⟩).1

/-- `get<T>(key)` -/
def getT (self : ConfReader) (key : Str) : Option T := lexical_cast scan (self.get key)

/-- `getall<T>(key)`; the number of values is cut down to an `unsigned int`. -/
def getall (self : ConfReader) (key : Str) : List (Option T) :=
  let tvals := self.all key
  let limit := tvals.length % 2 ^ 32
  (tvals.take limit).map (lexical_cast scan)

/-! ## What is documented -/

/-- Zero when there is no value, or the first one does not convert. -/
def documentedFirst [Zero T] (values : List Str) : T :=
  match values with
  | [] => 0
  | first :: _ => (converts isspace scan first).getD 0

/-- The conversions, in stored order, of the values that convert. -/
def documentedAll (values : List Str) : List T := values.filterMap (converts isspace scan)

/-! ## When the accessors do as documented -/

theorem lexical_cast_of_converts {value : Str} {v : T}
    (h : converts isspace scan value = some v) : lexical_cast scan value = some v :=
  number_of_converts isspace scan h

/-- Nothing is left out: as many entries as values, so all of them convert. -/
theorem map_lexical_cast_eq_iff (values : List Str) :
    values.map (lexical_cast scan) = (documentedAll scan values).map some ↔
      ∀ v ∈ values, (converts isspace scan v).isSome := by
  constructor
  · intro h
    have hlen := congrArg List.length h
    rw [List.length_map, List.length_map, documentedAll, List.length_filterMap_eq_countP] at hlen
    exact List.countP_eq_length.mp hlen.symm
  · intro h
    induction values with
    | nil => rfl
    | cons value values ih =>
      obtain ⟨v, hv⟩ := Option.isSome_iff_exists.mp (h value (by simp))
      have hrest := ih fun w hw => h w (by simp [hw])
      rw [documentedAll] at hrest ⊢
      rw [List.map_cons, lexical_cast_of_converts scan hv, hrest, List.filterMap_cons_some hv,
        List.map_cons]

section Access

variable [Zero T] (self : ConfReader) (hsorted : Multimap.Sorted self.values) (key : Str)

include hsorted

omit [Zero T] in
/-- Without a value nothing is stored in what `get` returns. -/
theorem getT_of_none (hnone : valuesOf key self.values = []) : getT scan self key = none := by
  rw [getT, (all_eq hsorted key).2, hnone]
  rfl

theorem getT_of_converts (hne : valuesOf key self.values ≠ [])
    (hall : ∀ v ∈ valuesOf key self.values, (converts isspace scan v).isSome) :
    getT scan self key = some (documentedFirst scan (valuesOf key self.values)) := by
  rw [getT, (all_eq hsorted key).2]
  cases hvalues : valuesOf key self.values with
  | nil => exact absurd hvalues hne
  | cons first rest =>
    rw [hvalues] at hall
    obtain ⟨v, hv⟩ := Option.isSome_iff_exists.mp (hall first (by simp))
    rw [List.head?_cons, Option.getD_some, documentedFirst, hv]
    exact lexical_cast_of_converts scan hv

/-- `lexical_cast` does not look whether anything was read: values that do not convert are
returned all the same, and for a missing name, or a blank value, what is returned has never been
given a value. -/
theorem typed_access_iff :
    (getT scan self key = some (documentedFirst scan (valuesOf key self.values)) ∧
      getall scan self key = (documentedAll scan (valuesOf key self.values)).map some) ↔
    let values := valuesOf key self.values
    if values.length < 2 ^ 32 then
      values ≠ [] ∧ ∀ v ∈ values, (converts isspace scan v).isSome
    else
      -- the number of values does not fit into an `unsigned int`
      lexical_cast scan (values.headD []) = some (documentedFirst scan values) ∧
        (values.take (values.length % 2 ^ 32)).map (lexical_cast scan)
          = (documentedAll scan values).map some := by
  have hget := (all_eq hsorted key).2
  dsimp only
  rw [getall, (all_eq hsorted key).1]
  split
  · next hlen =>
    rw [Nat.mod_eq_of_lt hlen, List.take_length, map_lexical_cast_eq_iff]
    refine and_congr_left fun hall => ⟨fun h hnone => ?_, fun hne => ?_⟩
    · rw [getT_of_none scan self hsorted key hnone] at h
      cases h
    · exact getT_of_converts scan self hsorted key hne hall
  · rw [getT, hget, List.headD_eq_head?_getD]

end Access

/-- Three ports, the second of them with a word behind it, and a name whose second value is no
number. -/
def typedFile : ConfReader := ⟨[(str "limit", str "7"), (str "limit", str "high"),
  (str "port", str "80"), (str "port", str "443 tls"), (str "port", str "8080")],
  str "typed.conf"⟩

theorem typed_access_port :
    getT decimal typedFile (str "port") = some 80 ∧
      getall decimal typedFile (str "port") = [some 80, some 443, some 8080] := by
  have hsorted : Multimap.Sorted typedFile.values := by
    unfold Multimap.Sorted
    decide
  have hvalues : valuesOf (str "port") typedFile.values
      = [str "80", str "443 tls", str "8080"] := by decide
  have h := (typed_access_iff decimal typedFile hsorted (str "port")).mpr (by
    rw [hvalues, if_pos (by decide)]
    refine ⟨by decide, fun v hv => ?_⟩
    simp only [List.mem_cons, List.not_mem_nil, or_false] at hv
    rcases hv with rfl | rfl | rfl <;> rfl)
  rw [hvalues] at h
  exact h

/-- `getall` returns a number for `"high"`. -/
theorem getall_keeps_bad_value :
    ¬ (getT decimal typedFile (str "limit")
          = some (documentedFirst decimal (valuesOf (str "limit") typedFile.values)) ∧
        getall decimal typedFile (str "limit")
          = (documentedAll decimal (valuesOf (str "limit") typedFile.values)).map some) := by
  rintro ⟨-, hall⟩
  have hlen := congrArg List.length hall
  exact absurd hlen (by decide)

end ConfReader

end Nrtb
