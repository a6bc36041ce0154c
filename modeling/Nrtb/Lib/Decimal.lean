import Nrtb.Lib.Istream
import Mathlib.Data.List.TakeWhile
import Mathlib.Data.Nat.Digits.Lemmas
import Mathlib.Tactic.Linarith

/-!
# Integers in decimal

How a stream writes an integer, and how it reads one of a bounded type from the start of a word. The
reader takes the digits that there are and does not mind what stands behind them; a number out of
the range of the type is an error, which stores the nearest one of the type. So a number is read
back from the middle of a text too, if the text goes on with something that is no digit.

* `scan_print`, `scan_print_append`: what was written is read back, when it is in the range of the
  type.
* `print_injective`: the text determines the number, by reading it back.
* `decimal_of_isDigit`: digits are read as the number they stand for (`value`), by induction from
  the last digit on.
-/

namespace Nrtb.Decimal

/-- The decimal digits of a number, the most significant one first. -/
def digits (n : Nat) : List UInt8 :=
  if n = 0 then [48] else (Nat.digits 10 n).reverse.map fun d => 48 + UInt8.ofNat d

/-- `stream << n` -/
def print : Int → List UInt8
  | .ofNat n => digits n
  | .negSucc n => 45 :: digits (n + 1)

/-- The digits behind a sign. -/
def signed (sign : Int) (digits : List UInt8) : Istream.Scan Int :=
  match Istream.decimal digits with
  | .good v used => .good (sign * v) (used + 1)
  | .bad v => .bad v

/-- The number at the start of a word, as one of a type from `lo` to `hi`; the nearest one of the
type is stored when it is too large. -/
def scan (lo hi : Int) (w : List UInt8) : Istream.Scan Int :=
  let read : Istream.Scan Int := match w with
    | [] => .bad 0
    | c :: rest => if c = 45 then signed (-1) rest else if c = 43 then signed 1 rest
      else Istream.decimal w
  match read with
  | .good v used => if v < lo then .bad lo else if hi < v then .bad hi else .good v used
  | .bad v => .bad v

/-! ## Digits -/

def isDigit (c : UInt8) : Bool := 48 ≤ c && c ≤ 57

theorem le_toNat_of_isDigit {c : UInt8} (h : isDigit c = true) : 48 ≤ c.toNat := by
  rw [isDigit, Bool.and_eq_true, decide_eq_true_eq, decide_eq_true_eq] at h
  exact UInt8.le_iff_toNat_le.mp h.1

theorem digits_of_lt {n : Nat} (h : n < 10) : digits n = [48 + UInt8.ofNat n] := by
  unfold digits
  split
  · next hzero => rw [hzero]; rfl
  · next hne => rw [Nat.digits_of_lt 10 n hne h]; rfl

theorem digits_of_le {n : Nat} (h : 10 ≤ n) :
    digits n = digits (n / 10) ++ [48 + UInt8.ofNat (n % 10)] := by
  have hdiv : n / 10 ≠ 0 := by omega
  unfold digits
  rw [if_neg (by omega), if_neg hdiv, Nat.digits_def' (by decide) (by omega : 0 < n)]
  simp

theorem digit_eq {d : Nat} (h : d < 10) :
    isDigit (48 + UInt8.ofNat d) = true ∧ ((48 + UInt8.ofNat d).toNat : Int) - 48 = d := by
  interval_cases d <;> decide

theorem digits_isDigit (n : Nat) : ∀ c ∈ digits n, isDigit c = true := by
  induction n using Nat.strong_induction_on with
  | _ n ih =>
    intro c hc
    by_cases h : n < 10
    · rw [digits_of_lt h, List.mem_singleton] at hc
      rw [hc]
      exact (digit_eq h).1
    · rw [digits_of_le (by omega), List.mem_append, List.mem_singleton] at hc
      rcases hc with hc | rfl
      · exact ih (n / 10) (by omega) c hc
      · exact (digit_eq (by omega)).1

theorem digits_ne_nil (n : Nat) : digits n ≠ [] := by
  by_cases h : n < 10
  · rw [digits_of_lt h]
    exact List.cons_ne_nil _ _
  · rw [digits_of_le (by omega)]
    simp

/-- The number that digits stand for, the most significant one first. -/
def value (w : List UInt8) : Nat := Nat.ofDigits 10 (w.reverse.map fun c => c.toNat - 48)

theorem foldl_of_isDigit {w : List UInt8} (hw : ∀ c ∈ w, isDigit c = true) :
    w.foldl (fun (m : Int) c => 10 * m + (c.toNat - 48)) 0 = value w := by
  induction w using List.reverseRecOn with
  | nil => rfl
  | append_singleton w c ih =>
    have hc : 48 ≤ c.toNat := le_toNat_of_isDigit (hw c (by simp))
    have hvalue : value (w ++ [c]) = (c.toNat - 48) + 10 * value w := by
      simp [value, Nat.ofDigits_cons]
    rw [List.foldl_append, ih fun d hd => hw d (List.mem_append_left [c] hd), List.foldl_cons,
      List.foldl_nil, hvalue]
    omega

/-- Digits, up to something else. -/
theorem decimal_append {w : List UInt8} (hw : ∀ c ∈ w, isDigit c = true) (hne : w ≠ [])
    (rest : List UInt8) (hrest : rest.head?.all (fun c => !isDigit c) = true) :
    Istream.decimal (w ++ rest) = .good (value w) w.length := by
  have hnone : rest.takeWhile isDigit = [] := by
    cases rest with
    | nil => rfl
    | cons c rest => exact List.takeWhile_cons_of_neg (by simpa using hrest)
  have htake : (w ++ rest).takeWhile (fun c => 48 ≤ c && c ≤ 57) = w := by
    show (w ++ rest).takeWhile isDigit = w
    rw [List.takeWhile_append_of_pos hw, hnone, List.append_nil]
  unfold Istream.decimal
  simp only [htake, List.isEmpty_eq_false_iff.mpr hne, Bool.false_eq_true, if_false,
    foldl_of_isDigit hw]

theorem decimal_of_isDigit {w : List UInt8} (hw : ∀ c ∈ w, isDigit c = true) (hne : w ≠ []) :
    Istream.decimal w = .good (value w) w.length := by
  have := decimal_append hw hne [] rfl
  rwa [List.append_nil] at this

theorem value_digits (n : Nat) : value (digits n) = n := by
  induction n using Nat.strong_induction_on with
  | _ n ih =>
    by_cases h : n < 10
    · have hdigit := (digit_eq h).2
      have hvalue : value (digits n) = (48 + UInt8.ofNat n).toNat - 48 := by
        simp [value, digits_of_lt h, Nat.ofDigits_cons]
      omega
    · have hdigit := (digit_eq (Nat.mod_lt n (by decide))).2
      have hvalue : value (digits n)
          = ((48 + UInt8.ofNat (n % 10)).toNat - 48) + 10 * value (digits (n / 10)) := by
        rw [digits_of_le (by omega)]
        simp [value, Nat.ofDigits_cons]
      have hrest := ih (n / 10) (by omega)
      omega

theorem decimal_digits_append (n : Nat) (rest : List UInt8)
    (hrest : rest.head?.all (fun c => !isDigit c) = true) :
    Istream.decimal (digits n ++ rest) = .good n (digits n).length := by
  rw [decimal_append (digits_isDigit n) (digits_ne_nil n) rest hrest, value_digits]

/-! ## Integers -/

theorem print_ne_nil (n : Int) : print n ≠ [] := by
  cases n with
  | ofNat n => exact digits_ne_nil n
  | negSucc n => exact List.cons_ne_nil _ _

/-- A sign or a digit. -/
theorem mem_print {n : Int} {c : UInt8} (hc : c ∈ print n) : c = 45 ∨ isDigit c = true := by
  cases n with
  | ofNat n => exact Or.inr (digits_isDigit n c hc)
  | negSucc n => exact (List.mem_cons.mp hc).imp id (digits_isDigit (n + 1) c)

/-- What was written, up to something that is no digit. -/
theorem scan_print_append {lo hi n : Int} (hlo : lo ≤ n) (hhi : n ≤ hi) (rest : List UInt8)
    (hrest : rest.head?.all (fun c => !isDigit c) = true) :
    scan lo hi (print n ++ rest) = .good n (print n).length := by
  cases n with
  | ofNat n =>
    have hhead : ∀ c rest, digits n = c :: rest → c ≠ 45 ∧ c ≠ 43 := by
      intro c rest hcons
      have hdigit := digits_isDigit n c (by rw [hcons]; simp)
      constructor <;> rintro rfl <;> exact absurd hdigit (by decide)
    have hread := decimal_digits_append n rest hrest
    show scan lo hi (digits n ++ rest) = .good n (digits n).length
    unfold scan
    cases hcons : digits n with
    | nil => exact absurd hcons (digits_ne_nil n)
    | cons c tail =>
      rw [hcons] at hread
      simp only [List.cons_append, if_neg (hhead c tail hcons).1,
        if_neg (hhead c tail hcons).2] at hread ⊢
      rw [hread]
      exact (if_neg (not_lt.mpr hlo)).trans (if_neg (not_lt.mpr hhi))
  | negSucc n =>
    have hneg : (-1 : Int) * ((n + 1 : Nat) : Int) = Int.negSucc n := by
      rw [neg_one_mul]
      rfl
    show scan lo hi (45 :: (digits (n + 1) ++ rest))
      = .good (Int.negSucc n) ((digits (n + 1)).length + 1)
    unfold scan signed
    simp only [if_true, decimal_digits_append _ rest hrest, hneg]
    rw [if_neg (not_lt.mpr hlo), if_neg (not_lt.mpr hhi)]

theorem scan_print {lo hi n : Int} (hlo : lo ≤ n) (hhi : n ≤ hi) :
    scan lo hi (print n) = .good n (print n).length := by
  have := scan_print_append hlo hhi [] rfl
  rwa [List.append_nil] at this

theorem print_injective : Function.Injective print := by
  intro n m h
  have hn := scan_print (min_le_left n m) (le_max_left n m)
  have hm := scan_print (min_le_right n m) (le_max_right n m)
  rw [h, hm] at hn
  exact (Istream.Scan.good.inj hn).1.symm

end Nrtb.Decimal
