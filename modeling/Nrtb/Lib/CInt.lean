import Mathlib.Data.Nat.Basic
import Mathlib.Tactic.Linarith

/-!
# Machine integers of C++

Conversions and operations whose wrap-around the code can reach: a value converted to a 32-bit
`int` (`toInt`) or to a 64-bit unsigned type (`toSize`), and the subtraction of two 64-bit `size_t`
values (`sizeSub`).
-/

namespace Nrtb.CInt

/-- A value converted to `int`. -/
def toInt (n : Int) : Int := n.bmod (2 ^ 32)

theorem toInt_of_range {n : Int} (hlo : -2 ^ 31 ≤ n) (hhi : n < 2 ^ 31) : toInt n = n := by
  rw [toInt, Int.bmod_eq_of_le_mul_two] <;> norm_num <;> omega

theorem toInt_lt (n : Int) : toInt n < 2 ^ 31 := by
  have := Int.bmod_lt (x := n) (m := 2 ^ 32) (by norm_num)
  rw [toInt]
  omega

theorem le_toInt (n : Int) : -2 ^ 31 ≤ toInt n := by
  have := Int.le_bmod (x := n) (m := 2 ^ 32) (by norm_num)
  rw [toInt]
  omega

/-- A value converted twice. -/
theorem toInt_toInt (n : Int) : toInt (toInt n) = toInt n :=
  toInt_of_range (le_toInt n) (toInt_lt n)

/-- Counting on from a converted value. -/
theorem toInt_toInt_add (n m : Int) : toInt (toInt n + m) = toInt (n + m) :=
  Int.bmod_add_bmod

theorem toInt_eq_zero_iff (n : Nat) : toInt n = 0 ↔ 2 ^ 32 ∣ n := by
  unfold toInt
  rw [Int.bmod_def]
  split <;> omega

/-- A value converted to a 64-bit unsigned type. -/
def toSize (n : Int) : Nat := (n % 2 ^ 64).toNat

/-- An unsigned value is the same after a detour over `int` when it is small, or so large that the
sign is extended to what was cut off. -/
theorem toSize_toInt_iff {n : Nat} (h : n < 2 ^ 64) :
    toSize (toInt n) = n ↔ n < 2 ^ 31 ∨ 2 ^ 64 - 2 ^ 31 ≤ n := by
  unfold toSize toInt
  rw [Int.bmod_def]
  split <;> omega

/-- A value converted to `unsigned long long`. -/
theorem toNat_ofInt (n : Int) : ((UInt64.ofInt n).toNat : Int) = n % 2 ^ 64 := by
  rw [UInt64.ofInt, UInt64.toNat_ofNat']
  omega

/-- The difference of two `size_t` values. -/
def sizeSub (a b : Nat) : Nat := if b ≤ a then a - b else a + 2 ^ 64 - b

theorem sizeSub_of_le {a b : Nat} (h : b ≤ a) : sizeSub a b = a - b := if_pos h

/-- The difference wraps around. -/
theorem sizeSub_of_lt {a b : Nat} (h : a < b) : sizeSub a b = a + 2 ^ 64 - b :=
  if_neg (Nat.not_le.mpr h)

end Nrtb.CInt
