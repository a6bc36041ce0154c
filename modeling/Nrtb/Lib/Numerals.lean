import Mathlib.Data.Nat.Cast.Defs

/-!
# Numerals

A numeral from two on is the cast of a number that is at least two. For the numerals that several
definitions share the fact is an instance with a name, so that every one of them refers to that.
The instances are scoped: a module that wants them opens this namespace.
-/

namespace Nrtb.Numerals

scoped instance atLeastTwo_2 : Nat.AtLeastTwo 2 := ⟨by decide⟩

scoped instance atLeastTwo_5 : Nat.AtLeastTwo 5 := ⟨by decide⟩

scoped instance atLeastTwo_7 : Nat.AtLeastTwo 7 := ⟨by decide⟩

scoped instance atLeastTwo_9 : Nat.AtLeastTwo 9 := ⟨by decide⟩

scoped instance atLeastTwo_10 : Nat.AtLeastTwo 10 := ⟨by decide⟩

scoped instance atLeastTwo_22 : Nat.AtLeastTwo 22 := ⟨by decide⟩

scoped instance atLeastTwo_50 : Nat.AtLeastTwo 50 := ⟨by decide⟩

scoped instance atLeastTwo_100 : Nat.AtLeastTwo 100 := ⟨by decide⟩

scoped instance atLeastTwo_300 : Nat.AtLeastTwo 300 := ⟨by decide⟩

scoped instance atLeastTwo_100000 : Nat.AtLeastTwo 100000 := ⟨by decide⟩

scoped instance atLeastTwo_314159 : Nat.AtLeastTwo 314159 := ⟨by decide⟩

scoped instance atLeastTwo_1000000 : Nat.AtLeastTwo 1000000 := ⟨by decide⟩

scoped instance atLeastTwo_6283185 : Nat.AtLeastTwo 6283185 := ⟨by decide⟩

end Nrtb.Numerals
