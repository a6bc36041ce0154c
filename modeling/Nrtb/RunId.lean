import Nrtb.Lib.CInt
import Nrtb.Lib.Decimal
import Mathlib.Data.Prod.Lex
import Mathlib.Data.UInt

/-!
# `mk_run_id` — the key of a run

`cpp/sim_engine/main/simengine.cpp`, lines 101–111. A run is named by a number made from the local
time: years of 365.25 days, and the seconds of the year. A leap year is longer than that by 18
hours, which are counted once more at the start of the next year.

The number is what tells the runs in the database apart, and puts them in order. It does so when a
later time has a larger number. Within a year it does, by the seconds; from one year to the next the
length of the year decides, which is 18 hours too short for a leap year and 6 hours too long for any
other one. The times are those that `localtime` may fill in, with the leap years of the calendar.

* `toNat_runNumber`: the number is put together from the year and the second of the year, and no
  product wraps around.
* `runNumber_lt_iff`: when the numbers are in the order of the times.
* `mk_run_id_eq_iff`: when two runs get the same name.
-/

namespace Nrtb

namespace RunId

/-! ## The number -/

/-- The fields of a `std::tm` that are read. -/
structure Tm where
  -- years since 1900
  tm_year : Int
  -- days since the first of January
  tm_yday : Int
  tm_hour : Int
  tm_min : Int
  tm_sec : Int
deriving DecidableEq

/-- The number that `mk_run_id` streams. -/
def runNumber (now : Tm) : UInt64 :=
  let year := UInt64.ofInt (now.tm_year * 31557600)
  let day := UInt64.ofInt (now.tm_yday * 24 * 3600)
  let secs := UInt64.ofInt (now.tm_hour * 3600 + now.tm_min * 60 + now.tm_sec)
  year + day + secs

/-- `mk_run_id()`, at this local time. -/
def mk_run_id (now : Tm) : List UInt8 := Decimal.print (runNumber now).toNat

/-! ## Calendar times -/

/-- The Gregorian rule. -/
def isLeap (year : Int) : Bool := year % 4 = 0 && (year % 100 ≠ 0 || year % 400 = 0)

/-- Days of a year. -/
def yearLength (year : Int) : Int := if isLeap year then 366 else 365

/-- A time that `localtime` fills in for a year from 1900 on; `tm_year` is an `int`. -/
structure CalendarTime extends Tm where
  year_nonneg : 0 ≤ tm_year
  year_lt : tm_year < 2 ^ 31
  yday_nonneg : 0 ≤ tm_yday
  yday_lt : tm_yday < yearLength (1900 + tm_year)
  hour_nonneg : 0 ≤ tm_hour
  hour_lt : tm_hour < 24
  min_nonneg : 0 ≤ tm_min
  min_lt : tm_min < 60
  sec_nonneg : 0 ≤ tm_sec
  sec_lt : tm_sec < 60

namespace CalendarTime

/-- By year, day, hour, minute and second. -/
def key (t : CalendarTime) : Int ×ₗ Int ×ₗ Int ×ₗ Int ×ₗ Int :=
  toLex (t.tm_year, toLex (t.tm_yday, toLex (t.tm_hour, toLex (t.tm_min, t.tm_sec))))

def Earlier (a b : CalendarTime) : Prop := a.key < b.key

def secondOfDay (t : CalendarTime) : Int := t.tm_hour * 3600 + t.tm_min * 60 + t.tm_sec

def secondOfYear (t : CalendarTime) : Int := t.tm_yday * 86400 + t.secondOfDay

variable {a b : CalendarTime}

theorem clock_range (t : CalendarTime) :
    (0 ≤ t.tm_hour ∧ t.tm_hour < 24) ∧ (0 ≤ t.tm_min ∧ t.tm_min < 60)
      ∧ (0 ≤ t.tm_sec ∧ t.tm_sec < 60) :=
  ⟨⟨t.hour_nonneg, t.hour_lt⟩, ⟨t.min_nonneg, t.min_lt⟩, t.sec_nonneg, t.sec_lt⟩

theorem secondOfDay_range (t : CalendarTime) : 0 ≤ t.secondOfDay ∧ t.secondOfDay < 86400 := by
  have hclock := t.clock_range
  unfold secondOfDay
  omega

theorem yday_le (t : CalendarTime) : t.tm_yday ≤ 365 := by
  have hlt := t.yday_lt
  unfold yearLength at hlt
  split at hlt <;> omega

/-- Only a leap year has the day 365. -/
theorem isLeap_of_yday (t : CalendarTime) (h : t.tm_yday = 365) :
    isLeap (1900 + t.tm_year) = true := by
  have hlt := t.yday_lt
  rw [h] at hlt
  unfold yearLength at hlt
  split at hlt
  · assumption
  · omega

/-- In the same year the seconds decide. -/
theorem earlier_iff :
    a.Earlier b ↔ a.tm_year < b.tm_year
      ∨ a.tm_year = b.tm_year ∧ a.secondOfYear < b.secondOfYear := by
  have hkey : a.Earlier b ↔ a.tm_year < b.tm_year ∨ a.tm_year = b.tm_year ∧
      (a.tm_yday < b.tm_yday ∨ a.tm_yday = b.tm_yday ∧
        (a.tm_hour < b.tm_hour ∨ a.tm_hour = b.tm_hour ∧
          (a.tm_min < b.tm_min ∨ a.tm_min = b.tm_min ∧ a.tm_sec < b.tm_sec))) := by
    unfold Earlier key
    simp only [Prod.Lex.toLex_lt_toLex]
  rw [hkey]
  refine or_congr_right (and_congr_right fun _ => ?_)
  have hfirst := a.clock_range
  have hsecond := b.clock_range
  unfold secondOfYear secondOfDay
  omega

/-- The products are an `int` and a `long`. -/
theorem products_fit (t : CalendarTime) :
    t.tm_year * 31557600 < 2 ^ 63 ∧ t.tm_yday * 24 * 3600 < 2 ^ 31 := by
  have hyear := t.year_lt
  have hday := t.yday_le
  constructor <;> omega

theorem toNat_runNumber (t : CalendarTime) :
    ((runNumber t.toTm).toNat : Int) = t.tm_year * 31557600 + t.secondOfYear := by
  have hsum : runNumber t.toTm = UInt64.ofInt (t.tm_year * 31557600 + t.secondOfYear) := by
    have hparts : t.tm_year * 31557600 + t.secondOfYear = t.tm_year * 31557600
        + t.tm_yday * 24 * 3600 + (t.tm_hour * 3600 + t.tm_min * 60 + t.tm_sec) := by
      unfold secondOfYear secondOfDay
      omega
    rw [hparts, UInt64.ofInt_add, UInt64.ofInt_add]
    rfl
  obtain ⟨hyear, hday⟩ := t.products_fit
  obtain ⟨hclock, hclock'⟩ := t.secondOfDay_range
  have hyear' := t.year_nonneg
  have hday' := t.yday_nonneg
  rw [hsum, CInt.toNat_ofInt]
  unfold secondOfYear
  omega

/-! ## The order of the numbers -/

/-- The first time is late on the last day of a leap year, and the second one is early on the first
day of the next year: by the clock, six hours earlier or more. -/
structure Overlaps (a b : CalendarTime) : Prop where
  year : b.tm_year = a.tm_year + 1
  last : a.tm_yday = 365
  first : b.tm_yday = 0
  clock : b.secondOfDay + 21600 ≤ a.secondOfDay

/-- Only behind a leap year. -/
theorem Overlaps.isLeap (h : Overlaps a b) : RunId.isLeap (1900 + a.tm_year) = true :=
  a.isLeap_of_yday h.last

/-- A year is 31557600 seconds long, or up to 18 hours longer. -/
theorem overlaps_iff : Overlaps a b ↔
    b.tm_year = a.tm_year + 1 ∧ 31557600 + b.secondOfYear ≤ a.secondOfYear := by
  have hlast := a.yday_le
  have hfirst := b.yday_nonneg
  obtain ⟨hclock, hclock'⟩ := a.secondOfDay_range
  obtain ⟨hsecond, hsecond'⟩ := b.secondOfDay_range
  unfold secondOfYear
  constructor
  · rintro ⟨hyear, hday, hday', hsix⟩
    exact ⟨hyear, by omega⟩
  · rintro ⟨hyear, hle⟩
    exact ⟨hyear, by omega, by omega, by omega⟩

/-- The numbers of two times are out of order when the day that is counted too much comes between
them. -/
theorem toNat_le_iff (h : a.Earlier b) :
    (runNumber b.toTm).toNat ≤ (runNumber a.toTm).toNat ↔ Overlaps a b := by
  have hlast := a.yday_le
  have hfirst := b.yday_nonneg
  obtain ⟨hclock, hclock'⟩ := a.secondOfDay_range
  obtain ⟨hsecond, hsecond'⟩ := b.secondOfDay_range
  rw [← Int.ofNat_le, toNat_runNumber, toNat_runNumber, overlaps_iff]
  rcases earlier_iff.mp h with hyear | ⟨hyear, hless⟩
  · unfold secondOfYear
    omega
  · omega

/-- Of two times the earlier one has the smaller number, unless it is late on the last day of a leap
year and the other one early on the day behind it. Within a year the number is a sum with fixed
weights, so that only the two sides of a new year have to be compared. -/
theorem runNumber_lt_iff (h : a.Earlier b) :
    runNumber a.toTm < runNumber b.toTm ↔ ¬ Overlaps a b := by
  rw [UInt64.lt_iff_toNat_lt, ← Nat.not_le, toNat_le_iff h]

/-- Two runs have the same name when the clock shows six hours less on the day behind. -/
theorem mk_run_id_eq_iff (h : a.Earlier b) :
    mk_run_id a.toTm = mk_run_id b.toTm ↔
      Overlaps a b ∧ b.secondOfDay + 21600 = a.secondOfDay := by
  have hnames : mk_run_id a.toTm = mk_run_id b.toTm ↔
      a.tm_year * 31557600 + a.secondOfYear = b.tm_year * 31557600 + b.secondOfYear := by
    unfold mk_run_id
    rw [Decimal.print_injective.eq_iff, toNat_runNumber, toNat_runNumber]
  rw [hnames]
  constructor
  · intro heq
    have hoverlaps : Overlaps a b := by
      refine (toNat_le_iff h).mp ?_
      rw [← Int.ofNat_le, toNat_runNumber, toNat_runNumber, heq]
    obtain ⟨hyear, hlast, hfirst, _⟩ := id hoverlaps
    refine ⟨hoverlaps, ?_⟩
    unfold secondOfYear at heq
    omega
  · rintro ⟨⟨hyear, hlast, hfirst, _⟩, hclock⟩
    unfold secondOfYear
    omega

/-! ## The end of 2024 -/

/-- 31 December 2024, 06:00:00 -/
def lastMorning : CalendarTime where
  tm_year := 124
  tm_yday := 365
  tm_hour := 6
  tm_min := 0
  tm_sec := 0
  year_nonneg := by decide
  year_lt := by decide
  yday_nonneg := by decide
  yday_lt := by decide
  hour_nonneg := by decide
  hour_lt := by decide
  min_nonneg := by decide
  min_lt := by decide
  sec_nonneg := by decide
  sec_lt := by decide

/-- 1 January 2025, at midnight -/
def newYear : CalendarTime where
  tm_year := 125
  tm_yday := 0
  tm_hour := 0
  tm_min := 0
  tm_sec := 0
  year_nonneg := by decide
  year_lt := by decide
  yday_nonneg := by decide
  yday_lt := by decide
  hour_nonneg := by decide
  hour_lt := by decide
  min_nonneg := by decide
  min_lt := by decide
  sec_nonneg := by decide
  sec_lt := by decide

/-- Two runs with one name. -/
theorem lastMorning_newYear :
    lastMorning.Earlier newYear
      ∧ runNumber lastMorning.toTm = runNumber newYear.toTm
      ∧ mk_run_id lastMorning.toTm = mk_run_id newYear.toTm
      ∧ ¬ runNumber lastMorning.toTm < runNumber newYear.toTm := by
  have hsame : runNumber lastMorning.toTm = runNumber newYear.toTm := by decide +kernel
  refine ⟨earlier_iff.mpr (by decide), hsame, ?_, ?_⟩
  · unfold mk_run_id
    rw [hsame]
  · rw [hsame]
    exact UInt64.lt_irrefl _

/-- An hour before that the run has a name of its own. -/
theorem runNumber_lt_iff_newYear :
    runNumber { lastMorning.toTm with tm_hour := 5 } < runNumber newYear.toTm := by
  let early : CalendarTime :=
    { lastMorning with
      tm_hour := 5
      hour_nonneg := by decide
      hour_lt := by decide }
  have hearlier : early.Earlier newYear := earlier_iff.mpr (by decide)
  refine (runNumber_lt_iff hearlier).mpr fun hoverlaps => ?_
  exact absurd hoverlaps.clock (by decide)

end CalendarTime

end RunId

end Nrtb
