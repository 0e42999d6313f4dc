import Mathlib.Logic.Basic

/-!
# Calendar time

Seconds are counted from the start of 1970, without leap seconds.

* `yearDays`, `monthDays`: the Gregorian calendar. Months are counted from 0.
* `Tm`: a broken-down time as in C, and its `seconds`.
* `Instant`: a date with a time of day, and its `unixTime`.
* `Tm.nextMonth`: the same day a month later is later (`seconds_lt_nextMonth`). After the twelfth
  month comes the first of the next year (`seconds_nextJanuary`).
-/

namespace Calendar

def isLeap (y : Nat) : Bool := y % 4 = 0 && (y % 100 ≠ 0 || y % 400 = 0)

def yearDays (y : Nat) : Nat := if isLeap y then 366 else 365

def monthDays (y m : Nat) : Nat :=
  if m = 1 then if isLeap y then 29 else 28
  else if m = 3 ∨ m = 5 ∨ m = 8 ∨ m = 10 then 30 else 31

/-- The days from the start of 1970 to the start of `1970 + k`. -/
def daysBeforeYear : Nat → Nat
  | 0 => 0
  | k + 1 => daysBeforeYear k + yearDays (1970 + k)

/-- The days of a year before a month. -/
def daysBeforeMonth (y : Nat) : Nat → Nat
  | 0 => 0
  | m + 1 => daysBeforeMonth y m + monthDays y m

theorem monthDays_pos (y m : Nat) : 0 < monthDays y m := by
  unfold monthDays
  split
  · split <;> decide
  · split <;> decide

/-- A year has twelve months. -/
theorem daysBeforeMonth_twelve (y : Nat) : daysBeforeMonth y 12 = yearDays y := by
  unfold yearDays
  cases hleap : isLeap y <;> simp [daysBeforeMonth, monthDays, hleap]

/-! ## Broken-down time -/

/-- `struct tm`. The year is counted from 1900. -/
structure Tm where
  sec : Int
  min : Int
  hour : Int
  mday : Int
  mon : Int
  year : Int
  wday : Int
  yday : Int
  isdst : Int
  deriving DecidableEq

/-- The time that a `struct tm` stands for. It does not use the day of the week and of the year. -/
def Tm.seconds (t : Tm) : Int :=
  let y := (t.year + 1900).toNat
  86400 * (daysBeforeYear (y - 1970) + daysBeforeMonth y t.mon.toNat + (t.mday - 1)) +
    3600 * t.hour + 60 * t.min + t.sec

/-- The fields are in their ranges, and the year is not before 1970. -/
structure Tm.InRange (t : Tm) : Prop where
  sec : 0 ≤ t.sec ∧ t.sec ≤ 60
  min : 0 ≤ t.min ∧ t.min ≤ 59
  hour : 0 ≤ t.hour ∧ t.hour ≤ 23
  mday : 1 ≤ t.mday ∧ t.mday ≤ 31
  mon : 0 ≤ t.mon ∧ t.mon ≤ 11
  year : 70 ≤ t.year

variable {t : Tm}

/-- The same day a month later. In the twelfth month, the month is then out of its range. -/
def Tm.nextMonth (t : Tm) : Tm := { t with mon := t.mon + 1 }

/-- The same day of the first month of the next year. -/
def Tm.nextJanuary (t : Tm) : Tm := { t with year := t.year + 1, mon := 0 }

theorem Tm.InRange.nextMonth (h : t.InRange) (hmon : t.mon < 11) : t.nextMonth.InRange :=
  { h with mon := ⟨Int.le_add_one h.mon.1, hmon⟩ }

theorem Tm.InRange.nextJanuary (h : t.InRange) : t.nextJanuary.InRange :=
  { h with mon := ⟨Int.le_refl 0, show (0 : Int) ≤ 11 by decide⟩, year := Int.le_add_one h.year }

theorem seconds_lt_nextMonth (hmon : 0 ≤ t.mon) : t.seconds < t.nextMonth.seconds := by
  have hsucc : (t.mon + 1).toNat = t.mon.toNat + 1 := by omega
  have hpos := monthDays_pos (t.year + 1900).toNat t.mon.toNat
  simp only [Tm.seconds, Tm.nextMonth, hsucc, daysBeforeMonth]
  omega

/-- After the twelfth month comes the first of the next year. -/
theorem seconds_nextJanuary (hmon : t.mon = 11) (hyear : 70 ≤ t.year) :
    t.nextJanuary.seconds = t.nextMonth.seconds := by
  obtain ⟨k, hk⟩ : ∃ k : Nat, t.year = 70 + k := ⟨(t.year - 70).toNat, by omega⟩
  have hnow : (70 + (k : Int) + 1900).toNat = 1970 + k := by omega
  have hnext : (70 + (k : Int) + 1 + 1900).toNat = 1970 + (k + 1) := by omega
  have htwelve : ((11 : Int) + 1).toNat = 12 := rfl
  simp only [Tm.seconds, Tm.nextMonth, Tm.nextJanuary, hmon, hk, hnow, hnext, htwelve,
    daysBeforeMonth_twelve, Nat.add_sub_cancel_left, daysBeforeYear, Int.toNat_zero,
    daysBeforeMonth]
  omega

/-! ## Instants -/

/-- A date and a time of day, from 1970 on. Here months are counted from 1. -/
structure Instant where
  year : Nat
  month : Nat
  day : Nat
  hour : Nat
  minute : Nat
  second : Nat
  hyear : 1970 ≤ year
  hmonth : 1 ≤ month ∧ month ≤ 12
  hday : 1 ≤ day ∧ day ≤ monthDays year (month - 1)
  hhour : hour < 24
  hminute : minute < 60
  hsecond : second < 60

variable {i : Instant}

theorem Instant.day_le (i : Instant) : i.day ≤ 31 := by
  have h := i.hday.2
  unfold monthDays at h
  split at h
  · split at h <;> omega
  · split at h <;> omega

/-- Two digits are enough for each field. -/
theorem Instant.lt_hundred (i : Instant) :
    ∀ n ∈ [i.hour, i.minute, i.second, i.day, i.month, i.year % 100], n < 100 := by
  have hmonth := i.hmonth
  have hday := i.day_le
  have hhour := i.hhour
  have hminute := i.hminute
  have hsecond := i.hsecond
  simp only [List.forall_mem_cons, List.not_mem_nil, false_imp_iff, implies_true, and_true]
  omega

/-- The seconds since the start of 1970. -/
def Instant.unixTime (i : Instant) : Int :=
  86400 * (daysBeforeYear (i.year - 1970) + daysBeforeMonth i.year (i.month - 1) + (i.day - 1)) +
    3600 * i.hour + 60 * i.minute + i.second

/-- The `struct tm` of an instant. The fields of `old` for the day of the week and of the year, and
for daylight saving, stay. -/
def Instant.tm (i : Instant) (old : Tm) : Tm :=
  { old with
    sec := i.second, min := i.minute, hour := i.hour
    mday := i.day, mon := i.month - 1, year := i.year - 1900 }

theorem Instant.tm_inRange (i : Instant) (old : Tm) : (i.tm old).InRange := by
  have := i.hyear
  have := i.hmonth
  have := i.hday.1
  have := i.day_le
  have := i.hhour
  have := i.hminute
  have := i.hsecond
  constructor <;> simp only [Instant.tm] <;> omega

theorem Instant.tm_seconds (i : Instant) (old : Tm) : (i.tm old).seconds = i.unixTime := by
  have hyear : ((i.year : Int) - 1900 + 1900).toNat = i.year := by omega
  have hmonth : ((i.month : Int) - 1).toNat = i.month - 1 := by omega
  simp only [Instant.tm, Tm.seconds, hyear, hmonth, Instant.unixTime]

/-- 29 February 2000, an hour before midnight. -/
example : Instant.unixTime ⟨2000, 2, 29, 23, 0, 0, by decide, by decide, by decide, by decide,
    by decide, by decide⟩ = 951865200 := by decide

end Calendar
