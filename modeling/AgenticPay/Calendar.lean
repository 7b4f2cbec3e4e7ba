import Mathlib.Data.Int.Basic
import Mathlib.Order.Monotone.Basic
import Mathlib.Tactic.IntervalCases

/-!
# Months and days

The Gregorian calendar, extended to all years. Days are counted from the first of
January 1970 and months from January of the year 0, both in either direction. A
month is known by its first day, and the month of a day is the last one that
begins no later.
-/
namespace Calendar

def Leap (year : Int) : Prop := year % 4 = 0 ∧ (year % 100 ≠ 0 ∨ year % 400 = 0)

instance (year : Int) : Decidable (Leap year) := inferInstanceAs (Decidable (_ ∧ _))

/-- The first day of a year. -/
def yearStart (year : Int) : Int :=
  365 * (year - 1970) + (year - 1969) / 4 - (year - 1901) / 100 + (year - 1601) / 400

/-- The days of a year before its month `m`, with January as 0. -/
def daysBefore (year : Int) (m : Nat) : Int :=
  (match m with
    | 0 => 0 | 1 => 31 | 2 => 59 | 3 => 90 | 4 => 120 | 5 => 151 | 6 => 181 | 7 => 212 | 8 => 243
    | 9 => 273 | 10 => 304 | _ => 334) + if 2 ≤ m ∧ Leap year then 1 else 0

/-- The first day of a month. -/
def monthStart (month : Int) : Int :=
  yearStart (month / 12) + daysBefore (month / 12) (month % 12).toNat

def monthLength (month : Int) : Int :=
  match (month % 12).toNat with
  | 1 => if Leap (month / 12) then 29 else 28
  | 3 | 5 | 8 | 10 => 30
  | _ => 31

/-- The last place up to `n` where `f` is at most `d`, or the first of all. -/
def lastBelow (f : Nat → Int) (d : Int) : Nat → Nat
  | 0 => 0
  | n + 1 => if f (n + 1) ≤ d then n + 1 else lastBelow f d n

/-- The year of a day: an estimate from the mean length of a year is off by one at most. -/
def yearOf (day : Int) : Int :=
  let guess := 400 * day / 146097 + 1970
  if day < yearStart guess then guess - 1
  else if yearStart (guess + 1) ≤ day then guess + 1
  else guess

def monthOf (day : Int) : Int :=
  12 * yearOf day + lastBelow (daysBefore (yearOf day)) (day - yearStart (yearOf day)) 11

/-- The day of the month, from 1 on. -/
def dateOf (day : Int) : Int := day - monthStart (monthOf day) + 1

theorem yearStart_succ (year : Int) :
    yearStart (year + 1) = yearStart year + if Leap year then 366 else 365 := by
  simp only [yearStart, Leap]
  split_ifs <;> omega

theorem yearOf_spec (day : Int) :
    yearStart (yearOf day) ≤ day ∧ day < yearStart (yearOf day + 1) := by
  have hlow : yearStart (400 * day / 146097 + 1970 - 1) ≤ day := by
    rw [yearStart]
    omega
  have hhigh : day < yearStart (400 * day / 146097 + 1970 + 1 + 1) := by
    rw [yearStart]
    omega
  rw [yearOf]
  split_ifs with hbefore hafter
  · exact ⟨hlow, by rwa [Int.sub_add_cancel]⟩
  · exact ⟨hafter, hhigh⟩
  · exact ⟨not_lt.mp hbefore, not_le.mp hafter⟩

theorem lastBelow_spec {f : Nat → Int} {d : Int} (h : f 0 ≤ d) (n : Nat) :
    f (lastBelow f d n) ≤ d ∧ lastBelow f d n ≤ n ∧
      (lastBelow f d n < n → d < f (lastBelow f d n + 1)) := by
  induction n with
  | zero => exact ⟨h, Nat.le_refl 0, fun hlt => absurd hlt (Nat.lt_irrefl 0)⟩
  | succ n ih =>
    rw [lastBelow]
    by_cases hn : f (n + 1) ≤ d
    · rw [if_pos hn]
      exact ⟨hn, Nat.le_refl _, fun hlt => absurd hlt (Nat.lt_irrefl _)⟩
    · rw [if_neg hn]
      obtain ⟨hle, hbound, hnext⟩ := ih
      refine ⟨hle, by omega, fun _ => ?_⟩
      by_cases hlast : lastBelow f d n < n
      · exact hnext hlast
      · have he : lastBelow f d n = n := by omega
        rw [he]
        exact not_le.mp hn

/-- A month written by its year and its place in it. -/
theorem monthStart_of (year : Int) {m : Nat} (h : m < 12) :
    monthStart (12 * year + m) = yearStart year + daysBefore year m := by
  have hyear : (12 * year + m) / 12 = year := by omega
  have hplace : ((12 * year + m) % 12).toNat = m := by omega
  rw [monthStart, hyear, hplace]

theorem daysBefore_zero (year : Int) : daysBefore year 0 = 0 := by
  rw [daysBefore, if_neg (by omega)]
  rfl

/-- The next month begins when a month is over. -/
theorem monthStart_succ (month : Int) :
    monthStart (month + 1) = monthStart month + monthLength month := by
  obtain ⟨year, m, hm, rfl⟩ : ∃ (year : Int) (m : Nat), m < 12 ∧ month = 12 * year + m :=
    ⟨month / 12, (month % 12).toNat, by omega, by omega⟩
  have hyear : (12 * year + m) / 12 = year := by omega
  have hplace : ((12 * year + m) % 12).toNat = m := by omega
  rw [monthStart_of year hm, monthLength, hyear, hplace]
  by_cases hlast : m = 11
  · have hnext : 12 * year + (m : Int) + 1 = 12 * (year + 1) + (0 : Nat) := by omega
    subst hlast
    rw [hnext, monthStart_of (year + 1) (by omega), yearStart_succ, daysBefore_zero]
    by_cases hleap : Leap year <;> simp [daysBefore, hleap] <;> omega
  · have hnext : 12 * year + (m : Int) + 1 = 12 * year + ((m + 1 : Nat) : Int) := by omega
    rw [hnext, monthStart_of year (by omega)]
    by_cases hleap : Leap year <;> interval_cases m <;> simp [daysBefore, hleap] <;> omega

theorem monthLength_pos (month : Int) : 28 ≤ monthLength month ∧ monthLength month ≤ 31 := by
  rw [monthLength]
  split
  · split_ifs <;> omega
  all_goals omega

/-- Months begin one after the other. -/
theorem monthStart_lt_iff {m n : Int} : monthStart m < monthStart n ↔ m < n := by
  have hmono : StrictMono monthStart := by
    refine strictMono_int_of_lt_succ fun month => ?_
    have := monthLength_pos month
    rw [monthStart_succ]
    omega
  exact hmono.lt_iff_lt

theorem monthStart_le {m n : Int} (h : m ≤ n) : monthStart m ≤ monthStart n := by
  rw [← not_lt] at h ⊢
  exact monthStart_lt_iff.not.mpr h

theorem monthOf_spec (day : Int) :
    monthStart (monthOf day) ≤ day ∧ day < monthStart (monthOf day + 1) := by
  obtain ⟨hyear, hnext⟩ := yearOf_spec day
  have hzero : daysBefore (yearOf day) 0 ≤ day - yearStart (yearOf day) := by
    rw [daysBefore_zero]
    omega
  obtain ⟨hle, hbound, hlast⟩ := lastBelow_spec hzero 11
  rw [monthOf]
  generalize lastBelow (daysBefore (yearOf day)) (day - yearStart (yearOf day)) 11 = m at *
  refine ⟨by rw [monthStart_of _ (by omega)]; omega, ?_⟩
  by_cases hm : m < 11
  · have he : 12 * yearOf day + (m : Int) + 1 = 12 * yearOf day + ((m + 1 : Nat) : Int) := by omega
    rw [he, monthStart_of _ (by omega)]
    have := hlast hm
    omega
  · have he : 12 * yearOf day + (m : Int) + 1 = 12 * (yearOf day + 1) + (0 : Nat) := by omega
    rw [he, monthStart_of _ (by omega), daysBefore_zero]
    omega

/-- The month of a day is the only one that has begun and is not over. -/
theorem monthOf_eq {day month : Int} (hbegun : monthStart month ≤ day)
    (hover : day < monthStart (month + 1)) : monthOf day = month := by
  obtain ⟨hle, hlt⟩ := monthOf_spec day
  have h₁ : month < monthOf day + 1 := monthStart_lt_iff.mp (by omega)
  have h₂ : monthOf day < month + 1 := monthStart_lt_iff.mp (by omega)
  omega

end Calendar

/-!
## Dates of the host

A date is a number of milliseconds, and a date that is computed may be none that the host can have.
The parts of a date in universal time are read and written by the calendar.
-/
namespace Dates

open Calendar

/-- The largest number of milliseconds that a date can have, before and after the epoch. -/
def maxTime : Nat := 8640000000000000

/-- `toISOString`, which throws at what is no date. -/
def toIsoString (time : Int) : Except String Int :=
  if time.natAbs ≤ maxTime then .ok time else .error "Invalid time value"

/-! ## Universal time -/

@[ext]
structure Instant where
  time : Int
  representable : time.natAbs ≤ maxTime
  deriving DecidableEq

/-- `none` is the invalid date. -/
abbrev JsDate := Option Instant

def msPerDay : Int := 86400000

def day (time : Int) : Int := time / msPerDay

def timeWithinDay (time : Int) : Int := time % msPerDay

/-- The time of a day and of a time within it. -/
def makeDate (day time : Int) : Int := day * msPerDay + time

def makeDay (year month date : Int) : Int := monthStart (12 * year + month) + date - 1

def timeClip (time : Int) : JsDate :=
  if h : time.natAbs ≤ maxTime then some ⟨time, h⟩ else none

/-- The years of two digits are those of the twentieth century. -/
def makeFullYear (year : Int) : Int := if 0 ≤ year ∧ year ≤ 99 then 1900 + year else year

/-- `Date.UTC(year, month, date)`, as a date. -/
def dateUtc (year month date : Int) : JsDate :=
  timeClip (makeDate (makeDay (makeFullYear year) month date) 0)

namespace Instant

variable (t : Instant)

def month : Int := monthOf (day t.time)

def getUTCFullYear : Int := t.month / 12

def getUTCMonth : Int := t.month % 12

def getUTCDate : Int := dateOf (day t.time)

def setUTCDate (date : Int) : JsDate :=
  timeClip (makeDate (makeDay t.getUTCFullYear t.getUTCMonth date) (timeWithinDay t.time))

def setUTCMonth (month : Int) : JsDate :=
  timeClip (makeDate (makeDay t.getUTCFullYear month t.getUTCDate) (timeWithinDay t.time))

end Instant

/-- `toISOString`, where the instant stands for its text. -/
def JsDate.toISOString : JsDate → Except String Instant
  | some t => .ok t
  | none => .error "Invalid time value"

/-! ## Days and instants -/

variable {t : Instant} {time d m : Int}

theorem timeClip_eq_some (h : time = t.time) : timeClip time = some t := by
  subst h
  exact dif_pos t.representable

theorem timeClip_some (h : timeClip time = some t) : t.time = time := by
  rw [timeClip] at h
  split_ifs at h with hr
  exact (congrArg Instant.time (Option.some.inj h)).symm

theorem makeDate_day (t : Instant) : makeDate (day t.time) (timeWithinDay t.time) = t.time := by
  rw [makeDate, day, timeWithinDay, msPerDay]
  omega

theorem timeWithinDay_range (time : Int) :
    0 ≤ timeWithinDay time ∧ timeWithinDay time < msPerDay := by
  rw [timeWithinDay, msPerDay]
  omega

theorem day_of_makeDate (h : t.time = makeDate d (timeWithinDay time)) : day t.time = d := by
  have := timeWithinDay_range time
  rw [h, day, makeDate]
  rw [msPerDay] at *
  omega

theorem timeWithinDay_of_makeDate (h : t.time = makeDate d (timeWithinDay time)) :
    timeWithinDay t.time = timeWithinDay time := by
  have := timeWithinDay_range time
  rw [h, timeWithinDay, makeDate]
  rw [msPerDay] at *
  omega

/-- The parts of a date make its day. -/
theorem makeDay_getUTC (t : Instant) (date : Int) :
    makeDay t.getUTCFullYear t.getUTCMonth date = monthStart t.month + date - 1 := by
  have hmonth : 12 * t.getUTCFullYear + t.getUTCMonth = t.month := by
    rw [Instant.getUTCFullYear, Instant.getUTCMonth]
    omega
  rw [makeDay, hmonth]

theorem getUTCDate_eq (t : Instant) : t.getUTCDate = day t.time - monthStart t.month + 1 := rfl

/-- A day of the month puts the date into its month. -/
theorem month_eq (hfirst : monthStart m ≤ day t.time) (hlast : day t.time < monthStart (m + 1)) :
    t.month = m := monthOf_eq hfirst hlast

end Dates
