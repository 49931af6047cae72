import NucleoMqtt.Lib.Spans

/-!
# Rtc — the civil calendar

`localtime_r` and `mktime` of the C library, with no time zone: the UTC
Gregorian conversions between a count of seconds since 1970 and a
`struct tm`. Months are counted through from January 1900, so that a year
is twelve of them and `mktime` takes a month behind December as one of the
next year. Days before 1900 come from the cycle of 400 years in which the
calendar repeats.
-/

namespace NucleoMqtt.Rtc

open NucleoMqtt.Lib

/-- `struct tm`: `tm_year` counts from 1900 and `tm_mon` from 0. -/
structure Tm where
  tmSec : Int
  tmMin : Int
  tmHour : Int
  tmMday : Int
  tmMon : Int
  tmYear : Int
  tmWday : Int
deriving DecidableEq

/-! ## Months -/

/-- Leap years of the Gregorian calendar. -/
def leap (year : Nat) : Bool := (year % 4 = 0 ∧ year % 100 ≠ 0) ∨ year % 400 = 0

/-- Days of the month `month`, counted from 0. -/
def monthDays (isLeap : Bool) (month : Nat) : Nat :=
  match month with
  | 1 => if isLeap then 29 else 28
  | 3 | 5 | 8 | 10 => 30
  | _ => 31

theorem monthDays_bounds (isLeap : Bool) (month : Nat) :
    28 ≤ monthDays isLeap month ∧ monthDays isLeap month ≤ 31 := by
  unfold monthDays
  split
  · cases isLeap <;> decide
  all_goals decide

/-- The months since January 1900. -/
def months : Spans where
  len m := monthDays (leap (1900 + m / 12)) (m % 12)
  pos m := Nat.lt_of_lt_of_le (by decide) (monthDays_bounds _ (m % 12)).1

theorem months_len_le (m : Nat) : months.len m ≤ 31 := (monthDays_bounds _ _).2

/-- Days from January 1900 to January 1970. -/
def epochDay : Nat := 25567

example : months.start (12 * 70) = epochDay := by decide +kernel

theorem start_2060 : months.start (12 * 160) = 58439 := by decide +kernel

theorem start_2300 : months.start (12 * 400) = 146097 := by decide +kernel

/-- Months of 400 years repeat. -/
theorem months_len_cycle (m : Nat) : months.len (m + 12 * 400) = months.len m := by
  have hyear : 1900 + (m + 12 * 400) / 12 = 1900 + m / 12 + 400 := by omega
  have hmonth : (m + 12 * 400) % 12 = m % 12 := by omega
  have hleap : leap (1900 + m / 12 + 400) = leap (1900 + m / 12) := by
    simp only [leap]
    rw [decide_eq_decide]
    omega
  show monthDays _ _ = monthDays _ _
  rw [hyear, hmonth, hleap]

theorem months_start_cycle (m : Nat) : months.start (m + 12 * 400) = months.start m + 146097 := by
  induction m with
  | zero =>
      rw [Nat.zero_add, start_2300]
      rfl
  | succ m ih =>
      rw [Nat.add_right_comm, Spans.start_succ, ih, months_len_cycle, Spans.start_succ,
        Nat.add_right_comm]

/-- Month and day of the month of a day counted from the first of January
1900. Before that, the month lies whole cycles before one from 1900 on. -/
def locateDay (day : Int) : Int × Nat :=
  if 0 ≤ day then
    let (month, date) := months.locate day.toNat
    (month, date)
  else
    let (month, date) := months.locate (day % 146097).toNat
    (month + 12 * 400 * (day / 146097), date)

theorem locateDay_of_nonneg {day : Int} (h : 0 ≤ day) :
    locateDay day = (((months.locate day.toNat).1 : Int), (months.locate day.toNat).2) := if_pos h

theorem locateDay_of_neg {day : Int} (h : day < 0) :
    locateDay day = ((months.locate (day % 146097).toNat).1 + 12 * 400 * (day / 146097),
      (months.locate (day % 146097).toNat).2) := if_neg (Int.not_le.mpr h)

/-- Days of 400 years repeat as their months do. -/
theorem months_locate_cycle (n : Nat) :
    months.locate (n + 146097) = ((months.locate n).1 + 12 * 400, (months.locate n).2) := by
  have hn := months.start_locate n
  have hlt := months.locate_lt n
  rw [← months_len_cycle] at hlt
  rw [← months.locate_start hlt, months_start_cycle]
  congr 1
  omega

/-- **The calendar has one cycle**, in front of 1900 as behind. -/
theorem locateDay_cycle (day : Int) :
    locateDay (day + 146097) = ((locateDay day).1 + 12 * 400, (locateDay day).2) := by
  rcases Int.lt_or_le day 0 with hday | hday
  · rcases Int.lt_or_le (day + 146097) 0 with hnext | hnext
    · have hmod : (day + 146097) % 146097 = day % 146097 := by omega
      have hdiv : (day + 146097) / 146097 = day / 146097 + 1 := by omega
      rw [locateDay_of_neg hday, locateDay_of_neg hnext, hmod, hdiv, Prod.mk.injEq]
      exact ⟨by omega, rfl⟩
    · have hmod : day % 146097 = day + 146097 := by omega
      have hdiv : day / 146097 = -1 := by omega
      rw [locateDay_of_neg hday, locateDay_of_nonneg hnext, hmod, hdiv, Prod.mk.injEq]
      exact ⟨by omega, rfl⟩
  · have hnat : (day + 146097).toNat = day.toNat + 146097 := by omega
    rw [locateDay_of_nonneg hday, locateDay_of_nonneg (by omega), hnat, months_locate_cycle]
    rfl

theorem locateDay_lt (day : Int) : (locateDay day).2 < 31 := by
  rw [locateDay]
  split
  · exact Nat.lt_of_lt_of_le (months.locate_lt _) (months_len_le _)
  · exact Nat.lt_of_lt_of_le (months.locate_lt _) (months_len_le _)

/-! ## Conversions -/

/-- `localtime_r`. -/
def localtimeR (curtime : Int) : Tm :=
  let day := curtime / 86400 + epochDay
  let sec := curtime % 86400
  { tmSec := sec % 60
    tmMin := sec / 60 % 60
    tmHour := sec / 3600
    tmMday := (locateDay day).2 + 1
    tmMon := (locateDay day).1 % 12
    tmYear := (locateDay day).1 / 12
    tmWday := (day + 1) % 7 }

/-- `mktime`, for months from January 1900 on. Days, hours, minutes and
seconds may be out of range. -/
def mktime (tm : Tm) : Int :=
  86400 * (months.start (12 * tm.tmYear + tm.tmMon).toNat + (tm.tmMday - 1) - epochDay)
    + 3600 * tm.tmHour + 60 * tm.tmMin + tm.tmSec

/-- **`mktime` takes back what `localtime_r` gives.** -/
theorem mktime_localtimeR {t : Int} (h : 0 ≤ t / 86400 + epochDay) :
    mktime (localtimeR t) = t := by
  have hloc := months.start_locate (t / 86400 + epochDay).toNat
  have hmonth : (12 * ((months.locate (t / 86400 + epochDay).toNat).1 / 12 : Int)
      + (months.locate (t / 86400 + epochDay).toNat).1 % 12).toNat
        = (months.locate (t / 86400 + epochDay).toNat).1 := by
    omega
  rw [localtimeR, locateDay_of_nonneg h, mktime]
  simp only [hmonth]
  omega

end NucleoMqtt.Rtc
