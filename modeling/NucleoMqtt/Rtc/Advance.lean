import NucleoMqtt.Rtc.Clock

/-!
# Rtc — the clock as time goes by

The peripheral is a parameter: `Advances` is what is documented of one
second of it, for months from 1 to 12 and dates within their month, and
nothing more is asked. A valid date then runs through the calendar, day
number by day number. `resetTick` is one such peripheral.
-/

namespace NucleoMqtt.Rtc

open NucleoMqtt.Lib

/-! ## The peripheral -/

namespace CalendarDay

/-- Days of the day's month; leap years by the year field modulo 4. -/
def monthLength (d : CalendarDay) : Nat := monthDays (d.year % 4 = 0) (d.month - 1)

/-- A day as the HAL documents it. -/
def Valid (d : CalendarDay) : Prop :=
  1 ≤ d.month ∧ d.month ≤ 12 ∧ 1 ≤ d.date ∧ d.date ≤ d.monthLength

instance (d : CalendarDay) : Decidable d.Valid := inferInstanceAs (Decidable (_ ∧ _ ∧ _ ∧ _))

/-- The next day, with carry into month and year. -/
def next (d : CalendarDay) : CalendarDay :=
  if d.date < d.monthLength then { d with date := d.date + 1 }
  else if d.month < 12 then { d with month := d.month + 1, date := 1 }
  else { year := d.year + 1, month := 1, date := 1 }

end CalendarDay

/-- One second of the peripheral, as documented: the time of day goes on by
one second, the date changes at midnight only, and then a valid date gives
way to the next, as far as the digits of the year go. -/
structure Advances (tick : Registers → Registers) : Prop where
  time : ∀ r, r.ValidTime →
    (tick r).ValidTime ∧ (tick r).second = (r.second + 1) % 86400
  sameDay : ∀ r, r.ValidTime → r.second + 1 < 86400 → (tick r).day = r.day
  nextDay : ∀ r, r.ValidTime → r.second + 1 = 86400 → r.day.Valid → r.day.next.year < 160 →
    (tick r).day = r.day.next

/-! ## Days by number -/

/-- The day with a number, as the HAL documents its fields. -/
def dayOf (n : Nat) : CalendarDay where
  year := (months.locate n).1 / 12
  month := (months.locate n).1 % 12 + 1
  date := (months.locate n).2 + 1

/-- The years 1901 to 2059. -/
def InRange (n : Nat) : Prop := 12 ≤ (months.locate n).1 ∧ (months.locate n).1 < 12 * 160

/-- From 1901 to 2059 leap years go by the year modulo 4. -/
theorem leap_eq {year : Nat} (h₁ : 1 ≤ year) (h₂ : year < 160) :
    leap (1900 + year) = decide (year % 4 = 0) := by
  rw [leap, decide_eq_decide]
  omega

theorem months_len_eq {m : Nat} (h₁ : 12 ≤ m) (h₂ : m < 12 * 160) :
    months.len m = monthDays (m / 12 % 4 = 0) (m % 12) := by
  show monthDays (leap (1900 + m / 12)) (m % 12) = _
  rw [leap_eq (by omega) (by omega)]

theorem dayOf_monthLength {n : Nat} (h : InRange n) :
    (dayOf n).monthLength = months.len (months.locate n).1 :=
  (months_len_eq h.1 h.2).symm

theorem dayOf_valid {n : Nat} (h : InRange n) : (dayOf n).Valid := by
  refine ⟨Nat.le_add_left .., ?_, Nat.le_add_left .., ?_⟩
  · show (months.locate n).1 % 12 + 1 ≤ 12
    omega
  · rw [dayOf_monthLength h]
    exact months.locate_lt n

/-- **The calendar's successor** is the next day number. -/
theorem dayOf_next {n : Nat} (h : InRange n) : (dayOf n).next = dayOf (n + 1) := by
  have hsucc := months.locate_succ n
  rw [CalendarDay.next, dayOf_monthLength h]
  by_cases hsame : (dayOf n).date < months.len (months.locate n).1
  · rw [if_pos (show (months.locate n).2 + 1 < _ from hsame)] at hsucc
    rw [if_pos hsame, dayOf, dayOf, hsucc]
  · rw [if_neg (show ¬ (months.locate n).2 + 1 < _ from hsame)] at hsucc
    rw [if_neg hsame]
    by_cases hmonth : (dayOf n).month < 12
    · have : (months.locate n).1 % 12 + 1 < 12 := hmonth
      rw [if_pos hmonth, dayOf, dayOf, hsucc, CalendarDay.mk.injEq]
      dsimp only
      omega
    · have : ¬ (months.locate n).1 % 12 + 1 < 12 := hmonth
      rw [if_neg hmonth, dayOf, dayOf, hsucc, CalendarDay.mk.injEq]
      dsimp only
      omega

/-! ## Running -/

theorem second_lt {r : Registers} (h : r.ValidTime) : r.second < 86400 := by
  simp only [Registers.ValidTime] at h
  simp only [Registers.second]
  omega

namespace Advances

variable {tick : Registers → Registers}

/-- The time of day after `n` seconds. -/
theorem run_time (h : Advances tick) {r : Registers} (hr : r.ValidTime) (n : Nat) :
    (Nat.repeat tick n r).ValidTime ∧
      (Nat.repeat tick n r).second = (r.second + n) % 86400 := by
  induction n with
  | zero => exact ⟨hr, (Nat.mod_eq_of_lt (second_lt hr)).symm⟩
  | succ n ih =>
      obtain ⟨hvalid, hsecond⟩ := ih
      obtain ⟨hvalid', hsecond'⟩ := h.time _ hvalid
      refine ⟨hvalid', ?_⟩
      rw [Nat.repeat, hsecond', hsecond]
      omega

/-- Up to midnight the date stays. -/
theorem run_sameDay (h : Advances tick) {r : Registers} (hr : r.ValidTime) {n : Nat}
    (hn : r.second + n < 86400) : (Nat.repeat tick n r).day = r.day := by
  induction n with
  | zero => rfl
  | succ n ih =>
      obtain ⟨hvalid, hsecond⟩ := h.run_time hr n
      rw [Nat.repeat, h.sameDay _ hvalid (by rw [hsecond]; omega), ih (by omega)]

/-- **A valid date advances with the midnights**, as long as the day number
stays in range. -/
theorem run_day (h : Advances tick) {r : Registers} (hr : r.ValidTime) {first : Nat}
    (hday : r.day = dayOf first) {n : Nat}
    (hrange : ∀ i, i ≤ (r.second + n) / 86400 → InRange (first + i)) :
    (Nat.repeat tick n r).day = dayOf (first + (r.second + n) / 86400) := by
  induction n with
  | zero =>
      have := second_lt hr
      have hzero : (r.second + 0) / 86400 = 0 := by omega
      rw [hzero]
      exact hday
  | succ n ih =>
      obtain ⟨hvalid, hsecond⟩ := h.run_time hr n
      have ih := ih (fun i hi => hrange i (by omega))
      rw [Nat.repeat]
      by_cases hmidnight : (r.second + n) % 86400 + 1 < 86400
      · rw [h.sameDay _ hvalid (by rw [hsecond]; exact hmidnight), ih]
        congr 2
        omega
      · have hcarry : (r.second + (n + 1)) / 86400 = (r.second + n) / 86400 + 1 := by omega
        have hin := hrange ((r.second + n) / 86400) (by omega)
        have hin' := hrange ((r.second + n) / 86400 + 1) (by omega)
        have hnext := dayOf_next hin
        rw [hcarry, h.nextDay _ hvalid (by rw [hsecond]; omega) (by rw [ih]; exact dayOf_valid hin)
          (by
            rw [ih, hnext]
            have := hin'.2
            show (months.locate (first + (r.second + n) / 86400 + 1)).1 / 12 < 160
            rw [Nat.add_assoc]
            omega), ih, hnext]
        rfl

end Advances

/-! ## A peripheral that advances -/

namespace Registers

/-- The time fields of a second of the day. -/
def setSecond (r : Registers) (second : Nat) : Registers :=
  halRtcSetTime true r {
    hours := UInt8.ofNat (second / 3600)
    minutes := UInt8.ofNat (second / 60 % 60)
    seconds := UInt8.ofNat (second % 60)
    timeFormat := 0 }

def setDay (r : Registers) (day : CalendarDay) : Registers :=
  halRtcSetDate true r {
    weekDay := 1
    month := UInt8.ofNat day.month
    date := UInt8.ofNat day.date
    year := UInt8.ofNat day.year }

theorem setSecond_spec (r : Registers) {second : Nat} (h : second < 86400) :
    (r.setSecond second).ValidTime ∧ (r.setSecond second).second = second ∧
      (r.setSecond second).day = r.day := by
  have hget : halRtcGetTime (r.setSecond second) = _ :=
    getTime_setTime r (by rw [toNat_byte]; omega) (by rw [toNat_byte]; omega)
      (by rw [toNat_byte]; omega) rfl
  refine ⟨?_, ?_, ?_⟩
  · simp only [ValidTime, hget, toNat_byte]
    omega
  · simp only [Registers.second, hget, toNat_byte]
    omega
  · rw [day, setSecond, getDate_setTime]
    rfl

theorem setDay_spec (r : Registers) {d : CalendarDay} (hyear : d.year < 160)
    (hmonth : d.month ≤ 12) (hdate : d.date ≤ 31) :
    ((r.setDay d).ValidTime ↔ r.ValidTime) ∧ (r.setDay d).second = r.second ∧
      (r.setDay d).day = d := by
  have hget : halRtcGetDate (r.setDay d) = _ :=
    getDate_setDate r (by rw [toNat_byte]; omega) (by rw [toNat_byte]; omega)
      (by rw [toNat_byte]; omega) (show (1 : UInt8).toNat < 8 by decide)
  refine ⟨?_, ?_, ?_⟩
  · rw [ValidTime, setDay, getTime_setDate]
    rfl
  · rw [second, setDay, getTime_setDate]
    rfl
  · simp only [day, hget, toNat_byte]
    rw [Nat.mod_eq_of_lt (by omega), Nat.mod_eq_of_lt (by omega), Nat.mod_eq_of_lt (by omega)]

end Registers

/-- The date a peripheral falls back to from one that is none. -/
def noDay : CalendarDay := { year := 0, month := 0, date := 1 }

/-- A peripheral that does what is documented, and drops a date for which
nothing is. -/
def resetTick (r : Registers) : Registers :=
  if r.second + 1 < 86400 then r.setSecond (r.second + 1)
  else (r.setSecond 0).setDay
    (if r.day.Valid ∧ r.day.next.year < 160 then r.day.next else noDay)

theorem next_bounds {d : CalendarDay} (h : d.Valid) : d.next.month ≤ 12 ∧ d.next.date ≤ 31 := by
  obtain ⟨-, hmonth, -, -⟩ := h
  have hlength : d.monthLength ≤ 31 := (monthDays_bounds _ _).2
  rw [CalendarDay.next]
  by_cases hdate : d.date < d.monthLength
  · rw [if_pos hdate]
    exact ⟨hmonth, by show d.date + 1 ≤ 31; omega⟩
  · rw [if_neg hdate]
    by_cases hcarry : d.month < 12
    · rw [if_pos hcarry]
      exact ⟨hcarry, show 1 ≤ 31 by decide⟩
    · rw [if_neg hcarry]
      exact ⟨show 1 ≤ 12 by decide, show 1 ≤ 31 by decide⟩

/-- What `resetTick` does at midnight. -/
theorem resetTick_midnight {r : Registers} (h : ¬ r.second + 1 < 86400) :
    (resetTick r).ValidTime ∧ (resetTick r).second = 0 ∧
      (resetTick r).day = if r.day.Valid ∧ r.day.next.year < 160 then r.day.next else noDay := by
  have htime := r.setSecond_spec (show 0 < 86400 by decide)
  rw [resetTick, if_neg h]
  by_cases hnext : r.day.Valid ∧ r.day.next.year < 160
  · rw [if_pos hnext]
    obtain ⟨hmonth, hdate⟩ := next_bounds hnext.1
    obtain ⟨hvalid, hsecond, hday⟩ := (r.setSecond 0).setDay_spec hnext.2 hmonth hdate
    exact ⟨hvalid.mpr htime.1, hsecond.trans htime.2.1, hday⟩
  · rw [if_neg hnext]
    obtain ⟨hvalid, hsecond, hday⟩ :=
      (r.setSecond 0).setDay_spec (d := noDay) (by decide) (by decide) (by decide)
    exact ⟨hvalid.mpr htime.1, hsecond.trans htime.2.1, hday⟩

theorem advances_resetTick : Advances resetTick where
  time r hr := by
    by_cases h : r.second + 1 < 86400
    · obtain ⟨hvalid, hsecond, -⟩ := r.setSecond_spec h
      rw [resetTick, if_pos h, hsecond, Nat.mod_eq_of_lt h]
      exact ⟨hvalid, rfl⟩
    · obtain ⟨hvalid, hsecond, -⟩ := resetTick_midnight h
      have := second_lt hr
      refine ⟨hvalid, ?_⟩
      rw [hsecond]
      omega
  sameDay r _ h := by
    rw [resetTick, if_pos h]
    exact (r.setSecond_spec h).2.2
  nextDay r _ h hvalid hyear := by
    rw [(resetTick_midnight (by omega)).2.2, if_pos ⟨hvalid, hyear⟩]

/-- `resetTick` makes nothing of an invalid date, from the first midnight on. -/
theorem resetTick_run {r : Registers} (hr : r.ValidTime) (hday : ¬ r.day.Valid) {n : Nat}
    (hn : 86400 ≤ r.second + n) : (Nat.repeat resetTick n r).day = noDay := by
  induction n with
  | zero =>
      have := second_lt hr
      omega
  | succ n ih =>
      obtain ⟨hvalid, hsecond⟩ := advances_resetTick.run_time hr n
      rw [Nat.repeat]
      by_cases hmidnight : (Nat.repeat resetTick n r).second + 1 < 86400
      · rw [advances_resetTick.sameDay _ hvalid hmidnight]
        exact ih (by omega)
      · -- at every midnight the date in front of it is invalid
        have hinvalid : ¬ (Nat.repeat resetTick n r).day.Valid := by
          rcases Nat.lt_or_ge (r.second + n) 86400 with hfirst | hlater
          · rw [advances_resetTick.run_sameDay hr hfirst]
            exact hday
          · rw [ih hlater]
            decide
        rw [(resetTick_midnight hmidnight).2.2, if_neg (fun h => hinvalid h.1)]

end NucleoMqtt.Rtc
