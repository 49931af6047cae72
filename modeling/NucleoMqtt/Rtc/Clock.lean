import NucleoMqtt.Rtc.Calendar
import NucleoMqtt.Rtc.Hal

/-!
# Rtc — `RTC_Read` and `RTC_Write`

The two functions of `rtc.c`, and what they do in terms of the calendar the
registers hold: its day (`Registers.day`, with the fields as the peripheral
numbers them) and its second of the day. `RTC_Write` stores `tm_mon`, which
counts from 0, in the month field, and `RTC_Read` takes the field for a
`tm_mon` again.
-/

namespace NucleoMqtt.Rtc

open NucleoMqtt.Lib

/-! ## The functions -/

/-- `RTC_Read`. -/
def rtcRead (r : Registers) : Int :=
  let sTime := halRtcGetTime r
  let sDate := halRtcGetDate r
  mktime {
    tmHour := sTime.hours.toNat
    tmMin := sTime.minutes.toNat
    tmSec := sTime.seconds.toNat
    tmWday := sDate.weekDay.toNat
    tmMon := sDate.month.toNat
    tmMday := sDate.date.toNat
    tmYear := sDate.year.toNat }

/-- `RTC_Write`. It does not look at what the setters return;
`enteredTime` and `enteredDate` are whether each entered the
initialization mode. -/
def rtcWrite (enteredTime enteredDate : Bool) (r : Registers) (curtime : Int) : Registers :=
  let tm := localtimeR curtime
  let sTime : RtcTime := {
    hours := UInt8.ofInt tm.tmHour
    minutes := UInt8.ofInt tm.tmMin
    seconds := UInt8.ofInt tm.tmSec
    timeFormat := 0 }
  let sDate : RtcDate := {
    weekDay := UInt8.ofInt tm.tmWday
    month := UInt8.ofInt tm.tmMon
    date := UInt8.ofInt tm.tmMday
    year := UInt8.ofInt tm.tmYear }
  halRtcSetDate enteredDate (halRtcSetTime enteredTime r sTime) sDate

/-! ## The calendar in the registers -/

/-- A day as the fields of the date register give it. -/
structure CalendarDay where
  year : Nat
  month : Nat
  date : Nat
deriving DecidableEq

namespace Registers

def day (r : Registers) : CalendarDay :=
  let sDate := halRtcGetDate r
  { year := sDate.year.toNat, month := sDate.month.toNat, date := sDate.date.toNat }

/-- The second of the day. -/
def second (r : Registers) : Nat :=
  let sTime := halRtcGetTime r
  3600 * sTime.hours.toNat + 60 * sTime.minutes.toNat + sTime.seconds.toNat

/-- A time of day on a 24-hour clock. -/
def ValidTime (r : Registers) : Prop :=
  let sTime := halRtcGetTime r
  sTime.hours.toNat < 24 ∧ sTime.minutes.toNat < 60 ∧ sTime.seconds.toNat < 60

end Registers

/-- The day number of a timestamp, from January 1900. -/
def dayNumber (t : Int) : Nat := (t / 86400 + epochDay).toNat

theorem day_nonneg {t : Int} (h : 0 ≤ t) : 0 ≤ t / 86400 + epochDay := by
  rw [epochDay]
  omega

/-- Its month, from January 1900. -/
def monthNumber (t : Int) : Nat := (months.locate (dayNumber t)).1

/-- Its day of the month, from 0. -/
def dateNumber (t : Int) : Nat := (months.locate (dayNumber t)).2

theorem start_monthNumber (t : Int) :
    months.start (monthNumber t) + dateNumber t = dayNumber t := months.start_locate _

theorem dateNumber_lt (t : Int) : dateNumber t < months.len (monthNumber t) := months.locate_lt _

/-- **What is read** is the day the fields stand for when the month counts
from 0, and the second of the day. -/
theorem rtcRead_eq (r : Registers) :
    rtcRead r = 86400 * (months.start (12 * r.day.year + r.day.month) + (r.day.date - 1 : Int)
      - epochDay) + r.second := by
  have hmonth : (12 * ((halRtcGetDate r).year.toNat : Int) + (halRtcGetDate r).month.toNat).toNat
      = 12 * (halRtcGetDate r).year.toNat + (halRtcGetDate r).month.toNat := by
    omega
  simp only [rtcRead, mktime, Registers.day, Registers.second, hmonth]
  omega

/-- A field of `localtime_r` that fits in a byte. -/
theorem ofInt_toNat {i : Int} {n : Nat} (hi : i = n) (h : n < 256) :
    (UInt8.ofInt i).toNat = n := by
  rw [hi, byte_ofInt, toNat_byte, Nat.mod_eq_of_lt h]

/-- **What is written**, whatever the year: eight bits of it are kept, and of
these what the two digits of the register have room for. -/
theorem rtcWrite_fields (r : Registers) {t m : Int} {k : Nat}
    (hday : locateDay (t / 86400 + epochDay) = (m, k)) :
    (rtcWrite true true r t).ValidTime ∧
    ((rtcWrite true true r t).second : Int) = t % 86400 ∧
    (rtcWrite true true r t).day = {
      year := (m / 12 % 256).toNat % 160
      month := (m % 12).toNat
      date := k + 1 } := by
  have hk : k < 31 := by
    have hlt := locateDay_lt (t / 86400 + epochDay)
    rwa [hday] at hlt
  have hsec : (UInt8.ofInt (localtimeR t).tmSec).toNat = (t % 86400).toNat % 60 :=
    ofInt_toNat (by simp only [localtimeR]; omega) (by omega)
  have hmin : (UInt8.ofInt (localtimeR t).tmMin).toNat = (t % 86400).toNat / 60 % 60 :=
    ofInt_toNat (by simp only [localtimeR]; omega) (by omega)
  have hhour : (UInt8.ofInt (localtimeR t).tmHour).toNat = (t % 86400).toNat / 3600 :=
    ofInt_toNat (by simp only [localtimeR]; omega) (by omega)
  have hmday : (UInt8.ofInt (localtimeR t).tmMday).toNat = k + 1 :=
    ofInt_toNat (by simp only [localtimeR, hday]; omega) (by omega)
  have hmon : (UInt8.ofInt (localtimeR t).tmMon).toNat = (m % 12).toNat :=
    ofInt_toNat (by simp only [localtimeR, hday]; omega) (by omega)
  have hyear : (UInt8.ofInt (localtimeR t).tmYear).toNat = (m / 12 % 256).toNat := by
    simp only [localtimeR, hday, UInt8.ofInt, toNat_byte]
    omega
  have hwday : (UInt8.ofInt (localtimeR t).tmWday).toNat
      = ((t / 86400 + epochDay + 1) % 7).toNat :=
    ofInt_toNat (by simp only [localtimeR]; omega) (by omega)
  -- what the setters were given comes back from the getters
  have hTime : halRtcGetTime (rtcWrite true true r t) = {
      hours := UInt8.ofInt (localtimeR t).tmHour
      minutes := UInt8.ofInt (localtimeR t).tmMin
      seconds := UInt8.ofInt (localtimeR t).tmSec
      timeFormat := 0 } := by
    rw [rtcWrite, getTime_setDate]
    exact getTime_setTime r (by rw [hhour]; omega) (by rw [hmin]; omega) (by rw [hsec]; omega) rfl
  have hDate : halRtcGetDate (rtcWrite true true r t) = {
      weekDay := UInt8.ofInt (localtimeR t).tmWday
      month := UInt8.ofInt (localtimeR t).tmMon
      date := UInt8.ofInt (localtimeR t).tmMday
      year := rtcBcd2ToByte (rtcByteToBcd2 (UInt8.ofInt (localtimeR t).tmYear)) } := by
    rw [rtcWrite]
    exact getDate_setDate_digits _ (by rw [hmon]; omega) (by rw [hmday]; omega)
      (by rw [hwday]; omega)
  refine ⟨?_, ?_, ?_⟩
  · simp only [Registers.ValidTime, hTime, hhour, hmin, hsec]
    omega
  · simp only [Registers.second, hTime, hhour, hmin, hsec]
    omega
  · simp only [Registers.day, hDate, rtcBcd2ToByte_rtcByteToBcd2_mod, hyear, hmon, hmday]

/-- What is written from 1900 on, for a year that fits in a byte. -/
theorem rtcWrite_spec_mod (r : Registers) {t : Int} (hday : 0 ≤ t / 86400 + epochDay)
    (hyear : monthNumber t < 12 * 256) :
    (rtcWrite true true r t).ValidTime ∧
    ((rtcWrite true true r t).second : Int) = t % 86400 ∧
    (rtcWrite true true r t).day = {
      year := monthNumber t / 12 % 160
      month := monthNumber t % 12
      date := dateNumber t + 1 } := by
  have hfields := rtcWrite_fields r (locateDay_of_nonneg hday)
  have hyear' : ((monthNumber t : Int) / 12 % 256).toNat = monthNumber t / 12 := by omega
  have hmonth : ((monthNumber t : Int) % 12).toNat = monthNumber t % 12 := by omega
  rw [← hyear', ← hmonth]
  exact hfields

/-- **What is written**, from 1900 to 2059. -/
theorem rtcWrite_spec (r : Registers) {t : Int} (hday : 0 ≤ t / 86400 + epochDay)
    (hyear : monthNumber t < 12 * 160) :
    (rtcWrite true true r t).ValidTime ∧
    ((rtcWrite true true r t).second : Int) = t % 86400 ∧
    (rtcWrite true true r t).day = {
      year := monthNumber t / 12
      month := monthNumber t % 12
      date := dateNumber t + 1 } := by
  have hspec := rtcWrite_spec_mod r hday (by omega)
  rwa [Nat.mod_eq_of_lt (show monthNumber t / 12 < 160 by omega)] at hspec

/-- **What is written is read back**, from 1900 to 2059, before the clock ticks. -/
theorem rtcRead_rtcWrite (r : Registers) {t : Int} (hday : 0 ≤ t / 86400 + epochDay)
    (hyear : monthNumber t < 12 * 160) : rtcRead (rtcWrite true true r t) = t := by
  obtain ⟨-, hsecond, hstored⟩ := rtcWrite_spec r hday hyear
  have hstart := start_monthNumber t
  have hmonth : 12 * (monthNumber t / 12) + monthNumber t % 12 = monthNumber t := by omega
  rw [rtcRead_eq, hsecond, hstored]
  dsimp only
  rw [hmonth]
  rw [dayNumber] at hstart
  omega

/-- The last second of 2059. -/
def lastStorable : Int := 2840140799

theorem monthNumber_storable {t : Int} (h : t ≤ lastStorable) : monthNumber t < 12 * 160 := by
  apply months.locate_fst_lt
  rw [lastStorable] at h
  rw [start_2060, dayNumber, epochDay]
  omega

/-- **Storing a time and reading it back is the identity** from 1970 to 2059. -/
theorem rtcRead_rtcWrite_storable (r : Registers) {t : Int} (hfirst : 0 ≤ t)
    (hlast : t ≤ lastStorable) : rtcRead (rtcWrite true true r t) = t :=
  rtcRead_rtcWrite r (day_nonneg hfirst) (monthNumber_storable hlast)

/-- The last second itself, over registers that hold no date. -/
theorem rtcRead_rtcWrite_storable_last :
    rtcRead (rtcWrite true true ⟨0, 0⟩ lastStorable) = lastStorable :=
  rtcRead_rtcWrite_storable ⟨0, 0⟩ (by decide) (by decide)

end NucleoMqtt.Rtc
