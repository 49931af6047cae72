import NucleoMqtt.Rtc.Advance

/-!
# Rtc — the clock that `RTC_Write` starts

`RTC_Write` stores months from 0 to 11 where the peripheral has 1 to 12.
What runs in the registers is so the calendar of one month earlier, and
`RTC_Read` adds the month again. The two agree as long as the months they
are in are of one length behind the month they started in; in January
there is no month to run at all.
-/

namespace NucleoMqtt.Rtc

open NucleoMqtt.Lib

theorem start_2001 : months.start (12 * 101) = 36890 := by decide +kernel

/-- The month of a timestamp from 2001 to 2059. -/
theorem month_bounds {t : Int} (h₁ : 978307200 ≤ t) (h₂ : t < 2840140800) :
    12 * 101 ≤ monthNumber t ∧ monthNumber t < 12 * 160 :=
  ⟨months.le_locate_fst (by rw [start_2001, dayNumber, epochDay]; omega),
    monthNumber_storable (by rw [lastStorable]; omega)⟩

/-- Days of the month before. -/
def prevLength (t : Int) : Nat := months.len (monthNumber t - 1)

/-- The month before ends where the month starts. -/
theorem start_prev {t : Int} (h : 0 < monthNumber t) :
    months.start (monthNumber t - 1) + prevLength t = months.start (monthNumber t) := by
  obtain ⟨m, hm⟩ : ∃ m, monthNumber t = m + 1 := ⟨monthNumber t - 1, by omega⟩
  rw [prevLength, hm, Nat.add_sub_cancel, Spans.start]

/-- **The day that is stored** is, as the HAL numbers its months, the same
date of the month before, if that has such a date. -/
theorem stored_eq_dayOf {t : Int} (hmonth : monthNumber t % 12 ≠ 0)
    (hdate : dateNumber t < prevLength t) :
    CalendarDay.mk (monthNumber t / 12) (monthNumber t % 12) (dateNumber t + 1)
      = dayOf (dayNumber t - prevLength t) := by
  have hstart := start_monthNumber t
  have hprev := start_prev (t := t) (by omega)
  have hloc := months.locate_start hdate
  have hn : dayNumber t - prevLength t = months.start (monthNumber t - 1) + dateNumber t := by
    omega
  rw [hn, dayOf, hloc, CalendarDay.mk.injEq]
  dsimp only
  omega

/-- The clock keeps the time from `t` to `t + d`: no midnight lies between
them; or `t` is not in January, its date is one of the month before, of
`prevLength t` days, and the day so many days before `t + d` is in a month
of that length too. -/
def KeepsTime (t : Int) (d : Nat) : Prop :=
  dayNumber (t + d) = dayNumber t ∨
    monthNumber t % 12 ≠ 0 ∧ dateNumber t < prevLength t ∧
      months.len (months.locate (dayNumber (t + d) - prevLength t)).1 = prevLength t

instance (t : Int) (d : Nat) : Decidable (KeepsTime t d) :=
  inferInstanceAs (Decidable (_ ∨ _ ∧ _ ∧ _))

/-- A timestamp is its day and its second. -/
theorem timestamp_eq {t : Int} (h : 0 ≤ t) :
    t = 86400 * ((dayNumber t : Int) - epochDay) + t % 86400 := by
  rw [dayNumber, epochDay]
  omega

/-- Up to midnight the time that is read is right. -/
theorem rtcRead_sameDay {tick : Registers → Registers} (h : Advances tick) (r : Registers)
    {t : Int} {d : Nat} (ht : 978307200 ≤ t) (hd : t + d < 2840140800)
    (hsame : dayNumber (t + d) = dayNumber t) :
    rtcRead (Nat.repeat tick d (rtcWrite true true r t)) = t + d := by
  have hmonth := month_bounds ht (by omega)
  obtain ⟨hvalid, hsecond, hday⟩ := rtcWrite_spec r (day_nonneg (by omega)) hmonth.2
  obtain ⟨-, hsecond'⟩ := h.run_time hvalid d
  have hstart := start_monthNumber t
  have hlt : (rtcWrite true true r t).second + d < 86400 := by
    rw [dayNumber, dayNumber, epochDay] at hsame
    omega
  have hmonth' : 12 * (monthNumber t / 12) + monthNumber t % 12 = monthNumber t :=
    Nat.div_add_mod ..
  have hsum := timestamp_eq (t := t + d) (by omega)
  rw [rtcRead_eq, h.run_sameDay hvalid hlt, hday, hsecond', hsum, hsame]
  dsimp only
  rw [hmonth']
  omega

/-- **Behind a midnight**, where the stored date is valid: the registers run
in month `m`, at offset `k`, and what is read is that day of month `m + 1`. -/
theorem rtcRead_run {tick : Registers → Registers} (h : Advances tick) (r : Registers)
    {t : Int} {d : Nat} (ht : 978307200 ≤ t) (hd : t + d < 2840140800)
    (hmonth : monthNumber t % 12 ≠ 0) (hdate : dateNumber t < prevLength t) {m k : Nat}
    (hmk : months.locate (dayNumber (t + d) - prevLength t) = (m, k)) :
    rtcRead (Nat.repeat tick d (rtcWrite true true r t))
      = 86400 * ((months.start (m + 1) + k : Int) - epochDay) + (t + d) % 86400 := by
  have hbounds := month_bounds ht (by omega)
  obtain ⟨hvalid, hsecond, hday⟩ := rtcWrite_spec r (day_nonneg (by omega)) hbounds.2
  obtain ⟨-, hsecond'⟩ := h.run_time hvalid d
  rw [stored_eq_dayOf hmonth hdate] at hday
  have hstart := start_monthNumber t
  have hprev := start_prev (t := t) (by omega)
  have hlow := months.start_le (show 12 * 100 ≤ monthNumber t - 1 by omega)
  have hdays : dayNumber (t + d)
      = dayNumber t + ((rtcWrite true true r t).second + d) / 86400 := by
    rw [dayNumber, dayNumber, epochDay]
    omega
  have hlast : dayNumber (t + d) < months.start (12 * 160) := by
    rw [start_2060, dayNumber, epochDay]
    omega
  have hrange (i : Nat) (hi : i ≤ ((rtcWrite true true r t).second + d) / 86400) :
      InRange (dayNumber t - prevLength t + i) := by
    have hfrom : 12 * 100 ≤ (months.locate (dayNumber t - prevLength t + i)).1 :=
      months.le_locate_fst (by omega)
    exact ⟨by omega, months.locate_fst_lt (by omega)⟩
  have hrun := h.run_day hvalid hday hrange
  have hnumber : dayNumber t - prevLength t + ((rtcWrite true true r t).second + d) / 86400
      = dayNumber (t + d) - prevLength t := by
    omega
  rw [hnumber, dayOf, hmk] at hrun
  have hnext : 12 * (m / 12) + (m % 12 + 1) = m + 1 := by omega
  rw [rtcRead_eq, hrun, hsecond']
  dsimp only
  rw [hnext]
  omega

/-- That is the right time if the two months are of one length. -/
theorem rtcRead_run_iff {tick : Registers → Registers} (h : Advances tick) (r : Registers)
    {t : Int} {d : Nat} (ht : 978307200 ≤ t) (hd : t + d < 2840140800)
    (hmonth : monthNumber t % 12 ≠ 0) (hdate : dateNumber t < prevLength t) :
    rtcRead (Nat.repeat tick d (rtcWrite true true r t)) = t + d ↔
      months.len (months.locate (dayNumber (t + d) - prevLength t)).1 = prevLength t := by
  have hsum := timestamp_eq (t := t + d) (by omega)
  have hbounds := month_bounds ht (by omega)
  have hprev := start_prev (t := t) (by omega)
  have hfirst := start_monthNumber t
  have hlater : dayNumber t ≤ dayNumber (t + d) := by
    rw [dayNumber, dayNumber]
    omega
  have hlast := months.start_locate (dayNumber (t + d) - prevLength t)
  obtain ⟨m, k, hmk⟩ : ∃ m k, months.locate (dayNumber (t + d) - prevLength t) = (m, k) :=
    ⟨_, _, rfl⟩
  rw [hmk] at hlast
  rw [rtcRead_run h r ht hd hmonth hdate hmk, hmk, Spans.start]
  dsimp only at hlast ⊢
  omega

/-- With a stored date that is none, a peripheral may lose the day. -/
theorem rtcRead_resetTick (r : Registers) {t : Int} {d : Nat} (ht : 978307200 ≤ t)
    (hd : t + d < 2840140800) (hother : dayNumber (t + d) ≠ dayNumber t)
    (hinvalid : ¬ (monthNumber t % 12 ≠ 0 ∧ dateNumber t < prevLength t)) :
    rtcRead (Nat.repeat resetTick d (rtcWrite true true r t)) < 0 := by
  have hbounds := month_bounds ht (by omega)
  obtain ⟨hvalid, hsecond, hday⟩ := rtcWrite_spec r (day_nonneg (by omega)) hbounds.2
  obtain ⟨-, hsecond'⟩ := advances_resetTick.run_time hvalid d
  have hnone : ¬ (rtcWrite true true r t).day.Valid := by
    rw [hday]
    rintro ⟨hmonth, -, -, hdate⟩
    dsimp only at hmonth hdate
    refine hinvalid ⟨by omega, ?_⟩
    rw [prevLength, months_len_eq (by omega) (by omega)]
    have hyear : (monthNumber t - 1) / 12 = monthNumber t / 12 := by omega
    have hmon : (monthNumber t - 1) % 12 = monthNumber t % 12 - 1 := by omega
    rw [hyear, hmon]
    exact hdate
  have hlong : 86400 ≤ (rtcWrite true true r t).second + d := by
    rw [dayNumber, dayNumber, epochDay] at hother
    omega
  rw [rtcRead_eq, resetTick_run hvalid hnone hlong, hsecond']
  show 86400 * (((0 : Nat) : Int) + ((1 : Nat) - 1) - (25567 : Nat)) + _ < 0
  omega

/-- **The real-time clock keeps the time** from `t` to `t + d` whatever the
peripheral does beyond its documentation, exactly if `KeepsTime t d`. -/
theorem rtcRead_eq_iff {t : Int} {d : Nat} (ht : 978307200 ≤ t) (hd : t + d < 2840140800) :
    (∀ tick, Advances tick → ∀ r,
      rtcRead (Nat.repeat tick d (rtcWrite true true r t)) = t + d) ↔ KeepsTime t d := by
  constructor
  · intro hkeeps
    by_cases hsame : dayNumber (t + d) = dayNumber t
    · exact Or.inl hsame
    · right
      have hread := hkeeps resetTick advances_resetTick ⟨0, 0⟩
      by_cases hstored : monthNumber t % 12 ≠ 0 ∧ dateNumber t < prevLength t
      · obtain ⟨hmonth, hdate⟩ := hstored
        exact ⟨hmonth, hdate,
          (rtcRead_run_iff advances_resetTick _ ht hd hmonth hdate).mp hread⟩
      · have := rtcRead_resetTick ⟨0, 0⟩ ht hd hsame hstored
        omega
  · rintro (hsame | ⟨hmonth, hdate, hlen⟩) tick htick r
    · exact rtcRead_sameDay htick r ht hd hsame
    · exact (rtcRead_run_iff htick r ht hd hmonth hdate).mpr hlen

/-- From 2021-03-10 00:00:00, for a day. -/
theorem rtcRead_eq_iff_march :
    (∀ tick, Advances tick → ∀ r,
      rtcRead (Nat.repeat tick 86400 (rtcWrite true true r 1615334400))
        = 1615334400 + (86400 : Nat)) ↔ KeepsTime 1615334400 86400 :=
  rtcRead_eq_iff (by decide) (by decide)

/-- One second behind 2021-03-28 23:59:59 no peripheral has the 29th of March. -/
theorem rtcRead_march_28 :
    Advances resetTick ∧ ∀ tick, Advances tick → ∀ r,
      rtcRead (Nat.repeat tick 1 (rtcWrite true true r 1616975999)) ≠ 1616975999 + (1 : Nat) := by
  refine ⟨advances_resetTick, fun tick htick r h => ?_⟩
  have hlen := (rtcRead_run_iff htick r (by decide) (by decide)
    (by decide +kernel) (by decide +kernel)).mp h
  exact absurd hlen (by decide +kernel)

/-- Earlier in the month the time is kept for a day. -/
example : KeepsTime 1615334400 86400 := by decide +kernel

end NucleoMqtt.Rtc
