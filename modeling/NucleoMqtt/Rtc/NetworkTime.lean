import NucleoMqtt.Net.Ntp
import NucleoMqtt.Rtc.Clock

/-!
# Rtc — network time

From the NTP server to the clock and back: `NTP_Request`, `RTC_Write`,
`RTC_Read`. A reply has 32 bits for the seconds since 1900, which start over
in February 2036. `NTP_Request` takes them for a time before that, so every
later one is stored 136 years early. With a time zone west of Greenwich the
first of them fall into 1899, which the clock cannot hold.
-/

namespace NucleoMqtt.Rtc

open NucleoMqtt.Lib NucleoMqtt.Net

/-- NTP seconds of a UTC instant, in the bits a reply has for them. -/
def wireSeconds (u : Nat) : Nat := (u + SECS_FROM_1900_TO_1970) % 2 ^ 32

/-- After a request to a server that sends `u`, and with its result written
to the clock, what is read is `u` in local time. -/
def KeepsNetworkTime (u : Nat) (reply : NtpReply (wireSeconds u)) (gmtTime curtime : Int)
    (r : Registers) : Prop :=
  ∃ t, ntpRequest reply.recv gmtTime curtime = some (0, t) ∧
    rtcRead (rtcWrite true true r t) = u + 3600 * gmtTime

theorem gmtOffset_eq {gmtTime : Int} (hwest : -12 ≤ gmtTime) (heast : gmtTime ≤ 14) :
    gmtOffset gmtTime = some (3600 * gmtTime) := by
  rw [gmtOffset, if_pos (by omega)]
  congr 1
  omega

/-! ## The day before 1900 -/

theorem start_1996 : months.start (12 * 96) = 35063 := by decide +kernel

/-- The last day of 1899. -/
theorem locateDay_1899 : locateDay (-1) = (-1, 30) := by
  have hlen : months.len 4799 = 31 := by decide
  have hstart : months.start (12 * 400) = months.start 4799 + months.len 4799 :=
    months.start_succ 4799
  rw [start_2300, hlen] at hstart
  have hlocate : months.locate 146096 = (4799, 30) := by
    rw [show 146096 = months.start 4799 + 30 by omega]
    exact months.locate_start (by omega)
  have hcycle : (-1 : Int) / 146097 = -1 := by decide
  have hday : ((-1 : Int) % 146097).toNat = 146096 := by decide
  rw [locateDay_of_neg (by decide), hday, hcycle, hlocate]
  rfl

/-- **The last day of 1899 comes back as that of 1995**, the year as 255 in
one byte and as 95 in two digits. -/
theorem rtcRead_1899 (r : Registers) {t : Int} (hday : t / 86400 + epochDay = -1) :
    rtcRead (rtcWrite true true r t) < 820454400 := by
  have hlocate : locateDay (t / 86400 + epochDay) = (-1, 30) := by
    rw [hday]
    exact locateDay_1899
  obtain ⟨-, hsecond, hstored⟩ := rtcWrite_fields r hlocate
  have hlen : months.len (12 * 95 + 11) = 31 := by decide
  have hmonth : months.start (12 * 96)
      = months.start (12 * 95 + 11) + months.len (12 * 95 + 11) :=
    months.start_succ (12 * 95 + 11)
  rw [start_1996, hlen] at hmonth
  rw [rtcRead_eq, hsecond, hstored]
  show 86400 * ((months.start (12 * 95 + 11) : Int) + (30 + 1 - 1) - epochDay) + t % 86400 < _
  rw [epochDay]
  omega

/-! ## The pipeline -/

/-- **Network time survives the pipeline exactly when** it is of the NTP era
that began in 1900. -/
theorem keepsNetworkTime_iff {u : Nat} {gmtTime : Int} (hu : u ≤ lastStorable)
    (hwest : -12 ≤ gmtTime) (heast : gmtTime ≤ 14) (hfirst : 0 ≤ u + 3600 * gmtTime)
    (hlast : u + 3600 * gmtTime ≤ lastStorable) (reply : NtpReply (wireSeconds u))
    (curtime : Int) (r : Registers) :
    KeepsNetworkTime u reply gmtTime curtime r ↔ u + SECS_FROM_1900_TO_1970 < 2 ^ 32 := by
  have hrequest := ntpRequest_eq reply (Nat.mod_lt _ (by decide)) gmtTime curtime
  rw [gmtOffset_eq hwest heast, Option.map_some] at hrequest
  constructor
  · rintro ⟨t, hrun, hread⟩
    rw [hrequest] at hrun
    have ht : t = (wireSeconds u : Int) - SECS_FROM_1900_TO_1970 + 3600 * gmtTime :=
      (Prod.mk.inj (Option.some.inj hrun)).2.symm
    rcases Nat.lt_or_ge (u + SECS_FROM_1900_TO_1970) (2 ^ 32) with hera | hera
    case inl => exact hera
    -- the counter has started over once
    have hearly : t = u + 3600 * gmtTime - 2 ^ 32 := by
      rw [ht, wireSeconds, SECS_FROM_1900_TO_1970]
      rw [SECS_FROM_1900_TO_1970] at hera
      rw [lastStorable] at hu
      omega
    rw [SECS_FROM_1900_TO_1970] at hera
    by_cases hday : 0 ≤ t / 86400 + epochDay
    · rw [rtcRead_rtcWrite r hday (monthNumber_storable (by omega))] at hread
      omega
    · have hlate := rtcRead_1899 r (t := t) (by rw [epochDay] at hday ⊢; omega)
      omega
  · intro hera
    have hutc : ((u + SECS_FROM_1900_TO_1970 : Nat) : Int) - SECS_FROM_1900_TO_1970 = u := by
      omega
    refine ⟨u + 3600 * gmtTime, ?_, ?_⟩
    · rw [hrequest, wireSeconds, Nat.mod_eq_of_lt hera, hutc]
    · exact rtcRead_rtcWrite r (day_nonneg hfirst) (monthNumber_storable hlast)

/-- A reply that carries `u` and is zero elsewhere. -/
def bareReply (u : Nat) : NtpReply (wireSeconds u) where
  bytes := List.replicate 40 0 ++ be32 (wireSeconds u) ++ List.replicate 4 0
  size := rfl
  transmit := rfl

/-- One second behind the last of the era. -/
theorem keepsNetworkTime_iff_2036 :
    KeepsNetworkTime 2085978496 (bareReply 2085978496) 1 0 ⟨0, 0⟩ ↔
      2085978496 + SECS_FROM_1900_TO_1970 < 2 ^ 32 :=
  keepsNetworkTime_iff (by decide) (by decide) (by decide) (by decide) (by decide)
    (bareReply 2085978496) 0 ⟨0, 0⟩

/-- One second behind the last of the era the clock shows 1900. -/
theorem networkTime_lost_2036 :
    ¬ KeepsNetworkTime 2085978496 (bareReply 2085978496) 0 0 ⟨0, 0⟩ := by
  rintro ⟨t, hrun, hread⟩
  have hstored : ntpRequest (bareReply 2085978496).recv 0 0 = some (0, -2208988800) := by
    decide +kernel
  rw [hstored] at hrun
  cases hrun
  have hback : rtcRead (rtcWrite true true ⟨0, 0⟩ (-2208988800)) = -2208988800 :=
    rtcRead_rtcWrite ⟨0, 0⟩ (by decide) (monthNumber_storable (by decide))
  rw [hback] at hread
  omega

end NucleoMqtt.Rtc
