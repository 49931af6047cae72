import NucleoMqtt.Net.Ntp
import NucleoMqtt.Rtc.Clock

/-!
# Tls — the time certificates are checked against

`tls_client.c` gives mbedTLS the real-time clock for its time of day.
mbedTLS takes it for UTC and compares it with the validity dates of the
broker's certificates. The clock holds what `NTP_Request` stored, which is
local time.
-/

namespace NucleoMqtt.Tls

open NucleoMqtt.Lib NucleoMqtt.Net NucleoMqtt.Rtc

/-- `RTC_Time`. -/
def rtcTime (r : Registers) : Int := rtcRead r

/-- The last second of the NTP era, 2036-02-07 06:28:15 UTC. -/
def lastNtpSecond : Nat := 2085978495

/-- NTP seconds of a UTC instant. -/
def ntpSeconds (u : Nat) : Nat := u + SECS_FROM_1900_TO_1970

/-- After a request to a server that sends `u`, and with its result written
to the clock, mbedTLS is given `u`. -/
def ChecksUtc (u : Nat) (reply : NtpReply (ntpSeconds u)) (gmtTime curtime : Int)
    (r : Registers) : Prop :=
  ∃ t, ntpRequest reply.recv gmtTime curtime = some (0, t) ∧
    rtcTime (rtcWrite true true r t) = u

theorem start_1945 : months.start (12 * 45) = 16436 := by decide +kernel

theorem start_2105 : months.start (12 * 205) = 74875 := by decide +kernel

/-- From 2060 on the years in the clock start over at 1900. -/
theorem rtcRead_late (r : Registers) {t : Int} (hlow : 12 * 160 ≤ monthNumber t)
    (hhigh : monthNumber t < 12 * 205) : rtcRead (rtcWrite true true r t) < 0 := by
  have hlate := months.start_le hlow
  have hnumber := start_monthNumber t
  rw [start_2060] at hlate
  have hpast : 0 ≤ t / 86400 + epochDay := by
    rw [dayNumber] at hnumber
    omega
  obtain ⟨-, hsecond, hday⟩ := rtcWrite_spec_mod r hpast (by omega)
  have hyear : monthNumber t / 12 % 160 = monthNumber t / 12 - 160 := by omega
  have hmonth : 12 * (monthNumber t / 12 - 160) + monthNumber t % 12 < 12 * 45 := by omega
  have hstart := months.start_le (Nat.le_of_lt hmonth)
  rw [start_1945] at hstart
  have hdate := dateNumber_lt t
  have hlen := months_len_le (monthNumber t)
  rw [rtcRead_eq, hsecond, hday]
  dsimp only
  rw [hyear, epochDay]
  omega

/-- The months a time zone can move the NTP era to. -/
theorem monthNumber_lt {t : Int} (h : t < 4233600000) : monthNumber t < 12 * 205 := by
  apply months.locate_fst_lt
  rw [start_2105, dayNumber, epochDay]
  omega

/-- **mbedTLS validates certificates against UTC exactly when** the time
zone is GMT. -/
theorem checksUtc_iff {u : Nat} (hu : u ≤ lastNtpSecond) (reply : NtpReply (ntpSeconds u))
    (gmtTime curtime : Int) (r : Registers) :
    ChecksUtc u reply gmtTime curtime r ↔ gmtTime = 0 := by
  rw [lastNtpSecond] at hu
  have hn : ntpSeconds u < 2 ^ 32 := by
    rw [ntpSeconds, SECS_FROM_1900_TO_1970]
    omega
  have hutc : ((ntpSeconds u : Nat) : Int) - (SECS_FROM_1900_TO_1970 : Nat) = u := by
    rw [ntpSeconds]
    omega
  have hrequest := ntpRequest_eq reply hn gmtTime curtime
  rw [hutc] at hrequest
  constructor
  · rintro ⟨t, hrun, hread⟩
    rw [hrequest] at hrun
    obtain ⟨offset, hoffset, ht⟩ := Option.map_eq_some_iff.mp hrun
    rw [gmtOffset] at hoffset
    split at hoffset
    · rename_i hrange
      cases hoffset
      have hlocal : t = u + gmtTime * 60 * 60 := (Prod.mk.inj ht).2.symm
      rw [rtcTime] at hread
      rcases Nat.lt_or_ge (monthNumber t) (12 * 160) with hyear | hlate
      · rw [rtcRead_rtcWrite r (by rw [epochDay]; omega) hyear] at hread
        omega
      · have := rtcRead_late r hlate (monthNumber_lt (by omega))
        omega
    · cases hoffset
  · rintro rfl
    have hyear : monthNumber (u : Int) < 12 * 160 :=
      monthNumber_storable (by rw [lastStorable]; omega)
    refine ⟨u, ?_, ?_⟩
    · rw [hrequest]
      show some ((0 : Int), (u : Int) + 0 * 60 * 60) = some (0, (u : Int))
      rw [Int.zero_mul, Int.zero_mul, Int.add_zero]
    · exact rtcRead_rtcWrite r (day_nonneg (by omega)) hyear

/-- The first second of 2025, from a server that sends nothing else. -/
def newYear2025 : NtpReply (ntpSeconds 1735689600) where
  bytes := List.replicate 40 0 ++ be32 (ntpSeconds 1735689600) ++ List.replicate 4 0
  size := rfl
  transmit := rfl

theorem checksUtc_iff_newYear :
    ChecksUtc 1735689600 newYear2025 2 0 ⟨0, 0⟩ ↔ (2 : Int) = 0 :=
  checksUtc_iff (by decide) newYear2025 2 0 ⟨0, 0⟩

/-- In GMT+2 certificates are checked against 02:00. -/
theorem newYear2025_ahead : ¬ ChecksUtc 1735689600 newYear2025 2 0 ⟨0, 0⟩ := by
  rintro ⟨t, hrun, hread⟩
  have hstored : ntpRequest newYear2025.recv 2 0 = some (0, 1735696800) := by decide +kernel
  rw [hstored] at hrun
  cases hrun
  have hlocal : rtcTime (rtcWrite true true ⟨0, 0⟩ 1735696800) = 1735696800 :=
    rtcRead_rtcWrite ⟨0, 0⟩ (by decide) (monthNumber_storable (by decide))
  rw [hlocal] at hread
  omega

end NucleoMqtt.Tls
