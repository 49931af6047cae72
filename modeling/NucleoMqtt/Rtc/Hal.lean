import NucleoMqtt.Lib.Word

/-!
# Rtc — the HAL's view of the RTC registers

`HAL_RTC_SetTime`, `HAL_RTC_SetDate` and their `Get` counterparts in binary
format. The calendar stands in two registers, two BCD digits a field, and
every field has the bits it needs and no more. What is set is got back as
long as it fits in those bits; that includes years up to 159, beyond what
two decimal digits are for, and from 160 on the years start over.

The hour format is 24 hours, as `RTC_Init` leaves it, and `assert_param`
checks nothing.
-/

namespace NucleoMqtt.Rtc

open NucleoMqtt.Lib

/-! ## BCD -/

/-- The loop of `RTC_ByteToBcd2`. -/
def bcdLoop (bcdhigh : UInt32) (bcdlow : UInt8) : UInt32 × UInt8 :=
  if 10 ≤ bcdlow then bcdLoop (bcdhigh + 1) (bcdlow - 10) else (bcdhigh, bcdlow)
termination_by bcdlow.toNat
decreasing_by
  rename_i h
  rw [UInt8.toNat_sub_of_le _ _ h]
  have : 10 ≤ bcdlow.toNat := h
  simp
  omega

def rtcByteToBcd2 (value : UInt8) : UInt8 :=
  let (bcdhigh, bcdlow) := bcdLoop 0 value
  (bcdhigh <<< 4).toUInt8 ||| bcdlow

def rtcBcd2ToByte (value : UInt8) : UInt8 :=
  let tmp := ((value &&& 0xF0) >>> 4) * 10
  tmp + (value &&& 0x0F)

/-- Two digits come back modulo 160, the tens having four bits. -/
theorem rtcBcd2ToByte_rtcByteToBcd2_mod (value : UInt8) :
    (rtcBcd2ToByte (rtcByteToBcd2 value)).toNat = value.toNat % 160 :=
  byte_lt_induction (p := fun v => (rtcBcd2ToByte (rtcByteToBcd2 v)).toNat = v.toNat % 160)
    (n := 256) (by decide +kernel) value.toNat_lt

/-- Two digits go up to 159, and come back. -/
theorem rtcBcd2ToByte_rtcByteToBcd2 {value : UInt8} (h : value.toNat < 160) :
    rtcBcd2ToByte (rtcByteToBcd2 value) = value := by
  apply UInt8.toNat_inj.mp
  rw [rtcBcd2ToByte_rtcByteToBcd2_mod, Nat.mod_eq_of_lt h]

/-! ## Registers -/

/-- The time and the date register. -/
structure Registers where
  tr : UInt32
  dr : UInt32
deriving DecidableEq

/-- `RTC_TimeTypeDef`. -/
structure RtcTime where
  hours : UInt8
  minutes : UInt8
  seconds : UInt8
  timeFormat : UInt8

/-- `RTC_DateTypeDef`. -/
structure RtcDate where
  weekDay : UInt8
  month : UInt8
  date : UInt8
  year : UInt8

/-- Where the units of each field stand. -/
def RTC_TR_HU_Pos : UInt32 := 16
def RTC_TR_MNU_Pos : UInt32 := 8
def RTC_TR_SU_Pos : UInt32 := 0
def RTC_TR_PM_Pos : UInt32 := 22
def RTC_DR_YU_Pos : UInt32 := 16
def RTC_DR_MU_Pos : UInt32 := 8
def RTC_DR_DU_Pos : UInt32 := 0
def RTC_DR_WDU_Pos : UInt32 := 13

def RTC_TR_RESERVED_MASK : UInt32 := 0x007F7F7F

def RTC_DR_RESERVED_MASK : UInt32 := 0x00FFFF3F

/-- `HAL_RTC_SetTime`. `entered` is whether `RTC_EnterInitMode` succeeds. -/
def halRtcSetTime (entered : Bool) (r : Registers) (sTime : RtcTime) : Registers :=
  if entered then
    let sTime := { sTime with timeFormat := 0 }
    let tmpreg : UInt32 := (rtcByteToBcd2 sTime.hours).toUInt32 <<< RTC_TR_HU_Pos
      ||| (rtcByteToBcd2 sTime.minutes).toUInt32 <<< RTC_TR_MNU_Pos
      ||| (rtcByteToBcd2 sTime.seconds).toUInt32 <<< RTC_TR_SU_Pos
      ||| sTime.timeFormat.toUInt32 <<< RTC_TR_PM_Pos
    { r with tr := tmpreg &&& RTC_TR_RESERVED_MASK }
  else r

def halRtcGetTime (r : Registers) : RtcTime :=
  let tmpreg := r.tr &&& RTC_TR_RESERVED_MASK
  { hours := rtcBcd2ToByte ((tmpreg &&& 0x003F0000) >>> RTC_TR_HU_Pos).toUInt8
    minutes := rtcBcd2ToByte ((tmpreg &&& 0x00007F00) >>> RTC_TR_MNU_Pos).toUInt8
    seconds := rtcBcd2ToByte ((tmpreg &&& 0x0000007F) >>> RTC_TR_SU_Pos).toUInt8
    timeFormat := ((tmpreg &&& 0x00400000) >>> RTC_TR_PM_Pos).toUInt8 }

/-- The month as `HAL_RTC_SetDate` takes it: a BCD month from October on is
made binary. -/
def binaryMonth (month : UInt8) : UInt8 :=
  if month &&& 0x10 = 0x10 then (month &&& ~~~0x10) + 0x0A else month

/-- `HAL_RTC_SetDate`. -/
def halRtcSetDate (entered : Bool) (r : Registers) (sDate : RtcDate) : Registers :=
  let sDate := { sDate with month := binaryMonth sDate.month }
  let datetmpreg : UInt32 := (rtcByteToBcd2 sDate.year).toUInt32 <<< RTC_DR_YU_Pos
    ||| (rtcByteToBcd2 sDate.month).toUInt32 <<< RTC_DR_MU_Pos
    ||| (rtcByteToBcd2 sDate.date).toUInt32 <<< RTC_DR_DU_Pos
    ||| sDate.weekDay.toUInt32 <<< RTC_DR_WDU_Pos
  if entered then { r with dr := datetmpreg &&& RTC_DR_RESERVED_MASK } else r

def halRtcGetDate (r : Registers) : RtcDate :=
  let datetmpreg := r.dr &&& RTC_DR_RESERVED_MASK
  { year := rtcBcd2ToByte ((datetmpreg &&& 0x00FF0000) >>> RTC_DR_YU_Pos).toUInt8
    month := rtcBcd2ToByte ((datetmpreg &&& 0x00001F00) >>> RTC_DR_MU_Pos).toUInt8
    date := rtcBcd2ToByte ((datetmpreg &&& 0x0000003F) >>> RTC_DR_DU_Pos).toUInt8
    weekDay := ((datetmpreg &&& 0x0000E000) >>> RTC_DR_WDU_Pos).toUInt8 }

/-! ## What is set is got back -/

/-- A field that holds a byte gives it back. -/
theorem field_eq {x res mask pos : UInt32} {p w : Nat} {b : UInt8}
    (hp : pos.toNat % 32 = p) (hmask : res.toNat &&& mask.toNat = (2 ^ w - 1) <<< p)
    (hx : x.toNat / 2 ^ p % 2 ^ w = b.toNat) :
    ((x &&& res &&& mask) >>> pos).toUInt8 = b := by
  apply UInt8.toNat_inj.mp
  rw [UInt32.toNat_toUInt8, UInt32.toNat_shiftRight, UInt32.toNat_and, UInt32.toNat_and]
  rw [hp, masked_field _ hmask, hx]
  exact Nat.mod_eq_of_lt b.toNat_lt

theorem binaryMonth_of_lt {month : UInt8} (h : month.toNat < 16) : binaryMonth month = month :=
  byte_lt_induction (p := fun m => binaryMonth m = m) (by decide) h

/-- Tens and units, while four bits hold the tens. -/
theorem toNat_rtcByteToBcd2 {value : UInt8} (h : value.toNat < 160) :
    (rtcByteToBcd2 value).toNat = 16 * (value.toNat / 10) + value.toNat % 10 :=
  byte_lt_induction
    (p := fun v => (rtcByteToBcd2 v).toNat = 16 * (v.toNat / 10) + v.toNat % 10)
    (by decide +kernel) h

/-- Tens and units of a value below `10 * k` fit in `16 * k`. -/
theorem rtcByteToBcd2_lt {value : UInt8} {k : Nat} (hk : k ≤ 16) (h : value.toNat < 10 * k) :
    (rtcByteToBcd2 value).toNat < 16 * k := by
  rw [toNat_rtcByteToBcd2 (by omega)]
  omega

/-- A byte moved within a word. -/
theorem toNat_byte_shiftLeft {b : UInt8} {pos : UInt32} (hpos : pos.toNat < 24) :
    (b.toUInt32 <<< pos).toNat = b.toNat <<< pos.toNat := by
  have hb := b.toNat_lt
  have hpow : 2 ^ pos.toNat ≤ 2 ^ 23 := Nat.pow_le_pow_right (by decide) (by omega)
  have hmul : b.toNat * 2 ^ pos.toNat ≤ 255 * 2 ^ 23 := Nat.mul_le_mul (by omega) hpow
  rw [UInt32.toNat_shiftLeft, UInt8.toNat_toUInt32, Nat.mod_eq_of_lt (show pos.toNat < 32 by omega),
    Nat.shiftLeft_eq]
  exact Nat.mod_eq_of_lt (by omega)

/-- The time register as a sum of its fields. -/
theorem timeWord (h m s : UInt8) :
    (h.toUInt32 <<< RTC_TR_HU_Pos ||| m.toUInt32 <<< RTC_TR_MNU_Pos
      ||| s.toUInt32 <<< RTC_TR_SU_Pos ||| (0 : UInt8).toUInt32 <<< RTC_TR_PM_Pos).toNat
      = 65536 * h.toNat + 256 * m.toNat + s.toNat := by
  have hm := m.toNat_lt
  have hs := s.toNat_lt
  have hms : m.toNat <<< 8 ||| s.toNat = 256 * m.toNat + s.toNat := shiftLeft_or hs
  have hhms : h.toNat <<< 16 ||| (256 * m.toNat + s.toNat)
      = 65536 * h.toNat + (256 * m.toNat + s.toNat) := shiftLeft_or (by omega)
  have hword : (h.toNat <<< 16 ||| m.toNat <<< 8 ||| s.toNat <<< 0 ||| 0 <<< 22)
      = h.toNat <<< 16 ||| (m.toNat <<< 8 ||| s.toNat) := by
    rw [Nat.shiftLeft_zero, Nat.zero_shiftLeft, Nat.or_zero, Nat.or_assoc]
  simp only [UInt32.toNat_or]
  rw [toNat_byte_shiftLeft (by decide), toNat_byte_shiftLeft (by decide),
    toNat_byte_shiftLeft (by decide), toNat_byte_shiftLeft (by decide)]
  show h.toNat <<< 16 ||| m.toNat <<< 8 ||| s.toNat <<< 0 ||| 0 <<< 22 = _
  rw [hword, hms, hhms]
  omega

/-- The date register as a sum of its fields, the day of the week in between. -/
theorem dateWord (y : UInt8) {m d w : UInt8} (hm : m.toNat < 32) (hw : w.toNat < 8) :
    (y.toUInt32 <<< RTC_DR_YU_Pos ||| m.toUInt32 <<< RTC_DR_MU_Pos
      ||| d.toUInt32 <<< RTC_DR_DU_Pos ||| w.toUInt32 <<< RTC_DR_WDU_Pos).toNat
      = 65536 * y.toNat + 8192 * w.toNat + 256 * m.toNat + d.toNat := by
  have hd := d.toNat_lt
  have hmd : m.toNat <<< 8 ||| d.toNat = 256 * m.toNat + d.toNat := shiftLeft_or hd
  have hwmd : w.toNat <<< 13 ||| (256 * m.toNat + d.toNat)
      = 8192 * w.toNat + (256 * m.toNat + d.toNat) := shiftLeft_or (by omega)
  have hywmd : y.toNat <<< 16 ||| (8192 * w.toNat + (256 * m.toNat + d.toNat))
      = 65536 * y.toNat + (8192 * w.toNat + (256 * m.toNat + d.toNat)) := shiftLeft_or (by omega)
  have hword : (y.toNat <<< 16 ||| m.toNat <<< 8 ||| d.toNat <<< 0 ||| w.toNat <<< 13)
      = y.toNat <<< 16 ||| (w.toNat <<< 13 ||| (m.toNat <<< 8 ||| d.toNat)) := by
    rw [Nat.shiftLeft_zero, Nat.or_assoc (y.toNat <<< 16), Nat.or_assoc (y.toNat <<< 16),
      Nat.or_comm (w.toNat <<< 13)]
  simp only [UInt32.toNat_or]
  rw [toNat_byte_shiftLeft (by decide), toNat_byte_shiftLeft (by decide),
    toNat_byte_shiftLeft (by decide), toNat_byte_shiftLeft (by decide)]
  show y.toNat <<< 16 ||| m.toNat <<< 8 ||| d.toNat <<< 0 ||| w.toNat <<< 13 = _
  rw [hword, hmd, hwmd, hywmd]
  omega

/-- Setting the date leaves the time alone. -/
theorem getTime_setDate (entered : Bool) (r : Registers) (s : RtcDate) :
    halRtcGetTime (halRtcSetDate entered r s) = halRtcGetTime r := by
  cases entered <;> rfl

/-- Setting the time leaves the date alone. -/
theorem getDate_setTime (entered : Bool) (r : Registers) (s : RtcTime) :
    halRtcGetDate (halRtcSetTime entered r s) = halRtcGetDate r := by
  cases entered <;> rfl

/-- **The time that is set is got back.** -/
theorem getTime_setTime (r : Registers) {s : RtcTime} (hh : s.hours.toNat < 40)
    (hm : s.minutes.toNat < 80) (hs : s.seconds.toNat < 80) (hf : s.timeFormat = 0) :
    halRtcGetTime (halRtcSetTime true r s) = s := by
  have hh' := rtcByteToBcd2_lt (k := 4) (by decide) hh
  have hm' := rtcByteToBcd2_lt (k := 8) (by decide) hm
  have hs' := rtcByteToBcd2_lt (k := 8) (by decide) hs
  have hword := timeWord (rtcByteToBcd2 s.hours) (rtcByteToBcd2 s.minutes)
    (rtcByteToBcd2 s.seconds)
  simp only [halRtcSetTime, halRtcGetTime, if_true]
  generalize (rtcByteToBcd2 s.hours).toUInt32 <<< RTC_TR_HU_Pos
    ||| (rtcByteToBcd2 s.minutes).toUInt32 <<< RTC_TR_MNU_Pos
    ||| (rtcByteToBcd2 s.seconds).toUInt32 <<< RTC_TR_SU_Pos
    ||| (0 : UInt8).toUInt32 <<< RTC_TR_PM_Pos = x at hword ⊢
  have hself : x &&& RTC_TR_RESERVED_MASK &&& RTC_TR_RESERVED_MASK
      = x &&& RTC_TR_RESERVED_MASK := by
    rw [UInt32.and_assoc, UInt32.and_self]
  obtain ⟨hours, minutes, seconds, timeFormat⟩ := s
  simp only at *
  rw [hself,
    field_eq (p := 16) (w := 6) (b := rtcByteToBcd2 hours) rfl (by decide) (by omega),
    field_eq (p := 8) (w := 7) (b := rtcByteToBcd2 minutes) rfl (by decide) (by omega),
    field_eq (p := 0) (w := 7) (b := rtcByteToBcd2 seconds) rfl (by decide) (by omega),
    field_eq (p := 22) (w := 1) (b := 0) rfl (by decide) (by rw [UInt8.toNat_zero]; omega),
    rtcBcd2ToByte_rtcByteToBcd2 (by omega), rtcBcd2ToByte_rtcByteToBcd2 (by omega),
    rtcBcd2ToByte_rtcByteToBcd2 (by omega), hf]

/-- The date that is set is got back, the year as its two digits come back. -/
theorem getDate_setDate_digits (r : Registers) {s : RtcDate}
    (hm : s.month.toNat < 16) (hd : s.date.toNat < 40) (hw : s.weekDay.toNat < 8) :
    halRtcGetDate (halRtcSetDate true r s)
      = { s with year := rtcBcd2ToByte (rtcByteToBcd2 s.year) } := by
  have hm' := rtcByteToBcd2_lt (k := 2) (by decide) (show s.month.toNat < 20 by omega)
  have hd' := rtcByteToBcd2_lt (k := 4) (by decide) hd
  have hy' := (rtcByteToBcd2 s.year).toNat_lt
  have hword := dateWord (rtcByteToBcd2 s.year) (d := rtcByteToBcd2 s.date) hm' hw
  simp only [halRtcSetDate, halRtcGetDate, if_true, binaryMonth_of_lt hm]
  generalize (rtcByteToBcd2 s.year).toUInt32 <<< RTC_DR_YU_Pos
    ||| (rtcByteToBcd2 s.month).toUInt32 <<< RTC_DR_MU_Pos
    ||| (rtcByteToBcd2 s.date).toUInt32 <<< RTC_DR_DU_Pos
    ||| s.weekDay.toUInt32 <<< RTC_DR_WDU_Pos = x at hword ⊢
  have hself : x &&& RTC_DR_RESERVED_MASK &&& RTC_DR_RESERVED_MASK
      = x &&& RTC_DR_RESERVED_MASK := by
    rw [UInt32.and_assoc, UInt32.and_self]
  obtain ⟨weekDay, month, date, year⟩ := s
  simp only at *
  rw [hself,
    field_eq (p := 13) (w := 3) (b := weekDay) rfl (by decide) (by omega),
    field_eq (p := 8) (w := 5) (b := rtcByteToBcd2 month) rfl (by decide) (by omega),
    field_eq (p := 0) (w := 6) (b := rtcByteToBcd2 date) rfl (by decide) (by omega),
    field_eq (p := 16) (w := 8) (b := rtcByteToBcd2 year) rfl (by decide) (by omega),
    rtcBcd2ToByte_rtcByteToBcd2 (show month.toNat < 160 by omega),
    rtcBcd2ToByte_rtcByteToBcd2 (show date.toNat < 160 by omega)]

/-- **The date that is set is got back**, a year past 99 included. -/
theorem getDate_setDate (r : Registers) {s : RtcDate} (hy : s.year.toNat < 160)
    (hm : s.month.toNat < 16) (hd : s.date.toNat < 40) (hw : s.weekDay.toNat < 8) :
    halRtcGetDate (halRtcSetDate true r s) = s := by
  rw [getDate_setDate_digits r hm hd hw, rtcBcd2ToByte_rtcByteToBcd2 hy]

end NucleoMqtt.Rtc
