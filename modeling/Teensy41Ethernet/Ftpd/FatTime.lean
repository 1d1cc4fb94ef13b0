import Mathlib.Data.UInt
import Teensy41Ethernet.Lib.Word

/-!
# FAT time stamps

The file server's `vfs.cpp` writes the local time into the stamp of a file (`dateTime`) and takes
a stamp apart again (`gmtime`).  A stamp has the years from 1980 and the months from 1 to 12;
`struct tm` has the years from 1900 and the months from 0 to 11.  `gmtime` converts both.
`dateTime` converts the year and stores the month as `struct tm` has it: a stamp is a month early,
and one of January has the month 0, for which `gmtime` makes an exception.
-/

namespace Teensy41Ethernet.Ftpd

open Lib

/-! ### The macros of the SD library -/

/-- `FAT_DATE`: 7 bits for the year since 1980, 4 for the month, 5 for the day. -/
def fatDate (year : UInt16) (month day : UInt8) : UInt16 :=
  (year - 1980) <<< 9 ||| month.toUInt16 <<< 5 ||| day.toUInt16

/-- `FAT_TIME`: 5 bits for the hour, 6 for the minute, 5 for half the second. -/
def fatTime (hour minute second : UInt8) : UInt16 :=
  hour.toUInt16 <<< 11 ||| minute.toUInt16 <<< 5 ||| second.toUInt16 >>> 1

/-- `FAT_YEAR` -/
def fatYear (date : UInt16) : UInt16 := (1980 : UInt16) + date >>> 9

/-- `FAT_MONTH` -/
def fatMonth (date : UInt16) : UInt8 := (date >>> 5 &&& 0xF).toUInt8

/-- `FAT_DAY` -/
def fatDay (date : UInt16) : UInt8 := (date &&& 0x1F).toUInt8

/-- `FAT_HOUR` -/
def fatHour (time : UInt16) : UInt8 := (time >>> 11).toUInt8

/-- `FAT_MINUTE` -/
def fatMinute (time : UInt16) : UInt8 := (time >>> 5 &&& 0x3F).toUInt8

section Fields

variable {year : UInt16} {month day hour minute second : UInt8}

lemma toNat_fatDate (hyear : 1980 ≤ year.toNat) (hyear' : year.toNat ≤ 2107)
    (hmonth : month.toNat < 16) (hday : day.toNat < 32) :
    (fatDate year month day).toNat =
      day.toNat + 32 * (month.toNat + 16 * (year.toNat - 1980)) := by
  have hsub : (year - 1980).toNat = year.toNat - 1980 :=
    UInt16.toNat_sub_of_le _ _ (UInt16.le_iff_toNat_le.mpr hyear)
  rw [fatDate, UInt16.toNat_or, UInt16.toNat_or, UInt16.toNat_shiftLeft, UInt16.toNat_shiftLeft,
    hsub]
  simp only [UInt8.toNat_toUInt16, UInt16.reduceToNat, Nat.reduceMod]
  rw [Nat.mod_eq_of_lt (by rw [Nat.shiftLeft_eq]; omega),
    Nat.mod_eq_of_lt (by rw [Nat.shiftLeft_eq]; omega)]
  exact or_fields (j := 5) (k := 4) hday hmonth

lemma toNat_fatTime (hhour : hour.toNat < 32) (hminute : minute.toNat < 64)
    (hsecond : second.toNat < 64) :
    (fatTime hour minute second).toNat =
      second.toNat / 2 + 32 * (minute.toNat + 64 * hour.toNat) := by
  rw [fatTime, UInt16.toNat_or, UInt16.toNat_or, UInt16.toNat_shiftLeft, UInt16.toNat_shiftLeft,
    UInt16.toNat_shiftRight]
  simp only [UInt8.toNat_toUInt16, UInt16.reduceToNat, Nat.reduceMod]
  rw [Nat.mod_eq_of_lt (by rw [Nat.shiftLeft_eq]; omega),
    Nat.mod_eq_of_lt (by rw [Nat.shiftLeft_eq]; omega), Nat.shiftRight_eq_div_pow]
  exact or_fields (j := 5) (k := 6) (by omega) hminute

end Fields

/-- The lowest `w` bits of a word, as a byte. -/
lemma toNat_toUInt8_and (x : UInt16) {w : ℕ} (hw : w ≤ 8) :
    (x &&& UInt16.ofNat (2 ^ w - 1)).toUInt8.toNat = x.toNat % 2 ^ w := by
  have hpow : 2 ^ w ≤ 2 ^ 8 := Nat.pow_le_pow_right (by decide) hw
  have hmask : (UInt16.ofNat (2 ^ w - 1)).toNat = 2 ^ w - 1 := by
    rw [UInt16.toNat_ofNat', Nat.mod_eq_of_lt (by omega)]
  have hlt : x.toNat % 2 ^ w < 2 ^ w := Nat.mod_lt _ (by positivity)
  rw [UInt16.toNat_toUInt8, UInt16.toNat_and, hmask, Nat.and_two_pow_sub_one_eq_mod,
    Nat.mod_eq_of_lt (hlt.trans_le hpow)]

lemma toNat_shiftRight_five (x : UInt16) : (x >>> 5).toNat = x.toNat / 32 := by
  rw [UInt16.toNat_shiftRight, Nat.shiftRight_eq_div_pow]
  rfl

lemma toNat_fatYear (date : UInt16) : (fatYear date).toNat = 1980 + date.toNat / 512 := by
  have h := date.toNat_lt
  rw [fatYear, UInt16.toNat_add, UInt16.toNat_shiftRight, Nat.shiftRight_eq_div_pow]
  simp only [UInt16.reduceToNat, Nat.reduceMod, Nat.reducePow]
  omega

lemma toNat_fatMonth (date : UInt16) : (fatMonth date).toNat = date.toNat / 32 % 16 := by
  rw [← toNat_shiftRight_five]
  exact toNat_toUInt8_and _ (w := 4) (by decide)

lemma toNat_fatDay (date : UInt16) : (fatDay date).toNat = date.toNat % 32 :=
  toNat_toUInt8_and date (w := 5) (by decide)

lemma toNat_fatHour (time : UInt16) : (fatHour time).toNat = time.toNat / 2048 := by
  have h := time.toNat_lt
  rw [fatHour, UInt16.toNat_toUInt8, UInt16.toNat_shiftRight, Nat.shiftRight_eq_div_pow]
  simp only [UInt16.reduceToNat, Nat.reduceMod, Nat.reducePow]
  omega

lemma toNat_fatMinute (time : UInt16) : (fatMinute time).toNat = time.toNat / 32 % 64 := by
  rw [← toNat_shiftRight_five]
  exact toNat_toUInt8_and _ (w := 6) (by decide)

/-! ### `struct tm` and the two conversions -/

/-- `struct tm`, up to the fields that the conversions do not mention. -/
structure Tm where
  sec : ℤ
  min : ℤ
  hour : ℤ
  mday : ℤ
  mon : ℤ
  year : ℤ
deriving DecidableEq, Repr

/-- `vfs_time_t` -/
structure VfsTime where
  date : UInt16
  time : UInt16
deriving DecidableEq, Repr

/-- `dummy` as it is initialised. -/
def dummy : Tm := ⟨0, 0, 0, 1, 0, 70⟩

/-- `gmtime`: `dummy` after the call.  The seconds are those it had before. -/
def gmtime (dummy : Tm) (t : VfsTime) : Tm :=
  let mon : ℤ := (fatMonth t.date).toNat
  { dummy with
    year := (fatYear t.date).toNat - 1900
    mon := if mon ≠ 0 then mon - 1 else mon
    mday := (fatDay t.date).toNat
    hour := (fatHour t.time).toNat
    min := (fatMinute t.time).toNat }

/-- `dateTime`, where `timeinfo` is what `localtime` returns. -/
def dateTime (timeinfo : Tm) : UInt16 × UInt16 :=
  (fatDate (UInt16.ofInt (timeinfo.year + 1900)) (UInt8.ofInt timeinfo.mon)
      (UInt8.ofInt timeinfo.mday),
    fatTime (UInt8.ofInt timeinfo.hour) (UInt8.ofInt timeinfo.min) 0)

/-- `time(vfs_time_t*)` -/
def time (timeinfo : Tm) : VfsTime := ⟨(dateTime timeinfo).1, (dateTime timeinfo).2⟩

/-! ### Dates of the calendar -/

/-- The number of days of a month. -/
def daysIn (year month : ℕ) : ℕ :=
  if month = 2 then
    if year % 4 = 0 ∧ (year % 100 ≠ 0 ∨ year % 400 = 0) then 29 else 28
  else if month = 4 ∨ month = 6 ∨ month = 9 ∨ month = 11 then 30 else 31

lemma daysIn_le (year month : ℕ) : daysIn year month ≤ 31 := by
  rw [daysIn]
  split_ifs <;> decide

/-- A date and time of day in the years that a stamp can hold. -/
structure Moment where
  year : ℕ
  month : ℕ
  day : ℕ
  hour : ℕ
  minute : ℕ
  second : ℕ
  year_ge : 1980 ≤ year
  year_le : year ≤ 2107
  month_pos : 1 ≤ month
  month_le : month ≤ 12
  day_pos : 1 ≤ day
  day_le : day ≤ daysIn year month
  hour_lt : hour < 24
  minute_lt : minute < 60
  second_lt : second < 60

namespace Moment

/-- The moment as `localtime` has it. -/
def tm (m : Moment) : Tm where
  sec := m.second
  min := m.minute
  hour := m.hour
  mday := m.day
  mon := m.month - 1
  year := m.year - 1900

/-- The moment as a stamp of the FAT file system has it. -/
def stamp (m : Moment) : VfsTime where
  date := fatDate (UInt16.ofNat m.year) (UInt8.ofNat m.month) (UInt8.ofNat m.day)
  time := fatTime (UInt8.ofNat m.hour) (UInt8.ofNat m.minute) (UInt8.ofNat m.second)

end Moment

/-- The two agree in the fields that a stamp holds. -/
def Tm.Agrees (a b : Tm) : Prop :=
  a.year = b.year ∧ a.mon = b.mon ∧ a.mday = b.mday ∧ a.hour = b.hour ∧ a.min = b.min

instance (a b : Tm) : Decidable (a.Agrees b) :=
  inferInstanceAs (Decidable (_ ∧ _ ∧ _ ∧ _ ∧ _))

/-- What `gmtime` makes of a stamp that was packed out of a year, a month and so on. -/
lemma gmtime_pack (dummy : Tm) {year month day hour minute second : ℕ} (hyear : 1980 ≤ year)
    (hyear' : year ≤ 2107) (hmonth : month < 16) (hday : day < 32) (hhour : hour < 32)
    (hminute : minute < 64) (hsecond : second < 64) :
    gmtime dummy ⟨fatDate (UInt16.ofNat year) (UInt8.ofNat month) (UInt8.ofNat day),
        fatTime (UInt8.ofNat hour) (UInt8.ofNat minute) (UInt8.ofNat second)⟩ =
      ⟨dummy.sec, minute, hour, day, (month - 1 : ℕ), year - 1900⟩ := by
  have h16 : (UInt16.ofNat year).toNat = year := by
    rw [UInt16.toNat_ofNat', Nat.mod_eq_of_lt (by omega)]
  have h8 : ∀ n < 64, (UInt8.ofNat n).toNat = n := by
    intro n hn
    rw [UInt8.toNat_ofNat', Nat.mod_eq_of_lt (by omega)]
  have hm := h8 month (by omega)
  have hd := h8 day (by omega)
  have hh := h8 hour (by omega)
  have hmi := h8 minute hminute
  have hs := h8 second hsecond
  have hdate : (fatDate (UInt16.ofNat year) (UInt8.ofNat month) (UInt8.ofNat day)).toNat =
      day + 32 * (month + 16 * (year - 1980)) := by
    rw [toNat_fatDate, h16, hm, hd] <;> omega
  have htime : (fatTime (UInt8.ofNat hour) (UInt8.ofNat minute) (UInt8.ofNat second)).toNat =
      second / 2 + 32 * (minute + 64 * hour) := by
    rw [toNat_fatTime, hh, hmi, hs] <;> omega
  simp only [gmtime, toNat_fatYear, toNat_fatMonth, toNat_fatDay, toNat_fatHour, toNat_fatMinute,
    hdate, htime, Tm.mk.injEq, true_and]
  refine ⟨by omega, by omega, by omega, ?_, by omega⟩
  split_ifs with hzero <;> omega

lemma uint16_ofInt_natCast (n : ℕ) : UInt16.ofInt n = UInt16.ofNat n := by
  refine UInt16.toNat_inj.mp ?_
  rw [UInt16.ofInt, UInt16.toNat_ofNat', UInt16.toNat_ofNat']
  omega

lemma uint8_ofInt_natCast (n : ℕ) : UInt8.ofInt n = UInt8.ofNat n := by
  refine UInt8.toNat_inj.mp ?_
  rw [UInt8.ofInt, UInt8.toNat_ofNat', UInt8.toNat_ofNat']
  omega

namespace Moment

variable (m : Moment)

lemma day_lt : m.day < 32 := by
  have h := m.day_le.trans (daysIn_le m.year m.month)
  omega

/-- `gmtime` reads the stamps of the FAT file system as they are meant. -/
theorem gmtime_stamp (prior : Tm) : (gmtime prior m.stamp).Agrees m.tm := by
  have hmonth := m.month_pos
  rw [stamp, gmtime_pack prior m.year_ge m.year_le (by have := m.month_le; omega) m.day_lt
    (by have := m.hour_lt; omega) (by have := m.minute_lt; omega) (by have := m.second_lt; omega)]
  exact ⟨rfl, by simp only [tm]; omega, rfl, rfl, rfl⟩

/-- `time` stores a month that is one less than that of the stamp, and no seconds. -/
lemma time_tm : time m.tm =
    ⟨fatDate (UInt16.ofNat m.year) (UInt8.ofNat (m.month - 1)) (UInt8.ofNat m.day),
      fatTime (UInt8.ofNat m.hour) (UInt8.ofNat m.minute) (UInt8.ofNat 0)⟩ := by
  have hyear : (m.year : ℤ) - 1900 + 1900 = (m.year : ℕ) := by omega
  have hmonth : (m.month : ℤ) - 1 = (m.month - 1 : ℕ) := by
    have := m.month_pos
    omega
  simp only [time, dateTime, tm, hyear, hmonth, uint16_ofInt_natCast, uint8_ofInt_natCast]
  rfl

/-- Where `gmtime` and `time` meet: every field but the month comes back, and the month comes
back one too small, except that January stays January. -/
lemma gmtime_time (prior : Tm) :
    gmtime prior (time m.tm) = { m.tm with sec := prior.sec, mon := (m.month - 1 - 1 : ℕ) } := by
  have hmonth := m.month_le
  rw [time_tm, gmtime_pack prior m.year_ge m.year_le (by omega) m.day_lt
    (by have := m.hour_lt; omega) (by have := m.minute_lt; omega) (by decide)]
  rfl

end Moment

/-- **Round trip of a time stamp.**  For every date and time of day from 1980 to 2107, whatever
`gmtime` was asked before, it gives back the year, month, day, hour and minute that `time`
encoded if and only if the month is January.  The other fields always come back; February to
December come back as the month before. -/
theorem gmtime_time_agrees_iff (m : Moment) (prior : Tm) :
    ((gmtime prior (time m.tm)).Agrees m.tm ↔ m.month = 1) ∧
      (gmtime prior (time m.tm)).Agrees { m.tm with mon := (m.month - 1 - 1 : ℕ) } := by
  have hmonth := m.month_pos
  rw [m.gmtime_time prior]
  refine ⟨⟨fun h => ?_, fun h => ⟨rfl, ?_, rfl, rfl, rfl⟩⟩, rfl, rfl, rfl, rfl, rfl⟩
  · have hmon := h.2.1
    simp only [Moment.tm] at hmon
    omega
  · simp only [Moment.tm]
    omega

/-- Noon of 29 February 2024. -/
def leapDay : Moment where
  year := 2024
  month := 2
  day := 29
  hour := 12
  minute := 0
  second := 0
  year_ge := by decide
  year_le := by decide
  month_pos := by decide
  month_le := by decide
  day_pos := by decide
  day_le := by decide
  hour_lt := by decide
  minute_lt := by decide
  second_lt := by decide

/-- Encoded and decoded again, 29 February is 29 January. -/
theorem gmtime_time_leapDay :
    ¬ (gmtime dummy (time leapDay.tm)).Agrees leapDay.tm ∧
      gmtime dummy (time leapDay.tm) = ⟨0, 0, 12, 29, 0, 124⟩ ∧
      leapDay.tm = ⟨0, 0, 12, 29, 1, 124⟩ := by
  decide +kernel

end Teensy41Ethernet.Ftpd
