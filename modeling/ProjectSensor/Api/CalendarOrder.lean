import ProjectSensor.Api.Calendar

/-!
# Dates and times are one

`mktime` maps the dates of the calendar from 1970 on to times, `gmtime_r` leads from a time back to
the date (`gmtimeR_mktime`), and the order of the dates is the order of the times
(`mktime_lt_iff`).
-/

open Finset ProjectSensor.Library.Gregorian

namespace ProjectSensor.Api

/-- A date of the calendar with a time of the day, as `gmtime_r` would write it. -/
structure InCalendar (t : Tm) : Prop where
  valid : ValidDate t
  year_ge : 1970 ≤ t.tmYear + tmYearBase
  year_le : t.tmYear + tmYearBase ≤ intMax
  hour : 0 ≤ t.tmHour ∧ t.tmHour ≤ 23
  min : 0 ≤ t.tmMin ∧ t.tmMin ≤ 59
  sec : 0 ≤ t.tmSec ∧ t.tmSec ≤ 59

/-- The days of the year before a date. -/
def daysBefore (leap : Bool) (mon mday : ℕ) : ℕ :=
  spm.getD mon 0 + (if leap && 1 < mon then 1 else 0) + mday - 1

theorem monthLength_lt : ∀ leap, ∀ mon < 12, monthLength leap mon < 32 := by decide

/-- `gmtime_r` finds the date of a day of the year. -/
theorem monthDay_daysBefore : ∀ leap, ∀ mon < 12, ∀ day < 31, day < monthLength leap mon →
    monthDay leap (daysBefore leap mon (day + 1)) = (mon, day + 1) := by
  decide +kernel

theorem daysBefore_lt : ∀ leap, ∀ mon < 12, ∀ day < 31, day < monthLength leap mon →
    daysBefore leap mon (day + 1) < if leap then 366 else 365 := by
  decide +kernel

/-- A month later in the year begins behind the last day of an earlier one. -/
theorem daysBefore_month : ∀ leap, ∀ mon' < 12, ∀ mon < mon',
    daysBefore leap mon (monthLength leap mon) < daysBefore leap mon' 1 := by
  decide

theorem dateOf_daysBefore {leap : Bool} {mon day : ℕ} (hmon : mon < 12)
    (hday : day < monthLength leap mon) :
    DateOf leap (daysBefore leap mon (day + 1)) (mon, day + 1) := by
  have hshort : day < 31 := by
    have hlength := monthLength_lt leap mon hmon
    omega
  rw [← monthDay_daysBefore leap mon hmon day hshort hday]
  exact monthDay_dateOf leap _ (daysBefore_lt leap mon hmon day hshort hday)

/-- The days of a year are counted in the order of their dates. -/
theorem daysBefore_lt_iff {leap : Bool} {mon day mon' day' : ℕ} (hmon : mon < 12)
    (hmon' : mon' < 12) (hday : day < monthLength leap mon) (hday' : day' < monthLength leap mon') :
    daysBefore leap mon (day + 1) < daysBefore leap mon' (day' + 1) ↔
      mon < mon' ∨ mon = mon' ∧ day < day' := by
  have hgap := daysBefore_month leap
  unfold daysBefore at hgap ⊢
  rcases Nat.lt_trichotomy mon mon' with hlt | rfl | hgt
  · have hbehind := hgap mon' hmon' mon hlt
    omega
  · omega
  · have hbehind := hgap mon hmon mon' hgt
    omega

/-- The day since 1970 of a date, and the second of a time. -/
def dayNumber (year mon day : ℕ) : ℕ :=
  daysBetween 1970 year + daysBefore (isLeap year) mon (day + 1)

def secondNumber (dayNumber hour min sec : ℕ) : ℕ := ((dayNumber * 24 + hour) * 60 + min) * 60 + sec

theorem inYear_dayNumber {year mon day : ℕ} (hyear : 1970 ≤ year) (hmon : mon < 12)
    (hday : day < monthLength (isLeap year) mon) :
    InYear 1970 (dayNumber year mon day) year := by
  have hshort : day < 31 := by
    have hlength := monthLength_lt (isLeap year) mon hmon
    omega
  have hlast := daysBefore_lt (isLeap year) mon hmon day hshort hday
  refine ⟨hyear, Nat.le_add_right _ _, ?_⟩
  rw [daysBetween_succ hyear]
  exact Nat.add_lt_add_left hlast _

/-- Years up to the last are no more than `2 ^ 31 * 366` days. -/
theorem dayNumber_lt {year mon day : ℕ} (hyear : 1970 ≤ year) (hfit : year ≤ intMax)
    (hmon : mon < 12) (hday : day < monthLength (isLeap year) mon) :
    dayNumber year mon day < 2 ^ 40 := by
  obtain ⟨-, -, hlast⟩ := inYear_dayNumber hyear hmon hday
  have hclosed := daysBetween_add_leapsBefore (by omega : 1970 ≤ year + 1)
  unfold leapsBefore at hclosed
  unfold intMax at hfit
  omega

/-- The numbers of a date and a time as `struct tm`, with anything for weekday and day of the
year. -/
def tmOf (year mon day hour min sec : ℕ) (tmWday tmYday : ℤ) : Tm where
  tmSec := sec
  tmMin := min
  tmHour := hour
  tmMday := (day + 1 : ℕ)
  tmMon := mon
  tmYear := year - tmYearBase
  tmWday := tmWday
  tmYday := tmYday

theorem InCalendar.exists_numbers {t : Tm} (h : InCalendar t) :
    ∃ year mon day hour min sec : ℕ, t = tmOf year mon day hour min sec t.tmWday t.tmYday ∧
      1970 ≤ year ∧ year ≤ intMax ∧ mon < 12 ∧ day < monthLength (isLeap year) mon ∧
      hour < 24 ∧ min < 60 ∧ sec < 60 := by
  obtain ⟨⟨hmonLow, hmonHigh, hmdayLow, hmdayHigh⟩, hyearLow, hyearHigh, hhour, hmin, hsec⟩ := h
  unfold tmYearBase at hyearLow hyearHigh hmdayHigh
  refine ⟨(t.tmYear + 1900).toNat, t.tmMon.toNat, t.tmMday.toNat - 1, t.tmHour.toNat,
    t.tmMin.toNat, t.tmSec.toNat, ?_, by omega, by omega, by omega, by omega, by omega, by omega,
    by omega⟩
  rcases t with ⟨tmSec, tmMin, tmHour, tmMday, tmMon, tmYear, tmWday, tmYday⟩
  simp only at *
  have hyear : (tmYear : ℤ) = (tmYear + 1900).toNat - 1900 := by omega
  have hmday : tmMday = (tmMday.toNat - 1 + 1 : ℕ) := by omega
  rw [tmOf, tmYearBase, ← hyear, ← hmday, Int.toNat_of_nonneg hmonLow, Int.toNat_of_nonneg hhour.1,
    Int.toNat_of_nonneg hmin.1, Int.toNat_of_nonneg hsec.1]

section Numbers

variable {year mon day hour min sec : ℕ} (hyear : 1970 ≤ year) (hfit : year ≤ intMax)
  (hmon : mon < 12) (hday : day < monthLength (isLeap year) mon) (hhour : hour < 24)
  (hmin : min < 60) (hsec : sec < 60)

include hyear hfit hmon hday hhour hmin hsec

theorem secondNumber_lt : secondNumber (dayNumber year mon day) hour min sec < 2 ^ 64 := by
  have hlt := dayNumber_lt hyear hfit hmon hday
  unfold secondNumber
  omega

/-- What `gmtime_r` makes of the time of a date. -/
theorem gmtimeR_secondNumber :
    gmtimeR (BitVec.ofNat 64 (secondNumber (dayNumber year mon day) hour min sec)) =
      tmOf year mon day hour min sec ((4 + dayNumber year mon day) % 7 : ℕ)
        (daysBefore (isLeap year) mon (day + 1)) := by
  have hlt := secondNumber_lt hyear hfit hmon hday hhour hmin hsec
  have htime : (BitVec.ofNat 64 (secondNumber (dayNumber year mon day) hour min sec)).toNat =
      secondNumber (dayNumber year mon day) hour min sec := by
    rw [BitVec.toNat_ofNat, Nat.mod_eq_of_lt hlt]
  have hdays : secondNumber (dayNumber year mon day) hour min sec / (24 * 60 * 60) =
      dayNumber year mon day := by
    unfold secondNumber
    omega
  have hrest : secondNumber (dayNumber year mon day) hour min sec % (24 * 60 * 60) =
      (hour * 60 + min) * 60 + sec := by
    unfold secondNumber
    omega
  have hshort : day < 31 := by
    have hlength := monthLength_lt (isLeap year) mon hmon
    omega
  have hinYear := inYear_dayNumber hyear hmon hday
  have hyday : dayNumber year mon day - daysBetween 1970 year =
      daysBefore (isLeap year) mon (day + 1) := Nat.add_sub_cancel_left ..
  have hseconds : ((hour * 60 + min) * 60 + sec) % 60 = sec := by omega
  have hminutes : ((hour * 60 + min) * 60 + sec) / 60 % 60 = min := by omega
  have hhours : ((hour * 60 + min) * 60 + sec) / 60 / 60 = hour := by omega
  rw [gmtimeR_eq (by rwa [htime, hdays]) hfit, htime, hdays, hrest]
  simp only [hyday, monthDay_daysBefore _ mon hmon day hshort hday, hseconds, hminutes, hhours]
  rfl

/-- What `mktime` makes of a date, whatever weekday and day of the year it comes with. -/
theorem mktime_tmOf (tmWday tmYday : ℤ) :
    mktime (tmOf year mon day hour min sec tmWday tmYday) =
      some (BitVec.ofNat 64 (secondNumber (dayNumber year mon day) hour min sec),
        gmtimeR (BitVec.ofNat 64 (secondNumber (dayNumber year mon day) hour min sec))) := by
  have hinYear := inYear_dayNumber hyear hmon hday
  have hyday : dayNumber year mon day - daysBetween 1970 year =
      daysBefore (isLeap year) mon (day + 1) := Nat.add_sub_cancel_left ..
  have hdayOf := dayOfYears_add hinYear hfit
  rw [hyday] at hdayOf
  rw [gmtimeR_secondNumber hyear hfit hmon hday hhour hmin hsec,
    mktime_of_normal hyear hfit rfl rfl rfl (by simp only [tmOf]; omega)
      (by simp only [tmOf]; omega) (by simp only [tmOf]; omega) (dateOf_daysBefore hmon hday)]
  have htime : ((BitVec.ofNat 64 (dayNumber year mon day) * 24 + BitVec.ofNat 64 hour) * 60 +
      BitVec.ofNat 64 min) * 60 + BitVec.ofNat 64 sec =
        BitVec.ofNat 64 (secondNumber (dayNumber year mon day) hour min sec) := by
    simp only [secondNumber, BitVec.ofNat_add, BitVec.ofNat_mul]
    rfl
  have hweekday : ((BitVec.ofNat 64 (dayNumber year mon day) + 4) % 7).toNat =
      (4 + dayNumber year mon day) % 7 := by
    have hlt := dayNumber_lt hyear hfit hmon hday
    simp only [BitVec.toNat_umod, BitVec.toNat_add, BitVec.toNat_ofNat, BitVec.reduceToNat]
    omega
  simp only [hdayOf, hweekday, ← htime]
  rfl

end Numbers

/-- The date and the time of the day, the year first. -/
def Tm.fields (t : Tm) : List ℤ := [t.tmYear, t.tmMon, t.tmMday, t.tmHour, t.tmMin, t.tmSec]

/-- Every date from 1970 on has a time, and `gmtime_r` leads from it back to the date, whatever
weekday and day of the year the date came with: `mktime` corrects these. -/
theorem gmtimeR_mktime (t : Tm) (h : InCalendar t) :
    ∃ time, mktime t = some (time, gmtimeR time) ∧ (gmtimeR time).fields = t.fields := by
  obtain ⟨year, mon, day, hour, min, sec, ht, hyear, hfit, hmon, hday, hhour, hmin, hsec⟩ :=
    h.exists_numbers
  rw [ht]
  refine ⟨_, mktime_tmOf hyear hfit hmon hday hhour hmin hsec _ _, ?_⟩
  rw [gmtimeR_secondNumber hyear hfit hmon hday hhour hmin hsec]
  rfl

/-- Noon of the 29th of February 2000, with a wrong weekday and day of the year. -/
def leapNoon : Tm := tmOf 2000 1 28 12 0 0 0 0

theorem inCalendar_leapNoon : InCalendar leapNoon :=
  ⟨by decide, by decide, by decide, by decide, by decide, by decide⟩

theorem gmtimeR_mktime_leapNoon :
    ∃ time, mktime leapNoon = some (time, gmtimeR time) ∧
      (gmtimeR time).fields = leapNoon.fields :=
  gmtimeR_mktime leapNoon inCalendar_leapNoon

/-! ### The order -/

theorem dayNumber_lt_iff {year mon day year' mon' day' : ℕ} (hyear : 1970 ≤ year)
    (hyear' : 1970 ≤ year') (hmon : mon < 12) (hmon' : mon' < 12)
    (hday : day < monthLength (isLeap year) mon) (hday' : day' < monthLength (isLeap year') mon') :
    dayNumber year mon day < dayNumber year' mon' day' ↔
      year < year' ∨ year = year' ∧ (mon < mon' ∨ mon = mon' ∧ day < day') := by
  obtain ⟨-, hlow, hhigh⟩ := inYear_dayNumber hyear hmon hday
  obtain ⟨-, hlow', hhigh'⟩ := inYear_dayNumber hyear' hmon' hday'
  rcases Nat.lt_trichotomy year year' with hlt | rfl | hgt
  · have hbetween : daysBetween 1970 (year + 1) ≤ daysBetween 1970 year' := daysBetween_mono hlt
    omega
  · rw [dayNumber, dayNumber, Nat.add_lt_add_iff_left,
      daysBefore_lt_iff hmon hmon' hday hday']
    omega
  · have hbetween : daysBetween 1970 (year' + 1) ≤ daysBetween 1970 year := daysBetween_mono hgt
    omega

theorem secondNumber_lt_iff {day hour min sec day' hour' min' sec' : ℕ} (hhour : hour < 24)
    (hmin : min < 60) (hsec : sec < 60) (hhour' : hour' < 24) (hmin' : min' < 60)
    (hsec' : sec' < 60) :
    secondNumber day hour min sec < secondNumber day' hour' min' sec' ↔
      day < day' ∨ day = day' ∧ (hour < hour' ∨ hour = hour' ∧ (min < min' ∨ min = min' ∧
        sec < sec')) := by
  unfold secondNumber
  omega

/-- The earlier date has the earlier time. -/
theorem mktime_lt_iff (t t' : Tm) (h : InCalendar t) (h' : InCalendar t') :
    ∃ time time', (mktime t).map Prod.fst = some time ∧ (mktime t').map Prod.fst = some time' ∧
      (time < time' ↔ t.fields < t'.fields) := by
  obtain ⟨year, mon, day, hour, min, sec, ht, hyear, hfit, hmon, hday, hhour, hmin, hsec⟩ :=
    h.exists_numbers
  obtain ⟨year', mon', day', hour', min', sec', ht', hyear', hfit', hmon', hday', hhour', hmin',
    hsec'⟩ := h'.exists_numbers
  rw [ht, ht', mktime_tmOf hyear hfit hmon hday hhour hmin hsec,
    mktime_tmOf hyear' hfit' hmon' hday' hhour' hmin' hsec']
  refine ⟨_, _, rfl, rfl, ?_⟩
  have hlt := secondNumber_lt hyear hfit hmon hday hhour hmin hsec
  have hlt' := secondNumber_lt hyear' hfit' hmon' hday' hhour' hmin' hsec'
  rw [BitVec.lt_def, BitVec.toNat_ofNat, BitVec.toNat_ofNat, Nat.mod_eq_of_lt hlt,
    Nat.mod_eq_of_lt hlt', secondNumber_lt_iff hhour hmin hsec hhour' hmin' hsec',
    dayNumber_lt_iff hyear hyear' hmon hmon' hday hday']
  have hgt := dayNumber_lt_iff hyear' hyear hmon' hmon hday' hday
  have hsame : dayNumber year mon day = dayNumber year' mon' day' ↔
      year = year' ∧ mon = mon' ∧ day = day' := by
    constructor
    · intro heq
      have hltDay := dayNumber_lt_iff hyear hyear' hmon hmon' hday hday'
      rw [heq] at hltDay hgt
      omega
    · rintro ⟨rfl, rfl, rfl⟩
      rfl
  rw [hsame]
  simp only [Tm.fields, tmOf, List.cons_lt_cons_iff, List.not_lt_nil, and_false, or_false]
  omega

theorem inCalendar_newYear : InCalendar (tmOf 2000 11 30 23 59 59 0 0) :=
  ⟨by decide, by decide, by decide, by decide, by decide, by decide⟩

theorem mktime_lt_iff_leapNoon :
    leapNoon.fields < (tmOf 2000 11 30 23 59 59 0 0).fields ∧
      ∃ time time', (mktime leapNoon).map Prod.fst = some time ∧
        (mktime (tmOf 2000 11 30 23 59 59 0 0)).map Prod.fst = some time' ∧
        (time < time' ↔ leapNoon.fields < (tmOf 2000 11 30 23 59 59 0 0).fields) :=
  ⟨by decide, mktime_lt_iff _ _ inCalendar_leapNoon inCalendar_newYear⟩

end ProjectSensor.Api
