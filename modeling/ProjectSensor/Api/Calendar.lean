import ProjectSensor.Api.Timestamp

/-!
# The calendar conversions

`gmtime_r` finds the Gregorian date of a time and `mktime` leads back to the time, in every year
that is itself an `int`.  `__isleap` and `mktime` compute with the year, not with `tm_year`, so that
the last 1900 years that `tm_year` could hold are lost.
-/

open Finset ProjectSensor.Library.Gregorian

namespace ProjectSensor.Api

/-- `INT_MAX`. -/
def intMax : ℕ := 2147483647

theorem isleap_natCast (year : ℕ) : isleap year = isLeap year := by
  unfold isleap isLeap
  have hmod (k : ℕ) : (year : ℤ).tmod k = (year % k : ℕ) := by
    rw [Int.tmod_eq_emod_of_nonneg (Int.natCast_nonneg year)]
    rfl
  have h4 := hmod 4
  have h100 := hmod 100
  have h400 := hmod 400
  push_cast at h4 h100 h400
  rw [h4, h100, h400]
  congr 2 <;> grind

theorem toInt_of_le {n : ℤ} (hlow : 0 ≤ n) (hhigh : n ≤ intMax) : toInt n = n := by
  unfold intMax at hhigh
  exact Int.bmod_eq_of_le (by omega) (by omega)

theorem daysOf_eq_yearLength {year : ℕ} (hfit : year ≤ intMax) : daysOf year = yearLength year := by
  have hint : toInt year = year := toInt_of_le (Int.natCast_nonneg year) (Int.ofNat_le.mpr hfit)
  unfold daysOf yearLength
  rw [hint, isleap_natCast]

/-! ### `gmtime_r` -/

/-- The loop over the years stops in the year that the days reach into. -/
theorem yearLoop_add (i count rest : ℕ) (hrest : rest < daysOf (i + count)) :
    yearLoop i (∑ k ∈ Ico i (i + count), daysOf k + rest) = (i + count, rest) := by
  induction count generalizing i with
  | zero =>
      rw [yearLoop, add_zero, Ico_self, sum_empty, zero_add, if_neg]
      exact not_le.mpr hrest
  | succ count ih =>
      have hlast : i + (count + 1) = i + 1 + count := by omega
      rw [hlast] at hrest ⊢
      have hsum : ∑ k ∈ Ico i (i + 1 + count), daysOf k =
          daysOf i + ∑ k ∈ Ico (i + 1) (i + 1 + count), daysOf k :=
        sum_eq_sum_Ico_succ_bot (by omega) daysOf
      rw [yearLoop, hsum, if_pos (by omega), add_assoc, Nat.add_sub_cancel_left]
      exact ih (i + 1) hrest

/-- The day of the year comes out of the year loop. -/
theorem yearLoop_eq {day year : ℕ} (hyear : InYear 1970 day year) (hfit : year ≤ intMax) :
    yearLoop 1970 day = (year, day - daysBetween 1970 year) := by
  obtain ⟨hle, hlow, hhigh⟩ := hyear
  rw [daysBetween_succ hle] at hhigh
  have hdays : ∑ k ∈ Ico 1970 year, daysOf k = daysBetween 1970 year := by
    apply sum_congr rfl
    intro k hk
    exact daysOf_eq_yearLength ((mem_Ico.mp hk).2.le.trans hfit)
  have hrest : day - daysBetween 1970 year < daysOf year := by
    rw [daysOf_eq_yearLength hfit]
    omega
  obtain ⟨count, rfl⟩ := Nat.exists_eq_add_of_le hle
  have hloop := yearLoop_add 1970 count _ hrest
  rwa [hdays, Nat.add_sub_cancel' hlow] at hloop

/-- Month and day of the month of the `work`-th day of a year. -/
structure DateOf (leap : Bool) (work : ℕ) (date : ℕ × ℕ) : Prop where
  month_le : date.1 ≤ 11
  day_pos : 1 ≤ date.2
  day_le : date.2 ≤ monthLength leap date.1
  normal : date.2 ≤ spm.getD (1 + date.1) 0
  yday : spm.getD date.1 0 + date.2 + (if leap && 1 < date.1 then 1 else 0) = work + 1

instance (leap : Bool) (work : ℕ) (date : ℕ × ℕ) : Decidable (DateOf leap work date) :=
  decidable_of_iff (date.1 ≤ 11 ∧ 1 ≤ date.2 ∧ date.2 ≤ monthLength leap date.1 ∧
      date.2 ≤ spm.getD (1 + date.1) 0 ∧
      spm.getD date.1 0 + date.2 + (if leap && 1 < date.1 then 1 else 0) = work + 1)
    ⟨fun ⟨h1, h2, h3, h4, h5⟩ ↦ ⟨h1, h2, h3, h4, h5⟩,
      fun ⟨h1, h2, h3, h4, h5⟩ ↦ ⟨h1, h2, h3, h4, h5⟩⟩

/-- Every day of the two kinds of years has its date. -/
theorem monthDay_dateOf : ∀ leap, ∀ work < (if leap then 366 else 365),
    DateOf leap work (monthDay leap work) := by decide +kernel

/-- The fields that `gmtime_r` sets, given where the loop over the years stops. -/
theorem gmtimeR_of_yearLoop {timep : BitVec 64} {i work : ℕ}
    (hloop : yearLoop 1970 (timep.toNat / (24 * 60 * 60)) = (i, work)) :
    gmtimeR timep =
      { tmSec := (timep.toNat % (24 * 60 * 60) % 60 : ℕ)
        tmMin := (timep.toNat % (24 * 60 * 60) / 60 % 60 : ℕ)
        tmHour := (timep.toNat % (24 * 60 * 60) / 60 / 60 : ℕ)
        tmMday := (monthDay (isleap (toInt i)) work).2
        tmMon := (monthDay (isleap (toInt i)) work).1
        tmYear := toInt (i - tmYearBase)
        tmWday := ((4 + timep.toNat / (24 * 60 * 60)) % 7 : ℕ)
        tmYday := work } := by
  simp only [gmtimeR, hloop]

theorem gmtimeR_eq {timep : BitVec 64} {year : ℕ}
    (hyear : InYear 1970 (timep.toNat / (24 * 60 * 60)) year) (hfit : year ≤ intMax) :
    gmtimeR timep =
      let day := timep.toNat / (24 * 60 * 60)
      let yday := day - daysBetween 1970 year
      let date := monthDay (isLeap year) yday
      { tmSec := (timep.toNat % (24 * 60 * 60) % 60 : ℕ)
        tmMin := (timep.toNat % (24 * 60 * 60) / 60 % 60 : ℕ)
        tmHour := (timep.toNat % (24 * 60 * 60) / 60 / 60 : ℕ)
        tmMday := date.2, tmMon := date.1, tmYear := year - tmYearBase
        tmWday := ((4 + day) % 7 : ℕ), tmYday := yday } := by
  have hyearLow := hyear.1
  have hint : toInt year = year := toInt_of_le (Int.natCast_nonneg year) (Int.ofNat_le.mpr hfit)
  have hbase : toInt (year - tmYearBase) = year - tmYearBase := by
    unfold tmYearBase
    apply toInt_of_le <;> omega
  rw [gmtimeR_of_yearLoop (yearLoop_eq hyear hfit), hint, hbase, isleap_natCast]

/-- The day of the year is one of the year. -/
theorem sub_daysBetween_lt {first day year : ℕ} (hyear : InYear first day year) :
    day - daysBetween first year < if isLeap year then 366 else 365 := by
  obtain ⟨hle, hlow, hhigh⟩ := hyear
  rw [daysBetween_succ hle, yearLength] at hhigh
  omega

/-! ### `mktime` -/

/-- The leap centuries, as the formula takes them out of the word. -/
theorem leapCenturies_toNat (centuries : BitVec 64) :
    ((centuries >>> 2) * 3 + 1).toNat = centuries.toNat / 4 * 3 + 1 := by
  have hlt := centuries.isLt
  simp only [BitVec.toNat_add, BitVec.toNat_mul, BitVec.toNat_ushiftRight, BitVec.reduceToNat,
    Nat.shiftRight_eq_div_pow]
  omega

theorem lastCenturies_toNat (centuries : BitVec 64) :
    (if centuries &&& 3 = 3 then (centuries &&& 3) - 1 else centuries &&& 3).toNat =
      min (centuries.toNat % 4) 2 := by
  have hmod : (centuries &&& 3).toNat = centuries.toNat % 4 := by
    rw [BitVec.toNat_and]
    exact Nat.and_two_pow_sub_one_eq_mod centuries.toNat 2
  by_cases hthree : centuries &&& 3 = 3
  · rw [if_pos hthree, ← hmod, hthree]
    rfl
  · have hne : centuries.toNat % 4 ≠ 3 := by
      intro heq
      apply hthree
      apply BitVec.eq_of_toNat_eq
      rw [hmod, heq]
      rfl
    rw [if_neg hthree, hmod]
    omega

/-- The formula counts the days of the years since 1970, and the leap years by the century. -/
theorem dayOfYears_toNat {years : BitVec 64} (hyears : years.toNat ≤ intMax) :
    (dayOfYears years).toNat = daysBetween 1970 (1970 + years.toNat) := by
  unfold intMax at hyears
  have hclosed := daysBetween_add_leapsBefore (Nat.le_add_right 1970 years.toNat)
  unfold leapsBefore at hclosed
  have hfour : (1970 + years.toNat + 3) / 4 = 493 + (years.toNat + 1) / 4 := by omega
  have hcentury : (1970 + years.toNat + 399) / 400 = ((1970 + years.toNat + 99) / 100 + 3) / 4 := by
    omega
  rw [hfour, hcentury, Nat.add_sub_cancel_left] at hclosed
  have hday : (years * 365 + (years + 1) / 4).toNat =
      years.toNat * 365 + (years.toNat + 1) / 4 := by
    simp only [BitVec.toNat_add, BitVec.toNat_mul, BitVec.toNat_udiv, BitVec.reduceToNat]
    simp (disch := omega) only [Nat.mod_eq_of_lt]
  unfold dayOfYears
  by_cases hold : 131 ≤ years
  · have holdNat : 131 ≤ years.toNat := BitVec.le_def.mp hold
    have hsince : ((years - 131) / 100).toNat = (years.toNat - 131) / 100 := by
      rw [BitVec.toNat_udiv, BitVec.toNat_sub_of_le hold]
      rfl
    rw [if_pos hold]
    generalize (years - 131) / 100 = centuries at hsince ⊢
    have hleap := leapCenturies_toNat centuries
    have hlast := lastCenturies_toNat centuries
    have hcount : (1970 + years.toNat + 99) / 100 = 22 + centuries.toNat := by
      rw [hsince]
      omega
    rw [hcount] at hclosed
    rw [BitVec.toNat_sub_of_le, BitVec.toNat_sub_of_le, hday, hleap, hlast]
    · omega
    · rw [BitVec.le_def, hday, hleap]
      omega
    · rw [BitVec.le_def, BitVec.toNat_sub_of_le, hday, hleap, hlast]
      · omega
      · rw [BitVec.le_def, hday, hleap]
        omega
  · have holdNat : years.toNat < 131 := not_le.mp fun hle ↦ hold (BitVec.le_def.mpr hle)
    have hcount : (1970 + years.toNat + 99) / 100 = 20 + (years.toNat + 69) / 100 := by omega
    rw [hcount] at hclosed
    rw [if_neg hold, hday]
    omega

theorem checkedInt_of_le {n : ℤ} (hlow : -1 ≤ n) (hhigh : n ≤ intMax) : checkedInt n = some n := by
  unfold intMax at hhigh
  apply if_pos
  omega

/-- Fields in their ranges are left as they are. -/
theorem carry_of_le {t : Tm} (hsec : t.tmSec ≤ 60) (hmin : t.tmMin ≤ 60) (hhour : t.tmHour ≤ 24)
    (hmon : t.tmMon ≤ 12) : carry t = some t := by
  simp [carry, not_lt.mpr hsec, not_lt.mpr hmin, not_lt.mpr hhour, not_lt.mpr hmon]

theorem monthPasses_of_le {t : Tm} (passes : ℕ) (hlow : 0 ≤ t.tmMon) (hhigh : t.tmMon ≤ 11)
    (hmday : t.tmMday ≤ spm.getD (1 + t.tmMon).toNat 0) : monthPasses (passes + 1) t = some t := by
  rw [monthPasses, if_pos ⟨hlow, hhigh⟩, if_neg (not_lt.mpr hmday)]

/-- What `mktime` makes of fields in their ranges, where the day of the year is as it should be. -/
theorem mktime_of_normal {t : Tm} {year mon mday : ℕ} (hyearLow : 1970 ≤ year)
    (hfit : year ≤ intMax) (hyear : t.tmYear = year - tmYearBase) (hmon : t.tmMon = mon)
    (hmday : t.tmMday = mday) (hsec : t.tmSec ≤ 60) (hmin : t.tmMin ≤ 60)
    (hhour : t.tmHour ≤ 24) {yday : ℕ} (hdate : DateOf (isLeap year) yday (mon, mday)) :
    mktime t =
      let day := dayOfYears (BitVec.ofNat 64 (year - 1970)) + BitVec.ofNat 64 yday
      some (((day * 24 + BitVec.ofInt 64 t.tmHour) * 60 + BitVec.ofInt 64 t.tmMin) * 60 +
        BitVec.ofInt 64 t.tmSec,
        { t with tmYday := yday, tmWday := ((day + 4) % 7).toNat }) := by
  have hmonth : mon ≤ 11 := hdate.month_le
  have hnormal : mday ≤ spm.getD (1 + mon) 0 := hdate.normal
  have hyday : spm.getD mon 0 + mday + (if isLeap year && 1 < mon then 1 else 0) = yday + 1 :=
    hdate.yday
  have hyears : checkedInt (t.tmYear - 70) = some ((year - 1970 : ℕ) : ℤ) := by
    rw [hyear, tmYearBase, checkedInt_of_le] <;> grind
  have hbase : checkedInt (t.tmYear + tmYearBase) = some (year : ℤ) := by
    rw [hyear, tmYearBase, checkedInt_of_le] <;> grind
  have hcarry : carry t = some t := by
    apply carry_of_le hsec hmin hhour
    omega
  have hpasses : monthPasses (2 * t.tmMday.toNat + 1) t = some t := by
    apply monthPasses_of_le
    · omega
    · omega
    · rw [hmon, hmday]
      exact Int.ofNat_le.mpr hnormal
  have hafter : ¬ t.tmYear < 70 := by
    rw [hyear, tmYearBase]
    omega
  have htmYday : (spm.getD t.tmMon.toNat 0 + t.tmMday - 1 +
      (if isLeap year && 1 < t.tmMon then 1 else 0) : ℤ) = yday := by
    have hlate : decide (1 < t.tmMon) = decide (1 < mon) := decide_eq_decide.mpr (by omega)
    rw [hlate, hmon, hmday, Int.toNat_natCast]
    by_cases hleap : (isLeap year && decide (1 < mon)) = true
    · rw [if_pos hleap] at hyday ⊢
      omega
    · rw [if_neg hleap] at hyday ⊢
      omega
  simp only [mktime, hyears, hcarry, hpasses, hbase, hafter, isleap_natCast, htmYday,
    Option.bind_eq_bind, Option.bind_some, if_false, BitVec.ofInt_natCast]
  rfl

/-! ### The round trip -/

/-- Month and day of the month exist in the year. -/
def ValidDate (t : Tm) : Prop :=
  0 ≤ t.tmMon ∧ t.tmMon ≤ 11 ∧ 1 ≤ t.tmMday ∧
    t.tmMday ≤ monthLength (isLeap (t.tmYear + tmYearBase).toNat) t.tmMon.toNat

instance (t : Tm) : Decidable (ValidDate t) := inferInstanceAs (Decidable (_ ∧ _))

/-- Seconds, minutes, hours and days put together again. -/
theorem timep_eq_of_fields (timep : BitVec 64) :
    ((BitVec.ofNat 64 (timep.toNat / (24 * 60 * 60)) * 24 +
        BitVec.ofNat 64 (timep.toNat % (24 * 60 * 60) / 60 / 60)) * 60 +
      BitVec.ofNat 64 (timep.toNat % (24 * 60 * 60) / 60 % 60)) * 60 +
        BitVec.ofNat 64 (timep.toNat % (24 * 60 * 60) % 60) = timep := by
  have hnat : ((timep.toNat / (24 * 60 * 60) * 24 + timep.toNat % (24 * 60 * 60) / 60 / 60) * 60 +
      timep.toNat % (24 * 60 * 60) / 60 % 60) * 60 + timep.toNat % (24 * 60 * 60) % 60 =
        timep.toNat := by
    omega
  calc
    _ = BitVec.ofNat 64 (((timep.toNat / (24 * 60 * 60) * 24 +
          timep.toNat % (24 * 60 * 60) / 60 / 60) * 60 +
        timep.toNat % (24 * 60 * 60) / 60 % 60) * 60 + timep.toNat % (24 * 60 * 60) % 60) := by
      simp only [BitVec.ofNat_add, BitVec.ofNat_mul]
      rfl
    _ = timep := by rw [hnat, BitVec.ofNat_toNat, BitVec.setWidth_eq]

/-- The day of the time: the days of the years and the day of the year. -/
theorem dayOfYears_add {day year : ℕ} (hyear : InYear 1970 day year) (hfit : year ≤ intMax) :
    dayOfYears (BitVec.ofNat 64 (year - 1970)) + BitVec.ofNat 64 (day - daysBetween 1970 year) =
      BitVec.ofNat 64 day := by
  obtain ⟨hyearLow, hlow, -⟩ := hyear
  have hyears : (BitVec.ofNat 64 (year - 1970)).toNat = year - 1970 := by
    unfold intMax at hfit
    rw [BitVec.toNat_ofNat, Nat.mod_eq_of_lt (by omega)]
  have hformula : (dayOfYears (BitVec.ofNat 64 (year - 1970))).toNat = daysBetween 1970 year := by
    rw [dayOfYears_toNat (by rw [hyears]; omega), hyears, Nat.add_sub_cancel' hyearLow]
  apply BitVec.eq_of_toNat_eq
  rw [BitVec.toNat_add, hformula, BitVec.toNat_ofNat, BitVec.toNat_ofNat, Nat.add_mod_mod,
    Nat.add_sub_cancel' hlow]

/-- For every time in a year that is an `int`, `gmtime_r` gives a date of the calendar, and `mktime`
leads from it back to the time and leaves the fields as they are. -/
theorem mktime_gmtimeR (timep : BitVec 64) (year : ℕ)
    (hyear : InYear 1970 (timep.toNat / (24 * 60 * 60)) year) (hfit : year ≤ intMax) :
    mktime (gmtimeR timep) = some (timep, gmtimeR timep) ∧ ValidDate (gmtimeR timep) := by
  have hdate := monthDay_dateOf _ _ (sub_daysBetween_lt hyear)
  have hyearLow := hyear.1
  have hlt := timep.isLt
  rw [gmtimeR_eq hyear hfit]
  constructor
  · rw [mktime_of_normal hyearLow hfit rfl rfl rfl (by simp only; omega) (by simp only; omega)
      (by simp only; omega) hdate]
    have hweekday : ((BitVec.ofNat 64 (timep.toNat / (24 * 60 * 60)) + 4) % 7).toNat =
        (4 + timep.toNat / (24 * 60 * 60)) % 7 := by
      simp only [BitVec.toNat_umod, BitVec.toNat_add, BitVec.toNat_ofNat, BitVec.reduceToNat]
      omega
    simp only [dayOfYears_add hyear hfit, BitVec.ofInt_natCast, timep_eq_of_fields, hweekday]
  · have hback : ((year : ℤ) - tmYearBase + tmYearBase).toNat = year := by omega
    unfold ValidDate
    simp only [hback, Int.toNat_natCast]
    exact ⟨Int.natCast_nonneg _, Int.ofNat_le.mpr hdate.month_le, Int.ofNat_le.mpr hdate.day_pos,
      Int.ofNat_le.mpr hdate.day_le⟩

/-- The 29th of February 2000. -/
theorem mktime_gmtimeR_leap_day :
    mktime (gmtimeR 951782400) = some (951782400, gmtimeR 951782400) ∧
      ValidDate (gmtimeR 951782400) :=
  mktime_gmtimeR 951782400 2000 (by decide) (by decide)

/-- Behind `INT_MAX` the year 2147483700 is the first that `__isleap` takes for a leap year. -/
theorem daysOf_eq_yearLength_of_lt {k : ℕ} (hk : k < 2147483700) : daysOf k = yearLength k := by
  rcases Nat.lt_or_ge intMax k with hlate | hfit
  · have hall : ∀ j < 52, daysOf (2147483648 + j) = yearLength (2147483648 + j) := by
      decide +kernel
    unfold intMax at hlate
    obtain ⟨j, rfl⟩ := Nat.exists_eq_add_of_le hlate
    exact hall j (by omega)
  · exact daysOf_eq_yearLength hfit

theorem daysBetween_2147483700 : daysBetween 1970 2147483700 = 784351595770 := by
  have hclosed := daysBetween_add_leapsBefore (by decide : 1970 ≤ 2147483700)
  have hfirst : leapsBefore 1970 = 478 := by decide
  have hlast : leapsBefore 2147483700 = 520764798 := by decide
  omega

/-- `tm_year` could hold the year 2147483700, which has no leap day; `gmtime_r` makes a 29th of
February of its 60th day. -/
theorem gmtimeR_invalid_date :
    InYear 1970 ((67767977879625600#64).toNat / (24 * 60 * 60)) 2147483700 ∧
      (2147483700 : ℤ) - tmYearBase ≤ intMax ∧ ¬ ValidDate (gmtimeR 67767977879625600#64) := by
  have hday : (67767977879625600#64).toNat / (24 * 60 * 60) = 784351595770 + 59 := by decide
  have hlength : daysOf 2147483700 = 366 := by decide +kernel
  have hsum : ∑ k ∈ Ico 1970 2147483700, daysOf k = 784351595770 := by
    rw [← daysBetween_2147483700]
    apply sum_congr rfl
    intro k hk
    exact daysOf_eq_yearLength_of_lt (mem_Ico.mp hk).2
  have hloop : yearLoop 1970 ((67767977879625600#64).toNat / (24 * 60 * 60)) =
      (2147483700, 59) := by
    have hadd := yearLoop_add 1970 2147481730 59 (by rw [hlength]; decide)
    rw [hsum] at hadd
    rw [hday]
    exact hadd
  refine ⟨⟨by decide, ?_, ?_⟩, by decide, ?_⟩
  · rw [hday, daysBetween_2147483700]
    exact Nat.le_add_right _ 59
  · rw [hday, daysBetween_succ (by decide), daysBetween_2147483700]
    decide
  · rw [gmtimeR_of_yearLoop hloop]
    decide +kernel

end ProjectSensor.Api
