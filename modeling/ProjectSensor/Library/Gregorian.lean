import Mathlib.Algebra.BigOperators.Intervals
import Mathlib.Algebra.Order.BigOperators.Group.Finset
import Mathlib.Data.Nat.Cast.Order.Basic

/-!
# The Gregorian calendar

Years are counted as usual, months and days of the year from zero.  Days are counted from the first
of January of some first year; `InYear` says which year a day falls into.  Counting the leap years
gives the number of days between two years in closed form.
-/

namespace ProjectSensor.Library.Gregorian

open Finset

def isLeap (year : ℕ) : Bool := year % 4 = 0 && (year % 100 ≠ 0 || year % 400 = 0)

def yearLength (year : ℕ) : ℕ := if isLeap year then 366 else 365

/-- The length of a month of a leap year or of another one. -/
def monthLength (leap : Bool) (month : ℕ) : ℕ :=
  if leap && month = 1 then 29
  else [31, 28, 31, 30, 31, 30, 31, 31, 30, 31, 30, 31].getD month 0

/-- The days from the first of January of one year to the first of January of another. -/
def daysBetween (first last : ℕ) : ℕ := ∑ year ∈ Ico first last, yearLength year

/-- The day, counted from the first of January of `first`, falls into the year. -/
def InYear (first day year : ℕ) : Prop :=
  first ≤ year ∧ daysBetween first year ≤ day ∧ day < daysBetween first (year + 1)

instance (first day year : ℕ) : Decidable (InYear first day year) :=
  inferInstanceAs (Decidable (_ ∧ _))

/-- The number of leap years before a year. -/
def leapsBefore (year : ℕ) : ℕ := (year + 3) / 4 - (year + 99) / 100 + (year + 399) / 400

/-- A year is counted with the multiples of `n` when the next one comes. -/
theorem multiplesBefore_succ (year : ℕ) {n : ℕ} (hn : 0 < n) :
    (year + 1 + (n - 1)) / n = (year + (n - 1)) / n + if year % n = 0 then 1 else 0 := by
  have hshift : year + 1 + (n - 1) = year + (n - 1) + 1 := Nat.add_right_comm _ _ _
  have hsum : year + (n - 1) + 1 = year + n := by rw [Nat.add_assoc, Nat.sub_add_cancel hn]
  have hdvd : n ∣ year + (n - 1) + 1 ↔ year % n = 0 := by
    rw [hsum, Nat.dvd_add_self_right, Nat.dvd_iff_mod_eq_zero]
  rw [hshift, Nat.succ_div]
  simp only [hdvd]

theorem leapsBefore_succ (year : ℕ) :
    leapsBefore (year + 1) = leapsBefore year + if isLeap year then 1 else 0 := by
  have h4 := multiplesBefore_succ year (by decide : 0 < 4)
  have h100 := multiplesBefore_succ year (by decide : 0 < 100)
  have h400 := multiplesBefore_succ year (by decide : 0 < 400)
  have hcentury : year % 100 = 0 → year % 4 = 0 := by omega
  have hcycle : year % 400 = 0 → year % 100 = 0 := by omega
  -- no subtraction in the count of leap years is cut off
  have hle : (year + 99) / 100 ≤ (year + 3) / 4 := by omega
  rw [leapsBefore, leapsBefore, h4, h100, h400]
  by_cases hyear4 : year % 4 = 0
  · by_cases hyear100 : year % 100 = 0
    · by_cases hyear400 : year % 400 = 0
      · have hleap : isLeap year = true := by simp [isLeap, hyear4, hyear400]
        rw [if_pos hyear4, if_pos hyear100, if_pos hyear400, if_pos hleap]
        omega
      · have hleap : ¬ isLeap year = true := by simp [isLeap, hyear100, hyear400]
        rw [if_pos hyear4, if_pos hyear100, if_neg hyear400, if_neg hleap]
        omega
    · have hleap : isLeap year = true := by simp [isLeap, hyear4, hyear100]
      rw [if_pos hyear4, if_neg hyear100, if_neg (mt hcycle hyear100), if_pos hleap]
      omega
  · have hyear100 := mt hcentury hyear4
    have hleap : ¬ isLeap year = true := by simp [isLeap, hyear4]
    rw [if_neg hyear4, if_neg hyear100, if_neg (mt hcycle hyear100), if_neg hleap]
    rfl

theorem yearLength_eq (year : ℕ) : yearLength year = 365 + if isLeap year then 1 else 0 := by
  unfold yearLength
  split <;> rfl

theorem daysBetween_succ {first year : ℕ} (hle : first ≤ year) :
    daysBetween first (year + 1) = daysBetween first year + yearLength year :=
  sum_Ico_succ_top hle yearLength

/-- The days between two years: 365 for each, and one for each leap year. -/
theorem daysBetween_add_leapsBefore {first last : ℕ} (hle : first ≤ last) :
    daysBetween first last + leapsBefore first = 365 * (last - first) + leapsBefore last := by
  induction last, hle using Nat.le_induction with
  | base => simp [daysBetween]
  | succ year hle ih =>
      have hstep : year + 1 - first = year - first + 1 := Nat.succ_sub hle
      rw [daysBetween_succ hle, leapsBefore_succ, yearLength_eq, hstep]
      omega

theorem daysBetween_mono {first last last' : ℕ} (hle : last ≤ last') :
    daysBetween first last ≤ daysBetween first last' :=
  sum_le_sum_of_subset (Ico_subset_Ico_right hle)

theorem yearLength_pos (year : ℕ) : 0 < yearLength year := by
  rw [yearLength_eq]
  exact Nat.add_pos_left (by decide) _

/-- Every day falls into a year. -/
theorem exists_inYear (first day : ℕ) : ∃ year, InYear first day year := by
  induction day with
  | zero =>
      refine ⟨first, le_rfl, ?_, ?_⟩
      · rw [daysBetween, Ico_self, sum_empty]
      · rw [daysBetween_succ le_rfl]
        exact Nat.add_pos_right _ (yearLength_pos first)
  | succ day ih =>
      obtain ⟨year, hle, hlow, hhigh⟩ := ih
      by_cases hsame : day + 1 < daysBetween first (year + 1)
      · exact ⟨year, hle, hlow.trans (Nat.le_succ day), hsame⟩
      · refine ⟨year + 1, hle.trans (Nat.le_succ year), by omega, ?_⟩
        have hpos := yearLength_pos (year + 1)
        have hnext : first ≤ year + 1 := hle.trans (Nat.le_succ year)
        rw [daysBetween_succ hnext]
        omega

/-- A day before a year falls into an earlier one. -/
theorem lt_of_inYear {first day year last : ℕ} (hyear : InYear first day year)
    (hday : day < daysBetween first last) : year < last := by
  by_contra hle
  have hmono : daysBetween first last ≤ daysBetween first year := daysBetween_mono (not_lt.mp hle)
  exact absurd (hmono.trans hyear.2.1) (not_le.mpr hday)

end ProjectSensor.Library.Gregorian
