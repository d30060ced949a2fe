import Mathlib.Analysis.Normed.Field.Lemmas
import ProjectSensor.Library.ByteMemory
import ProjectSensor.Library.PiecewiseLinear

/-!
# `CalculatePRSVal`

The pressure is read off a calibration curve of four points.  The loop looks for the first point
above the sample; past the last point it jumps into its other branch, so that both outer segments
are extended.  The differences of the unsigned halfwords are of type `int`.
-/

open ProjectSensor.Library.PiecewiseLinear

namespace ProjectSensor.App

/-- `table[i] - table[i-1]`, promoted to `int`. -/
def difference (table : ℕ → BitVec 16) (i : ℕ) : ℤ := (table i).toNat - (table (i - 1)).toNat

section Curve

variable {K : Type} [Field K]

/-- `linear_map`. -/
def linearMap (fADC : K) (usaADC usaPRS : ℕ → BitVec 16) (i : ℕ) : K :=
  (usaPRS (i - 1)).toNat +
    (fADC - (usaADC (i - 1)).toNat) * difference usaPRS i / difference usaADC i

theorem linearMap_eq_interpolate (fADC : K) (usaADC usaPRS : ℕ → BitVec 16) (i : ℕ) :
    linearMap fADC usaADC usaPRS i =
      interpolate ((usaADC (i - 1)).toNat : K) (usaPRS (i - 1)).toNat (usaADC i).toNat
        (usaPRS i).toNat fADC := by
  rw [interpolate_eq, linearMap, difference, difference]
  push_cast
  rfl

variable [LinearOrder K]

/-- The loop from `i` on, `left` passes before its end: the segment in which it reaches
`linear_map`. -/
def prsSegment (fADC : K) (usaADC : ℕ → BitVec 16) : ℕ → ℕ → Option ℕ
  | 0, _ => none
  | left + 1, i =>
      if fADC < (usaADC i).toNat then some i
      else if i = 3 then some i
      else prsSegment fADC usaADC left (i + 1)

/-- `CalculatePRSVal`; there is no result if `fPrs` is never assigned. -/
def calculatePRSVal (fADC : K) (usaADC usaPRS : ℕ → BitVec 16) : Option K :=
  (prsSegment fADC usaADC 3 1).map (linearMap fADC usaADC usaPRS)

theorem prsSegment_eq (fADC : K) (usaADC : ℕ → BitVec 16) :
    prsSegment fADC usaADC 3 1 =
      some (if fADC < (usaADC 1).toNat then 1 else if fADC < (usaADC 2).toNat then 2 else 3) := by
  by_cases h1 : fADC < (usaADC 1).toNat
  · simp [prsSegment, h1]
  by_cases h2 : fADC < (usaADC 2).toNat
  · simp [prsSegment, h1, h2]
  · simp [prsSegment, h1, h2]

end Curve

/-- The calibration curve through the points of two tables. -/
def prsCurve (adc prs : ℕ → ℚ) : ℚ → ℚ :=
  glue (adc 1) (interpolate (adc 0) (prs 0) (adc 1) (prs 1))
    (glue (adc 2) (interpolate (adc 1) (prs 1) (adc 2) (prs 2))
      (interpolate (adc 2) (prs 2) (adc 3) (prs 3)))

/-- What a calibration curve has to satisfy. -/
structure CalibrationCurve (adc prs : ℕ → ℚ) (curve : ℚ → ℚ) : Prop where
  first : ∀ x < adc 1, curve x = interpolate (adc 0) (prs 0) (adc 1) (prs 1) x
  second : ∀ x, adc 1 ≤ x → x < adc 2 → curve x = interpolate (adc 1) (prs 1) (adc 2) (prs 2) x
  third : ∀ x, adc 2 ≤ x → curve x = interpolate (adc 2) (prs 2) (adc 3) (prs 3) x
  point : ∀ i < 4, curve (adc i) = prs i
  continuous : Continuous curve
  increasing : (∀ i < 3, prs i < prs (i + 1)) → StrictMono curve

theorem calculatePRSVal_eq_prsCurve (fADC : ℚ) (usaADC usaPRS : ℕ → BitVec 16) :
    calculatePRSVal fADC usaADC usaPRS =
      some (prsCurve (fun i ↦ (usaADC i).toNat) (fun i ↦ (usaPRS i).toNat) fADC) := by
  rw [calculatePRSVal, prsSegment_eq, Option.map_some, linearMap_eq_interpolate]
  unfold prsCurve glue
  split_ifs <;> rfl

section Table

variable {adc prs : ℕ → ℚ}

theorem interpolate_agree (hadc : ∀ i < 3, adc i < adc (i + 1)) {i : ℕ} (hi : i < 3) (y : ℚ) :
    interpolate (adc i) (prs i) (adc (i + 1)) (prs (i + 1)) (adc (i + 1)) =
      interpolate (adc (i + 1)) (prs (i + 1)) (adc (i + 2)) y (adc (i + 1)) := by
  rw [interpolate_left, interpolate_right _ _ (hadc i hi).ne]

/-- The glued curve has the value of the first or the second piece at the first seam, and that of
the second or the third at the second. -/
theorem prsCurve_seam (hadc : ∀ i < 3, adc i < adc (i + 1)) :
    interpolate (adc 0) (prs 0) (adc 1) (prs 1) (adc 1) =
      glue (adc 2) (interpolate (adc 1) (prs 1) (adc 2) (prs 2))
        (interpolate (adc 2) (prs 2) (adc 3) (prs 3)) (adc 1) := by
  rw [glue_of_lt (hadc 1 (by decide))]
  exact interpolate_agree hadc (i := 0) (by decide) (prs 2)

theorem prsCurve_point (hadc : ∀ i < 3, adc i < adc (i + 1)) {i : ℕ} (hi : i < 4) :
    prsCurve adc prs (adc i) = prs i := by
  have h01 := hadc 0 (by decide)
  have h12 := hadc 1 (by decide)
  have h23 := hadc 2 (by decide)
  unfold prsCurve
  rcases (by omega : i = 0 ∨ i = 1 ∨ i = 2 ∨ i = 3) with rfl | rfl | rfl | rfl
  · rw [glue_of_lt h01, interpolate_left]
  · rw [glue_of_le le_rfl, glue_of_lt h12, interpolate_left]
  · rw [glue_of_le h12.le, glue_of_le le_rfl, interpolate_left]
  · rw [glue_of_le (h12.trans h23).le, glue_of_le h23.le, interpolate_right _ _ h23.ne]

theorem calibrationCurve_prsCurve (hadc : ∀ i < 3, adc i < adc (i + 1)) :
    CalibrationCurve adc prs (prsCurve adc prs) := by
  have h01 := hadc 0 (by decide)
  have h12 := hadc 1 (by decide)
  have h23 := hadc 2 (by decide)
  have hupper : interpolate (adc 1) (prs 1) (adc 2) (prs 2) (adc 2) =
      interpolate (adc 2) (prs 2) (adc 3) (prs 3) (adc 2) :=
    interpolate_agree hadc (i := 1) (by decide) (prs 3)
  constructor
  case first =>
    intro x hx
    exact glue_of_lt hx
  case second =>
    intro x hlow hhigh
    rw [prsCurve, glue_of_le hlow, glue_of_lt hhigh]
  case third =>
    intro x hlow
    rw [prsCurve, glue_of_le (h12.le.trans hlow), glue_of_le hlow]
  case point =>
    intro i hi
    exact prsCurve_point hadc hi
  case continuous =>
    apply continuous_glue (prsCurve_seam hadc) (continuous_interpolate _ _ _ _)
    exact continuous_glue hupper (continuous_interpolate _ _ _ _) (continuous_interpolate _ _ _ _)
  case increasing =>
    intro hprs
    have hline (i : ℕ) (hi : i < 3) :
        StrictMono (interpolate (adc i) (prs i) (adc (i + 1)) (prs (i + 1))) :=
      strictMono_interpolate (hadc i hi) (hprs i hi)
    apply strictMono_glue (prsCurve_seam hadc) (hline 0 (by decide))
    exact strictMono_glue hupper (hline 1 (by decide)) (hline 2 (by decide))

end Table

/-- For a strictly increasing table `usaADC`, `CalculatePRSVal` always has a result, and it is the
piecewise linear curve through the four points. -/
theorem calculatePRSVal_calibrates (usaADC usaPRS : ℕ → BitVec 16)
    (hadc : ∀ i < 3, usaADC i < usaADC (i + 1)) :
    ∃ curve : ℚ → ℚ, (∀ fADC, calculatePRSVal fADC usaADC usaPRS = some (curve fADC)) ∧
      CalibrationCurve (fun i ↦ (usaADC i).toNat) (fun i ↦ (usaPRS i).toNat) curve := by
  refine ⟨_, fun fADC ↦ calculatePRSVal_eq_prsCurve fADC usaADC usaPRS, ?_⟩
  apply calibrationCurve_prsCurve
  intro i hi
  exact Nat.cast_lt.mpr (BitVec.lt_def.mp (hadc i hi))

/-- The default table. -/
theorem calculatePRSVal_calibrates_default :
    ∃ curve : ℚ → ℚ,
      (∀ fADC, calculatePRSVal fADC ([1120, 14140, 27000, 39770].getD · 0)
        ([1000, 3500, 6000, 8500].getD · 0) = some (curve fADC)) ∧
      CalibrationCurve (fun i ↦ (([1120, 14140, 27000, 39770] : List (BitVec 16)).getD i 0).toNat)
        (fun i ↦ (([1000, 3500, 6000, 8500] : List (BitVec 16)).getD i 0).toNat) curve :=
  calculatePRSVal_calibrates _ _ (by decide)

end ProjectSensor.App
