import Mathlib.Data.List.Count
import Mathlib.Logic.Function.Iterate
import ProjectSensor.App.Measure

/-!
# The records of a calibration

A cycle of `self_calib_handle` washes the sensor and then measures in growing distances.  It has
nine slots for the single conversions of each kind, but takes only two: the first one when it
leaves `MODE_SENSOR_WASH`, and one with the index 9 when it goes back to measuring.  In between
`MODE_CALIB_HUMI` only counts.
-/

namespace ProjectSensor.App

/-- `def_RECORD_LEN`. -/
def recordLen : ℕ := 9

/-- The state, and a record of the single conversions since the mode was last set to
`MODE_SENSOR_WASH`. -/
structure Calibrating where
  ad : AdState
  cycle : List (AdIoc × BitVec 8)

namespace Calibrating

/-- A statement, with what it means for the record of the cycle. -/
def effect (c : Calibrating) (stmt : Stmt) : Calibrating where
  ad := c.ad.effect stmt
  cycle :=
    match stmt with
    | .runMode .sensorWash => []
    | .ioctl cmd (some slot) => (cmd, slot) :: c.cycle
    | _ => c.cycle

/-- A call of `self_calib_handle`. -/
def call (c : Calibrating) : Calibrating := (selfCalibHandle c.ad.info).foldl effect c

/-- `n` calls from `application::run` on. -/
def after (gap : BitVec 32) (times : BitVec 8) (period : BitVec 32) (n : ℕ) : Calibrating :=
  call^[n] ⟨(Measuring.construct gap times period).ad, []⟩

/-- Every conversion went to a slot of the array. -/
def InBounds (c : Calibrating) : Prop := ∀ record ∈ c.ad.records, record.2.toNat < recordLen

/-- If the next call goes back to measuring, each slot of both arrays has been recorded exactly
once in the cycle. -/
def EndsComplete (c : Calibrating) : Prop :=
  c.ad.info.ucSensorRunMode = .calibHumi → c.call.ad.info.ucSensorRunMode = .measurePara →
    ∀ slot : BitVec 8, slot.toNat < recordLen →
      c.call.cycle.count (.getSglRtdAdc, slot) = 1 ∧ c.call.cycle.count (.getSglRhsAdc, slot) = 1

theorem after_succ (gap : BitVec 32) (times : BitVec 8) (period : BitVec 32) (n : ℕ) :
    after gap times period (n + 1) = (after gap times period n).call :=
  Function.iterate_succ_apply' call n _

variable {c : Calibrating}

theorem call_measurePara (hmode : c.ad.info.ucSensorRunMode = .measurePara) :
    c.call.ad.info.ucSensorRunMode = .sensorWash ∧ c.call.ad.records = c.ad.records := by
  simp [call, selfCalibHandle, hmode, effect, AdState.effect]

theorem call_sensorWash (hmode : c.ad.info.ucSensorRunMode = .sensorWash) :
    c.call.ad.info.ucSensorRunMode = .calibHumi ∧ c.call.ad.info.ucCalibRecordTimes = 0 ∧
      c.call.ad.records = (.getSglRhsAdc, 0) :: (.getSglRtdAdc, 0) :: c.ad.records := by
  simp [call, selfCalibHandle, hmode, effect, AdState.effect]

/-- In the calibration mode a call counts and records nothing. -/
theorem call_calibHumi (hmode : c.ad.info.ucSensorRunMode = .calibHumi)
    (htimes : ¬ 8 < c.ad.info.ucCalibRecordTimes + 1) :
    c.call.ad.info.ucSensorRunMode = .calibHumi ∧
      c.call.ad.info.ucCalibRecordTimes = c.ad.info.ucCalibRecordTimes + 1 ∧
      c.call.ad.records = c.ad.records := by
  simp only [call, selfCalibHandle, hmode, if_neg htimes]
  simp [effect, AdState.effect, hmode]

/-- The call that ends the cycle records one more time. -/
theorem call_last (hmode : c.ad.info.ucSensorRunMode = .calibHumi)
    (htimes : 8 < c.ad.info.ucCalibRecordTimes + 1) :
    c.call.ad.info.ucSensorRunMode = .measurePara ∧
      c.call.ad.records = (.getSglRhsAdc, c.ad.info.ucCalibRecordTimes + 1) ::
        (.getSglRtdAdc, c.ad.info.ucCalibRecordTimes + 1) :: c.ad.records := by
  simp only [call, selfCalibHandle, hmode, if_pos htimes]
  simp [effect, AdState.effect]

section Run

variable (gap : BitVec 32) (times : BitVec 8) (period : BitVec 32)

theorem after_zero : (after gap times period 0).ad.info.ucSensorRunMode = .measurePara ∧
    (after gap times period 0).ad.records = [] := ⟨rfl, rfl⟩

theorem after_one : (after gap times period 1).ad.info.ucSensorRunMode = .sensorWash ∧
    (after gap times period 1).ad.records = [] := by
  rw [after_succ]
  exact call_measurePara rfl

/-- Up to eight calls after the wash only the first slot is recorded. -/
theorem after_wash (k : ℕ) (hk : k ≤ 8) :
    (after gap times period (k + 2)).ad.info.ucSensorRunMode = .calibHumi ∧
      (after gap times period (k + 2)).ad.info.ucCalibRecordTimes = BitVec.ofNat 8 k ∧
      (after gap times period (k + 2)).ad.records = [(.getSglRhsAdc, 0), (.getSglRtdAdc, 0)] := by
  induction k with
  | zero =>
      obtain ⟨hmode, hrecords⟩ := after_one gap times period
      obtain ⟨hmode', htimes', hrecords'⟩ := call_sensorWash hmode
      rw [after_succ, hrecords', hrecords]
      exact ⟨hmode', htimes', rfl⟩
  | succ k ih =>
      obtain ⟨hmode, htimes, hrecords⟩ := ih (Nat.le_of_succ_le hk)
      have hnext : (after gap times period (k + 2)).ad.info.ucCalibRecordTimes + 1 =
          BitVec.ofNat 8 (k + 1) := by
        rw [htimes]
        exact (BitVec.ofNat_add k 1).symm
      have hnot : ¬ 8 < (after gap times period (k + 2)).ad.info.ucCalibRecordTimes + 1 := by
        rw [hnext, BitVec.lt_def, BitVec.toNat_ofNat]
        show ¬ 8 < (k + 1) % 2 ^ 8
        omega
      obtain ⟨hmode', htimes', hrecords'⟩ := call_calibHumi hmode hnot
      rw [show k + 1 + 2 = k + 2 + 1 from rfl, after_succ, htimes', hnext, hrecords', hrecords]
      exact ⟨hmode', rfl, rfl⟩

/-- The eleventh call goes back to measuring and records the index 9. -/
theorem after_eleven : (.getSglRtdAdc, 9) ∈ (after gap times period (8 + 2 + 1)).ad.records := by
  obtain ⟨hmode, htimes, -⟩ := after_wash gap times period 8 (Nat.le_refl 8)
  have hlast : 8 < (after gap times period (8 + 2)).ad.info.ucCalibRecordTimes + 1 := by
    rw [htimes]
    decide
  rw [after_succ, (call_last hmode hlast).2, htimes]
  exact List.mem_cons_of_mem _ List.mem_cons_self

theorem inBounds_after {n : ℕ} (hn : n < 11) : (after gap times period n).InBounds := by
  intro record hrecord
  rcases n with _ | _ | k
  · rw [(after_zero gap times period).2] at hrecord
    exact absurd hrecord List.not_mem_nil
  · rw [(after_one gap times period).2] at hrecord
    exact absurd hrecord List.not_mem_nil
  · rw [(after_wash gap times period k (by omega)).2.2] at hrecord
    have hzero : record.2 = 0 := by
      rcases List.mem_cons.mp hrecord with rfl | hrecord
      · rfl
      · rw [List.mem_singleton.mp hrecord]
    rw [hzero]
    decide

/-- No call before the eleventh goes back to measuring. -/
theorem endsComplete_after {n : ℕ} (hn : n < 10) : (after gap times period n).EndsComplete := by
  intro hmode hback
  rcases n with _ | _ | k
  · rw [(after_zero gap times period).1] at hmode
    contradiction
  · rw [(after_one gap times period).1] at hmode
    contradiction
  · rw [← after_succ, (after_wash gap times period (k + 1) (by omega)).1] at hback
    contradiction

/-- A run of `n` calls records within the arrays and completes its cycles exactly if it does not
get to the end of one. -/
theorem recordsCompletely_iff (n : ℕ) :
    ((∀ k ≤ n, (after gap times period k).InBounds) ∧
        ∀ k < n, (after gap times period k).EndsComplete) ↔ n < 11 := by
  constructor
  · rintro ⟨hbounds, -⟩
    by_contra hlong
    have hrecord := hbounds (8 + 2 + 1) (Nat.not_lt.mp hlong) _ (after_eleven gap times period)
    revert hrecord
    decide
  · intro hn
    exact ⟨fun k hk ↦ inBounds_after gap times period (by omega),
      fun k hk ↦ endsComplete_after gap times period (by omega)⟩

end Run

/-- Eleven calls: the last one records the index 9, behind the arrays, and the slots 1 to 8 were
never recorded. -/
theorem recordsCompletely_fails_at_last_call :
    ¬ (after 0 0 0 11).InBounds ∧ ¬ (after 0 0 0 10).EndsComplete ∧
      (after 0 0 0 11).cycle = [(.getSglRhsAdc, 9), (.getSglRtdAdc, 9), (.getSglRhsAdc, 0),
        (.getSglRtdAdc, 0)] := by
  refine ⟨fun hbounds ↦ ?_, fun hcomplete ↦ ?_, by decide +kernel⟩
  · have hrecord := hbounds (.getSglRtdAdc, 9) (by decide +kernel)
    revert hrecord
    decide
  · have hslot := (hcomplete (by decide +kernel) (by decide +kernel) 1 (by decide)).1
    revert hslot
    decide +kernel

end Calibrating

end ProjectSensor.App
