import ProjectSensor.App.Algorithm
import ProjectSensor.App.RegisterLaws

/-!
# The pressure table in the registers

`event_handle_ad` hands `usPADC` and `usPValue` of the parameter block to `CalculatePRSVal`.  Both
are hold registers without a range, written one at a time.  The divisor belongs to the segment that
the sample selects: the inner segment is selected only when its ends differ, the outer ones are
selected whatever their ends.
-/

open ProjectSensor.Library.ByteMemory ProjectSensor.Library.Transition

namespace ProjectSensor.App

def usPADC (para : Mem) (i : ℕ) : BitVec 16 := load16 para (usPADCAt + 2 * i)

/-- The register of `usPADC[0]`. -/
def usPADCReg : ℕ := 14

/-- The divisor of `CalculatePRSVal` as `event_handle_ad` calls it. -/
def prsDivisor (datum : ModelDatum) (fADC : ℚ) : Option ℤ :=
  (prsSegment fADC (usPADC datum.para) 3 1).map (difference (usPADC datum.para))

def NeverDividesByZero (datum : ModelDatum) : Prop :=
  ∀ fADC : ℚ, ∀ divisor ∈ prsDivisor datum fADC, divisor ≠ 0

/-- The other end of the outer segment that `usPADC[i]` belongs to. -/
def otherEnd (i : ℕ) : ℕ := if i % 2 = 0 then i + 1 else i - 1

/-- A write that does not give an end of an outer segment the value of its other end. -/
def KeepsApart (datum : ModelDatum) (write : ℕ × BitVec 16) : Prop :=
  ∀ i < 4, write.1 = usPADCReg + i → write.2 ≠ usPADC datum.para (otherEnd i)

theorem usPADCReg_bounds {i : ℕ} (hi : i < 4) :
    splitHoldRIndex1 ≤ usPADCReg + i ∧ usPADCReg + i < splitHoldRIndex2 := by
  unfold usPADCReg splitHoldRIndex1 splitHoldRIndex2
  omega

theorem usPADC_eq_cell (para : Mem) {i : ℕ} (hi : i < 4) :
    usPADC para i = cell para (usPADCReg + i) := by
  have hbounds := usPADCReg_bounds hi
  have haddr : halfAddr (usPADCReg + i) = usPADCAt + 2 * i := by
    rw [halfAddr, if_pos hbounds.2]
    unfold usPADCReg splitHoldRIndex1 usWashPowerSetAt usPADCAt
    omega
  rw [usPADC, cell, if_neg (not_lt.mpr hbounds.1), if_pos (hbounds.2.trans (by decide)), haddr]

/-- A write reaches the point that has its register and no other. -/
theorem usPADC_writeReg (datum : ModelDatum) (write : ℕ × BitVec 16) {i : ℕ} (hi : i < 4) :
    usPADC (writeReg datum write).para i =
      if write.1 = usPADCReg + i then write.2 else usPADC datum.para i := by
  rw [usPADC_eq_cell _ hi, usPADC_eq_cell _ hi, writeReg, ModelDatum.modbusRegSet_hold]
  have hbounds := usPADCReg_bounds hi
  have haccept : ∀ value, refuses (usPADCReg + i) value = false := by
    intro value
    exact refuses_of_le value hbounds.1
  by_cases hreg : write.1 = usPADCReg + i
  · rw [if_pos hreg, hreg, haccept]
    exact cell_setCell_same datum.para (hbounds.2.trans (by decide)) (haccept write.2)
  · rw [if_neg hreg]
    cases refuses write.1 write.2 with
    | true => rfl
    | false => exact cell_setCell_of_ne datum.para write.2 (Ne.symm hreg)

theorem difference_ne_zero_iff (table : ℕ → BitVec 16) (i : ℕ) :
    difference table i ≠ 0 ↔ table (i - 1) ≠ table i := by
  rw [difference, sub_ne_zero, Ne, Nat.cast_inj, BitVec.toNat_inj]
  exact ne_comm

/-- No sample meets a zero divisor exactly when the ends of both outer segments differ. -/
theorem neverDividesByZero_iff (datum : ModelDatum) :
    NeverDividesByZero datum ↔ usPADC datum.para 0 ≠ usPADC datum.para 1 ∧
      usPADC datum.para 2 ≠ usPADC datum.para 3 := by
  unfold NeverDividesByZero prsDivisor
  simp only [prsSegment_eq, Option.map_some, Option.mem_some_iff, forall_eq',
    difference_ne_zero_iff]
  generalize usPADC datum.para = table
  constructor
  · intro hall
    have hbelow := hall (-1)
    have habove := hall (2 ^ 16)
    have hneg : ((-1 : ℚ) < (table 1).toNat) :=
      (by norm_num : (-1 : ℚ) < 0).trans_le (Nat.cast_nonneg _)
    have hmax (i : ℕ) : ¬ (2 ^ 16 : ℚ) < (table i).toNat := by
      have hle : ((table i).toNat : ℚ) ≤ 2 ^ 16 := by exact_mod_cast (table i).isLt.le
      exact not_lt.mpr hle
    rw [if_pos hneg] at hbelow
    rw [if_neg (hmax 1), if_neg (hmax 2)] at habove
    exact ⟨hbelow, habove⟩
  · rintro ⟨hfirst, hlast⟩ fADC
    by_cases h1 : fADC < (table 1).toNat
    · rw [if_pos h1]
      exact hfirst
    by_cases h2 : fADC < (table 2).toNat
    · rw [if_neg h1, if_pos h2]
      -- a sample between two equal points would be below and not below the same number
      intro heq
      exact h1 (heq ▸ h2)
    · rw [if_neg h1, if_neg h2]
      exact hlast

/-- With both outer segments apart, a write keeps them so exactly when it does not close one. -/
theorem neverDividesByZero_writeReg_iff {datum : ModelDatum} (h : NeverDividesByZero datum)
    (write : ℕ × BitVec 16) :
    NeverDividesByZero (writeReg datum write) ↔ KeepsApart datum write := by
  rw [neverDividesByZero_iff] at h ⊢
  simp only [usPADC_writeReg _ _ (by decide : 0 < 4), usPADC_writeReg _ _ (by decide : 1 < 4),
    usPADC_writeReg _ _ (by decide : 2 < 4), usPADC_writeReg _ _ (by decide : 3 < 4)]
  have hpoints : KeepsApart datum write ↔
      (write.1 = usPADCReg + 0 → write.2 ≠ usPADC datum.para 1) ∧
      (write.1 = usPADCReg + 1 → write.2 ≠ usPADC datum.para 0) ∧
      (write.1 = usPADCReg + 2 → write.2 ≠ usPADC datum.para 3) ∧
      (write.1 = usPADCReg + 3 → write.2 ≠ usPADC datum.para 2) := by
    constructor
    · intro hkeep
      exact ⟨hkeep 0 (by decide), hkeep 1 (by decide), hkeep 2 (by decide), hkeep 3 (by decide)⟩
    · rintro ⟨h0, h1, h2, h3⟩ i hi
      rcases (by omega : i = 0 ∨ i = 1 ∨ i = 2 ∨ i = 3) with rfl | rfl | rfl | rfl
      · exact h0
      · exact h1
      · exact h2
      · exact h3
  rw [hpoints]
  unfold usPADCReg
  grind

theorem neverDividesByZero_default (datum : ModelDatum) :
    NeverDividesByZero datum.modbusHoldRegDefInit := by
  rw [neverDividesByZero_iff]
  have hdefault : usPADC defaultDatum.para 0 ≠ usPADC defaultDatum.para 1 ∧
      usPADC defaultDatum.para 2 ≠ usPADC defaultDatum.para 3 := by decide
  exact hdefault

/-- In every run of register writes from the defaults, no sample meets a zero divisor in any state
exactly when no write gives an end of an outer segment the value of its other end. -/
theorem neverDividesByZero_run_iff (datum : ModelDatum) (writes : List (ℕ × BitVec 16)) :
    AllStates writeReg NeverDividesByZero datum.modbusHoldRegDefInit writes ↔
      AllSteps writeReg KeepsApart datum.modbusHoldRegDefInit writes := by
  apply allStates_iff_allSteps fun _ ↦ True
  · intro _ _ _ _ _
    trivial
  · intro d write _ h
    exact neverDividesByZero_writeReg_iff h write
  · trivial
  · exact neverDividesByZero_default datum

/-- Register 14 set to 14140, the default of register 15: every sample below 14140 is divided by
zero. -/
theorem neverDividesByZero_fails_after_equal_points :
    ¬ AllStates writeReg NeverDividesByZero defaultDatum.modbusHoldRegDefInit [(14, 14140)] := by
  intro hstates
  have hlast := (neverDividesByZero_iff _).mp hstates.last
  revert hlast
  decide

end ProjectSensor.App
