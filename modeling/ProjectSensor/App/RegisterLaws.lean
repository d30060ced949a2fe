import ProjectSensor.App.RejectedWrite
import ProjectSensor.App.RequestEffect
import ProjectSensor.App.WriteMultiple
import ProjectSensor.Library.Transition

/-!
# The laws of the registers

Hold registers behave as cells: an accepted value is read back, every other register and the
checksum stay as they are, and a refused value leaves no trace.  The byte registers therefore never
leave their ranges.  Input registers show the low byte of a halfword field only.
-/

open ProjectSensor.Library.ByteMemory ProjectSensor.Library.Transition

namespace ProjectSensor.App

/-! ### Hold registers -/

/-- The checksum lies before all registers. -/
theorem load16_chksum_setCell (para : Mem) (reg : ℕ) (value : BitVec 16) :
    load16 (setCell para reg value) chksumAt = load16 para chksumAt := by
  have hbefore : ∀ k < ucLinkAddrAt, setCell para reg value k = para k := by
    intro k hk
    simp only [ucLinkAddrAt] at hk
    unfold setCell
    by_cases h1 : reg < splitHoldRIndex1
    · rw [if_pos h1]
      apply store_of_ne
      simp only [ucLinkAddrAt]
      omega
    · by_cases h3 : reg < splitHoldRIndex3
      · have hfar := (halfAddr_lt (not_lt.mp h1) h3).1
        simp only [usWashPowerSetAt] at hfar
        rw [if_neg h1, if_pos h3, store16_apply, if_neg (by omega), if_neg (by omega)]
      · rw [if_neg h1, if_neg h3]
  exact load16_congr (hbefore _ (by decide)) (hbefore _ (by decide))

/-- What `modbus_reg_set` of a hold register promises. -/
structure SetLaws (datum : ModelDatum) (reg : ℕ) (value : BitVec 16) (rt : Option ℤ)
    (after : ModelDatum) : Prop where
  same : reg < splitHoldRIndex3 → rt = some 0 → after.modbusRegGet .hold reg = value.setWidth 32
  other : rt = some 0 → ∀ reg' < splitHoldRIndex3, reg' ≠ reg →
    after.modbusRegGet .hold reg' = datum.modbusRegGet .hold reg'
  chksum : rt = some 0 → load16 after.para chksumAt = load16 datum.para chksumAt
  refused : rt ≠ some 0 → after = datum
  outside : splitHoldRIndex3 ≤ reg → after = datum ∧ datum.modbusRegGet .hold reg = 0

theorem setLaws (datum : ModelDatum) (reg : ℕ) (value : BitVec 16) :
    SetLaws datum reg value (datum.modbusRegSet .hold reg (value.setWidth 32)).1
      (datum.modbusRegSet .hold reg (value.setWidth 32)).2 := by
  have hget : ∀ (d : ModelDatum) r, d.modbusRegGet .hold r = (cell d.para r).setWidth 32 :=
    ModelDatum.holdRegGet_eq
  have houtside : splitHoldRIndex3 ≤ reg →
      setCell datum.para reg value = datum.para ∧ cell datum.para reg = 0 := by
    intro h3
    have h1 : ¬ reg < splitHoldRIndex1 := not_lt.mpr (le_trans (by decide) h3)
    simp only [setCell, cell, h1, not_lt.mpr h3, if_false, and_self]
  rw [ModelDatum.modbusRegSet_hold]
  cases hrefuse : refuses reg value with
  | true =>
      have hne : some (-1 : ℤ) ≠ some 0 := by decide
      constructor
      case outside =>
        intro h3
        constructor
        · rfl
        · rw [hget, (houtside h3).2]
          rfl
      case refused => exact fun _ ↦ rfl
      case same =>
        intro _ hzero
        exact absurd hzero hne
      case other =>
        intro hzero
        exact absurd hzero hne
      case chksum =>
        intro hzero
        exact absurd hzero hne
  | false =>
      constructor
      case same =>
        intro h3 _
        simp only [Bool.false_eq_true, if_false, hget, cell_setCell_same datum.para h3 hrefuse]
      case other =>
        intro _ reg' _ hne
        simp only [Bool.false_eq_true, if_false, hget, cell_setCell_of_ne datum.para value hne]
      case chksum => exact fun _ ↦ load16_chksum_setCell datum.para reg value
      case refused => exact fun hne ↦ absurd rfl hne
      case outside =>
        intro h3
        simp only [Bool.false_eq_true, if_false, hget, (houtside h3).1, (houtside h3).2]
        exact ⟨trivial, rfl⟩

/-- One write of a series. -/
def writeReg (datum : ModelDatum) (write : ℕ × BitVec 16) : ModelDatum :=
  (datum.modbusRegSet .hold write.1 (write.2.setWidth 32)).2

/-- The byte registers lie in their ranges. -/
def InRange (para : Mem) : Prop :=
  ∀ reg range, tHoldReg0To6[reg]? = some range →
    range.min ≤ para (ucLinkAddrAt + reg) ∧ para (ucLinkAddrAt + reg) ≤ range.max

theorem inRange_default (datum : ModelDatum) : InRange datum.modbusHoldRegDefInit.para := by
  have hbytes : ∀ reg < 7, ∀ range ∈ tHoldReg0To6[reg]?,
      range.min ≤ defaultDatum.para (ucLinkAddrAt + reg) ∧
        defaultDatum.para (ucLinkAddrAt + reg) ≤ range.max := by decide
  intro reg range hrange
  exact hbytes reg (List.getElem?_eq_some_iff.mp hrange).1 range hrange

/-- A value that is let in is in the range. -/
theorem inRange_of_not_refuses {reg : ℕ} {range : ParamRange} {value : BitVec 16}
    (hrange : tHoldReg0To6[reg]? = some range) (haccept : refuses reg value = false) :
    range.min.toNat ≤ value.toNat ∧ value.toNat ≤ range.max.toNat := by
  simp only [refuses, hrange, Option.any_some, ParamRange.refuses, Bool.or_eq_false_iff,
    decide_eq_false_iff_not, BitVec.not_lt, BitVec.le_def, BitVec.toNat_setWidth] at haccept
  have hmin := range.min.isLt
  omega

theorem inRange_writeReg {datum : ModelDatum} (h : InRange datum.para) (write : ℕ × BitVec 16) :
    InRange (writeReg datum write).para := by
  unfold writeReg
  rw [ModelDatum.modbusRegSet_hold]
  cases hrefuse : refuses write.1 write.2 with
  | true => exact h
  | false =>
      intro reg range hrange
      have hreg : reg < splitHoldRIndex1 := (List.getElem?_eq_some_iff.mp hrange).1
      by_cases hsame : reg = write.1
      · subst hsame
        have hbounds := inRange_of_not_refuses hrange hrefuse
        have hbyte := para_setCell_same datum.para hreg hrefuse
        rw [BitVec.le_def, BitVec.le_def]
        simp only [Bool.false_eq_true, if_false, hbyte]
        exact hbounds
      · have hbyte := para_eq_of_cell_eq hreg (cell_setCell_of_ne datum.para write.2 hsame)
        simp only [Bool.false_eq_true, if_false, hbyte]
        exact h reg range hrange

/-- Hold registers obey the laws of cells in every state, and after any series of writes the
registers 0 to 2 are in the ranges the defaults start in. -/
theorem holdRegisters_obey_laws :
    (∀ (datum : ModelDatum) (reg : ℕ) (value : BitVec 16),
      SetLaws datum reg value (datum.modbusRegSet .hold reg (value.setWidth 32)).1
        (datum.modbusRegSet .hold reg (value.setWidth 32)).2) ∧
      ∀ (datum : ModelDatum) (writes : List (ℕ × BitVec 16)),
        let para := (run writeReg datum.modbusHoldRegDefInit writes).para
        (1 ≤ para ucLinkAddrAt ∧ para ucLinkAddrAt ≤ 247) ∧ para ucCommBaudAt ≤ 4 ∧
          para (ucLinkAddrAt + 2) ≤ 100 := by
  refine ⟨setLaws, ?_⟩
  intro datum writes para
  have hrange : InRange para := by
    apply run_of_step (fun d : ModelDatum ↦ InRange d.para)
    · intro d write h
      exact inRange_writeReg h write
    · exact inRange_default datum
  exact ⟨hrange 0 _ rfl, (hrange 1 _ rfl).2, (hrange 2 _ rfl).2⟩

/-! ### Input registers -/

/-- What an input register stands for: a halfword field, or one half of the pattern of a float. -/
def inputField (data : Mem) (reg : ℕ) : BitVec 16 :=
  if reg < splitInputRIndex1 then load16 data (usStatusAt + 2 * reg)
  else
    let pattern := load32 data (fADCTempratureAt + 4 * ((reg - splitInputRIndex1) / 2))
    if reg % 2 = 0 then (pattern >>> 16).setWidth 16 else pattern.setWidth 16

theorem modbusRegGet_input_halfword (datum : ModelDatum) {reg : ℕ}
    (hreg : reg < splitInputRIndex1) :
    datum.modbusRegGet .input reg = (datum.data (usStatusAt + 2 * reg)).setWidth 32 := by
  simp [ModelDatum.modbusRegGet, ModelDatum.inputRegGet, inputRegOperate, hreg, regOperate]

/-- The halves of a float are reported as they are. -/
theorem modbusRegGet_input_half (datum : ModelDatum) {reg : ℕ} (hlow : splitInputRIndex1 ≤ reg)
    (hhigh : reg < splitInputRIndex2) :
    datum.modbusRegGet .input reg = (inputField datum.data reg).setWidth 32 := by
  have h1 : ¬ reg < splitInputRIndex1 := not_lt.mpr hlow
  by_cases heven : reg % 2 = 0
  · simp [ModelDatum.modbusRegGet, ModelDatum.inputRegGet, inputRegOperate, h1, hhigh, heven,
      regOperate, inputField, load32_eq_word, word_high]
  · simp [ModelDatum.modbusRegGet, ModelDatum.inputRegGet, inputRegOperate, h1, hhigh, heven,
      regOperate, inputField, load32_eq_word, word_low, word_setWidth]

/-- A halfword that is its low byte has no high byte. -/
theorem setWidth_low_eq_iff (high low : Byte) :
    low.setWidth 32 = (be16 high low).setWidth 32 ↔ high = 0 := by
  have hbyte : low.setWidth 32 = (be16 0 low).setWidth 32 := by
    simp [be16]
  rw [hbyte, setWidth_inj]
  constructor
  · intro heq
    exact (be16_inj heq).1.symm
  · intro hzero
    rw [hzero]

/-- All input registers report their fields if and only if the high byte of every halfword field
is zero. -/
theorem inputRegisters_report_iff (datum : ModelDatum) :
    (∀ reg < splitInputRIndex2,
      datum.modbusRegGet .input reg = (inputField datum.data reg).setWidth 32) ↔
    ∀ reg < splitInputRIndex1, datum.data (usStatusAt + 2 * reg + 1) = 0 := by
  have hhalfword : ∀ reg < splitInputRIndex1,
      (datum.modbusRegGet .input reg = (inputField datum.data reg).setWidth 32 ↔
        datum.data (usStatusAt + 2 * reg + 1) = 0) := by
    intro reg hreg
    rw [modbusRegGet_input_halfword datum hreg, inputField, if_pos hreg, load16]
    exact setWidth_low_eq_iff _ _
  constructor
  · intro hreport reg hreg
    exact (hhalfword reg hreg).mp (hreport reg (hreg.trans (by decide)))
  · intro hzero reg hreg
    by_cases h1 : reg < splitInputRIndex1
    · exact (hhalfword reg h1).mpr (hzero reg h1)
    · exact modbusRegGet_input_half datum (not_lt.mp h1) hreg

/-- `usStatus` 300 is reported as 44. -/
theorem inputRegisters_report_low_byte :
    ¬ ∀ reg < splitInputRIndex2,
      (ModelDatum.mk (fun _ ↦ 0) (store16 (fun _ ↦ 0) usStatusAt 300)).modbusRegGet .input reg =
        (inputField (store16 (fun _ ↦ 0) usStatusAt 300) reg).setWidth 32 := by
  intro hreport
  have hfirst := hreport 0 (by decide)
  revert hfirst
  decide

end ProjectSensor.App
