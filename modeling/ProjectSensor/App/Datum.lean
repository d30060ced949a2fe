import ProjectSensor.Library.ByteMemory

/-!
# The register file

`m_stuSensorPara` and `m_stuSensorData` are blocks of bytes laid out as the target compiler lays
out the two structures.  `hold_reg_operate` maps a register onto a byte, a halfword or one half of
a word of the block; a value outside the range of one of the first seven registers is refused.
Each hold register therefore is a cell of its own, and the laws of reading and writing cells are
stated here once.
-/

open ProjectSensor.Library.ByteMemory

namespace ProjectSensor.App

inductive RegType where
  | input
  | hold
  | magic
  deriving DecidableEq

inductive RegAttr where
  | wronly
  | rdonly
  | rdwr
  deriving DecidableEq

structure ParamRange where
  min : Byte
  max : Byte
  attr : RegAttr

/-- `t_hold_reg_0_6`. -/
def tHoldReg0To6 : List ParamRange :=
  [⟨1, 247, .rdwr⟩, ⟨0, 4, .rdwr⟩, ⟨0, 100, .rdwr⟩, ⟨0, 255, .rdwr⟩, ⟨0, 255, .rdwr⟩,
    ⟨0, 255, .rdwr⟩, ⟨0, 255, .rdwr⟩]

inductive RegOperate where
  | read
  | write
  deriving DecidableEq

inductive RegAccessType where
  | uint8
  | uint16
  | uint32
  | uint32High16
  | uint32Low16
  deriving DecidableEq

/-- Offsets in `SENSOR_PARA` (`sizeof` is 112; the byte at 9 and the two at 58 are padding). -/
def chksumAt : ℕ := 0
def ucLinkAddrAt : ℕ := 2
def ucCommBaudAt : ℕ := 3
def usWashPowerSetAt : ℕ := 10
def usPValueAt : ℕ := 16
def usPADCAt : ℕ := 24
def ulHumiADCAt : ℕ := 60
def sizeofSensorPara : ℕ := 112

/-- Offsets in `SENSOR_DATA`. -/
def usStatusAt : ℕ := 0
def fADCTempratureAt : ℕ := 24

/-- `_def_SPLIT_HOLD_R_INDEX_1` and on. -/
def splitHoldRIndex1 : ℕ := 7
def splitHoldRIndex2 : ℕ := 31
def splitHoldRIndex3 : ℕ := 57
def splitInputRIndex1 : ℕ := 12
def splitInputRIndex2 : ℕ := 18

def holdRegMaxNo : ℕ := splitHoldRIndex3
def inputRegMaxNo : ℕ := splitInputRIndex2

structure ModelDatum where
  para : Mem
  data : Mem

/-- A value the range of a register does not let in. -/
def ParamRange.refuses (range : ParamRange) (value : BitVec 32) : Bool :=
  value < range.min.setWidth 32 || range.max.setWidth 32 < value || range.attr = .rdonly

/-- `reg_operate`: the result, the value read or passed in, and the memory after it. -/
def regOperate (type : RegAccessType) (operate : RegOperate) (mem : Mem) (addr : ℕ)
    (value : BitVec 32) (range : Option ParamRange) : ℤ × BitVec 32 × Mem :=
  match type, operate with
  | .uint8, .read =>
      if range.any (·.attr = .wronly) then (-1, value, mem) else (0, (mem addr).setWidth 32, mem)
  | .uint8, .write =>
      if range.any (·.refuses value) then (-1, value, mem)
      else (0, value, store mem addr (value.setWidth 8))
  | .uint16, .read => (0, (load16 mem addr).setWidth 32, mem)
  | .uint16, .write => (0, value, store16 mem addr (value.setWidth 16))
  | .uint32, .read => (0, load32 mem addr, mem)
  | .uint32, .write => (0, value, store32 mem addr value)
  | .uint32High16, .read => (0, load32 mem addr >>> 16, mem)
  | .uint32High16, .write =>
      (0, value, store32 mem addr
        (load32 mem addr &&& 0xffff#32 ||| (value &&& 0xffff#32) <<< 16))
  | .uint32Low16, .read => (0, load32 mem addr &&& 0xffff#32, mem)
  | .uint32Low16, .write =>
      (0, value, store32 mem addr (load32 mem addr &&& 0xffff0000#32 ||| value &&& 0xffff#32))

def holdRegOperate (para : Mem) (operate : RegOperate) (reg : ℕ) (value : BitVec 32) :
    ℤ × BitVec 32 × Mem :=
  if reg < splitHoldRIndex2 then
    if reg < splitHoldRIndex1 then
      regOperate .uint8 operate para (ucLinkAddrAt + reg) value tHoldReg0To6[reg]?
    else
      regOperate .uint16 operate para (usWashPowerSetAt + 2 * (reg - splitHoldRIndex1)) value none
  else if reg < splitHoldRIndex3 then
    let tmp := (reg - splitHoldRIndex2) / 2
    regOperate (if reg % 2 = 1 then .uint32High16 else .uint32Low16) operate para
      (ulHumiADCAt + 4 * tmp) value none
  else
    match operate with
    | .read => (0, 0, para)
    | .write => (0, value, para)

/-- The halfwords are accessed as bytes here, and the parity of the halves is the other one. -/
def inputRegOperate (data : Mem) (operate : RegOperate) (reg : ℕ) (value : BitVec 32) :
    ℤ × BitVec 32 × Mem :=
  if reg < splitInputRIndex1 then
    regOperate .uint8 operate data (usStatusAt + 2 * reg) value none
  else if reg < splitInputRIndex2 then
    let tmp := (reg - splitInputRIndex1) / 2
    regOperate (if reg % 2 = 0 then .uint32High16 else .uint32Low16) operate data
      (fADCTempratureAt + 4 * tmp) value none
  else
    match operate with
    | .read => (0, 0, data)
    | .write => (0, value, data)

namespace ModelDatum

/-- `hold_reg_get`; the local it passes by reference is overwritten on every path. -/
def holdRegGet (datum : ModelDatum) (reg : ℕ) : BitVec 32 :=
  (holdRegOperate datum.para .read reg 0).2.1

def holdRegSet (datum : ModelDatum) (reg : ℕ) (value : BitVec 32) : ℤ × ModelDatum :=
  let (rt, _, para) := holdRegOperate datum.para .write reg value
  (rt, { datum with para := para })

def inputRegGet (datum : ModelDatum) (reg : ℕ) : BitVec 32 :=
  (inputRegOperate datum.data .read reg 0).2.1

def inputRegSet (datum : ModelDatum) (reg : ℕ) (value : BitVec 32) : ℤ × ModelDatum :=
  let (rt, _, data) := inputRegOperate datum.data .write reg value
  (rt, { datum with data := data })

def modbusRegGet (datum : ModelDatum) (type : RegType) (reg : ℕ) : BitVec 32 :=
  match type with
  | .input => datum.inputRegGet reg
  | .hold => datum.holdRegGet reg
  | .magic => -1

/-- `modbus_reg_set`; for any other type the result is never assigned, and there is none. -/
def modbusRegSet (datum : ModelDatum) (type : RegType) (reg : ℕ) (value : BitVec 32) :
    Option ℤ × ModelDatum :=
  match type with
  | .input => let (rt, datum) := datum.inputRegSet reg value; (some rt, datum)
  | .hold => let (rt, datum) := datum.holdRegSet reg value; (some rt, datum)
  | .magic => (none, datum)

/-- The parameter block `modbus_hold_reg_def_init` leaves. -/
def modbusHoldRegDefInit (datum : ModelDatum) : ModelDatum :=
  let para : Mem := fun _ ↦ 0
  let para := store para ucLinkAddrAt 1
  let para := store para ucCommBaudAt 2
  let para := store16 para usPADCAt 1120
  let para := store16 para usPValueAt 1000
  let para := store16 para (usPADCAt + 2) 14140
  let para := store16 para (usPValueAt + 2) 3500
  let para := store16 para (usPADCAt + 4) 27000
  let para := store16 para (usPValueAt + 4) 6000
  let para := store16 para (usPADCAt + 6) 39770
  let para := store16 para (usPValueAt + 6) 8500
  { datum with para := para }

end ModelDatum

/-! ### Hold registers as cells -/

/-- Where the halfword of a register above the first seven lies. -/
def halfAddr (reg : ℕ) : ℕ :=
  if reg < splitHoldRIndex2 then usWashPowerSetAt + 2 * (reg - splitHoldRIndex1)
  else if reg % 2 = 1 then ulHumiADCAt + 4 * ((reg - splitHoldRIndex2) / 2) + 2
  else ulHumiADCAt + 4 * ((reg - splitHoldRIndex2) / 2)

/-- The content of a hold register. -/
def cell (para : Mem) (reg : ℕ) : BitVec 16 :=
  if reg < splitHoldRIndex1 then (para (ucLinkAddrAt + reg)).setWidth 16
  else if reg < splitHoldRIndex3 then load16 para (halfAddr reg)
  else 0

/-- The block with a new content of a hold register. -/
def setCell (para : Mem) (reg : ℕ) (value : BitVec 16) : Mem :=
  if reg < splitHoldRIndex1 then store para (ucLinkAddrAt + reg) (value.setWidth 8)
  else if reg < splitHoldRIndex3 then store16 para (halfAddr reg) value
  else para

/-- Whether the range of a register keeps a value out. -/
def refuses (reg : ℕ) (value : BitVec 16) : Bool :=
  tHoldReg0To6[reg]?.any (·.refuses (value.setWidth 32))

theorem attr_eq_rdwr : ∀ range ∈ tHoldReg0To6, range.attr = .rdwr := by decide

theorem refuses_of_le {reg : ℕ} (value : BitVec 16) (hreg : splitHoldRIndex1 ≤ reg) :
    refuses reg value = false := by
  have hnone : tHoldReg0To6[reg]? = none := List.getElem?_eq_none hreg
  simp [refuses, hnone]

/-- The ranges of the byte registers let no value past a byte in. -/
theorem lt_of_not_refuses {reg : ℕ} {value : BitVec 16} (hreg : reg < splitHoldRIndex1)
    (haccept : refuses reg value = false) : value.toNat < 256 := by
  obtain ⟨range, hrange⟩ : ∃ range, tHoldReg0To6[reg]? = some range :=
    ⟨_, List.getElem?_eq_getElem hreg⟩
  simp only [refuses, hrange, Option.any_some, ParamRange.refuses, Bool.or_eq_false_iff,
    decide_eq_false_iff_not, BitVec.not_lt, BitVec.le_def, BitVec.toNat_setWidth] at haccept
  have hmax := range.max.isLt
  omega

theorem holdRegOperate_write (para : Mem) (reg : ℕ) (value : BitVec 16) :
    holdRegOperate para .write reg (value.setWidth 32) =
      if refuses reg value then (-1, value.setWidth 32, para)
      else (0, value.setWidth 32, setCell para reg value) := by
  by_cases h1 : reg < splitHoldRIndex1
  · have h2 : reg < splitHoldRIndex2 := Nat.lt_trans h1 (by decide)
    simp only [holdRegOperate, h1, h2, if_true, regOperate, refuses, setCell]
    congr 4
  · have haccept : refuses reg value = false := refuses_of_le value (not_lt.mp h1)
    by_cases h2 : reg < splitHoldRIndex2
    · have h3 : reg < splitHoldRIndex3 := Nat.lt_trans h2 (by decide)
      simp [holdRegOperate, h1, h2, h3, regOperate, haccept, setCell, halfAddr]
    · by_cases h3 : reg < splitHoldRIndex3
      · by_cases hodd : reg % 2 = 1
        · simp only [holdRegOperate, h1, h2, h3, hodd, if_false, if_true, regOperate, haccept,
            setCell, halfAddr, Bool.false_eq_true, load32_eq_word, word_replace_high,
            store32_word_high]
        · simp only [holdRegOperate, h1, h2, h3, hodd, if_false, if_true, regOperate, haccept,
            setCell, halfAddr, Bool.false_eq_true, load32_eq_word, word_replace_low,
            store32_word_low]
      · simp [holdRegOperate, h1, h2, h3, haccept, setCell]

theorem holdRegOperate_read (para : Mem) (reg : ℕ) (value : BitVec 32) :
    holdRegOperate para .read reg value = (0, (cell para reg).setWidth 32, para) := by
  by_cases h1 : reg < splitHoldRIndex1
  · have h2 : reg < splitHoldRIndex2 := Nat.lt_trans h1 (by decide)
    have hattr : tHoldReg0To6[reg]?.any (·.attr = .wronly) = false := by
      cases hrange : tHoldReg0To6[reg]? with
      | none => rfl
      | some range => simp [attr_eq_rdwr range (List.mem_of_getElem? hrange)]
    simp only [holdRegOperate, h1, h2, if_true, regOperate, hattr, cell, Bool.false_eq_true,
      if_false]
    simp
  · by_cases h2 : reg < splitHoldRIndex2
    · have h3 : reg < splitHoldRIndex3 := Nat.lt_trans h2 (by decide)
      simp [holdRegOperate, h1, h2, h3, regOperate, cell, halfAddr]
    · by_cases h3 : reg < splitHoldRIndex3
      · by_cases hodd : reg % 2 = 1
        · simp [holdRegOperate, h1, h2, h3, hodd, regOperate, cell, halfAddr, load32_eq_word,
            word_high]
        · simp [holdRegOperate, h1, h2, h3, hodd, regOperate, cell, halfAddr, load32_eq_word,
            word_low]
      · simp [holdRegOperate, h1, h2, h3, cell]

theorem halfAddr_eq {reg : ℕ} (hlow : splitHoldRIndex1 ≤ reg) :
    halfAddr reg = if reg < 31 ∨ reg % 2 = 0 then 2 * reg - 4 else 2 * reg := by
  simp only [splitHoldRIndex1] at hlow
  by_cases h2 : reg < 31
  · simp only [halfAddr, splitHoldRIndex2, h2, if_true, true_or, usWashPowerSetAt,
      splitHoldRIndex1]
    omega
  · by_cases hodd : reg % 2 = 1
    · have hnot : ¬ reg % 2 = 0 := by omega
      simp only [halfAddr, splitHoldRIndex2, h2, hodd, if_true, if_false, ulHumiADCAt,
        one_ne_zero, or_self]
      omega
    · have heven : reg % 2 = 0 := by omega
      simp only [halfAddr, splitHoldRIndex2, h2, heven, if_true, if_false, ulHumiADCAt,
        zero_ne_one, or_true]
      omega

theorem halfAddr_lt {reg : ℕ} (hlow : splitHoldRIndex1 ≤ reg) (hhigh : reg < splitHoldRIndex3) :
    usWashPowerSetAt ≤ halfAddr reg ∧ halfAddr reg + 1 < sizeofSensorPara := by
  rw [halfAddr_eq hlow]
  simp only [splitHoldRIndex1, splitHoldRIndex3, usWashPowerSetAt, sizeofSensorPara] at *
  split <;> omega

/-- Different registers lie in different halfwords. -/
theorem halfAddr_disjoint {reg reg' : ℕ} (hlow : splitHoldRIndex1 ≤ reg)
    (hlow' : splitHoldRIndex1 ≤ reg') (hne : reg ≠ reg') :
    halfAddr reg' + 1 < halfAddr reg ∨ halfAddr reg + 1 < halfAddr reg' := by
  rw [halfAddr_eq hlow, halfAddr_eq hlow']
  simp only [splitHoldRIndex1] at hlow hlow'
  split <;> split <;> omega

/-- A register reads back what was accepted for it. -/
theorem cell_setCell_same {reg : ℕ} {value : BitVec 16} (para : Mem)
    (hreg : reg < splitHoldRIndex3) (haccept : refuses reg value = false) :
    cell (setCell para reg value) reg = value := by
  by_cases h1 : reg < splitHoldRIndex1
  · have hlt := lt_of_not_refuses h1 haccept
    simp only [cell, setCell, h1, if_true, store_same]
    refine BitVec.eq_of_toNat_eq ?_
    simp only [BitVec.toNat_setWidth]
    omega
  · simp only [cell, setCell, h1, hreg, if_false, if_true, load16_store16_same]

/-- The other registers keep their content. -/
theorem cell_setCell_of_ne {reg reg' : ℕ} (para : Mem) (value : BitVec 16) (hne : reg' ≠ reg) :
    cell (setCell para reg value) reg' = cell para reg' := by
  by_cases h1 : reg < splitHoldRIndex1 <;> by_cases h1' : reg' < splitHoldRIndex1
  · simp [cell, setCell, h1, h1', store_of_ne, hne]
  · by_cases h3' : reg' < splitHoldRIndex3
    · have hfar := halfAddr_lt (not_lt.mp h1') h3'
      simp only [cell, setCell, h1, h1', h3', if_true, if_false]
      have hbyte : ucLinkAddrAt + reg < usWashPowerSetAt := by
        simp only [splitHoldRIndex1] at h1
        simp only [ucLinkAddrAt, usWashPowerSetAt]
        omega
      exact load16_congr (store_of_ne _ _ (by omega)) (store_of_ne _ _ (by omega))
    · simp [cell, h1', h3']
  · by_cases h3 : reg < splitHoldRIndex3
    · have hfar := halfAddr_lt (not_lt.mp h1) h3
      have hbyte : ucLinkAddrAt + reg' < usWashPowerSetAt := by
        simp only [splitHoldRIndex1] at h1'
        simp only [ucLinkAddrAt, usWashPowerSetAt]
        omega
      have hother : store16 para (halfAddr reg) value (ucLinkAddrAt + reg') =
          para (ucLinkAddrAt + reg') := by
        rw [store16_apply, if_neg (by omega), if_neg (by omega)]
      simp only [cell, setCell, h1, h1', h3, if_true, if_false, hother]
    · simp [setCell, h1, h3]
  · by_cases h3 : reg < splitHoldRIndex3 <;> by_cases h3' : reg' < splitHoldRIndex3
    · simp only [cell, setCell, h1, h1', h3, h3', if_true, if_false]
      exact load16_store16_of_disjoint para value
        (halfAddr_disjoint (not_lt.mp h1) (not_lt.mp h1') hne.symm)
    · simp [cell, h1', h3']
    · simp [setCell, h1, h3]
    · simp [setCell, h1, h3]

/-- Storing a register's own content changes nothing. -/
theorem setCell_cell (para : Mem) (reg : ℕ) : setCell para reg (cell para reg) = para := by
  by_cases h1 : reg < splitHoldRIndex1
  · have hbyte : ((para (ucLinkAddrAt + reg)).setWidth 16).setWidth 8 =
        para (ucLinkAddrAt + reg) := by
      refine BitVec.eq_of_toNat_eq ?_
      simp only [BitVec.toNat_setWidth]
      omega
    simp only [cell, setCell, h1, if_true, hbyte, store, Function.update_eq_self]
  · by_cases h3 : reg < splitHoldRIndex3
    · simp only [cell, setCell, h1, h3, if_true, if_false, store16_load16]
    · simp [setCell, h1, h3]

namespace ModelDatum

theorem holdRegGet_eq (datum : ModelDatum) (reg : ℕ) :
    datum.holdRegGet reg = (cell datum.para reg).setWidth 32 := by
  rw [holdRegGet, holdRegOperate_read]

/-- Writing a hold register is refused without a trace, or sets its cell. -/
theorem modbusRegSet_hold (datum : ModelDatum) (reg : ℕ) (value : BitVec 16) :
    datum.modbusRegSet .hold reg (value.setWidth 32) =
      if refuses reg value then (some (-1), datum)
      else (some 0, { datum with para := setCell datum.para reg value }) := by
  rw [modbusRegSet, holdRegSet, holdRegOperate_write]
  cases refuses reg value <;> rfl

end ModelDatum

end ProjectSensor.App
