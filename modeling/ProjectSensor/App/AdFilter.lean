import Mathlib.Algebra.Order.Ring.Rat
import Mathlib.Data.Rat.Floor
import ProjectSensor.App.Measure

/-!
# The filters of `device_ad`

`GetAvarageValue` averages the samples that DMA has stored; `CombiFilter` and, for the humidity,
`RapidLPFilter` smooth the averages, and `process_command` scales the result.  The functions are
given over any total arithmetic for `float`.  A local variable that the source reads before it
assigns it is an argument: what the stack held.
-/

namespace ProjectSensor.App

/-- Any total arithmetic for `float`. -/
class FloatArith (F : Type) extends Add F, Sub F, Mul F, Div F, Neg F, IntCast F, LT F where
  decidableLT : DecidableLT F
  /-- The conversion to `signed char`. -/
  toChar : F → ℤ

instance FloatArith.instDecidableLT {F : Type} [FloatArith F] : DecidableLT F :=
  FloatArith.decidableLT

/-- Exact arithmetic. -/
instance : FloatArith ℚ where
  decidableLT := inferInstance
  toChar value := (if value < 0 then ⌈value⌉ else ⌊value⌋).bmod 256

def defRecordLen : ℕ := 9

def defAdSampleLen : ℕ := 16

/-- `CHANG_LIMIT`. -/
def changLimit : ℤ := 0x0A

/-- The global variables of the filters. -/
structure AdGlobals (F : Type) where
  fADCTemp : ℕ → F
  fADCPres : ℕ → F
  fADCRHS : ℕ → F
  cRLPFRatioChangeNum : ℤ

/-- What the stack held: `fVal` of `GetAvarageValue`, `fPreRHSADCVal` of `ADC1_GetADC_RHS` and
`fValue` of `process_command`. -/
structure AdLocals (F : Type) where
  fVal : F
  fPreRHSADCVal : F
  fValue : F

section Filters

variable {F : Type} [FloatArith F]

/-- `0.000001`. -/
def micro : F := ((1 : ℤ) : F) / ((1000000 : ℤ) : F)

/-- Whether a value is taken for zero. -/
def isNull (value : F) : Bool := value < micro && -micro < value

/-- `GetAvarageValue`. -/
def getAvarageValue (fVal : F) (iAry : ℕ → BitVec 32) (cnt : ℕ) : F :=
  (List.range cnt).foldl (fun fVal i ↦ fVal + ((iAry i).toInt : F)) fVal / ((cnt : ℤ) : F)

/-- The loop of `CombiFilter` from `i` down: the extremes, the sum and the shifted array. -/
def combiLoop : ℕ → F → F → F → (ℕ → F) → F × F × F × (ℕ → F)
  | 0, max, min, sum, fAry => (max, min, sum, fAry)
  | i + 1, max, min, sum, fAry =>
      let value := fAry (i + 1)
      let (max, min) :=
        if max < value then (value, min) else if value < min then (max, value) else (max, min)
      combiLoop i max min (sum + value) (Function.update fAry (i + 1) (fAry i))

/-- `CombiFilter`: the result and the array after it. -/
def combiFilter (fADC : F) (fAry : ℕ → F) : F × (ℕ → F) :=
  let fAry := if isNull (fAry 0) then fun i ↦ if i < defRecordLen then fADC else fAry i else fAry
  let (max, min, sum, fAry) :=
    combiLoop (defRecordLen - 1) fADC fADC fADC (Function.update fAry 0 fADC)
  let i : ℤ := defRecordLen - 2
  let sum := sum - max - min + ((i / 2 : ℤ) : F)
  (sum / (i : F), fAry)

/-- The ratio of `RapidLPFilter` once the changes have gone one way for long enough. -/
def rapidRatio (fDelta : F) : ℤ :=
  let cRatio := FloatArith.toChar (fDelta / ((50000 : ℤ) : F) + ((1 : ℤ) : F))
  if 16 < cRatio then 16 else cRatio

/-- `RapidLPFilter`: the result and the counter after it. -/
def rapidLPFilter (fNewVal fPreVal : F) (cChgNum : ℤ) : F × ℤ :=
  let filtered (cRatio : ℤ) : F :=
    fPreVal + (cRatio : F) * (fNewVal - fPreVal) / ((16 : ℤ) : F)
  if isNull fNewVal then (fNewVal, cChgNum)
  else if fPreVal < fNewVal then
    let fDelta := fNewVal - fPreVal
    if ((800000 : ℤ) : F) < fDelta then (fNewVal, cChgNum)
    else if cChgNum < 0 then (filtered 1, 0)
    else if changLimit ≤ cChgNum then (filtered (rapidRatio fDelta), cChgNum)
    else (filtered 1, cChgNum + 1)
  else if fNewVal < fPreVal then
    let fDelta := fPreVal - fNewVal
    if ((800000 : ℤ) : F) < fDelta then (fNewVal, cChgNum)
    else if 0 < cChgNum then (filtered 1, 0)
    else if cChgNum ≤ 0 - changLimit then (filtered (rapidRatio fDelta), cChgNum)
    else (filtered 1, cChgNum - 1)
  else (fNewVal, cChgNum)

namespace AdGlobals

variable (g : AdGlobals F)

/-- `ADC1_GetADC_Temp`. -/
def getAdcTemp (value : F) : F × AdGlobals F :=
  let (result, fADCTemp) := combiFilter value g.fADCTemp
  (result, { g with fADCTemp := fADCTemp })

/-- `ADC1_GetADC_Pres`. -/
def getAdcPres (value : F) : F × AdGlobals F :=
  let (result, fADCPres) := combiFilter value g.fADCPres
  (result, { g with fADCPres := fADCPres })

/-- `ADC1_GetADC_RHS`. -/
def getAdcRhs (fPreRHSADCVal value : F) : F × AdGlobals F :=
  let (fNewRHS, fADCRHS) := combiFilter value g.fADCRHS
  let (result, cChgNum) := rapidLPFilter fNewRHS fPreRHSADCVal g.cRLPFRatioChangeNum
  (result, { g with fADCRHS := fADCRHS, cRLPFRatioChangeNum := cChgNum })

/-- `process_command` when a read is done: the value in the buffer and the globals after it. -/
def processCommandDone (locals : AdLocals F) (mIoc : AdIoc) (fAdc : F) : F × AdGlobals F :=
  match mIoc with
  | .fakeReadable => (fAdc, g)
  | .startRtdAdc =>
      let (value, g) := g.getAdcTemp fAdc
      (value * ((37400 : ℤ) : F) / ((268435456 : ℤ) : F), g)
  | .startRhsAdc =>
      let (value, g) := g.getAdcRhs locals.fPreRHSADCVal fAdc
      (value * ((1200 : ℤ) : F) / ((268435456 : ℤ) : F), g)
  | .startPrsAdc =>
      let (value, g) := g.getAdcPres fAdc
      (value / ((256 : ℤ) : F), g)
  | _ => (locals.fValue, g)

/-- A conversion is read: `_drv_devread` averages the samples, `process_command` does the rest. -/
def readConversion (locals : AdLocals F) (mIoc : AdIoc) (uxADC1Data : ℕ → BitVec 32) :
    F × AdGlobals F :=
  g.processCommandDone locals mIoc (getAvarageValue locals.fVal uxADC1Data defAdSampleLen)

end AdGlobals

end Filters

end ProjectSensor.App
