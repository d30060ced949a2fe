import ProjectSensor.App.MovingMean
import ProjectSensor.App.SampleSource

/-!
# What the measured values depend on

A conversion is the command that started it and the samples that DMA has stored for it.  The value
that `device_ad` delivers also depends on two local variables that nothing assigns: the sum of
`GetAvarageValue` starts from what its stack slot held, and so does the low-pass filter of the
humidity.
-/

namespace ProjectSensor.App

/-- A conversion that one of the three commands started. -/
structure AdConversion where
  cmd : AdIoc
  starts : cmd.starts = true
  uxADC1Data : ℕ → BitVec 32

/-- The values delivered for a series of conversions; `locals k` is what the stack held for the
`k`-th one. -/
def delivered {F : Type} [FloatArith F] :
    AdGlobals F → (ℕ → AdLocals F) → List AdConversion → List F
  | _, _, [] => []
  | g, locals, conversion :: conversions =>
      let (value, g) := g.readConversion (locals 0) conversion.cmd conversion.uxADC1Data
      value :: delivered g (fun k ↦ locals (k + 1)) conversions

theorem delivered_cons {F : Type} [FloatArith F] (g : AdGlobals F) (locals : ℕ → AdLocals F)
    (conversion : AdConversion) (conversions : List AdConversion) :
    delivered g locals (conversion :: conversions) =
      (g.readConversion (locals 0) conversion.cmd conversion.uxADC1Data).1 ::
        delivered (g.readConversion (locals 0) conversion.cmd conversion.uxADC1Data).2
          (fun k ↦ locals (k + 1)) conversions := rfl

/-- Whatever the stack held, the same conversions deliver the same values. -/
def DependsOnSamplesOnly (conversions : List AdConversion) : Prop :=
  ∀ (F : Type) [FloatArith F] (g : AdGlobals F) (locals locals' : ℕ → AdLocals F),
    delivered g locals conversions = delivered g locals' conversions

/-- The globals when the program starts. -/
def AdGlobals.construct : AdGlobals ℚ := ⟨fun _ ↦ 0, fun _ ↦ 0, fun _ ↦ 0, 0⟩

/-- What the stack holds when the filters get `value`: the sum less the samples. -/
def localsFor (uxADC1Data : ℕ → BitVec 32) (value : ℚ) : AdLocals ℚ where
  fVal := 16 * value - ((List.range defAdSampleLen).map fun i ↦ ((uxADC1Data i).toInt : ℚ)).sum
  fPreRHSADCVal := value + 3 / 7
  fValue := 0

/-- The factor of a channel. -/
def AdIoc.scale : AdIoc → ℚ
  | .startRtdAdc => 37400 / 268435456
  | .startRhsAdc => 1200 / 268435456
  | _ => 1 / 256

theorem AdIoc.scale_pos (cmd : AdIoc) : 0 < cmd.scale := by
  cases cmd <;> norm_num [AdIoc.scale]

/-- Any average comes out, for a suitable start of the sum. -/
theorem getAvarageValue_localsFor (uxADC1Data : ℕ → BitVec 32) (value : ℚ) :
    getAvarageValue (localsFor uxADC1Data value).fVal uxADC1Data defAdSampleLen = value := by
  have hfold (numbers : List ℕ) (start : ℚ) :
      numbers.foldl (fun fVal i ↦ fVal + ((uxADC1Data i).toInt : ℚ)) start =
        start + (numbers.map fun i ↦ ((uxADC1Data i).toInt : ℚ)).sum := by
    induction numbers generalizing start with
    | nil => simp
    | cons i numbers ih => rw [List.foldl_cons, ih, List.map_cons, List.sum_cons, add_assoc]
  have hcount : (((defAdSampleLen : ℕ) : ℤ) : ℚ) = 16 := by norm_num [defAdSampleLen]
  change (List.range defAdSampleLen).foldl (fun fVal i ↦ fVal + ((uxADC1Data i).toInt : ℚ)) _ /
    (((defAdSampleLen : ℕ) : ℤ) : ℚ) = value
  rw [hfold, hcount, localsFor]
  ring

/-- A value that does not change passes the low-pass filter. -/
theorem rapidLPFilter_self (value : ℚ) (cChgNum : ℤ) :
    rapidLPFilter value value cChgNum = (value, cChgNum) := by
  unfold rapidLPFilter
  split
  · rfl
  · simp

/-- From the start of the program on, the stack decides about the first value. -/
theorem readConversion_localsFor (conversion : AdConversion) (value : ℚ) :
    (AdGlobals.construct.readConversion (localsFor conversion.uxADC1Data value) conversion.cmd
      conversion.uxADC1Data).1 = (value + 3 / 7) * conversion.cmd.scale := by
  obtain ⟨cmd, starts, uxADC1Data⟩ := conversion
  have hfilter : (combiFilter value fun _ ↦ (0 : ℚ)).1 = value + 3 / 7 :=
    combiFilter_of_null value (by decide +kernel)
  have hrapid := rapidLPFilter_self (value + 3 / 7) 0
  rw [AdGlobals.readConversion, getAvarageValue_localsFor]
  cases cmd with
  | startRtdAdc =>
      change (combiFilter value fun _ ↦ (0 : ℚ)).1 * ((37400 : ℤ) : ℚ) / ((268435456 : ℤ) : ℚ) = _
      rw [hfilter, AdIoc.scale]
      push_cast
      ring
  | startRhsAdc =>
      change (rapidLPFilter (combiFilter value fun _ ↦ (0 : ℚ)).1 (value + 3 / 7) 0).1 *
        ((1200 : ℤ) : ℚ) / ((268435456 : ℤ) : ℚ) = _
      rw [hfilter, hrapid, AdIoc.scale]
      push_cast
      ring
  | startPrsAdc =>
      change (combiFilter value fun _ ↦ (0 : ℚ)).1 / ((256 : ℤ) : ℚ) = (value + 3 / 7) * (1 / 256)
      rw [hfilter]
      push_cast
      ring
  | getSglRtdAdc => exact absurd starts Bool.false_ne_true
  | getSglRhsAdc => exact absurd starts Bool.false_ne_true
  | fakeReadable => exact absurd starts Bool.false_ne_true

/-- A conversion that is read delivers what the stack makes of it. -/
theorem not_dependsOnSamplesOnly_cons (conversion : AdConversion)
    (conversions : List AdConversion) : ¬ DependsOnSamplesOnly (conversion :: conversions) := by
  intro hsame
  have hlists := hsame ℚ .construct (fun _ ↦ localsFor conversion.uxADC1Data 0)
    fun _ ↦ localsFor conversion.uxADC1Data 1
  rw [delivered_cons, delivered_cons] at hlists
  have hfirst := (List.cons_eq_cons.mp hlists).1
  rw [readConversion_localsFor, readConversion_localsFor] at hfirst
  have hscale := mul_right_cancel₀ conversion.cmd.scale_pos.ne' hfirst
  norm_num at hscale

/-- The values of a series of conversions depend on the samples only exactly when no conversion is
read. -/
theorem dependsOnSamplesOnly_iff (conversions : List AdConversion) :
    DependsOnSamplesOnly conversions ↔ conversions = [] := by
  constructor
  · intro hsame
    cases conversions with
    | nil => rfl
    | cons conversion conversions =>
        exact absurd hsame (not_dependsOnSamplesOnly_cons conversion conversions)
  · rintro rfl F _ g locals locals'
    rfl

/-- One conversion of the temperature whose samples are all zero. -/
theorem dependsOnSamplesOnly_fails_for_zeros :
    ¬ DependsOnSamplesOnly [⟨.startRtdAdc, rfl, fun _ ↦ 0⟩] :=
  not_dependsOnSamplesOnly_cons _ []

end ProjectSensor.App
