import ProjectSensor.App.AdFilter
import ProjectSensor.Library.TrimmedMean

/-!
# `CombiFilter` as a trimmed moving mean

In exact arithmetic the filter takes the mean of the last nine values without one largest and one
smallest, plus three sevenths: the rounding term of a division of integers is still there.  The
result stays within the window exactly where the window is wide enough for it.
-/

open ProjectSensor.Library.TrimmedMean

namespace ProjectSensor.App

/-! ### The window -/

/-- The values the filter remembers: the latest, and the eight that the next result is made of, the
oldest first. -/
structure History where
  latest : ℚ
  previous : List ℚ

/-- The nine values of a result: the sample first. -/
structure SampleWindow where
  sample : ℚ
  previous : List ℚ

def SampleWindow.values (window : SampleWindow) : List ℚ := window.sample :: window.previous

/-- A value lies between the smallest and the largest value of the window. -/
def SampleWindow.Encloses (window : SampleWindow) (value : ℚ) : Prop :=
  (∃ low ∈ window.values, low ≤ value) ∧ ∃ high ∈ window.values, value ≤ high

/-- The seven values in the middle fall short of the largest one by three altogether. -/
def SampleWindow.Wide (window : SampleWindow) : Prop :=
  trimmedSum window.sample window.previous + 3 ≤ 7 * largest window.sample window.previous

namespace History

variable (history : History)

/-- A latest value of zero fills the window with the sample. -/
def window (sample : ℚ) : SampleWindow where
  sample := sample
  previous := if isNull history.latest then List.replicate 8 sample else history.previous

def step (sample : ℚ) : History where
  latest := sample
  previous := (history.window sample).previous.tail ++ [sample]

def windows : History → List ℚ → List SampleWindow
  | _, [] => []
  | history, sample :: samples => history.window sample :: windows (history.step sample) samples

end History

/-! ### The filter keeps the window -/

/-- The values in the slots from `n` down to 1. -/
def slots (fAry : ℕ → ℚ) : ℕ → List ℚ
  | 0 => []
  | n + 1 => fAry (n + 1) :: slots fAry n

theorem slots_congr {fAry fAry' : ℕ → ℚ} {n : ℕ} (hsame : ∀ i, 1 ≤ i → i ≤ n → fAry i = fAry' i) :
    slots fAry n = slots fAry' n := by
  induction n with
  | zero => rfl
  | succ n ih =>
      have hfirst := hsame (n + 1) (Nat.le_add_left 1 n) le_rfl
      rw [slots, slots, hfirst, ih fun i hpos hi ↦ hsame i hpos (Nat.le_succ_of_le hi)]

/-- The loop folds the slots and moves each value one slot up. -/
theorem combiLoop_eq (n : ℕ) {high low : ℚ} (sum : ℚ) (fAry : ℕ → ℚ) (hle : low ≤ high) :
    combiLoop n high low sum fAry =
      (largest high (slots fAry n), smallest low (slots fAry n), sum + (slots fAry n).sum,
        fun i ↦ if 1 ≤ i ∧ i ≤ n then fAry (i - 1) else fAry i) := by
  induction n generalizing high low sum fAry with
  | zero =>
      have hnone : (fun i ↦ if 1 ≤ i ∧ i ≤ 0 then fAry (i - 1) else fAry i) = fAry := by
        funext i
        rw [if_neg (by omega)]
      rw [hnone]
      simp [combiLoop, slots, largest, smallest]
  | succ n ih =>
      have hextremes (value : ℚ) : (if high < value then (value, low)
          else if value < low then (high, value) else (high, low)) =
            (max high value, min low value) := by
        grind
      have hslots : slots (Function.update fAry (n + 1) (fAry n)) n = slots fAry n := by
        apply slots_congr
        intro i _ hi
        exact Function.update_of_ne (by omega) _ _
      have harray : (fun i ↦ if 1 ≤ i ∧ i ≤ n then Function.update fAry (n + 1) (fAry n) (i - 1)
          else Function.update fAry (n + 1) (fAry n) i) =
            fun i ↦ if 1 ≤ i ∧ i ≤ n + 1 then fAry (i - 1) else fAry i := by
        funext i
        grind
      have hnext : min low (fAry (n + 1)) ≤ max high (fAry (n + 1)) :=
        (min_le_left _ _).trans (hle.trans (le_max_left _ _))
      calc
        combiLoop (n + 1) high low sum fAry =
            let extremes := if high < fAry (n + 1) then (fAry (n + 1), low)
              else if fAry (n + 1) < low then (high, fAry (n + 1)) else (high, low)
            combiLoop n extremes.1 extremes.2 (sum + fAry (n + 1))
              (Function.update fAry (n + 1) (fAry n)) := rfl
        _ = combiLoop n (max high (fAry (n + 1))) (min low (fAry (n + 1))) (sum + fAry (n + 1))
              (Function.update fAry (n + 1) (fAry n)) := by rw [hextremes]
        _ = _ := by
          rw [ih _ _ hnext, hslots, harray, slots, List.sum_cons, add_assoc]
          rfl

/-- What an array remembers. -/
def historyOf (fAry : ℕ → ℚ) : History where
  latest := fAry 0
  previous := slots fAry (defRecordLen - 1)

/-- The array once it was filled, if it has to be. -/
def filled (fADC : ℚ) (fAry : ℕ → ℚ) : ℕ → ℚ :=
  if isNull (fAry 0) then fun i ↦ if i < defRecordLen then fADC else fAry i else fAry

theorem slots_filled (fADC : ℚ) (fAry : ℕ → ℚ) :
    slots (filled fADC fAry) (defRecordLen - 1) = ((historyOf fAry).window fADC).previous := by
  have hlatest : (historyOf fAry).latest = fAry 0 := rfl
  unfold filled History.window
  rw [hlatest]
  split
  · rfl
  · rfl

/-- The filter makes its result of the window, and its array remembers the next one. -/
theorem combiFilter_spec (fADC : ℚ) (fAry : ℕ → ℚ) :
    (combiFilter fADC fAry).1 =
        (trimmedSum fADC ((historyOf fAry).window fADC).previous + 3) / 7 ∧
      historyOf (combiFilter fADC fAry).2 = (historyOf fAry).step fADC := by
  have hslots : slots (Function.update (filled fADC fAry) 0 fADC) (defRecordLen - 1) =
      ((historyOf fAry).window fADC).previous := by
    rw [← slots_filled]
    apply slots_congr
    intro i hpos _
    exact Function.update_of_ne (by omega) _ _
  have hloop := combiLoop_eq (defRecordLen - 1) fADC
    (Function.update (filled fADC fAry) 0 fADC) (le_refl fADC)
  rw [hslots] at hloop
  have hfilter : combiFilter fADC fAry =
      let loop := combiLoop (defRecordLen - 1) fADC fADC fADC
        (Function.update (filled fADC fAry) 0 fADC)
      ((loop.2.2.1 - loop.1 - loop.2.1 + ((((defRecordLen : ℤ) - 2) / 2 : ℤ) : ℚ)) /
        (((defRecordLen : ℤ) - 2 : ℤ) : ℚ), loop.2.2.2) := rfl
  rw [hfilter, hloop]
  constructor
  · have hround : ((((defRecordLen : ℤ) - 2) / 2 : ℤ) : ℚ) = 3 := by norm_num [defRecordLen]
    have hcount : (((defRecordLen : ℤ) - 2 : ℤ) : ℚ) = 7 := by norm_num [defRecordLen]
    rw [hround, hcount, trimmedSum, List.sum_cons]
  · rw [History.step, ← slots_filled]
    rfl

/-! ### The results stay in the window -/

theorem SampleWindow.encloses_iff (window : SampleWindow) (value : ℚ) :
    window.Encloses value ↔ smallest window.sample window.previous ≤ value ∧
      value ≤ largest window.sample window.previous := by
  constructor
  · rintro ⟨⟨low, hlow, hle⟩, high, hhigh, hge⟩
    exact ⟨(smallest_le hlow).trans hle, hge.trans (le_largest hhigh)⟩
  · rintro ⟨hle, hge⟩
    exact ⟨⟨_, smallest_mem _ _, hle⟩, _, largest_mem _ _, hge⟩

theorem slots_length (fAry : ℕ → ℚ) (n : ℕ) : (slots fAry n).length = n := by
  induction n with
  | zero => rfl
  | succ n ih => rw [slots, List.length_cons, ih]

theorem window_previous_length (fAry : ℕ → ℚ) (fADC : ℚ) :
    ((historyOf fAry).window fADC).previous.length = 8 := by
  rw [← slots_filled, slots_length]
  rfl

/-- The rounding term carries the result above the largest value unless the window is wide. -/
theorem encloses_combiFilter_iff (fADC : ℚ) (fAry : ℕ → ℚ) :
    ((historyOf fAry).window fADC).Encloses (combiFilter fADC fAry).1 ↔
      ((historyOf fAry).window fADC).Wide := by
  rw [(combiFilter_spec fADC fAry).1, SampleWindow.encloses_iff, SampleWindow.Wide]
  have hlength := window_previous_length fAry fADC
  have hsample : ((historyOf fAry).window fADC).sample = fADC := rfl
  generalize (historyOf fAry).window fADC = window at hlength hsample ⊢
  obtain ⟨next, values, hvalues⟩ := List.exists_cons_of_length_eq_add_one hlength
  rw [hsample, hvalues]
  rw [hvalues, List.length_cons] at hlength
  have hseven : values.length = 7 := by omega
  have hlow := le_trimmedSum fADC next values
  rw [hseven, nsmul_eq_mul] at hlow
  constructor
  · rintro ⟨-, hhigh⟩
    linarith [(div_le_iff₀ (by norm_num : (0 : ℚ) < 7)).mp hhigh]
  · intro hwide
    constructor
    · apply (le_div_iff₀ (by norm_num : (0 : ℚ) < 7)).mpr
      push_cast at hlow
      linarith
    · apply (div_le_iff₀ (by norm_num : (0 : ℚ) < 7)).mpr
      linarith

/-- The results for a series of samples that goes through one array. -/
def combiRun : (ℕ → ℚ) → List ℚ → List ℚ
  | _, [] => []
  | fAry, fADC :: samples =>
      let (result, fAry) := combiFilter fADC fAry
      result :: combiRun fAry samples

/-- For any array and any series of samples, all results lie in their windows exactly when all
windows are wide. -/
theorem combiRun_encloses_iff (fAry : ℕ → ℚ) (samples : List ℚ) :
    List.Forall₂ SampleWindow.Encloses ((historyOf fAry).windows samples) (combiRun fAry samples) ↔
      ∀ window ∈ (historyOf fAry).windows samples, window.Wide := by
  induction samples generalizing fAry with
  | nil => simp [History.windows, combiRun]
  | cons fADC samples ih =>
      have hnext := ih (combiFilter fADC fAry).2
      rw [(combiFilter_spec fADC fAry).2] at hnext
      rw [History.windows, combiRun, List.forall₂_cons, List.forall_mem_cons,
        encloses_combiFilter_iff, hnext]

theorem trimmedSum_replicate (value : ℚ) :
    trimmedSum value (List.replicate 8 value) = 7 * value := by
  have hlargest : largest value (List.replicate 8 value) = value := by
    simp [largest, List.replicate]
  have hsmallest : smallest value (List.replicate 8 value) = value := by
    simp [smallest, List.replicate]
  rw [trimmedSum, hlargest, hsmallest, List.sum_cons, List.sum_replicate, nsmul_eq_mul]
  push_cast
  ring

/-- A sample that fills the array comes out three sevenths too large. -/
theorem combiFilter_of_null (fADC : ℚ) {fAry : ℕ → ℚ} (hnull : isNull (fAry 0) = true) :
    (combiFilter fADC fAry).1 = fADC + 3 / 7 := by
  have hwindow : ((historyOf fAry).window fADC).previous = List.replicate 8 fADC := if_pos hnull
  rw [(combiFilter_spec fADC fAry).1, hwindow, trimmedSum_replicate]
  ring

/-- The first sample fills the array of zeros, and the constant signal 1 comes out as ten
sevenths. -/
theorem combiRun_leaves_constant_signal :
    ¬ List.Forall₂ SampleWindow.Encloses ((historyOf fun _ ↦ 0).windows [1])
      (combiRun (fun _ ↦ 0) [1]) := by
  intro hall
  rw [History.windows, combiRun, List.forall₂_cons] at hall
  have hnull : isNull (0 : ℚ) = true := by decide +kernel
  have hwindow : ((historyOf fun _ ↦ 0).window 1).values = 1 :: List.replicate 8 1 :=
    congrArg (1 :: ·) (if_pos hnull)
  have hresult : (combiFilter (1 : ℚ) fun _ ↦ 0).1 = 1 + 3 / 7 := combiFilter_of_null 1 hnull
  obtain ⟨high, hhigh, hle⟩ := hall.1.2
  rw [hresult] at hle
  rw [hwindow, ← List.replicate_succ] at hhigh
  rw [List.eq_of_mem_replicate hhigh] at hle
  norm_num at hle

end ProjectSensor.App
