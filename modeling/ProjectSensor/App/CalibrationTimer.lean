import ProjectSensor.App.CalibrationRecords
import ProjectSensor.Reactor.TimerQueue

/-!
# The event loop with the timer of the calibration

`application::run` registers `self_calib_handle` for a timer that `run_every` starts.  The event
loop then handles the AD channel or calls the callback of a soft timer, one statement after the
other; ticks and DMA interrupts come in between, and so do operations of other code on its timers.
-/

open ProjectSensor.Library ProjectSensor.Library.SlotBitmap ProjectSensor.Library.Transition
open ProjectSensor.Service ProjectSensor.Reactor

namespace ProjectSensor.App

variable {Func Param : Type}

def time1Minute : BitVec 32 := 60 * time1Second

/-- The timers and `soft_timer_handle`, the measuring chain with the handler that runs, and
`m_handle_period`. -/
structure CalibLoop (Func Param : Type) where
  loop : TimerLoop Func Param
  measuring : Measuring
  handlePeriod : ℕ

/-- An operation on a timer by other code, an interrupt, the event loop polling or handling the AD
channel, the next step of `soft_timer_handle`, or the handler that runs going one statement
further. -/
inductive CalibAction (Func Param : Type) where
  | operation (action : TimerAction Func Param)
  | tick
  | dmaComplete
  | poll
  | adEvent
  | handle
  | advance

namespace CalibAction

def isTick : CalibAction Func Param → Bool
  | .tick => true
  | _ => false

end CalibAction

namespace CalibLoop

variable (s : CalibLoop Func Param)

/-- `application::run` up to the start of the event loop; `m_startupcalib` is set.  The timer of
`period_handle` is one of other code. -/
def run (loop : TimerLoop Func Param) (selfCalibHandle : Func) (this : Param) (gap : BitVec 32)
    (times : BitVec 8) : CalibLoop Func Param :=
  let (handle, timers) := runEvery loop.timers time1Minute (some selfCalibHandle) this
  ⟨{ loop with timers := timers }, .construct gap times time1Minute, handle⟩

/-- What a statement does to the timers. -/
def timerEffect : Stmt → TimerLoop Func Param
  | .timerTimeout ms =>
      { s.loop with timers := (timerIoctl s.loop.timers s.handlePeriod (.timeout ms)).2 }
  | _ => s.loop

def advance : CalibLoop Func Param :=
  match s.measuring.pending with
  | [] => s
  | stmt :: _ =>
      if s.measuring.ad.waits stmt then s
      else { s with loop := s.timerEffect stmt, measuring := s.measuring.advance }

/-- The event loop goes on with `soft_timer_handle` when no handler runs; the callback of the timer
`m_handle_period` is `self_calib_handle`. -/
def handle : CalibLoop Func Param :=
  if s.measuring.pending = [] then
    if s.loop.handle.calling.map Fin.val = some s.handlePeriod then
      { s with loop := s.loop.handle, measuring := s.measuring.step .selfCalib }
    else { s with loop := s.loop.handle }
  else s

def step : CalibAction Func Param → CalibLoop Func Param
  | .operation action => { s with loop := s.loop.step (.operation action) }
  | .tick => { s with loop := s.loop.step .tick }
  | .dmaComplete => { s with measuring := s.measuring.step .dmaComplete }
  | .poll => if s.loop.calling = none then { s with measuring := s.measuring.step .poll } else s
  | .adEvent =>
      if s.loop.calling = none then { s with measuring := s.measuring.step .adEvent } else s
  | .handle => s.handle
  | .advance => s.advance

/-- The next statement does not store behind `iADCTemp` or `iADCRHS`. -/
def WithinArrays : Prop := ∀ cmd slot, s.measuring.pending.head? = some (.ioctl cmd (some slot)) →
  slot.toNat < recordLen

/-- Other code leaves the timer `m_handle_period` alone, the loop does not starve the soft timers,
and the run goes no further than to the first store behind an array. -/
def StepAllowed : CalibAction Func Param → Prop
  | .operation action => s.loop.StepAllowed (.operation action) ∧ ∀ i : Fin monitorTimeNr,
      s.handlePeriod = i → HardAction.disturbs i (.operation action) = false
  | .tick => s.loop.StepAllowed .tick
  | .advance => s.WithinArrays
  | _ => True

/-- How often `self_calib_handle`, or an earlier owner of its slot, was called. -/
def selfCalibs : ℕ :=
  s.loop.timers.expiries.countP fun expiry ↦ (expiry.timer : ℕ) = s.handlePeriod

/-- A tick while `self_calib_handle` is due or runs. -/
def LateTick : CalibAction Func Param → Prop
  | .tick => ∃ i : Fin monitorTimeNr, s.handlePeriod = i ∧
      (s.loop.calling = some i ∨ s.loop.timers.remaining i ≤ 0)
  | _ => False

instance instDecidableLateTick (action : CalibAction Func Param) :
    Decidable (s.LateTick action) :=
  match action with
  | .tick => inferInstanceAs (Decidable (∃ i : Fin monitorTimeNr, s.handlePeriod = i ∧
      (s.loop.calling = some i ∨ s.loop.timers.remaining i ≤ 0)))
  | .operation _ => inferInstanceAs (Decidable False)
  | .dmaComplete => inferInstanceAs (Decidable False)
  | .poll => inferInstanceAs (Decidable False)
  | .adEvent => inferInstanceAs (Decidable False)
  | .handle => inferInstanceAs (Decidable False)
  | .advance => inferInstanceAs (Decidable False)

end CalibLoop

namespace Measuring

/-- The state when the handler that runs is through. -/
def final (m : Measuring) : AdState := m.pending.foldl AdState.effect m.ad

end Measuring

/-- Where the calibration stands after `n` calls, the last of which is counted as done.  The
eleventh is not done before it has stored behind the arrays. -/
inductive CalibStage (m : Measuring) : ℕ → Prop where
  | measure (hmode : m.final.info.ucSensorRunMode = .measurePara) : CalibStage m 0
  | wash (hmode : m.final.info.ucSensorRunMode = .sensorWash)
      (hperiod : m.final.period = 10 * time1Second) : CalibStage m 1
  | calib (k : ℕ) (hk : k ≤ 8) (hmode : m.final.info.ucSensorRunMode = .calibHumi)
      (htimes : m.final.info.ucCalibRecordTimes = BitVec.ofNat 8 k)
      (hgap : m.final.info.uiCalibRecTimeGap = BitVec.ofNat 32 (2 ^ k))
      (hperiod : m.final.period = BitVec.ofNat 32 (2 ^ k) * time1Second) : CalibStage m (k + 2)
  | overrun (cmd : AdIoc) (hpending : .ioctl cmd (some 9) ∈ m.pending) : CalibStage m 11

/-- The fields that only `self_calib_handle` writes. -/
structure SameCalib (ad ad' : AdState) : Prop where
  mode : ad'.info.ucSensorRunMode = ad.info.ucSensorRunMode
  gap : ad'.info.uiCalibRecTimeGap = ad.info.uiCalibRecTimeGap
  times : ad'.info.ucCalibRecordTimes = ad.info.ucCalibRecordTimes
  period : ad'.period = ad.period

namespace CalibStage

variable {m m' : Measuring} {n : ℕ}

theorem of_same (h : CalibStage m n) (hsame : SameCalib m.final m'.final)
    (hpending : ∀ cmd, .ioctl cmd (some 9) ∈ m.pending → .ioctl cmd (some 9) ∈ m'.pending) :
    CalibStage m' n := by
  obtain ⟨hmode', hgap', htimes', hperiod'⟩ := hsame
  cases h with
  | measure hmode => exact .measure (hmode'.trans hmode)
  | wash hmode hperiod => exact .wash (hmode'.trans hmode) (hperiod'.trans hperiod)
  | calib k hk hmode htimes hgap hperiod =>
      exact .calib k hk (hmode'.trans hmode) (htimes'.trans htimes) (hgap'.trans hgap)
        (hperiod'.trans hperiod)
  | overrun cmd hin => exact .overrun cmd (hpending cmd hin)

theorem dmaComplete (h : CalibStage m n) : CalibStage (m.step .dmaComplete) n := by
  have hcalib : ∀ ad : AdState, SameCalib ad ad.dmaComplete := by
    intro ad
    unfold AdState.dmaComplete
    split <;> exact ⟨rfl, rfl, rfl, rfl⟩
  refine h.of_same ?_ fun _ hin ↦ hin
  rcases AdState.foldl_dmaComplete m.pending m.ad with hsame | hafter
  · rw [Measuring.final, Measuring.final, Measuring.step, hsame]
    exact ⟨rfl, rfl, rfl, rfl⟩
  · rw [Measuring.final, Measuring.final, Measuring.step, hafter]
    exact hcalib _

theorem poll (h : CalibStage m n) : CalibStage (m.step .poll) n := by
  rw [Measuring.step]
  split
  · next hidle =>
    refine h.of_same ?_ fun _ hin ↦ hin
    simp only [Measuring.final, hidle, List.foldl_nil]
    exact ⟨rfl, rfl, rfl, rfl⟩
  · exact h

/-- `event_handle_ad` does nothing, or makes a step and starts the next conversion. -/
theorem eventHandleAd_cases (info : RunInfo) (readable : ℕ) :
    eventHandleAd info readable = [] ∨
      ∃ stus cmd, eventHandleAd info readable = [.runStus stus, .ioctl cmd .none] := by
  unfold eventHandleAd
  split
  · exact .inl rfl
  · split
    · exact .inr ⟨_, _, rfl⟩
    · split <;> exact .inr ⟨_, _, rfl⟩

theorem adEvent (h : CalibStage m n) : CalibStage (m.step .adEvent) n := by
  rw [Measuring.step]
  split
  · next hready =>
    have hread : SameCalib m.ad m.ad.channelRead.2 := ⟨rfl, rfl, rfl, rfl⟩
    refine h.of_same ?_ fun cmd hin ↦ ?_
    · rw [Measuring.final, hready.1]
      rcases eventHandleAd_cases m.ad.channelRead.2.info m.ad.channelRead.1 with
        heq | ⟨stus, cmd, heq⟩
      · simp only [Measuring.final, Measuring.adEvent, heq]
        exact hread
      · simp only [Measuring.final, Measuring.adEvent, heq]
        exact ⟨rfl, rfl, rfl, rfl⟩
    · rw [hready.1] at hin
      exact absurd hin List.not_mem_nil
  · exact h

/-- A statement that is carried out is one statement less to come. -/
theorem advance (h : CalibStage m n)
    (hwithin : ∀ cmd slot, m.pending.head? = some (.ioctl cmd (some slot)) →
      slot.toNat < recordLen) : CalibStage m.advance n := by
  unfold Measuring.advance
  cases hpending : m.pending with
  | nil => exact h
  | cons stmt rest =>
      simp only
      split
      · exact h
      · refine h.of_same ?_ fun cmd hin ↦ ?_
        · simp only [Measuring.final, hpending, List.foldl_cons]
          exact ⟨rfl, rfl, rfl, rfl⟩
        · rw [hpending] at hin
          rcases List.mem_cons.mp hin with rfl | hin
          · have hslot := hwithin cmd 9 (by rw [hpending]; rfl)
            exact absurd hslot (by decide)
          · exact hin

/-- The times that `self_calib_handle` sets are not zero. -/
def Positive (m : Measuring) : Prop :=
  ∀ ms, .timerTimeout ms ∈ m.pending → 0 < (svTickFromMillisecond ms).toNat

theorem gap_succ : ∀ k ≤ 8, BitVec.ofNat 32 (2 ^ k) <<< 1 = BitVec.ofNat 32 (2 ^ (k + 1)) := by
  decide

theorem ticks_gap : ∀ k ≤ 8,
    (svTickFromMillisecond (BitVec.ofNat 32 (2 ^ k) * time1Second)).toNat = 100 * 2 ^ k := by
  decide

theorem times_le : ∀ k < 8, ¬ 8 < BitVec.ofNat 8 (k + 1) := by
  decide

/-- A handler that sets the time once. -/
theorem positive_of_eq {before after : List Stmt} {ms : BitVec 32}
    (hpending : m.pending = before ++ .timerTimeout ms :: after)
    (hbefore : ∀ ms', .timerTimeout ms' ∉ before) (hafter : ∀ ms', .timerTimeout ms' ∉ after)
    (hpos : 0 < (svTickFromMillisecond ms).toNat) : Positive m := by
  intro ms' hin
  rw [hpending] at hin
  rcases List.mem_append.mp hin with hin | hin
  · exact absurd hin (hbefore ms')
  · rcases List.mem_cons.mp hin with heq | hin
    · rwa [Stmt.timerTimeout.inj heq]
    · exact absurd hin (hafter ms')

/-- The next call of `self_calib_handle`. -/
theorem selfCalib (h : CalibStage m n) (hidle : m.pending = []) :
    CalibStage (m.step .selfCalib) (n + 1) ∧ Positive (m.step .selfCalib) := by
  have hfinal : m.final = m.ad := by rw [Measuring.final, hidle, List.foldl_nil]
  rw [Measuring.step, if_pos hidle]
  cases h with
  | measure hmode =>
      rw [hfinal] at hmode
      have hcalled : selfCalibHandle m.ad.info =
          [] ++ .timerTimeout (10 * time1Second) :: [.runMode .sensorWash] := by
        rw [selfCalibHandle, hmode]
        rfl
      refine ⟨?_, positive_of_eq hcalled (by simp) (by simp) (by decide)⟩
      rw [hcalled]
      exact .wash rfl rfl
  | wash hmode hperiod =>
      rw [hfinal] at hmode
      have hcalled : selfCalibHandle m.ad.info =
          [.recTimeGap 1, .recordTimes 0, .ioctl .getSglRtdAdc (some 0),
            .ioctl .getSglRhsAdc (some 0)] ++ .timerTimeout (1 * time1Second) ::
              [.runMode .calibHumi] := by
        rw [selfCalibHandle, hmode]
        rfl
      refine ⟨?_, positive_of_eq hcalled (by simp) (by simp) (by decide)⟩
      rw [hcalled]
      exact .calib 0 (Nat.zero_le 8) rfl rfl rfl rfl
  | calib k hk hmode htimes hgap hperiod =>
      rw [hfinal] at hmode htimes hgap
      have hnext : m.ad.info.ucCalibRecordTimes + 1 = BitVec.ofNat 8 (k + 1) := by
        rw [htimes]
        exact (BitVec.ofNat_add k 1).symm
      have hdouble : m.ad.info.uiCalibRecTimeGap <<< 1 = BitVec.ofNat 32 (2 ^ (k + 1)) := by
        rw [hgap]
        exact gap_succ k hk
      rcases Nat.lt_or_eq_of_le hk with hk | rfl
      · have hcalled : selfCalibHandle m.ad.info =
            [.recTimeGap (BitVec.ofNat 32 (2 ^ (k + 1))), .recordTimes (BitVec.ofNat 8 (k + 1))] ++
              .timerTimeout (BitVec.ofNat 32 (2 ^ (k + 1)) * time1Second) :: [] := by
          rw [selfCalibHandle, hmode]
          simp only [hnext, hdouble, if_neg (times_le k hk)]
          rfl
        have hpos : 0 < (svTickFromMillisecond
            (BitVec.ofNat 32 (2 ^ (k + 1)) * time1Second)).toNat := by
          rw [ticks_gap (k + 1) hk]
          exact Nat.mul_pos (by decide) (Nat.two_pow_pos _)
        refine ⟨?_, positive_of_eq hcalled (by simp) (by simp) hpos⟩
        rw [hcalled]
        exact .calib (k + 1) hk hmode rfl rfl rfl
      · have hcalled : selfCalibHandle m.ad.info =
            [.recTimeGap (BitVec.ofNat 32 (2 ^ (8 + 1))), .recordTimes 9,
              .ioctl .getSglRtdAdc (some 9), .ioctl .getSglRhsAdc (some 9)] ++
                .timerTimeout selfCalibTime :: [.runMode .measurePara] := by
          rw [selfCalibHandle, hmode]
          simp only [hnext, hdouble]
          rfl
        refine ⟨?_, positive_of_eq hcalled (by simp) (by simp) (by decide)⟩
        rw [hcalled]
        exact .overrun .getSglRtdAdc (by simp)
  | overrun cmd hpending =>
      rw [hidle] at hpending
      exact absurd hpending List.not_mem_nil

end CalibStage

end ProjectSensor.App
