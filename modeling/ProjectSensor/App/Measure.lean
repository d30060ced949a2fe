import Mathlib.Data.BitVec
import Mathlib.Data.List.Basic
import ProjectSensor.Library.Transition

/-!
# Measuring and self-calibration

Two handlers run in the event loop one at a time: `event_handle_ad` when the AD device is readable,
`self_calib_handle` on its timer.  Each is the list of the assignments and device calls it makes;
between two of them the DMA interrupt may complete the conversion in progress.  Measured values are
left out, the control flow does not depend on them.
-/

open ProjectSensor.Library.Transition

namespace ProjectSensor.App

/-- `enum adc_status`. -/
inductive AdcStat where
  | none
  | readable
  | readableFake
  | inProcessing
  deriving DecidableEq

/-- The commands of the AD device. -/
inductive AdIoc where
  | startRtdAdc
  | startRhsAdc
  | startPrsAdc
  | getSglRtdAdc
  | getSglRhsAdc
  | fakeReadable
  deriving DecidableEq

/-- `enum RUNMODE`; `other` is any value outside it. -/
inductive RunMode where
  | measurePara
  | sensorWash
  | calibHumi
  | other
  deriving DecidableEq

/-- The states of `ucADC1RunStus`. -/
inductive RunStus where
  | adcT
  | calcT
  | adcRhs
  | calcRh
  | adcPrs
  | calcP
  | calcD
  | calcPpm
  | calcDew
  deriving DecidableEq

/-- The part of `_app_runinfo_` that the handlers read. -/
structure RunInfo where
  ucSensorRunMode : RunMode
  ucAdc1RunStus : RunStus
  uiCalibRecTimeGap : BitVec 32
  ucCalibRecordTimes : BitVec 8

/-- A statement of a handler.  A single conversion gets the slot of `iADCTemp` or `iADCRHS` its
result goes to; `timerTimeout` is `timer_ioctl` with `enum_TIMER_IOC_TIMEOUT`. -/
inductive Stmt where
  | runMode (mode : RunMode)
  | runStus (stus : RunStus)
  | recTimeGap (gap : BitVec 32)
  | recordTimes (times : BitVec 8)
  | ioctl (cmd : AdIoc) (slot : Option (BitVec 8))
  | timerTimeout (ms : BitVec 32)
  deriving DecidableEq

def time1Second : BitVec 32 := 1000

def selfCalibTime : BitVec 32 := 8 * (60 * (60 * time1Second))

/-- `_drv_devread`: the number of bytes, and the status after it. -/
def drvDevread : AdcStat → ℕ × AdcStat
  | .none => (0, .none)
  | .readableFake => (0, .none)
  | .readable => (4, .none)
  | .inProcessing => (4, .none)

/-- `_drv_poll`. -/
def drvPoll (stat : AdcStat) : Bool := stat = .readableFake || stat = .readable

/-- The status after `_drv_ioctl`. -/
def drvIoctl (stat : AdcStat) : AdIoc → AdcStat
  | .startRtdAdc => .inProcessing
  | .startRhsAdc => .inProcessing
  | .startPrsAdc => .inProcessing
  | .fakeReadable => if stat = .none then .readableFake else stat
  | .getSglRtdAdc => .none
  | .getSglRhsAdc => .none

/-- `_drv_ioctl` waits for the conversion in progress before a single one. -/
def drvIoctlWaits (stat : AdcStat) (cmd : AdIoc) : Bool :=
  (cmd = .getSglRtdAdc || cmd = .getSglRhsAdc) && stat = .inProcessing

/-- `event_handle_ad` with a buffer of `readable` bytes. -/
def eventHandleAd (info : RunInfo) (readable : ℕ) : List Stmt :=
  if info.ucSensorRunMode ≠ .measurePara then []
  else if readable = 0 ∧ info.ucAdc1RunStus = .adcT then
    [.runStus .calcT, .ioctl .startRtdAdc .none]
  else
    match info.ucAdc1RunStus with
    | .calcT => [.runStus .calcRh, .ioctl .startRhsAdc .none]
    | .calcRh => [.runStus .calcP, .ioctl .startPrsAdc .none]
    | .calcP => [.runStus .calcD, .ioctl .fakeReadable .none]
    | .calcD => [.runStus .calcPpm, .ioctl .fakeReadable .none]
    | .calcPpm => [.runStus .calcDew, .ioctl .fakeReadable .none]
    | .calcDew => [.runStus .calcT, .ioctl .startRtdAdc .none]
    | _ => [.runStus .calcT, .ioctl .startRtdAdc .none]

/-- `self_calib_handle`. -/
def selfCalibHandle (info : RunInfo) : List Stmt :=
  match info.ucSensorRunMode with
  | .measurePara => [.timerTimeout (10 * time1Second), .runMode .sensorWash]
  | .sensorWash =>
      [.recTimeGap 1, .recordTimes 0, .ioctl .getSglRtdAdc (some 0),
        .ioctl .getSglRhsAdc (some 0), .timerTimeout (1 * time1Second), .runMode .calibHumi]
  | .calibHumi =>
      let gap := info.uiCalibRecTimeGap <<< 1
      let times := info.ucCalibRecordTimes + 1
      if 8 < times then
        [.recTimeGap gap, .recordTimes times, .ioctl .getSglRtdAdc (some times),
          .ioctl .getSglRhsAdc (some times), .timerTimeout selfCalibTime, .runMode .measurePara]
      else [.recTimeGap gap, .recordTimes times, .timerTimeout (gap * time1Second)]
  | .other => [.timerTimeout selfCalibTime, .runMode .measurePara]

/-- What the handlers and the interrupt work on: `mIoc` is the last command of the device,
`records` the single conversions with their slots, `adActive` tells whether the last poll found the
AD channel readable, and `period` is the time of the timer. -/
structure AdState where
  info : RunInfo
  adcStat : AdcStat
  mIoc : AdIoc
  records : List (AdIoc × BitVec 8)
  adActive : Bool
  period : BitVec 32

namespace AdState

variable (ad : AdState)

def effect (ad : AdState) : Stmt → AdState
  | .runMode mode => { ad with info := { ad.info with ucSensorRunMode := mode } }
  | .runStus stus => { ad with info := { ad.info with ucAdc1RunStus := stus } }
  | .recTimeGap gap => { ad with info := { ad.info with uiCalibRecTimeGap := gap } }
  | .recordTimes times => { ad with info := { ad.info with ucCalibRecordTimes := times } }
  | .ioctl cmd slot => { ad with
      adcStat := drvIoctl ad.adcStat cmd
      mIoc := cmd
      records := (slot.map fun slot ↦ (cmd, slot)).toList ++ ad.records }
  | .timerTimeout ms => { ad with period := ms }

/-- A single conversion waits for the one in progress. -/
def waits : Stmt → Bool
  | .ioctl cmd _ => drvIoctlWaits ad.adcStat cmd
  | _ => false

/-- `DMA_ADC1_Int_Handler`; the channel is enabled while a conversion is in progress. -/
def dmaComplete : AdState :=
  if ad.adcStat = .inProcessing then { ad with adcStat := .readable } else ad

/-- The AD channel reads the device: the bytes in the buffer and the state after it.  `device_ad`
makes four bytes of whatever it read, unless the last command was `AD_IOC_FAKE_READABLE`. -/
def channelRead : ℕ × AdState :=
  let (actual, stat) := drvDevread ad.adcStat
  (if ad.mIoc = .fakeReadable then actual else 4, { ad with adcStat := stat, adActive := false })

end AdState

/-- The state, and what is left of the handler that is running. -/
structure Measuring where
  ad : AdState
  pending : List Stmt

/-- What happens next: the DMA interrupt, the event loop polling, one of its two handlers being
called, or the running handler going one statement further. -/
inductive MeasureAction where
  | dmaComplete
  | poll
  | adEvent
  | selfCalib
  | advance
  deriving DecidableEq

namespace Measuring

variable (m : Measuring)

/-- `application::run` when the event loop starts. -/
def construct (gap : BitVec 32) (times : BitVec 8) (period : BitVec 32) : Measuring where
  ad := {
    info := ⟨.measurePara, .adcT, gap, times⟩
    adcStat := drvIoctl .none .fakeReadable
    mIoc := .fakeReadable
    records := []
    adActive := false
    period := period }
  pending := []

/-- The AD channel is handled. -/
def adEvent : Measuring :=
  let (readable, ad) := m.ad.channelRead
  { ad := ad, pending := eventHandleAd ad.info readable }

def advance : Measuring :=
  match m.pending with
  | [] => m
  | stmt :: rest => if m.ad.waits stmt then m else { ad := m.ad.effect stmt, pending := rest }

def step : MeasureAction → Measuring
  | .dmaComplete => { m with ad := m.ad.dmaComplete }
  | .poll =>
      if m.pending = [] then { m with ad := { m.ad with adActive := drvPoll m.ad.adcStat } } else m
  | .adEvent => if m.pending = [] ∧ m.ad.adActive then m.adEvent else m
  | .selfCalib => if m.pending = [] then { m with pending := selfCalibHandle m.ad.info } else m
  | .advance => m.advance

end Measuring

/-- Between two handlers in the measuring mode a conversion is in progress or an event is to
come. -/
def KeepsMeasuring (m : Measuring) : Prop :=
  m.pending = [] → m.ad.info.ucSensorRunMode = .measurePara → m.ad.adcStat ≠ .none

/-- The step is not the one that ends a calibration by going back to the measuring mode. -/
def NotBackToMeasuring (m : Measuring) : MeasureAction → Prop
  | .advance => m.pending ≠ [.runMode .measurePara]
  | _ => True

/-- Between two handlers: there is something to wait for while measuring, and nothing while
calibrating. -/
structure Resting (ad : AdState) : Prop where
  measuring : ad.info.ucSensorRunMode = .measurePara → ad.adcStat ≠ .none
  calibrating : ad.info.ucSensorRunMode = .calibHumi → ad.adcStat = .none
  mode : ad.info.ucSensorRunMode ≠ .other

/-- The handler that ends the calibration: before it goes back to measuring, the device has nothing
to wait for. -/
def EndsCalib (m : Measuring) : Prop :=
  ∃ before, m.pending = before ++ [.runMode .measurePara] ∧
    (before.foldl AdState.effect m.ad).adcStat = .none

/-- Either the running handler ends well, or it is the one that ends the calibration. -/
def OnTrack (m : Measuring) : Prop :=
  Resting (m.pending.foldl AdState.effect m.ad) ∧ .runMode .measurePara ∉ m.pending ∨ EndsCalib m

namespace AdState

variable {ad : AdState}

/-- The interrupt comes before a statement or after it, unless the statement undoes it. -/
theorem effect_dmaComplete (ad : AdState) (stmt : Stmt) :
    ad.dmaComplete.effect stmt = ad.effect stmt ∨
      ad.dmaComplete.effect stmt = (ad.effect stmt).dmaComplete := by
  by_cases hstat : ad.adcStat = .inProcessing
  swap
  · exact .inl (by rw [dmaComplete, if_neg hstat])
  cases stmt with
  | ioctl cmd slot => cases cmd <;> simp [dmaComplete, effect, drvIoctl, hstat]
  | _ => exact .inr (by simp [dmaComplete, effect, hstat])

theorem foldl_dmaComplete (stmts : List Stmt) (ad : AdState) :
    stmts.foldl effect ad.dmaComplete = stmts.foldl effect ad ∨
      stmts.foldl effect ad.dmaComplete = (stmts.foldl effect ad).dmaComplete := by
  induction stmts generalizing ad with
  | nil => exact .inr rfl
  | cons stmt stmts ih =>
      rcases effect_dmaComplete ad stmt with hsame | hafter
      · exact .inl (by rw [List.foldl_cons, hsame, List.foldl_cons])
      · rw [List.foldl_cons, hafter, List.foldl_cons]
        exact ih _

theorem dmaComplete_of_none (hstat : ad.adcStat = .none) : ad.dmaComplete = ad := by
  rw [dmaComplete, if_neg (by simp [hstat])]

end AdState

theorem Resting.dmaComplete {ad : AdState} (h : Resting ad) : Resting ad.dmaComplete := by
  by_cases hstat : ad.adcStat = .inProcessing
  · rw [AdState.dmaComplete, if_pos hstat]
    refine ⟨fun _ ↦ by simp, fun hmode ↦ ?_, h.mode⟩
    rw [h.calibrating hmode] at hstat
    contradiction
  · rwa [AdState.dmaComplete, if_neg hstat]

theorem OnTrack.resting {m : Measuring} (h : OnTrack m) (hidle : m.pending = []) :
    Resting m.ad := by
  rcases h with ⟨hrest, _⟩ | ⟨before, hpending, _⟩
  · simpa [hidle] using hrest
  · simp [hidle] at hpending

theorem OnTrack.keepsMeasuring {m : Measuring} (h : OnTrack m) : KeepsMeasuring m :=
  fun hidle ↦ (h.resting hidle).measuring

theorem onTrack_construct (gap : BitVec 32) (times : BitVec 8) (period : BitVec 32) :
    OnTrack (.construct gap times period) :=
  .inl ⟨⟨fun _ ↦ by simp [Measuring.construct, drvIoctl],
    fun hmode ↦ by simp [Measuring.construct] at hmode, by simp [Measuring.construct]⟩,
      List.not_mem_nil⟩

theorem OnTrack.dmaComplete {m : Measuring} (h : OnTrack m) : OnTrack (m.step .dmaComplete) := by
  rcases h with ⟨hrest, hback⟩ | ⟨before, hpending, hnone⟩
  · refine .inl ⟨?_, hback⟩
    rcases AdState.foldl_dmaComplete m.pending m.ad with hsame | hafter
    · exact hsame ▸ hrest
    · exact hafter ▸ hrest.dmaComplete
  · refine .inr ⟨before, hpending, ?_⟩
    rcases AdState.foldl_dmaComplete before m.ad with hsame | hafter
    · exact (congrArg AdState.adcStat hsame).trans hnone
    · rw [AdState.dmaComplete_of_none hnone] at hafter
      exact (congrArg AdState.adcStat hafter).trans hnone

/-- Reading the device leaves it with nothing to wait for. -/
theorem channelRead_adcStat (ad : AdState) : ad.channelRead.2.adcStat = .none := by
  unfold AdState.channelRead
  cases ad.adcStat <;> rfl

/-- While measuring, each event starts the next one; otherwise it is dropped. -/
theorem resting_eventHandleAd {ad : AdState} (hstat : ad.adcStat = .none)
    (hmode : ad.info.ucSensorRunMode ≠ .other) (readable : ℕ) :
    Resting ((eventHandleAd ad.info readable).foldl AdState.effect ad) ∧
      .runMode .measurePara ∉ eventHandleAd ad.info readable := by
  by_cases hmeasuring : ad.info.ucSensorRunMode = .measurePara
  swap
  · rw [eventHandleAd, if_pos hmeasuring]
    exact ⟨⟨fun h ↦ absurd h hmeasuring, fun _ ↦ hstat, hmode⟩, List.not_mem_nil⟩
  have hnext : ∃ stus cmd, eventHandleAd ad.info readable = [.runStus stus, .ioctl cmd .none] ∧
      drvIoctl .none cmd ≠ .none := by
    rw [eventHandleAd, if_neg (not_not.mpr hmeasuring)]
    split
    · exact ⟨_, _, rfl, by decide⟩
    · split <;> exact ⟨_, _, rfl, by decide⟩
  obtain ⟨stus, cmd, heq, hcmd⟩ := hnext
  rw [heq]
  refine ⟨⟨fun _ ↦ ?_, fun hcalib ↦ ?_, ?_⟩, by simp⟩
  · simpa [AdState.effect, hstat] using hcmd
  · simp [AdState.effect, hmeasuring] at hcalib
  · simpa [AdState.effect] using hmode

/-- The timer takes the mode one step further; the last of its calls ends the calibration. -/
theorem onTrack_selfCalibHandle {ad : AdState} (hrest : Resting ad) :
    OnTrack { ad := ad, pending := selfCalibHandle ad.info } := by
  cases hmode : ad.info.ucSensorRunMode with
  | measurePara =>
      refine .inl ⟨?_, by simp [selfCalibHandle, hmode]⟩
      constructor <;> simp [selfCalibHandle, hmode, AdState.effect]
  | sensorWash =>
      refine .inl ⟨?_, by simp [selfCalibHandle, hmode]⟩
      constructor <;> simp [selfCalibHandle, hmode, AdState.effect, drvIoctl]
  | calibHumi =>
      have hnone := hrest.calibrating hmode
      rw [selfCalibHandle, hmode]
      by_cases hlast : 8 < ad.info.ucCalibRecordTimes + 1
      · simp only [if_pos hlast]
        refine .inr ⟨[.recTimeGap (ad.info.uiCalibRecTimeGap <<< 1),
          .recordTimes (ad.info.ucCalibRecordTimes + 1),
          .ioctl .getSglRtdAdc (some (ad.info.ucCalibRecordTimes + 1)),
          .ioctl .getSglRhsAdc (some (ad.info.ucCalibRecordTimes + 1)),
          .timerTimeout selfCalibTime], rfl, rfl⟩
      · simp only [if_neg hlast]
        refine .inl ⟨?_, by simp⟩
        constructor <;> simp [hmode, AdState.effect, hnone]
  | other => exact absurd hmode hrest.mode

theorem OnTrack.advance {m : Measuring} (h : OnTrack m)
    (hallowed : m.pending ≠ [.runMode .measurePara]) : OnTrack m.advance := by
  unfold Measuring.advance
  cases hpending : m.pending with
  | nil => exact h
  | cons stmt rest =>
      simp only
      split
      · exact h
      rcases h with ⟨hrest, hback⟩ | ⟨before, heq, hnone⟩
      · rw [hpending] at hrest hback
        exact .inl ⟨hrest, fun hin ↦ hback (List.mem_cons_of_mem _ hin)⟩
      · cases before with
        | nil => exact absurd heq hallowed
        | cons first before =>
            rw [hpending, List.cons_append, List.cons.injEq] at heq
            obtain ⟨rfl, hrest⟩ := heq
            exact .inr ⟨before, hrest, hnone⟩

theorem OnTrack.step {m : Measuring} (h : OnTrack m) {action : MeasureAction}
    (hallowed : NotBackToMeasuring m action) : OnTrack (m.step action) := by
  cases action with
  | dmaComplete => exact h.dmaComplete
  | poll =>
      rw [Measuring.step]
      split
      · rename_i hidle
        obtain ⟨hmeasuring, hcalibrating, hmode⟩ := h.resting hidle
        rw [OnTrack, hidle]
        exact .inl ⟨⟨hmeasuring, hcalibrating, hmode⟩, List.not_mem_nil⟩
      · exact h
  | adEvent =>
      rw [Measuring.step]
      split
      · rename_i hready
        exact .inl (resting_eventHandleAd (channelRead_adcStat m.ad)
          (h.resting hready.1).mode _)
      · exact h
  | selfCalib =>
      rw [Measuring.step]
      split
      · rename_i hidle
        exact onTrack_selfCalibHandle (h.resting hidle)
      · exact h
  | advance => exact h.advance hallowed

/-- Going back to the measuring mode leaves nothing to wait for. -/
theorem not_keepsMeasuring_back {m : Measuring} (h : OnTrack m)
    (hback : m.pending = [.runMode .measurePara]) : ¬ KeepsMeasuring m.advance := by
  rcases h with ⟨_, hnotMem⟩ | ⟨before, hpending, hnone⟩
  · exact absurd (by simp [hback]) hnotMem
  · have hnil : before = [] := by
      rw [hback] at hpending
      simpa using congrArg List.length hpending
    subst hnil
    intro hkeeps
    refine hkeeps ?_ ?_ ?_ <;> simp [Measuring.advance, hback, AdState.waits, AdState.effect]
    exact hnone

/-- In every run of the measuring chain there is always an event to come between two handlers in
the measuring mode, exactly when no calibration comes to its end. -/
theorem keepsMeasuring_run_iff (gap : BitVec 32) (times : BitVec 8) (period : BitVec 32)
    (actions : List MeasureAction) :
    AllStates Measuring.step KeepsMeasuring (.construct gap times period) actions ↔
      AllSteps Measuring.step NotBackToMeasuring (.construct gap times period) actions := by
  refine allStates_iff_allSteps OnTrack (fun _ _ h _ hallowed ↦ h.step hallowed)
    (fun m action h _ ↦ ⟨fun hkeeps ↦ ?_, fun hallowed ↦ (h.step hallowed).keepsMeasuring⟩)
    actions (onTrack_construct gap times period) (onTrack_construct gap times period).keepsMeasuring
  cases action with
  | advance => exact fun hback ↦ not_keepsMeasuring_back h hback hkeeps
  | _ => trivial

/-- One call of the timer and the statements of its handler. -/
def calibration : List MeasureAction := .selfCalib :: List.replicate 6 .advance

/-- The first event is handled and its conversion completed, then the timer runs the calibration
through: eleven calls later the mode is back and no event is to come. -/
theorem keepsMeasuring_fails_after_calibration :
    ¬ AllStates Measuring.step KeepsMeasuring (.construct 0 0 0)
      ([.poll, .adEvent, .advance, .advance, .dmaComplete] ++
        (List.replicate 11 calibration).flatten) := by
  intro hstates
  have hlast := hstates.last
  revert hlast
  unfold KeepsMeasuring
  decide +kernel

end ProjectSensor.App
