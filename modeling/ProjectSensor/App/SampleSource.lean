import ProjectSensor.App.Measure

/-!
# Where a sample comes from

A pass of the event loop polls the channels once and then handles those it found, each at most once
and in any order: the timer channel, which may call `self_calib_handle`, and the AD channel.  The
pins of the multiplexer are recorded with the conversion, the conversion with the samples in
`uxADC1Data`, and both with every sample that `event_handle_ad` takes up.
-/

open ProjectSensor.Library.Transition

namespace ProjectSensor.App

/-- A conversion: the command that started it, and the command that switched the pins last. -/
structure Conversion where
  startedBy : AdIoc
  pins : AdIoc
  deriving DecidableEq

/-- `AD_IOC_START_RTD_ADC`, `AD_IOC_START_RHS_ADC` and `AD_IOC_START_PRS_ADC`. -/
def AdIoc.starts : AdIoc → Bool
  | .startRtdAdc => true
  | .startRhsAdc => true
  | .startPrsAdc => true
  | _ => false

/-- The conversion of the converter once a command was executed; a single conversion switches the
pins as well. -/
def Conversion.after (conversion : Conversion) (cmd : AdIoc) : Conversion :=
  if cmd.starts then ⟨cmd, cmd⟩
  else if cmd = .fakeReadable then conversion
  else { conversion with pins := cmd }

def Conversion.afterStmt (conversion : Conversion) : Stmt → Conversion
  | .ioctl cmd _ => conversion.after cmd
  | _ => conversion

/-- What `event_handle_ad` took up in a state of the chain: the bytes it got, the conversion they
come from, and the command whose branch of `process_command` scaled them. -/
structure Consumed where
  runStus : RunStus
  readable : ℕ
  source : Option Conversion
  scaledBy : Option AdIoc
  deriving DecidableEq

/-- The command a state of the chain waits for. -/
def RunStus.measuredBy : RunStus → Option AdIoc
  | .calcT => some .startRtdAdc
  | .calcRh => some .startRhsAdc
  | .calcP => some .startPrsAdc
  | _ => none

/-- The states that only compute. -/
def RunStus.computes (stus : RunStus) : Bool := stus = .calcD || stus = .calcPpm || stus = .calcDew

/-- A sample is used as what it was measured as. -/
structure Consumed.AsMeasured (consumed : Consumed) : Prop where
  sample : consumed.readable ≠ 0 → ∀ cmd, consumed.runStus.measuredBy = some cmd →
    consumed.source = some ⟨cmd, cmd⟩ ∧ consumed.scaledBy = some cmd
  computed : consumed.runStus.computes → consumed.readable = 0

/-- The event loop with its two handlers.  `conversion` is that of the converter, `data` the one
whose samples DMA left in `uxADC1Data`, and `timerActive` tells that the timer channel is to be
handled in this pass. -/
structure Sampling where
  measuring : Measuring
  timerActive : Bool
  conversion : Conversion
  data : Conversion
  consumed : List Consumed

/-- `poll` and `timerEvent` say whether a soft timer is due and whether it is the one of
`self_calib_handle`. -/
inductive SampleAction where
  | dmaComplete
  | poll (timerDue : Bool)
  | timerEvent (selfCalib : Bool)
  | adEvent
  | advance

namespace Sampling

variable (s : Sampling)

/-- `application::run` when the event loop starts; nothing was converted yet. -/
def construct (gap : BitVec 32) (times : BitVec 8) (period : BitVec 32)
    (conversion : Conversion) : Sampling where
  measuring := .construct gap times period
  timerActive := false
  conversion := conversion
  data := conversion
  consumed := []

def dmaComplete : Sampling := { s with
  measuring := s.measuring.step .dmaComplete
  data := if s.measuring.ad.adcStat = .inProcessing then s.conversion else s.data }

/-- A pass begins.  Nothing depends on the channels of the last one having been handled. -/
def poll (timerDue : Bool) : Sampling :=
  if s.measuring.pending = [] then
    { s with measuring := s.measuring.step .poll, timerActive := timerDue }
  else s

/-- The timer channel is handled: the timer of `self_calib_handle` expires at most once, it starts
again at least a second ahead. -/
def timerEvent (selfCalib : Bool) : Sampling :=
  if s.measuring.pending = [] ∧ s.timerActive = true then
    { s with
      measuring := if selfCalib then s.measuring.step .selfCalib else s.measuring
      timerActive := false }
  else s

/-- What the AD channel reads, if it is read now. -/
def sample : Consumed where
  runStus := s.measuring.ad.info.ucAdc1RunStus
  readable := s.measuring.ad.channelRead.1
  source := if (drvDevread s.measuring.ad.adcStat).1 = 0 then none else some s.data
  scaledBy := if s.measuring.ad.mIoc.starts then some s.measuring.ad.mIoc else none

/-- The AD channel is handled; outside the measuring mode the sample is dropped. -/
def adEvent : Sampling :=
  if s.measuring.pending = [] ∧ s.measuring.ad.adActive = true then
    { s with
      measuring := s.measuring.step .adEvent
      consumed := if s.measuring.ad.info.ucSensorRunMode = .measurePara then s.sample :: s.consumed
        else s.consumed }
  else s

/-- The conversion after the next statement of the running handler. -/
def nextConversion : Conversion :=
  match s.measuring.pending with
  | [] => s.conversion
  | stmt :: _ =>
      if s.measuring.ad.waits stmt then s.conversion else s.conversion.afterStmt stmt

def advance : Sampling :=
  { s with measuring := s.measuring.step .advance, conversion := s.nextConversion }

def step : SampleAction → Sampling
  | .dmaComplete => s.dmaComplete
  | .poll timerDue => s.poll timerDue
  | .timerEvent selfCalib => s.timerEvent selfCalib
  | .adEvent => s.adEvent
  | .advance => s.advance

end Sampling

/-! ### The four variables agree -/

/-- The state of the chain, the last command and a conversion belong together. -/
def Matches (ad : AdState) (conversion : Conversion) : Prop :=
  ad.info.ucAdc1RunStus.measuredBy = some ad.mIoc ∧ conversion = ⟨ad.mIoc, ad.mIoc⟩

/-- A statement of `self_calib_handle`: the state of the chain stays, and no conversion starts. -/
def Calibrates : Stmt → Prop
  | .runStus _ => False
  | .ioctl cmd _ => cmd = .getSglRtdAdc ∨ cmd = .getSglRhsAdc
  | _ => True

/-- The rest of `event_handle_ad`: it goes to a state and starts what that state waits for. -/
def StartsNext (ad : AdState) (pending : List Stmt) : Prop :=
  ad.adcStat = .none ∧ ∃ stus cmd, (stus.measuredBy = some cmd ∨ cmd = .fakeReadable) ∧
    (pending = [.runStus stus, .ioctl cmd none] ∨
      ad.info.ucAdc1RunStus = stus ∧ pending = [.ioctl cmd none])

/-- Between two handlers: nothing is converted while calibrating, and what the poll found is still
there while measuring. -/
structure Settled (ad : AdState) : Prop where
  calibrating : ad.info.ucSensorRunMode = .calibHumi → ad.adcStat = .none
  measuring : ad.info.ucSensorRunMode = .measurePara → ad.adActive = true →
    drvPoll ad.adcStat = true

theorem Settled.dmaComplete {ad : AdState} (h : Settled ad) : Settled ad.dmaComplete := by
  by_cases hstat : ad.adcStat = .inProcessing
  · rw [AdState.dmaComplete, if_pos hstat]
    refine ⟨fun hmode ↦ ?_, fun _ _ ↦ rfl⟩
    exact absurd ((h.calibrating hmode).symm.trans hstat) (by decide)
  · rwa [AdState.dmaComplete, if_neg hstat]

theorem RunStus.starts_of_measuredBy {stus : RunStus} {cmd : AdIoc}
    (hcmd : stus.measuredBy = some cmd) : cmd.starts = true := by
  cases stus <;> cases hcmd <;> rfl

theorem RunStus.not_computes_of_measuredBy {stus : RunStus} {cmd : AdIoc}
    (hcmd : stus.measuredBy = some cmd) : ¬ stus.computes = true := by
  cases stus <;> cases hcmd <;> decide

namespace Sampling

variable {s : Sampling}

/-- The loop between two steps of anything. -/
structure Inv (s : Sampling) : Prop where
  converting : s.measuring.ad.adcStat = .inProcessing → Matches s.measuring.ad s.conversion
  readable : s.measuring.ad.adcStat = .readable → Matches s.measuring.ad s.data
  fake : s.measuring.ad.adcStat = .readableFake → s.measuring.ad.mIoc = .fakeReadable
  handler : s.measuring.pending = [] ∨
    (s.timerActive = false ∧ ∀ stmt ∈ s.measuring.pending, Calibrates stmt) ∨
      StartsNext s.measuring.ad s.measuring.pending
  settled : Settled (s.measuring.pending.foldl AdState.effect s.measuring.ad)
  fresh : s.timerActive = true → s.measuring.ad.adActive = true →
    drvPoll s.measuring.ad.adcStat = true
  consumed : ∀ consumed ∈ s.consumed, consumed.AsMeasured

/-- With nothing converted and nothing to be read. -/
theorem inv_of_none (hnone : s.measuring.ad.adcStat = .none)
    (hhandler : s.measuring.pending = [] ∨
      (s.timerActive = false ∧ ∀ stmt ∈ s.measuring.pending, Calibrates stmt) ∨
        StartsNext s.measuring.ad s.measuring.pending)
    (hsettled : Settled (s.measuring.pending.foldl AdState.effect s.measuring.ad))
    (hfresh : s.timerActive = true → s.measuring.ad.adActive = true →
      drvPoll s.measuring.ad.adcStat = true)
    (hconsumed : ∀ consumed ∈ s.consumed, consumed.AsMeasured) : Inv s where
  converting hbusy := absurd (hnone.symm.trans hbusy) (by decide)
  readable hbusy := absurd (hnone.symm.trans hbusy) (by decide)
  fake hbusy := absurd (hnone.symm.trans hbusy) (by decide)
  handler := hhandler
  settled := hsettled
  fresh := hfresh
  consumed := hconsumed

theorem inv_construct (gap : BitVec 32) (times : BitVec 8) (period : BitVec 32)
    (conversion : Conversion) : Inv (construct gap times period conversion) where
  converting := by simp [construct, Measuring.construct, drvIoctl]
  readable := by simp [construct, Measuring.construct, drvIoctl]
  fake _ := rfl
  handler := .inl rfl
  settled := by constructor <;> simp [construct, Measuring.construct]
  fresh := by simp [construct]
  consumed := fun _ hconsumed ↦ absurd hconsumed List.not_mem_nil

theorem dmaComplete_of_ne (hstat : s.measuring.ad.adcStat ≠ .inProcessing) :
    s.dmaComplete = s := by
  unfold dmaComplete Measuring.step AdState.dmaComplete
  simp only [if_neg hstat]

theorem dmaComplete_of_eq (hstat : s.measuring.ad.adcStat = .inProcessing) :
    s.dmaComplete = { s with
      measuring := { s.measuring with ad := { s.measuring.ad with adcStat := .readable } }
      data := s.conversion } := by
  unfold dmaComplete Measuring.step AdState.dmaComplete
  simp only [if_pos hstat]

/-- The conversion in progress becomes the one whose samples can be read. -/
theorem Inv.dmaComplete (h : Inv s) : Inv s.dmaComplete := by
  by_cases hstat : s.measuring.ad.adcStat = .inProcessing
  swap
  · rwa [dmaComplete_of_ne hstat]
  have hsettled : Settled
      (s.measuring.pending.foldl AdState.effect s.measuring.ad.dmaComplete) := by
    rcases AdState.foldl_dmaComplete s.measuring.pending s.measuring.ad with hsame | hafter
    · exact hsame ▸ h.settled
    · exact hafter ▸ h.settled.dmaComplete
  rw [AdState.dmaComplete, if_pos hstat] at hsettled
  rw [dmaComplete_of_eq hstat]
  refine ⟨by simp, fun _ ↦ h.converting hstat, by simp, ?_, hsettled, fun _ _ ↦ rfl, h.consumed⟩
  rcases h.handler with hidle | hcalibrates | ⟨hnone, -⟩
  · exact .inl hidle
  · exact .inr (.inl hcalibrates)
  · exact absurd (hnone.symm.trans hstat) (by decide)

theorem Inv.poll (h : Inv s) (timerDue : Bool) : Inv (s.poll timerDue) := by
  unfold Sampling.poll
  split
  swap
  · exact h
  next hnone =>
    have hcalibrating := h.settled
    rw [hnone, List.foldl_nil] at hcalibrating
    unfold Measuring.step
    simp only [if_pos hnone]
    refine ⟨h.converting, h.readable, h.fake, .inl hnone, ?_, fun _ hfound ↦ hfound, h.consumed⟩
    rw [hnone, List.foldl_nil]
    exact ⟨hcalibrating.calibrating, fun _ hfound ↦ hfound⟩

theorem calibrates_selfCalibHandle (info : RunInfo) :
    ∀ stmt ∈ selfCalibHandle info, Calibrates stmt := by
  cases hmode : info.ucSensorRunMode with
  | calibHumi =>
      rw [selfCalibHandle, hmode]
      by_cases hlast : 8 < info.ucCalibRecordTimes + 1
      · simp only [if_pos hlast]
        simp [Calibrates]
      · simp only [if_neg hlast]
        simp [Calibrates]
  | _ => simp [selfCalibHandle, hmode, Calibrates]

/-- The timer goes back to the measuring mode only when the poll found nothing. -/
theorem settled_selfCalibHandle {ad : AdState} (h : Settled ad)
    (hfresh : ad.adActive = true → drvPoll ad.adcStat = true) :
    Settled ((selfCalibHandle ad.info).foldl AdState.effect ad) := by
  cases hmode : ad.info.ucSensorRunMode with
  | measurePara => constructor <;> simp [selfCalibHandle, hmode, AdState.effect]
  | sensorWash => constructor <;> simp [selfCalibHandle, hmode, AdState.effect, drvIoctl]
  | calibHumi =>
      have hnone := h.calibrating hmode
      have hmissed : ad.adActive ≠ true := by
        intro hfound
        have hpoll := hfresh hfound
        rw [hnone] at hpoll
        exact absurd hpoll (by decide)
      rw [selfCalibHandle, hmode]
      by_cases hlast : 8 < ad.info.ucCalibRecordTimes + 1
      · simp only [if_pos hlast]
        constructor <;> simp [AdState.effect, hmissed]
      · simp only [if_neg hlast]
        constructor <;> simp [AdState.effect, hmode, hnone]
  | other =>
      refine ⟨by simp [selfCalibHandle, hmode, AdState.effect], fun _ hfound ↦ ?_⟩
      simp only [selfCalibHandle, hmode, List.foldl_cons, List.foldl_nil, AdState.effect]
        at hfound ⊢
      exact hfresh hfound

theorem Inv.timerEvent (h : Inv s) (selfCalib : Bool) : Inv (s.timerEvent selfCalib) := by
  unfold Sampling.timerEvent
  split
  swap
  · exact h
  next hready =>
    obtain ⟨hnone, htimer⟩ := hready
    have hsettled := h.settled
    rw [hnone, List.foldl_nil] at hsettled
    cases selfCalib with
    | false =>
        exact ⟨h.converting, h.readable, h.fake, .inl hnone, h.settled, by simp, h.consumed⟩
    | true =>
        unfold Measuring.step
        simp only [if_pos hnone, if_true]
        exact ⟨h.converting, h.readable, h.fake,
          .inr (.inl ⟨rfl, calibrates_selfCalibHandle _⟩),
          settled_selfCalibHandle hsettled (h.fresh htimer), by simp, h.consumed⟩

/-- While measuring, each state is left for one that starts what it waits for. -/
theorem startsNext_eventHandleAd {ad : AdState} (hstat : ad.adcStat = .none) (readable : ℕ) :
    eventHandleAd ad.info readable = [] ∨
      ad.info.ucSensorRunMode = .measurePara ∧
        StartsNext ad (eventHandleAd ad.info readable) := by
  by_cases hmeasuring : ad.info.ucSensorRunMode = .measurePara
  swap
  · exact .inl (if_pos hmeasuring)
  refine .inr ⟨hmeasuring, hstat, ?_⟩
  rw [eventHandleAd, if_neg (not_not.mpr hmeasuring)]
  split
  · exact ⟨.calcT, .startRtdAdc, .inl rfl, .inl rfl⟩
  · split
    · exact ⟨.calcRh, .startRhsAdc, .inl rfl, .inl rfl⟩
    · exact ⟨.calcP, .startPrsAdc, .inl rfl, .inl rfl⟩
    · exact ⟨.calcD, .fakeReadable, .inr rfl, .inl rfl⟩
    · exact ⟨.calcPpm, .fakeReadable, .inr rfl, .inl rfl⟩
    · exact ⟨.calcDew, .fakeReadable, .inr rfl, .inl rfl⟩
    · exact ⟨.calcT, .startRtdAdc, .inl rfl, .inl rfl⟩
    · exact ⟨.calcT, .startRtdAdc, .inl rfl, .inl rfl⟩

/-- What the poll found while measuring is a sample of the conversion the chain waits for, or the
event the chain made itself. -/
theorem Inv.asMeasured (h : Inv s) (hfound : drvPoll s.measuring.ad.adcStat = true) :
    s.sample.AsMeasured := by
  cases hstat : s.measuring.ad.adcStat with
  | readable =>
      obtain ⟨hwaits, hdata⟩ := h.readable hstat
      refine ⟨fun _ cmd hcmd ↦ ?_, fun hcomputes ↦ ?_⟩
      · have hsame : s.measuring.ad.mIoc = cmd := Option.some_inj.mp (hwaits.symm.trans hcmd)
        have hread : (drvDevread s.measuring.ad.adcStat).1 ≠ 0 := by
          rw [hstat]
          decide
        have hstarts : s.measuring.ad.mIoc.starts = true := RunStus.starts_of_measuredBy hwaits
        rw [sample, if_neg hread, if_pos hstarts, hdata, hsame]
        exact ⟨rfl, rfl⟩
      · exact absurd hcomputes (RunStus.not_computes_of_measuredBy hwaits)
  | readableFake =>
      have hempty : s.sample.readable = 0 := by
        show s.measuring.ad.channelRead.1 = 0
        unfold AdState.channelRead
        rw [hstat, h.fake hstat]
        rfl
      exact ⟨fun hsome ↦ absurd hempty hsome, fun _ ↦ hempty⟩
  | none => exact absurd (hstat ▸ hfound) (by decide)
  | inProcessing => exact absurd (hstat ▸ hfound) (by decide)

theorem StartsNext.settled {ad : AdState} {pending : List Stmt} (h : StartsNext ad pending)
    (hmode : ad.info.ucSensorRunMode = .measurePara) (hmissed : ad.adActive = false) :
    Settled (pending.foldl AdState.effect ad) := by
  obtain ⟨-, stus, cmd, -, hpending⟩ := h
  rcases hpending with hpending | ⟨-, hpending⟩
  · rw [hpending]
    constructor <;> simp [AdState.effect, hmode, hmissed]
  · rw [hpending]
    constructor <;> simp [AdState.effect, hmode, hmissed]

theorem adEvent_of_ready (hready : s.measuring.pending = [] ∧ s.measuring.ad.adActive = true) :
    s.adEvent = { s with
      measuring := ⟨s.measuring.ad.channelRead.2,
        eventHandleAd s.measuring.ad.channelRead.2.info s.measuring.ad.channelRead.1⟩
      consumed := if s.measuring.ad.info.ucSensorRunMode = .measurePara then s.sample :: s.consumed
        else s.consumed } := by
  unfold adEvent
  rw [if_pos hready]
  unfold Measuring.step
  simp only [if_pos hready]
  rfl

theorem Inv.adEvent (h : Inv s) : Inv s.adEvent := by
  by_cases hready : s.measuring.pending = [] ∧ s.measuring.ad.adActive = true
  swap
  · rwa [show s.adEvent = s from if_neg hready]
  have hsettled := h.settled
  rw [hready.1, List.foldl_nil] at hsettled
  have hstat : (s.measuring.ad.channelRead).2.adcStat = .none := channelRead_adcStat _
  have hmissed : (s.measuring.ad.channelRead).2.adActive = false := rfl
  have hnext := startsNext_eventHandleAd hstat s.measuring.ad.channelRead.1
  rw [adEvent_of_ready hready]
  apply inv_of_none hstat
  · rcases hnext with hnil | ⟨-, hnext⟩
    · exact .inl hnil
    · exact .inr (.inr hnext)
  · rcases hnext with hnil | ⟨hmode, hnext⟩
    · simp only [hnil, List.foldl_nil]
      exact ⟨fun _ ↦ hstat, fun _ hfound ↦ absurd (hmissed.symm.trans hfound) Bool.false_ne_true⟩
    · exact StartsNext.settled hnext hmode hmissed
  · intro _ hfound
    exact absurd (hmissed.symm.trans hfound) Bool.false_ne_true
  · intro consumed hconsumed
    by_cases hmode : s.measuring.ad.info.ucSensorRunMode = .measurePara
    · rw [if_pos hmode] at hconsumed
      rcases List.mem_cons.mp hconsumed with rfl | hbefore
      · exact h.asMeasured (hsettled.measuring hmode hready.2)
      · exact h.consumed consumed hbefore
    · rw [if_neg hmode] at hconsumed
      exact h.consumed consumed hconsumed

theorem advance_of_cons {stmt : Stmt} {rest : List Stmt}
    (hpending : s.measuring.pending = stmt :: rest) (hgo : ¬ s.measuring.ad.waits stmt = true) :
    s.advance = { s with
      measuring := ⟨s.measuring.ad.effect stmt, rest⟩
      conversion := s.conversion.afterStmt stmt } := by
  unfold advance Measuring.step Measuring.advance nextConversion
  simp only [hpending, if_neg hgo]

/-- A statement of `self_calib_handle`: a single conversion leaves nothing to be read. -/
theorem Inv.calibrate (h : Inv s) {stmt : Stmt} {rest : List Stmt}
    (hpending : s.measuring.pending = stmt :: rest) (htimer : s.timerActive = false)
    (hcalibrates : ∀ other ∈ s.measuring.pending, Calibrates other) :
    Inv { s with
      measuring := ⟨s.measuring.ad.effect stmt, rest⟩
      conversion := s.conversion.afterStmt stmt } := by
  have hsettled := h.settled
  rw [hpending] at hsettled hcalibrates
  have hhandler : ∀ other ∈ rest, Calibrates other := fun other hother ↦
    hcalibrates other (List.mem_cons_of_mem _ hother)
  have hhead : Calibrates stmt := hcalibrates stmt List.mem_cons_self
  have hmissed : s.timerActive = true → drvPoll (s.measuring.ad.effect stmt).adcStat = true :=
    fun hactive ↦ absurd (htimer.symm.trans hactive) Bool.false_ne_true
  cases stmt with
  | runStus stus => exact hhead.elim
  | ioctl cmd slot =>
      have hnone : drvIoctl s.measuring.ad.adcStat cmd = .none := by
        rcases hhead with rfl | rfl <;> rfl
      exact inv_of_none hnone (.inr (.inl ⟨htimer, hhandler⟩)) hsettled
        (fun hactive _ ↦ hmissed hactive) h.consumed
  | _ => exact ⟨h.converting, h.readable, h.fake, .inr (.inl ⟨htimer, hhandler⟩), hsettled,
      fun hactive _ ↦ hmissed hactive, h.consumed⟩

/-- A statement of `event_handle_ad`: the conversion started is the one the new state waits for. -/
theorem Inv.startNext (h : Inv s) {stmt : Stmt} {rest : List Stmt}
    (hpending : s.measuring.pending = stmt :: rest)
    (hnext : StartsNext s.measuring.ad s.measuring.pending) :
    Inv { s with
      measuring := ⟨s.measuring.ad.effect stmt, rest⟩
      conversion := s.conversion.afterStmt stmt } := by
  have hsettled := h.settled
  rw [hpending] at hsettled hnext
  obtain ⟨hnone, stus, cmd, hcmd, hstmts⟩ := hnext
  have hmissed : s.timerActive = true → s.measuring.ad.adActive ≠ true := by
    intro hactive hfound
    have hpoll := h.fresh hactive hfound
    rw [hnone] at hpoll
    exact absurd hpoll (by decide)
  rcases hstmts with hstmts | ⟨hstus, hstmts⟩
  · obtain ⟨rfl, rfl⟩ := List.cons.inj hstmts
    exact inv_of_none hnone (.inr (.inr ⟨hnone, stus, cmd, hcmd, .inr ⟨rfl, rfl⟩⟩)) hsettled
      (fun hactive hfound ↦ absurd hfound (hmissed hactive)) h.consumed
  · obtain ⟨rfl, rfl⟩ := List.cons.inj hstmts
    refine ⟨fun hbusy ↦ ?_, fun hbusy ↦ ?_, fun hbusy ↦ ?_, .inl rfl, hsettled,
      fun hactive hfound ↦ absurd hfound (hmissed hactive), h.consumed⟩
    · replace hbusy : drvIoctl s.measuring.ad.adcStat cmd = .inProcessing := hbusy
      rw [hnone] at hbusy
      rcases hcmd with hcmd | rfl
      · have hstarts : cmd.starts = true := RunStus.starts_of_measuredBy hcmd
        exact ⟨(congrArg RunStus.measuredBy hstus).trans hcmd, if_pos hstarts⟩
      · exact absurd hbusy (by decide)
    · replace hbusy : drvIoctl s.measuring.ad.adcStat cmd = .readable := hbusy
      rw [hnone] at hbusy
      cases cmd <;> exact absurd hbusy (by decide)
    · replace hbusy : drvIoctl s.measuring.ad.adcStat cmd = .readableFake := hbusy
      rw [hnone] at hbusy
      rcases hcmd with hcmd | rfl
      · cases stus <;> cases hcmd <;> exact absurd hbusy (by decide)
      · rfl

theorem Inv.advance (h : Inv s) : Inv s.advance := by
  cases hpending : s.measuring.pending with
  | nil =>
      have hsame : s.advance = s := by
        unfold Sampling.advance Measuring.step Measuring.advance nextConversion
        simp only [hpending]
      rwa [hsame]
  | cons stmt rest =>
      by_cases hwaits : s.measuring.ad.waits stmt = true
      · have hsame : s.advance = s := by
          unfold Sampling.advance Measuring.step Measuring.advance nextConversion
          simp only [hpending, if_pos hwaits]
        rwa [hsame]
      rw [advance_of_cons hpending hwaits]
      rcases h.handler with hidle | ⟨htimer, hcalibrates⟩ | hnext
      · exact absurd (hidle.symm.trans hpending) (List.cons_ne_nil _ _).symm
      · exact h.calibrate hpending htimer hcalibrates
      · exact h.startNext hpending hnext

theorem Inv.step (h : Inv s) (action : SampleAction) : Inv (s.step action) := by
  cases action with
  | dmaComplete => exact h.dmaComplete
  | poll timerDue => exact h.poll timerDue
  | timerEvent selfCalib => exact h.timerEvent selfCalib
  | adEvent => exact h.adEvent
  | advance => exact h.advance

/-- In every run of the event loop, with the interrupt and the timer at any point of it, each sample
is used as what it was measured as, and the states that only compute get none. -/
theorem asMeasured_run (gap : BitVec 32) (times : BitVec 8) (period : BitVec 32)
    (conversion : Conversion) (actions : List SampleAction) :
    ∀ consumed ∈ (run step (construct gap times period conversion) actions).consumed,
      consumed.AsMeasured := by
  have hinv : Inv (run step (construct gap times period conversion) actions) :=
    run_of_step Inv (fun _ action h ↦ h.step action) (inv_construct gap times period conversion)
  exact hinv.consumed

/-- The first sample of the chain: the conversion that the first event of the loop started. -/
theorem asMeasured_run_first_sample :
    (⟨.calcT, 4, some ⟨.startRtdAdc, .startRtdAdc⟩, some .startRtdAdc⟩ : Consumed).AsMeasured :=
  asMeasured_run 0 0 0 ⟨.fakeReadable, .fakeReadable⟩
    [.poll false, .adEvent, .advance, .advance, .dmaComplete, .poll false, .adEvent] _
    (by decide)

end Sampling

end ProjectSensor.App
