import ProjectSensor.App.CalibrationTimer
import ProjectSensor.Library.Timetable

/-!
# The timetable of a calibration

`self_calib_handle` is called for the first time a minute after the start and sets the time until
its next call itself: ten seconds for the wash, then one second, two, four and so on up to 256.  The
eleven calls of the first cycle keep to this timetable, but for the ticks at which the event loop
was late with them.
-/

open ProjectSensor.Library ProjectSensor.Library.SlotBitmap ProjectSensor.Library.Transition
open ProjectSensor.Service ProjectSensor.Reactor

namespace ProjectSensor.App

variable {Func Param : Type}

/-- The tick after `application::run` at which the call with the number `n` is due. -/
def calibTick : ℕ → ℕ
  | 0 => 6000
  | n + 1 => 6900 + 100 * 2 ^ n

theorem monotone_calibTick : Monotone calibTick := by
  apply monotone_nat_of_le_succ
  intro n
  cases n with
  | zero => decide
  | succ n =>
      have hdouble : 2 ^ (n + 1) = 2 * 2 ^ n := Nat.pow_succ'
      simp only [calibTick]
      omega

/-- The time that the calibration has set at a stage leads to the next entry of the timetable. -/
theorem calibTick_succ {m : Measuring} {n : ℕ} (h : CalibStage m (n + 1)) (hidle : m.pending = []) :
    calibTick (n + 1) = calibTick n + (svTickFromMillisecond m.ad.period).toNat := by
  have hfinal : m.final = m.ad := by rw [Measuring.final, hidle, List.foldl_nil]
  cases h with
  | wash hmode hperiod =>
      rw [hfinal] at hperiod
      rw [hperiod]
      decide
  | calib k hk hmode htimes hgap hperiod =>
      rw [hfinal] at hperiod
      have hdouble : 2 ^ (k + 1) = 2 * 2 ^ k := Nat.pow_succ'
      rw [hperiod, CalibStage.ticks_gap k hk]
      simp only [calibTick]
      omega
  | overrun cmd hpending =>
      rw [hidle] at hpending
      exact absurd hpending List.not_mem_nil

namespace CalibLoop

/-- A periodic soft timer with a callback, as `run_every` makes it. -/
structure CalibTimer (t : SvTimer Func Param) : Prop where
  func : t.timeoutFunc ≠ none
  periodic : t.periodic = true
  soft : t.soft = true

/-- The timer `p` of the calibration, `n` calls after `base` calls of its slot. -/
structure Tracked (p : Fin monitorTimeNr) (base : ℕ) (s : CalibLoop Func Param) (n : ℕ) :
    Prop where
  handlePeriod : s.handlePeriod = p
  order : ∃ lists, s.loop.InOrder lists
  stage : CalibStage s.measuring n
  calls : (s.loop.timers.expiriesOf p).length = base + n
  timer : CalibTimer (s.loop.timers.timer p)
  period : (s.loop.timers.timer p).initTick = svTickFromMillisecond s.measuring.ad.period

/-- Between two calls: no handler is going to set the time. -/
structure Awaiting (p : Fin monitorTimeNr) (base : ℕ) (s : CalibLoop Func Param)
    (n elapsed late : ℕ) : Prop extends Tracked p base s n where
  waits : ∃ started w, TimerLoop.Waits started s.loop p w
  quiet : ∀ ms, .timerTimeout ms ∉ s.measuring.pending
  times : Timetable.Waiting calibTick n (s.loop.timers.remaining p) elapsed late

/-- The call with the number `n` runs. -/
structure Handling (p : Fin monitorTimeNr) (base : ℕ) (s : CalibLoop Func Param)
    (n elapsed late : ℕ) : Prop extends Tracked p base s (n + 1) where
  calling : s.loop.calling = some p
  positive : CalibStage.Positive s.measuring
  times : Timetable.Running calibTick n elapsed late

/-- The calls keep to the timetable, but for the ticks they were late. -/
def OnTimetable (p : Fin monitorTimeNr) (base : ℕ) (s : CalibLoop Func Param)
    (elapsed late : ℕ) : Prop :=
  ∃ n, Awaiting p base s n elapsed late ∨ Handling p base s n elapsed late

variable {p : Fin monitorTimeNr} {base n elapsed late : ℕ} {s : CalibLoop Func Param}

/-- A step of the measuring chain alone. -/
theorem Tracked.of_measuring (h : Tracked p base s n) {m : Measuring} (hstage : CalibStage m n)
    (hperiod : m.ad.period = s.measuring.ad.period) :
    Tracked p base { s with measuring := m } n where
  handlePeriod := h.handlePeriod
  order := h.order
  stage := hstage
  calls := h.calls
  timer := h.timer
  period := h.period.trans (congrArg svTickFromMillisecond hperiod.symm)

/-- A step of the timers that leaves the timer of the calibration alone. -/
theorem Tracked.of_loop (h : Tracked p base s n) {loop : TimerLoop Func Param}
    (horder : ∃ lists, loop.InOrder lists)
    (htimer : loop.timers.timer p = s.loop.timers.timer p)
    (hexpiries : loop.timers.expiriesOf p = s.loop.timers.expiriesOf p) :
    Tracked p base { s with loop := loop } n where
  handlePeriod := h.handlePeriod
  order := horder
  stage := h.stage
  calls := by rw [← h.calls, ← hexpiries]
  timer := htimer ▸ h.timer
  period := by rw [← h.period, ← htimer]

section Awaiting

/-- The timer goes on waiting. -/
theorem Awaiting.of_waits (h : Awaiting p base s n elapsed late) {loop : TimerLoop Func Param}
    (horder : ∃ lists, loop.InOrder lists)
    (hwaits : ∀ started w, TimerLoop.Waits started s.loop p w → TimerLoop.Waits started loop p w) :
    Awaiting p base { s with loop := loop } n elapsed late := by
  obtain ⟨started, w, hbefore⟩ := h.waits
  have hafter := hwaits started w hbefore
  refine ⟨h.toTracked.of_loop horder (hafter.timer.trans hbefore.timer.symm)
    (hafter.expiries.trans hbefore.expiries.symm), ⟨started, w, hafter⟩, h.quiet, ?_⟩
  have hsame := hafter.remaining.trans hbefore.remaining.symm
  show Timetable.Waiting calibTick n (loop.timers.remaining p) elapsed late
  rw [hsame]
  exact h.times

theorem Awaiting.of_measuring (h : Awaiting p base s n elapsed late) {m : Measuring}
    (hstage : CalibStage m n) (hperiod : m.ad.period = s.measuring.ad.period)
    (hquiet : ∀ ms, .timerTimeout ms ∉ m.pending) :
    Awaiting p base { s with measuring := m } n elapsed late :=
  ⟨h.toTracked.of_measuring hstage hperiod, h.waits, hquiet, h.times⟩

theorem Awaiting.tick (h : Awaiting p base s n elapsed late) (hallowed : s.StepAllowed .tick) :
    Awaiting p base (s.step .tick) n (elapsed + 1)
      (if s.loop.timers.remaining p ≤ 0 then late + 1 else late) := by
  obtain ⟨lists, horder⟩ := h.order
  obtain ⟨started, w, hbefore⟩ := h.waits
  obtain ⟨lists', hlater, -⟩ := horder.tick hallowed
  have hsoft : (started.timers.timer p).soft = true := hbefore.timer ▸ h.timer.soft
  have hafter := hbefore.tick horder hallowed fun hhard ↦ by
    rw [hsoft] at hhard
    contradiction
  refine ⟨h.toTracked.of_loop ⟨lists', hlater⟩ (hafter.timer.trans hbefore.timer.symm)
    (hafter.expiries.trans hbefore.expiries.symm), ⟨started, w + 1, hafter⟩, h.quiet, ?_⟩
  have hleft : (s.loop.step .tick).timers.remaining p = s.loop.timers.remaining p - 1 := by
    rw [hafter.remaining, hbefore.remaining]
    push_cast
    omega
  show Timetable.Waiting calibTick n ((s.loop.step .tick).timers.remaining p) _ _
  rw [hleft]
  exact h.times.tick

theorem Awaiting.operation (h : Awaiting p base s n elapsed late)
    {action : TimerAction Func Param} (hallowed : s.StepAllowed (.operation action)) :
    Awaiting p base (s.step (.operation action)) n elapsed late := by
  obtain ⟨lists, horder⟩ := h.order
  exact h.of_waits (horder.step hallowed.1) fun started w hbefore ↦
    hbefore.operation horder hallowed.1 (hallowed.2 p h.handlePeriod)

/-- A statement of another handler. -/
theorem Awaiting.advance (h : Awaiting p base s n elapsed late)
    (hallowed : s.StepAllowed .advance) : Awaiting p base s.advance n elapsed late := by
  have hstage := h.stage.advance hallowed
  have hquiet := h.quiet
  unfold CalibLoop.advance
  cases hpending : s.measuring.pending with
  | nil => exact h
  | cons stmt rest =>
      simp only
      split
      · exact h
      · next hready =>
        rw [hpending] at hquiet
        have hadvance : s.measuring.advance = ⟨s.measuring.ad.effect stmt, rest⟩ := by
          simp only [Measuring.advance, hpending, if_neg hready]
        have htimers : s.timerEffect stmt = s.loop := by
          cases stmt with
          | timerTimeout ms => exact absurd List.mem_cons_self (hquiet ms)
          | _ => rfl
        have hperiod : (s.measuring.ad.effect stmt).period = s.measuring.ad.period := by
          cases stmt with
          | timerTimeout ms => exact absurd List.mem_cons_self (hquiet ms)
          | _ => rfl
        rw [htimers]
        refine h.of_measuring hstage ?_ ?_
        · rw [hadvance, hperiod]
        · rw [hadvance]
          exact fun ms hin ↦ hquiet ms (List.mem_cons_of_mem _ hin)

/-- The next step of `soft_timer_handle` has to do with another timer, or calls this one. -/
theorem Awaiting.handle (h : Awaiting p base s n elapsed late) :
    Awaiting p base s.handle n elapsed late ∨ Handling p base s.handle n elapsed late := by
  by_cases hidle : s.measuring.pending = []
  swap
  · rw [CalibLoop.handle, if_neg hidle]
    exact .inl h
  obtain ⟨lists, horder⟩ := h.order
  obtain ⟨started, w, hbefore⟩ := h.waits
  rw [CalibLoop.handle, if_pos hidle]
  by_cases hcalled : s.loop.handle.calling.map Fin.val = some s.handlePeriod
  · right
    obtain ⟨q, hcalling, hq⟩ := Option.map_eq_some_iff.mp hcalled
    obtain rfl := Fin.ext (hq.trans h.handlePeriod)
    obtain ⟨-, htime, -, htimers, hexpiries⟩ :=
      (hbefore.handle horder).resolve_left fun hstill ↦ hstill.calling hcalling
    obtain ⟨flag, htimer, hflag⟩ := s.loop.timers.enterCallback_timer q
    obtain ⟨hstage, hpositive⟩ := h.stage.selfCalib hidle
    have hperiod : (s.measuring.step .selfCalib).ad = s.measuring.ad := by
      rw [Measuring.step, if_pos hidle]
    rw [if_pos hcalled]
    refine ⟨⟨h.handlePeriod, horder.handle, hstage, ?_, ?_, ?_⟩, hcalling, hpositive, ?_⟩
    · obtain ⟨func, hfunc⟩ := Option.ne_none_iff_exists'.mp h.timer.func
      rw [hexpiries, ← hbefore.expiries, TimerManage.firing, hfunc, List.length_append, h.calls,
        List.length_singleton]
      omega
    · rw [htimers, htimer]
      exact ⟨h.timer.func, (hflag _ (by decide)).trans h.timer.periodic,
        (hflag _ (by decide)).trans h.timer.soft⟩
    · rw [htimers, htimer, hperiod]
      exact h.period
    · refine h.times.call ?_
      rw [hbefore.remaining]
      omega
  · left
    rw [if_neg hcalled]
    refine h.of_waits horder.handle fun started' w' hbefore' ↦ ?_
    rcases hbefore'.handle horder with hstill | ⟨-, -, hcalling, -⟩
    · exact hstill
    · exact absurd (by rw [hcalling, h.handlePeriod]; rfl) hcalled

theorem Awaiting.adEvent (h : Awaiting p base s n elapsed late) :
    Awaiting p base (s.step .adEvent) n elapsed late := by
  rw [CalibLoop.step]
  split
  swap
  · exact h
  have hstage := h.stage.adEvent
  have hquiet := h.quiet
  refine h.of_measuring hstage ?_ ?_
  · rw [Measuring.step]
    split <;> rfl
  · rw [Measuring.step]
    split
    · rcases CalibStage.eventHandleAd_cases s.measuring.ad.channelRead.2.info
        s.measuring.ad.channelRead.1 with heq | ⟨stus, cmd, heq⟩
      · simp [Measuring.adEvent, heq]
      · simp [Measuring.adEvent, heq]
    · exact hquiet

theorem Awaiting.poll (h : Awaiting p base s n elapsed late) :
    Awaiting p base (s.step .poll) n elapsed late := by
  have hstage := h.stage.poll
  have hquiet := h.quiet
  rw [CalibLoop.step]
  split
  · refine h.of_measuring hstage ?_ ?_
    · rw [Measuring.step]
      split <;> rfl
    · rw [Measuring.step]
      split
      · exact hquiet
      · exact hquiet
  · exact h

end Awaiting

theorem dmaComplete_period (ad : AdState) : ad.dmaComplete.period = ad.period := by
  unfold AdState.dmaComplete
  split <;> rfl

section Handling

theorem Handling.tick (h : Handling p base s n elapsed late) (hallowed : s.StepAllowed .tick) :
    Handling p base (s.step .tick) n (elapsed + 1) (late + 1) := by
  obtain ⟨lists, horder⟩ := h.order
  obtain ⟨htimer, hexpiries⟩ := horder.tick_calling hallowed h.calling
  exact ⟨h.toTracked.of_loop (horder.step hallowed) htimer hexpiries, h.calling, h.positive,
    h.times.tick⟩

theorem Handling.operation (h : Handling p base s n elapsed late)
    {action : TimerAction Func Param} (hallowed : s.StepAllowed (.operation action)) :
    Handling p base (s.step (.operation action)) n elapsed late := by
  obtain ⟨lists, horder⟩ := h.order
  obtain ⟨-, htimer, hexpiries⟩ := horder.operation_alone hallowed.1 (horder.calling p h.calling).1
    (hallowed.2 p h.handlePeriod)
  exact ⟨h.toTracked.of_loop (horder.step hallowed.1) htimer hexpiries, h.calling, h.positive,
    h.times⟩

/-- `timer_ioctl` gives the timer whose callback runs its next time. -/
theorem Tracked.timeout (h : Tracked p base s n) (hcalling : s.loop.calling = some p)
    {m : Measuring} {ms : BitVec 32} (hstage : CalibStage m n) (hperiod : m.ad.period = ms)
    (hpos : 0 < (svTickFromMillisecond ms).toNat) :
    Tracked p base { s with loop := s.timerEffect (.timerTimeout ms), measuring := m } n := by
  obtain ⟨lists, horder⟩ := h.order
  have hstep : s.timerEffect (.timerTimeout ms) =
      s.loop.step (.operation (.timeout p ms)) := by
    rw [timerEffect, h.handlePeriod]
    rfl
  have hallowed : s.loop.StepAllowed (.operation (.timeout p ms)) := by
    refine ⟨hpos, fun i hi ↦ .inr ⟨ms, ?_⟩⟩
    rw [hcalling] at hi
    rw [Option.some_inj.mp hi]
  have hshort : ¬ tickHalf ≤ svTickFromMillisecond ms := by
    rw [BitVec.le_def]
    exact Nat.not_le_of_lt ((svTickFromMillisecond_le ms).trans_lt (by decide))
  have htimers : (s.loop.step (.operation (.timeout p ms))).timers =
      s.loop.timers.setTimer p { s.loop.timers.timer p with
        initTick := svTickFromMillisecond ms } := by
    simp only [TimerLoop.step, timerStep, TimerManage.timerTimeout, dif_pos p.isLt, if_neg hshort]
  have htimer : (s.loop.step (.operation (.timeout p ms))).timers.timer p =
      { s.loop.timers.timer p with initTick := svTickFromMillisecond ms } := by
    rw [htimers]
    exact Function.update_self ..
  rw [hstep]
  refine ⟨h.handlePeriod, horder.step hallowed, hstage, ?_, ?_, ?_⟩
  · rw [htimers]
    exact h.calls
  · rw [htimer]
    exact ⟨h.timer.func, h.timer.periodic, h.timer.soft⟩
  · rw [htimer, hperiod]

/-- A statement of `self_calib_handle`. -/
theorem Handling.advance (h : Handling p base s n elapsed late)
    (hallowed : s.StepAllowed .advance) : Handling p base s.advance n elapsed late := by
  have hstage := h.stage.advance hallowed
  have hpositive := h.positive
  unfold CalibLoop.advance
  cases hpending : s.measuring.pending with
  | nil => exact h
  | cons stmt rest =>
      simp only
      split
      · exact h
      · next hready =>
        have hadvance : s.measuring.advance = ⟨s.measuring.ad.effect stmt, rest⟩ := by
          simp only [Measuring.advance, hpending, if_neg hready]
        have hrest : CalibStage.Positive s.measuring.advance := by
          intro ms hin
          rw [hadvance] at hin
          exact hpositive ms (hpending ▸ List.mem_cons_of_mem _ hin)
        cases stmt with
        | timerTimeout ms =>
            have hpos := hpositive ms (hpending ▸ List.mem_cons_self)
            exact ⟨h.toTracked.timeout h.calling hstage (by rw [hadvance]; rfl) hpos, h.calling,
              hrest, h.times⟩
        | _ =>
            exact ⟨h.toTracked.of_measuring hstage (by rw [hadvance]; rfl), h.calling, hrest,
              h.times⟩

/-- `soft_timer_handle` waits for the handler; when it is through, the timer is started again. -/
theorem Handling.handle (h : Handling p base s n elapsed late) :
    Awaiting p base s.handle (n + 1) elapsed late ∨ Handling p base s.handle n elapsed late := by
  by_cases hidle : s.measuring.pending = []
  swap
  · rw [CalibLoop.handle, if_neg hidle]
    exact .inr h
  left
  obtain ⟨lists, horder⟩ := h.order
  obtain ⟨hwaits, htimer, hexpiries⟩ :=
    TimerLoop.waits_of_return horder h.calling h.timer.periodic
  obtain ⟨hperiodic, hsoft⟩ := TimerManage.paused_kind (m := s.loop.timers) (i := p)
  obtain ⟨hfunc, hinitTick⟩ := TimerManage.paused_fields (m := s.loop.timers) (i := p)
  have hcalling : s.loop.handle.calling = none := by
    rw [TimerLoop.handle, h.calling]
  have hnot : ¬ s.loop.handle.calling.map Fin.val = some s.handlePeriod := by
    rw [hcalling]
    exact (Option.some_ne_none _).symm
  have hflag := SvTimer.hasFlag_startFlag ((s.loop.timers.paused p).timer p).flag
  have hinit : (s.loop.handle.timers.timer p).initTick =
      svTickFromMillisecond s.measuring.ad.period := by
    rw [htimer]
    exact hinitTick.trans h.period
  rw [CalibLoop.handle, if_pos hidle, if_neg hnot]
  refine ⟨⟨h.handlePeriod, horder.handle, h.stage, ?_, ?_, hinit⟩, ⟨_, 0, hwaits⟩, ?_, ?_⟩
  · rw [hexpiries, h.calls]
  · rw [htimer]
    refine ⟨?_, hflag.2.1.trans (hperiodic.trans h.timer.periodic),
      hflag.2.2.trans (hsoft.trans h.timer.soft)⟩
    rw [TimerManage.started, hfunc]
    exact h.timer.func
  · rw [hidle]
    exact fun _ ↦ List.not_mem_nil
  · refine h.times.rearm monotone_calibTick ?_
    rw [hwaits.remaining, hinit, calibTick_succ h.stage hidle]
    push_cast
    omega

end Handling

theorem lateTick_iff (hp : s.handlePeriod = p) :
    s.LateTick .tick ↔ s.loop.calling = some p ∨ s.loop.timers.remaining p ≤ 0 := by
  constructor
  · rintro ⟨i, hi, hlate⟩
    obtain rfl := Fin.ext (hi.symm.trans hp)
    exact hlate
  · exact fun hlate ↦ ⟨p, hp, hlate⟩

/-- Every step keeps to the timetable; only a tick while a call is due or runs makes it later. -/
theorem OnTimetable.step (h : OnTimetable p base s elapsed late)
    {action : CalibAction Func Param} (hallowed : s.StepAllowed action) :
    OnTimetable p base (s.step action) (elapsed + if action.isTick then 1 else 0)
      (late + if s.LateTick action then 1 else 0) := by
  obtain ⟨n, hawaiting | hhandling⟩ := h
  · cases action with
    | operation action => exact ⟨n, .inl (hawaiting.operation hallowed)⟩
    | tick =>
        obtain ⟨started, w, hwaits⟩ := hawaiting.waits
        have hlate := (lateTick_iff hawaiting.handlePeriod).trans
          (or_iff_right hwaits.calling)
        have hafter := hawaiting.tick hallowed
        refine ⟨n, .inl ?_⟩
        by_cases hup : s.loop.timers.remaining p ≤ 0
        · rw [if_pos hup] at hafter
          rwa [if_pos (hlate.mpr hup)]
        · rw [if_neg hup] at hafter
          rwa [if_neg (mt hlate.mp hup)]
    | dmaComplete =>
        exact ⟨n, .inl (hawaiting.of_measuring hawaiting.stage.dmaComplete
          (dmaComplete_period _) hawaiting.quiet)⟩
    | poll => exact ⟨n, .inl hawaiting.poll⟩
    | adEvent => exact ⟨n, .inl hawaiting.adEvent⟩
    | handle => exact ⟨n, hawaiting.handle⟩
    | advance => exact ⟨n, .inl (hawaiting.advance hallowed)⟩
  · have hbusy : ¬ s.loop.calling = none := by
      rw [hhandling.calling]
      exact Option.some_ne_none p
    cases action with
    | operation action => exact ⟨n, .inr (hhandling.operation hallowed)⟩
    | tick =>
        refine ⟨n, .inr ?_⟩
        rw [if_pos ((lateTick_iff hhandling.handlePeriod).mpr (.inl hhandling.calling))]
        exact hhandling.tick hallowed
    | dmaComplete =>
        exact ⟨n, .inr ⟨hhandling.toTracked.of_measuring hhandling.stage.dmaComplete
          (dmaComplete_period _), hhandling.calling, hhandling.positive, hhandling.times⟩⟩
    | poll =>
        refine ⟨n, .inr ?_⟩
        rw [CalibLoop.step, if_neg hbusy]
        exact hhandling
    | adEvent =>
        refine ⟨n, .inr ?_⟩
        rw [CalibLoop.step, if_neg hbusy]
        exact hhandling
    | handle =>
        rcases hhandling.handle with hawaiting | hstill
        · exact ⟨n + 1, .inl hawaiting⟩
        · exact ⟨n, .inr hstill⟩
    | advance => exact ⟨n, .inr (hhandling.advance hallowed)⟩

theorem OnTimetable.run (h : OnTimetable p base s elapsed late)
    {actions : List (CalibAction Func Param)}
    (hallowed : AllSteps CalibLoop.step StepAllowed s actions) :
    OnTimetable p base (Transition.run CalibLoop.step s actions)
      (elapsed + actions.countP CalibAction.isTick)
      (late + countSteps CalibLoop.step LateTick s actions) := by
  induction actions generalizing s elapsed late with
  | nil => exact h
  | cons action actions ih =>
      have hrest := ih (h.step hallowed.1) hallowed.2
      rw [List.countP_cons, add_comm (actions.countP _), ← add_assoc, countSteps, ← add_assoc]
      exact hrest

theorem selfCalibs_eq (hp : s.handlePeriod = p) :
    s.selfCalibs = (s.loop.timers.expiriesOf p).length := by
  rw [selfCalibs, TimerManage.expiriesOf, ← List.countP_eq_length_filter]
  congr 1
  funext expiry
  rw [decide_eq_decide, hp]
  exact Fin.val_inj

/-- Whatever call is due by the timetable has been made, and no other. -/
theorem OnTimetable.calls (h : OnTimetable p base s elapsed late) :
    ∃ calls, s.selfCalibs = base + calls ∧ (∀ n < calls, calibTick n + late ≤ elapsed) ∧
      ∀ n, calibTick n + late < elapsed → n < calls := by
  obtain ⟨n, hawaiting | hhandling⟩ := h
  · refine ⟨n, ?_, hawaiting.times.past, fun k hk ↦
      hawaiting.times.lt_of_due monotone_calibTick hk⟩
    rw [selfCalibs_eq hawaiting.handlePeriod, hawaiting.calls]
  · refine ⟨n + 1, ?_, fun k hk ↦ hhandling.times.due_of_lt monotone_calibTick hk,
      fun k hk ↦ hhandling.times.lt_of_due monotone_calibTick hk⟩
    rw [selfCalibs_eq hhandling.handlePeriod, hhandling.calls]

end CalibLoop

end ProjectSensor.App
