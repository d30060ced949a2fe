import ProjectSensor.Service.TimersOnTime

/-!
# The timers of the event loop

`timer_queue` registers soft timers and starts them; `run_every` of the event loop is passed on to
it.  A time that is too long is refused with another handle than the one `timer_add` looks for.
-/

open ProjectSensor.Library.SlotBitmap ProjectSensor.Library.Transition
open ProjectSensor.Service

namespace ProjectSensor.Reactor

variable {Func Param : Type}

/-- `(timer_handle_type)-1`. -/
def noHandle : ℕ := 255

/-- `enum timer_ioc` with its argument; `other` is any value outside it. -/
inductive TimerIoc where
  | restart
  | restartWithTime (ms : BitVec 32)
  | timeout (ms : BitVec 32)
  | stop
  | unregister
  | other

section Definitions

variable (m : TimerManage Func Param)

def timerAdd (ms : BitVec 32) (flag : BitVec 8) (cb : Option Func) (pparam : Param) :
    ℕ × TimerManage Func Param :=
  let (handle, m) := m.softTimerRegister ms flag cb pparam
  if handle = noHandle then (handle, m) else (handle, (m.timerStart handle).2)

def timerIoctl (handle : ℕ) : TimerIoc → ℤ × TimerManage Func Param
  | .restart => m.timerRestart handle
  | .restartWithTime ms => m.timerRestartMs handle ms
  | .timeout ms => m.timerTimeout handle ms
  | .stop => m.timerStop handle
  | .unregister =>
      let (done, m) := m.timerUnregister handle
      (if done then 1 else 0, m)
  | .other => (-1, m)

/-- `eventloop::run_every`: the handle. -/
def runEvery (ms : BitVec 32) (cb : Option Func) (pparam : Param) :
    ℕ × TimerManage Func Param :=
  timerAdd m ms (svTimerFlagSoftTimer ||| svTimerFlagPeriodic) cb pparam

end Definitions

/-- What `timer_add` hands `timer_register` as the flag. -/
def softFlag (flag : BitVec 8) : BitVec 8 :=
  (flag &&& (~~~0 ||| svTimerFlagSoftTimer)) ||| svTimerFlagSoftTimer

/-- A timer that was just added: registered in a slot that was free, and started. -/
structure Added (m m' : TimerManage Func Param) (ms : BitVec 32) (flag : BitVec 8)
    (cb : Option Func) (pparam : Param) (i : Fin monitorTimeNr) : Prop where
  free : taken m.bitmap i = false
  steps : m' = timerStep (timerStep m (.softRegister ms flag cb pparam)) (.start i)
  registered : (timerStep m (.softRegister ms flag cb pparam)).timer i =
    SvTimer.init cb pparam (svTickFromMillisecond ms) (softFlag flag)
  slot : taken (timerStep m (.softRegister ms flag cb pparam)).bitmap i = true

theorem hasFlag_softFlag : ∀ flag : BitVec 8,
    hasFlag (softFlag flag &&&
        ~~~(svTimerFlagActivated ||| svTimerFlagTimeout ||| svTimerFlagHandling))
          svTimerFlagPeriodic = hasFlag flag svTimerFlagPeriodic ∧
      hasFlag (softFlag flag &&&
        ~~~(svTimerFlagActivated ||| svTimerFlagTimeout ||| svTimerFlagHandling))
          svTimerFlagSoftTimer = true := by
  decide

namespace Added

variable {m m' : TimerManage Func Param} {ms : BitVec 32} {flag : BitVec 8} {cb : Option Func}
  {pparam : Param} {i : Fin monitorTimeNr}

theorem stopped (hadded : Added m m' ms flag cb pparam i) :
    ((timerStep m (.softRegister ms flag cb pparam)).timer i).activated = false := by
  rw [hadded.registered]
  exact SvTimer.activated_init ..

/-- A soft timer with the callback and the time that were asked for. -/
theorem timer (hadded : Added m m' ms flag cb pparam i) :
    (m'.timer i).timeoutFunc = cb ∧ (m'.timer i).initTick = svTickFromMillisecond ms ∧
      (m'.timer i).periodic = hasFlag flag svTimerFlagPeriodic ∧ (m'.timer i).soft = true := by
  have hstarted : m'.timer i = (timerStep m (.softRegister ms flag cb pparam)).started i := by
    rw [hadded.steps]
    change (TimerManage.timerStart _ i).2.timer i = _
    rw [timerStart_eq]
    exact svTimerStart_timer_self hadded.stopped
  have hflag := SvTimer.hasFlag_startFlag
    ((timerStep m (.softRegister ms flag cb pparam)).timer i).flag
  rw [hstarted]
  refine ⟨?_, ?_, hflag.2.1.trans ?_, hflag.2.2.trans ?_⟩
  · rw [TimerManage.started, hadded.registered]
    rfl
  · rw [TimerManage.started, hadded.registered]
    rfl
  · rw [hadded.registered]
    exact (hasFlag_softFlag flag).1
  · rw [hadded.registered]
    exact (hasFlag_softFlag flag).2

/-- Added outside a callback, the timer waits for its time. -/
theorem waits {loop : TimerLoop Func Param} {lists : Lists} (h : loop.InOrder lists)
    (hidle : loop.calling = none) (hpos : 0 < (svTickFromMillisecond ms).toNat)
    (hadded : Added loop.timers m' ms flag cb pparam i) :
    (∃ lists', TimerLoop.InOrder { loop with timers := m' } lists') ∧
      TimerLoop.Waits { loop with timers := m' } { loop with timers := m' } i 0 := by
  have hregister : loop.StepAllowed (.operation (.softRegister ms flag cb pparam)) :=
    TimerLoop.stepAllowed_of_idle hidle hpos
  obtain ⟨lists', horder⟩ := h.step hregister
  set registered := loop.step (.operation (.softRegister ms flag cb pparam)) with hregistered
  have hstart : registered.StepAllowed (.operation (.start i)) :=
    TimerLoop.stepAllowed_of_idle (show registered.calling = none from hidle) fun _ ↦ hadded.slot
  have hstarts : Starts registered.timers i (.start i) := by
    have hstopped : (registered.timers.timer i).activated = false := hadded.stopped
    refine ⟨rfl, ?_⟩
    rw [timerStart_eq, TimerManage.svTimerStart, if_neg (by simp [hstopped])]
  have hloop : { loop with timers := m' } = registered.step (.operation (.start i)) := by
    rw [hadded.steps]
    rfl
  rw [hloop]
  exact ⟨horder.step hstart, (TimerLoop.waits_of_starts horder hstart hstarts).1⟩

end Added

end ProjectSensor.Reactor
