import ProjectSensor.Library.Transition
import ProjectSensor.Service.Delays
import ProjectSensor.Service.HardTimerRun

/-!
# How long `poll` waits

All calls of `poller::poll` share the one-shot hard timer of the poller.  A call starts the timer,
and tests it before each pass over the channels; it returns when the timer has expired, or after a
pass that found an event.  In the second case the timer is left running, and `sv_timer_start`
refuses a timer that runs: the next call then waits for what is left of the time of an earlier one.
Ticks and everything that is done with other timers come between any two passes.
-/

open ProjectSensor.Library ProjectSensor.Library.Transition
open ProjectSensor.Service

namespace ProjectSensor.Reactor

/-- `POLLOUT` and `POLLIN`, as a channel is asked for them. -/
def pollOut : BitVec 8 := 0x01

def pollIn : BitVec 8 := 0x02

/-- `DEVICE_POLLIN` and `DEVICE_POLLOUT`, as a device answers. -/
def devicePollIn : BitVec 32 := 0x02

def devicePollOut : BitVec 32 := 0x04

/-- What `poll` reads and writes of a channel. -/
structure Channel where
  events : BitVec 8
  revents : BitVec 8

/-- The event `poll` takes from the answer of the device; the errors are negative. -/
def Channel.occurred (channel : Channel) (rt : BitVec 32) : Option (BitVec 8) :=
  if 0 < rt.toInt then
    if devicePollIn &&& rt ≠ 0 ∧ channel.events &&& pollIn ≠ 0 then some pollIn
    else if devicePollOut &&& rt ≠ 0 ∧ channel.events &&& pollOut ≠ 0 then some pollOut
    else none
  else none

/-- A call of `poll` under way, and the ticks since it began. -/
structure PollCall where
  timeoutMs : BitVec 32
  elapsed : ℕ

variable {Func Param Chan : Type}

/-- A call of `poll` that has returned, and the list it has filled. -/
structure PollReturn (Chan : Type) where
  timeoutMs : BitVec 32
  elapsed : ℕ
  activeChannels : List Chan
  deriving DecidableEq

/-- The poller, the timers, the call under way and a record of the calls that have returned, the
latest first. -/
structure Poller (Func Param Chan : Type) where
  manage : TimerManage Func Param
  handleTimer : Fin monitorTimeNr
  channels : List Chan
  channel : Chan → Channel
  call : Option PollCall
  returns : List (PollReturn Chan)

/-- A pass comes with the answers of the devices, and `elsewhere` with all the timers and channels
as others have left them. -/
inductive PollAction (Func Param Chan : Type) where
  | poll (timeoutMs : BitVec 32)
  | pass (answer : Chan → BitVec 32)
  | tick
  | elsewhere (others : TimerManage Func Param) (channels : List Chan) (channel : Chan → Channel)

namespace Poller

/-- The poller before its first call. -/
def construct (manage : TimerManage Func Param) (handleTimer : Fin monitorTimeNr)
    (channels : List Chan) (channel : Chan → Channel) : Poller Func Param Chan where
  manage := manage
  handleTimer := handleTimer
  channels := channels
  channel := channel
  call := none
  returns := []

/-- `newDefaultPoller`; the assertion fails when there is no slot for the timer. -/
def newDefaultPoller (manage : TimerManage Func Param) (null : Param) (channels : List Chan)
    (channel : Chan → Channel) : Option (Poller Func Param Chan) :=
  let (handle, manage) := manage.hardTimerRegister 1000 0 none null
  if h : handle < monitorTimeNr then some (construct manage ⟨handle, h⟩ channels channel)
  else none

/-- The timer of the poller. -/
def timer (state : Poller Func Param Chan) : SvTimer Func Param :=
  state.manage.timer state.handleTimer

/-- The call under way returns. -/
def finish (state : Poller Func Param Chan) (call : PollCall) (activeChannels : List Chan) :
    Poller Func Param Chan :=
  { state with
    call := none
    returns := ⟨call.timeoutMs, call.elapsed, activeChannels⟩ :: state.returns }

variable [DecidableEq Chan] (state : Poller Func Param Chan)

/-- The pass over `m_channels`: the channels with their `revents`, and `activeChannels`. -/
def scan (answer : Chan → BitVec 32) : (Chan → Channel) × List Chan :=
  state.channels.foldl (fun (channel, active) it ↦
    match (channel it).occurred (answer it) with
    | some revt => (Function.update channel it { channel it with revents := revt }, it :: active)
    | none => (channel, active)) (state.channel, [])

/-- The test of the loop and, when it goes on, its body. -/
def pass (call : PollCall) (answer : Chan → BitVec 32) : Poller Func Param Chan :=
  if state.manage.timerExpired state.handleTimer ≠ 0 then state.finish call []
  else
    let (channel, active) := state.scan answer
    let state := { state with channel := channel }
    if active.isEmpty then state else state.finish call active

def step : PollAction Func Param Chan → Poller Func Param Chan
  | .poll timeoutMs =>
      match state.call with
      | some _ => state
      | none =>
          { state with
            manage := (state.manage.timerStartMs state.handleTimer timeoutMs).2
            call := some ⟨timeoutMs, 0⟩ }
  | .pass answer =>
      match state.call with
      | some call => state.pass call answer
      | none => state
  | .tick =>
      { state with
        manage := state.manage.svTickIncrease
        call := state.call.map fun call ↦ { call with elapsed := call.elapsed + 1 } }
  | .elsewhere others channels channel =>
      { state with
        manage := { others with
          sTick := state.manage.sTick
          timer := Function.update others.timer state.handleTimer state.timer }
        channels := channels
        channel := channel }

end Poller

/-- The ticks a call is asked to wait. -/
abbrev requested (timeoutMs : BitVec 32) : ℕ := (svTickFromMillisecond timeoutMs).toNat

/-- No call has returned empty-handed before its time. -/
def WaitsFully (state : Poller Func Param Chan) : Prop :=
  ∀ last ∈ state.returns, last.activeChannels = [] → requested last.timeoutMs ≤ last.elapsed

/-- A call finds the timer of the poller not running, or with the requested time still to go. -/
def NotCutShort (state : Poller Func Param Chan) : PollAction Func Param Chan → Prop
  | .poll timeoutMs => state.call = none → state.timer.activated = true →
      state.manage.timerExpired state.handleTimer = 0 ∧
        requested timeoutMs ≤ state.manage.left state.handleTimer ∧
        state.manage.left state.handleTimer < tickHalf.toNat
  | _ => True

/-- While a call is under way and its time has not passed, the timer has not expired, and its
deadline is no nearer than the rest of that time. -/
def HasTime (state : Poller Func Param Chan) : Prop :=
  ∀ call ∈ state.call, requested call.timeoutMs ≤ call.elapsed ∨
    state.manage.timerExpired state.handleTimer = 0 ∧
      requested call.timeoutMs ≤ call.elapsed + state.manage.left state.handleTimer ∧
      state.manage.left state.handleTimer < tickHalf.toNat

variable [DecidableEq Chan] {state : Poller Func Param Chan}

/-- `timer_start` with a time: no time is too long, so only a running timer is refused. -/
theorem timerStartMs_eq (m : TimerManage Func Param) (i : Fin monitorTimeNr) (ms : BitVec 32) :
    m.timerStartMs i ms = (m.setTimer i
      { m.timer i with initTick := svTickFromMillisecond ms }).svTimerStart i := by
  have hshort := BitVec.not_le.mpr (svTickFromMillisecond_lt_tickHalf ms)
  simp [TimerManage.timerStartMs, TimerManage.timerTimeout, TimerManage.timerStart, hshort]

/-- A running timer keeps its deadline. -/
theorem timerStartMs_of_activated {m : TimerManage Func Param} {i : Fin monitorTimeNr}
    (hactive : (m.timer i).activated = true) (ms : BitVec 32) :
    (m.timerStartMs i ms).2.timerExpired i = m.timerExpired i ∧
      (m.timerStartMs i ms).2.left i = m.left i := by
  rw [timerStartMs_eq, TimerManage.svTimerStart, if_pos]
  · simp [TimerManage.timerExpired, TimerManage.left, TimerManage.setTimer]
  · simpa [TimerManage.setTimer, SvTimer.activated] using hactive

theorem startFlag_not_expired (flag : BitVec 8) :
    SvTimer.startFlag flag &&& svTimerFlagTimeout = 0 := by
  revert flag
  decide +kernel

/-- A timer that is not running has the whole of the requested time. -/
theorem timerStartMs_of_idle {m : TimerManage Func Param} {i : Fin monitorTimeNr}
    (hidle : (m.timer i).activated = false) (ms : BitVec 32) :
    (m.timerStartMs i ms).2.timerExpired i = 0 ∧
      (m.timerStartMs i ms).2.left i = requested ms := by
  have hidle' : ¬ ((m.setTimer i { m.timer i with
      initTick := svTickFromMillisecond ms }).timer i).activated = true := by
    simpa [TimerManage.setTimer, SvTimer.activated] using hidle
  have hstart : (m.timerStartMs i ms).2.timer i =
        { m.timer i with
          initTick := svTickFromMillisecond ms
          flag := SvTimer.startFlag (m.timer i).flag
          timeoutTick := m.sTick + svTickFromMillisecond ms } ∧
      (m.timerStartMs i ms).2.sTick = m.sTick := by
    rw [timerStartMs_eq, TimerManage.svTimerStart, if_neg hidle']
    simp [TimerManage.setFlag, TimerManage.setTimer, SvTimer.startFlag]
  obtain ⟨htimer, htick⟩ := hstart
  constructor
  · rw [TimerManage.timerExpired_eq, htimer, startFlag_not_expired]
    rfl
  · rw [TimerManage.left, htimer, htick, WrappedTime.left_add]

/-- A tick uses up one tick of the call. -/
theorem hasTime_tick (htime : HasTime state) : HasTime (state.step .tick) := by
  intro call hcall
  obtain ⟨before, hbefore, rfl⟩ := Option.map_eq_some_iff.mp hcall
  rcases htime before hbefore with hdone | ⟨hexpired, hrest, hwindow⟩
  · exact .inl (Nat.le_succ_of_le hdone)
  by_cases hmore : 1 < state.manage.left state.handleTimer
  · obtain ⟨htimer, hleft⟩ := TimerManage.svTickIncrease_timer hwindow hmore
    refine .inr ⟨?_, ?_, ?_⟩
    · calc state.manage.svTickIncrease.timerExpired state.handleTimer
          = state.manage.timerExpired state.handleTimer := by
            rw [TimerManage.timerExpired_eq, TimerManage.timerExpired_eq, htimer]
        _ = 0 := hexpired
    · change requested before.timeoutMs ≤
        before.elapsed + 1 + state.manage.svTickIncrease.left state.handleTimer
      rw [hleft]
      omega
    · change state.manage.svTickIncrease.left state.handleTimer < _
      rw [hleft]
      omega
  · refine .inl ?_
    change requested before.timeoutMs ≤ before.elapsed + 1
    omega

/-- A call that finds enough time has it. -/
theorem hasTime_poll (htime : HasTime state) (timeoutMs : BitVec 32)
    (huncut : NotCutShort state (.poll timeoutMs)) : HasTime (state.step (.poll timeoutMs)) := by
  rcases hcall : state.call with _ | before
  · intro call hnew
    rw [Poller.step, hcall] at hnew ⊢
    obtain rfl : ⟨timeoutMs, 0⟩ = call := Option.some.inj hnew
    refine .inr ?_
    by_cases hactive : state.timer.activated = true
    · obtain ⟨hexpired, hleft⟩ := timerStartMs_of_activated hactive timeoutMs
      obtain ⟨hnot, henough, hwindow⟩ := huncut hcall hactive
      exact ⟨hexpired.trans hnot, by simpa [hleft] using henough, by simpa [hleft] using hwindow⟩
    · obtain ⟨hexpired, hleft⟩ :=
        timerStartMs_of_idle (Bool.eq_false_iff.mpr hactive) timeoutMs
      refine ⟨hexpired, by simp [hleft], ?_⟩
      rw [hleft]
      exact BitVec.lt_def.mp (svTickFromMillisecond_lt_tickHalf timeoutMs)
  · rw [Poller.step, hcall]
    exact htime

/-- What a pass can do: return with nothing, go on, or return with the channels it found. -/
theorem pass_cases (state : Poller Func Param Chan) (call : PollCall)
    (answer : Chan → BitVec 32) :
    (state.manage.timerExpired state.handleTimer ≠ 0 ∧
        state.pass call answer = state.finish call []) ∨
      (state.pass call answer = { state with channel := (state.scan answer).1 }) ∨
      ((state.scan answer).2 ≠ [] ∧ state.pass call answer =
        { state with channel := (state.scan answer).1 }.finish call (state.scan answer).2) := by
  rw [Poller.pass]
  by_cases hexpired : state.manage.timerExpired state.handleTimer ≠ 0
  · exact .inl ⟨hexpired, if_pos hexpired⟩
  · rw [if_neg hexpired]
    by_cases hnone : (state.scan answer).2 = []
    · exact .inr (.inl (if_pos (List.isEmpty_iff.mpr hnone)))
    · exact .inr (.inr ⟨hnone, if_neg (mt List.isEmpty_iff.mp hnone)⟩)

theorem step_pass {call : PollCall} (hcall : state.call = some call) (answer : Chan → BitVec 32) :
    state.step (.pass answer) = state.pass call answer := by
  simp only [Poller.step, hcall]

/-- A pass leaves the timer alone, and ends the call or lets it go on. -/
theorem hasTime_pass (htime : HasTime state) (answer : Chan → BitVec 32) :
    HasTime (state.step (.pass answer)) := by
  rcases hcall : state.call with _ | call
  · rw [Poller.step, hcall]
    exact htime
  rw [step_pass hcall]
  obtain ⟨-, hpass⟩ | hpass | ⟨-, hpass⟩ := pass_cases state call answer
  · rw [hpass]
    exact fun _ hnone ↦ absurd hnone (by simp [Poller.finish])
  · rw [hpass]
    exact htime
  · rw [hpass]
    exact fun _ hnone ↦ absurd hnone (by simp [Poller.finish])

theorem hasTime_step {action : PollAction Func Param Chan} (htime : HasTime state)
    (huncut : NotCutShort state action) : HasTime (state.step action) := by
  cases action with
  | poll timeoutMs => exact hasTime_poll htime timeoutMs huncut
  | pass answer => exact hasTime_pass htime answer
  | tick => exact hasTime_tick htime
  | elsewhere others channels channel =>
      intro call hcall
      have hrest := htime call hcall
      simpa [Poller.step, Poller.timer, TimerManage.timerExpired_eq, TimerManage.left] using hrest

/-- A call that has time does not return empty-handed before it has passed. -/
theorem waitsFully_step {action : PollAction Func Param Chan} (htime : HasTime state)
    (hwaits : WaitsFully state) : WaitsFully (state.step action) := by
  cases action with
  | poll timeoutMs =>
      rcases hcall : state.call with _ | call <;> rwa [Poller.step, hcall]
  | pass answer =>
      rcases hcall : state.call with _ | call
      · rwa [Poller.step, hcall]
      rw [step_pass hcall]
      obtain ⟨hexpired, hpass⟩ | hpass | ⟨hfound, hpass⟩ := pass_cases state call answer
      · rw [hpass]
        intro last hlast _
        rcases List.mem_cons.mp hlast with rfl | hearlier
        · exact (htime call hcall).resolve_right fun hrest ↦ hexpired hrest.1
        · exact hwaits last hearlier ‹_›
      · rwa [hpass]
      · rw [hpass]
        intro last hlast hempty
        rcases List.mem_cons.mp hlast with rfl | hearlier
        · exact absurd hempty hfound
        · exact hwaits last hearlier hempty
  | tick => exact hwaits
  | elsewhere others channels channel => exact hwaits

/-- In every run in which each call finds the timer of the poller not running, or running with the
requested time still to go, no call returns empty-handed before its time. -/
theorem poll_waits_fully (manage : TimerManage Func Param) (handleTimer : Fin monitorTimeNr)
    (channels : List Chan) (channel : Chan → Channel) (actions : List (PollAction Func Param Chan))
    (huncut : AllSteps Poller.step NotCutShort
      (Poller.construct manage handleTimer channels channel) actions) :
    AllStates Poller.step WaitsFully (Poller.construct manage handleTimer channels channel)
      actions := by
  have hstart : HasTime (Poller.construct manage handleTimer channels channel) ∧
      WaitsFully (Poller.construct manage handleTimer channels channel) :=
    ⟨fun _ hcall ↦ absurd hcall (by simp [Poller.construct]),
      fun _ hlast ↦ absurd hlast List.not_mem_nil⟩
  have hboth : AllStates Poller.step (fun state ↦ HasTime state ∧ WaitsFully state)
      (Poller.construct manage handleTimer channels channel) actions :=
    allStates_of_step (fun _ _ hboth hallowed ↦
      ⟨hasTime_step hboth.1 hallowed, waitsFully_step hboth.1 hboth.2⟩) hstart huncut
  exact hboth.mono fun _ hstate ↦ hstate.2

/-- A call ended by an event, three ticks in which its timer runs out, and a call that waits. -/
theorem poll_waits_fully_after_event :
    AllStates Poller.step WaitsFully
      (Poller.construct (TimerManage.hardTimerRegister (constructAt clearedLinks () 0) 1000 0
        (none : Option Unit) ()).2 0 [()] fun _ ↦ ⟨pollIn, 0⟩)
      [.poll 30, .pass fun _ ↦ devicePollIn, .tick, .tick, .tick,
       .poll 30, .tick, .tick, .tick, .pass fun _ ↦ 0] := by
  have hnot : ∀ state : Poller Unit Unit Unit, ∀ timeoutMs,
      state.timer.activated = false → NotCutShort state (.poll timeoutMs) :=
    fun _ _ hidle _ hactive ↦ absurd hactive (by simp [hidle])
  refine poll_waits_fully _ _ _ _ _ ⟨hnot _ _ (by decide +kernel), trivial, trivial, trivial,
    trivial, hnot _ _ (by decide +kernel), trivial, trivial, trivial, trivial, trivial⟩

/-- An event ends the first call at once.  Two ticks later the second call finds the timer with one
tick left, and returns with nothing after it instead of after three. -/
theorem poll_returns_early_after_event :
    ¬ ∀ (actions : List (PollAction Unit Unit Unit)),
      ∀ state ∈ Poller.newDefaultPoller (constructAt clearedLinks () 0) () [()]
        fun _ ↦ ⟨pollIn, 0⟩, AllStates Poller.step WaitsFully state actions := by
  intro hwaits
  have hlast := (hwaits [.poll 30, .pass fun _ ↦ devicePollIn, .tick, .tick,
    .poll 30, .tick, .pass fun _ ↦ 0] _ rfl).last
  exact absurd (hlast ⟨30, 1, []⟩ (by decide +kernel) rfl) (by decide +kernel)

/-- Ticks on their own. -/
theorem run_ticks (state : Poller Func Param Chan) (ticks : ℕ) :
    run Poller.step state (List.replicate ticks .tick) =
      { state with
        manage := run hardStep state.manage (List.replicate ticks .tick)
        call := state.call.map fun call ↦ { call with elapsed := call.elapsed + ticks } } := by
  induction ticks generalizing state with
  | zero => simp
  | succ ticks ih =>
      rw [List.replicate_succ, run_cons, ih, List.replicate_succ, run_cons, Poller.step,
        Option.map_map, hardStep]
      congr 2
      funext call
      simp only [Function.comp_apply, PollCall.mk.injEq, true_and]
      omega

theorem allowed_ticks (m : TimerManage Func Param) (ticks : ℕ) :
    AllSteps hardStep HardAllowed m (List.replicate ticks .tick) := by
  induction ticks generalizing m with
  | zero => trivial
  | succ ticks ih => exact ⟨trivial, ih _⟩

/-- A running one-shot timer has expired once the time it had left has passed. -/
theorem expired_of_ticks {m : TimerManage Func Param} {timers : List (Fin monitorTimeNr)}
    {i : Fin monitorTimeNr} (h : HardLists m timers) (hpending : Pending m timers)
    (hi : i ∈ timers) (honeShot : (m.timer i).periodic = false) :
    (run hardStep m (List.replicate (m.left i) .tick)).timerExpired i ≠ 0 := by
  obtain ⟨less, hless⟩ := Nat.exists_eq_add_of_lt (hpending i hi)
  rw [Nat.zero_add] at hless
  have halone : ∀ action ∈ List.replicate less (HardAction.tick : HardAction Func Param),
      HardAction.disturbs i action = false := fun action hin ↦ by
    rw [List.eq_of_mem_replicate hin]
    rfl
  have hticks : (List.replicate less (HardAction.tick : HardAction Func Param)).countP
      HardAction.isTick + 1 = m.left i := by
    simp [List.countP_replicate, HardAction.isTick, hless]
  have honTime := h.onTime hpending hi (allowed_ticks m less) halone hticks
    (sub_add_cancel _ (m.timer i).initTick).symm
  rw [hless, List.replicate_succ', run_append]
  exact (honTime.oneShot honeShot).1

/-- The refused start of a running timer sets its `init_tick` and nothing else. -/
theorem timerStartMs_refused {m : TimerManage Func Param} {timers : List (Fin monitorTimeNr)}
    {i : Fin monitorTimeNr} (h : HardLists m timers) (hpending : Pending m timers)
    (hactive : (m.timer i).activated = true) {ms : BitVec 32} (hpos : 0 < requested ms) :
    HardLists (m.timerStartMs i ms).2 timers ∧ Pending (m.timerStartMs i ms).2 timers ∧
      ((m.timerStartMs i ms).2.timer i).periodic = (m.timer i).periodic := by
  have hshort := BitVec.not_le.mpr (svTickFromMillisecond_lt_tickHalf ms)
  have hrefused : (m.timerStartMs i ms).2 = (m.timerTimeout i ms).2 := by
    rw [timerStartMs_eq, TimerManage.svTimerStart, if_pos]
    · simp [TimerManage.timerTimeout, hshort]
    · simpa [TimerManage.setTimer, SvTimer.activated] using hactive
  obtain ⟨hcont, -⟩ := h.timeout hpending i hpos
  rw [hrefused]
  refine ⟨hcont.hard, hcont.pending, ?_⟩
  simp [TimerManage.timerTimeout, TimerManage.setTimer, SvTimer.periodic, hshort]

/-- The condition is exact: where the hard timers are in order and a call finds the timer running
with too little time, it returns too early with nothing when no device has anything to report. -/
theorem poll_cut_short {timers : List (Fin monitorTimeNr)} (h : HardLists state.manage timers)
    (hpending : Pending state.manage timers) (honeShot : state.timer.periodic = false)
    (hquiet : state.manage.timerExpired state.handleTimer = 0) {timeoutMs : BitVec 32}
    (hcut : ¬ NotCutShort state (.poll timeoutMs)) :
    ¬ WaitsFully (run Poller.step state (.poll timeoutMs ::
      (List.replicate (state.manage.left state.handleTimer) .tick ++ [.pass fun _ ↦ 0]))) := by
  obtain ⟨hcall, hactive, hless⟩ : state.call = none ∧ state.timer.activated = true ∧
      state.manage.left state.handleTimer < requested timeoutMs := by
    rw [NotCutShort] at hcut
    push Not at hcut
    obtain ⟨hcall, hactive, hshort⟩ := hcut
    have hwindow := h.window _ (h.mem_iff.mpr hactive)
    exact ⟨hcall, hactive, not_le.mp fun hle ↦ absurd (hshort hquiet hle) (not_le.mpr hwindow)⟩
  obtain ⟨-, hleft⟩ := timerStartMs_of_activated hactive timeoutMs
  obtain ⟨hhard, hpend, hperiodic⟩ :=
    timerStartMs_refused h hpending hactive (Nat.zero_lt_of_lt hless)
  have hexpired := expired_of_ticks hhard hpend (h.mem_iff.mpr hactive) (hperiodic.trans honeShot)
  rw [hleft] at hexpired
  have hbegun : state.step (.poll timeoutMs) = { state with
      manage := (state.manage.timerStartMs state.handleTimer timeoutMs).2
      call := some ⟨timeoutMs, 0⟩ } := by simp only [Poller.step, hcall]
  intro hwaits
  rw [run_cons, hbegun, run_append, run_ticks, run_cons, run_nil, step_pass rfl, Poller.pass,
    if_pos hexpired] at hwaits
  have hlast := hwaits _ List.mem_cons_self rfl
  simp only [Nat.zero_add] at hlast
  omega

end ProjectSensor.Reactor
