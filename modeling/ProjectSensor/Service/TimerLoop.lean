import ProjectSensor.Service.TimedLists

/-!
# The soft timers in the event loop

`timer_handle` runs with interrupts disabled except while a callback runs, so a pass over the soft
timers can be interrupted by a tick between any two of its steps: a timer that is due is taken off
the list and its callback entered (`enterCallback`), the callback returns and the timer is started
again or settled (`leaveCallback`), and the pass ends at the first timer that is not due.  In every
run of these steps, ticks and operations, both lists stay in the order of the deadlines.
-/

open ProjectSensor.Library ProjectSensor.Library.SlotBitmap ProjectSensor.Library.Transition

namespace ProjectSensor.Service

variable {Func Param : Type}

namespace TimerManage

variable (m : TimerManage Func Param)

/-- The first half of `expire`, up to the call of `t->timeout_func`. -/
def enterCallback (i : Fin monitorTimeNr) : TimerManage Func Param :=
  let m := { m with links := listDel m.links (.timer i) }
  match (m.timer i).timeoutFunc with
  | none => m
  | some func =>
      let m := m.setFlag i ((m.timer i).flag ||| svTimerFlagHandling)
      { m with expiries := ⟨i, func, (m.timer i).parameter, m.sTick⟩ :: m.expiries }

/-- The return of `t->timeout_func`. -/
def returned (i : Fin monitorTimeNr) : TimerManage Func Param :=
  match (m.timer i).timeoutFunc with
  | none => m
  | some _ => m.setFlag i ((m.timer i).flag &&& ~~~svTimerFlagHandling)

/-- The second half of `expire`. -/
def leaveCallback (head : TimerNode) (i : Fin monitorTimeNr) : TimerManage Func Param :=
  let m := m.returned i
  let t := m.timer i
  if t.periodic && t.activated then
    let m := m.setFlag i (t.flag &&& ~~~svTimerFlagActivated)
    (m.svTimerStart i).2
  else
    let m := m.setFlag i (t.flag &&& ~~~svTimerFlagActivated ||| svTimerFlagTimeout)
    if head = .softTimerList then { m with bitmap := release m.bitmap i } else m

/-- The end of `soft_timer_handle`. -/
def softTimerDone : TimerManage Func Param := { m with softTimerHandling := false, sTime := 0 }

end TimerManage

/-- The timers, and the one whose callback `soft_timer_handle` has called. -/
structure TimerLoop (Func Param : Type) where
  timers : TimerManage Func Param
  calling : Option (Fin monitorTimeNr)

/-- An operation on a timer, the tick interrupt, or the next step of `soft_timer_handle`. -/
inductive TimerLoopAction (Func Param : Type) where
  | operation (action : TimerAction Func Param)
  | tick
  | handle

namespace TimerLoop

variable (s : TimerLoop Func Param)

def construct (links : LinkedRing.Links TimerNode) (parameter : Param) (tick : Tick) :
    TimerLoop Func Param where
  timers := constructAt links parameter tick
  calling := none

/-- The callback that runs returns, or the loop of `timer_handle` comes to its test. -/
def handle : TimerLoop Func Param :=
  match s.calling with
  | some i => ⟨s.timers.leaveCallback .softTimerList i, none⟩
  | none =>
      match s.timers.links.next .softTimerList with
      | .timer i =>
          if s.timers.sTick - (s.timers.timer i).timeoutTick < tickHalf then
            ⟨s.timers.enterCallback i, some i⟩
          else ⟨s.timers.softTimerDone, none⟩
      | _ => ⟨s.timers.softTimerDone, none⟩

def step : TimerLoopAction Func Param → TimerLoop Func Param
  | .operation action => { s with timers := timerStep s.timers action }
  | .tick => { s with timers := s.timers.svTickIncrease }
  | .handle => s.handle

end TimerLoop

namespace TimerLoopAction

/-- An operation that stops or restarts a timer or gives it a new time. -/
def disturbs (i : Fin monitorTimeNr) : TimerLoopAction Func Param → Bool
  | .operation action => HardAction.disturbs i (.operation action)
  | _ => false

def isTick : TimerLoopAction Func Param → Bool
  | .tick => true
  | _ => false

end TimerLoopAction

theorem OnLists.front_soft {m : TimerManage Func Param} {lists : Lists} (h : OnLists m lists)
    {i : Fin monitorTimeNr} (hnext : m.links.next .softTimerList = .timer i) :
    ∃ rest, lists true = i :: rest :=
  h.rings.next_head (show m.links.next (headOf true) = .timer i from hnext)

namespace TimerManage

variable (m : TimerManage Func Param) (i : Fin monitorTimeNr)

/-- The timers with the one whose callback runs counted as stopped. -/
def paused : TimerManage Func Param :=
  (m.returned i).setFlag i (((m.returned i).timer i).flag &&& ~~~svTimerFlagActivated)

variable {m i}

/-- Without an interrupt while the callback runs, the two halves are `expire`. -/
theorem expire_eq_leaveCallback (head : TimerNode) (tick : Tick) :
    m.expire head i tick = ({ m.enterCallback i with
      sTick := if (m.timer i).timeoutFunc.isSome then tick else m.sTick } :
        TimerManage Func Param).leaveCallback head i := by
  unfold expire callTimeoutFunc enterCallback leaveCallback returned
  cases hfunc : (m.timer i).timeoutFunc <;> simp [hfunc, setFlag, setTimer]

/-- Entering a callback takes no time and frees no slot; the call is recorded. -/
theorem enterCallback_frame : (m.enterCallback i).sTick = m.sTick ∧
    (m.enterCallback i).bitmap = m.bitmap ∧
      (m.enterCallback i).expiries = m.firing i ++ m.expiries := by
  unfold enterCallback firing
  cases hfunc : (m.timer i).timeoutFunc <;> simp [hfunc, setFlag, setTimer]

/-- While its callback runs only the `HANDLING` flag of a timer differs. -/
theorem enterCallback_timer (m : TimerManage Func Param) (i : Fin monitorTimeNr) :
    ∃ flag, (m.enterCallback i).timer i = { m.timer i with flag := flag } ∧
      ∀ test, svTimerFlagHandling &&& test = 0 →
        hasFlag flag test = hasFlag (m.timer i).flag test := by
  cases hfunc : (m.timer i).timeoutFunc with
  | none =>
      have hsame : (m.enterCallback i).timer = m.timer := by simp [enterCallback, hfunc]
      exact ⟨(m.timer i).flag, by rw [hsame], fun _ _ ↦ rfl⟩
  | some func =>
      exact ⟨(m.timer i).flag ||| svTimerFlagHandling,
        by simp [enterCallback, hfunc, setFlag, setTimer],
        fun _ hother ↦ hasFlag_or_of_disjoint _ hother⟩

theorem activated_enterCallback (i : Fin monitorTimeNr) :
    ((m.enterCallback i).timer i).activated = (m.timer i).activated := by
  obtain ⟨flag, htimer, hflag⟩ := m.enterCallback_timer i
  rw [htimer]
  exact hflag _ (by decide)

theorem paused_enterCallback : (m.enterCallback i).paused i = m.called i m.sTick := by
  unfold enterCallback paused returned called calledFlag firing
  cases hfunc : (m.timer i).timeoutFunc <;> simp [hfunc, setFlag, setTimer, listDel_eq]

/-- Counting a timer as stopped changes its flag only. -/
theorem paused_eq : m.paused i = m.setFlag i ((m.paused i).timer i).flag := by
  unfold paused returned
  cases hfunc : (m.timer i).timeoutFunc <;> simp [setFlag, setTimer]

theorem paused_fields : ((m.paused i).timer i).timeoutFunc = (m.timer i).timeoutFunc ∧
    ((m.paused i).timer i).initTick = (m.timer i).initTick := by
  rw [paused_eq]
  simp [setFlag, setTimer]

/-- A paused timer keeps its kind. -/
theorem paused_kind : ((m.paused i).timer i).periodic = (m.timer i).periodic ∧
    ((m.paused i).timer i).soft = (m.timer i).soft := by
  have hreturned : hasFlag ((m.returned i).timer i).flag svTimerFlagPeriodic =
      (m.timer i).periodic ∧
        hasFlag ((m.returned i).timer i).flag svTimerFlagSoftTimer = (m.timer i).soft := by
    unfold returned
    cases hfunc : (m.timer i).timeoutFunc with
    | none => exact ⟨rfl, rfl⟩
    | some func =>
        simp only [setFlag, setTimer, Function.update_self]
        exact ⟨hasFlag_and_of_keeps _ (by decide), hasFlag_and_of_keeps _ (by decide)⟩
  obtain ⟨-, hperiodic, hsoft⟩ := SvTimer.hasFlag_clear ((m.returned i).timer i).flag
  have hflag : ((m.paused i).timer i).flag =
      ((m.returned i).timer i).flag &&& ~~~svTimerFlagActivated := by
    simp [paused, setFlag, setTimer]
  rw [SvTimer.periodic, SvTimer.soft, hflag, hperiodic, hsoft]
  exact hreturned

theorem paused_idle : ((m.paused i).timer i).activated = false := by
  simpa [paused, setFlag, setTimer, SvTimer.activated] using (SvTimer.hasFlag_clear _).1

theorem leaveCallback_of_periodic (head : TimerNode) (hperiodic : (m.timer i).periodic = true)
    (hactive : (m.timer i).activated = true) :
    m.leaveCallback head i = ((m.paused i).svTimerStart i).2 := by
  have hkept : ((m.returned i).timer i).periodic = true ∧
      ((m.returned i).timer i).activated = true := by
    unfold returned
    cases hfunc : (m.timer i).timeoutFunc with
    | none => exact ⟨hperiodic, hactive⟩
    | some func =>
        simp only [setFlag, setTimer, Function.update_self, SvTimer.periodic, SvTimer.activated]
        exact ⟨(hasFlag_and_of_keeps _ (by decide)).trans hperiodic,
          (hasFlag_and_of_keeps _ (by decide)).trans hactive⟩
  unfold leaveCallback
  simp only [hkept.1, hkept.2, Bool.and_self, if_true]
  rfl

/-- After its callback a timer is started again or settles. -/
theorem edit_leaveCallback (htaken : taken m.bitmap i = true) (head : TimerNode) :
    Edit i (m.paused i) (m.leaveCallback head i) := by
  unfold leaveCallback
  simp only
  split
  · refine .start paused_idle ?_
    rw [paused_eq]
    exact htaken
  · have hsettled : Edit i (m.paused i) { m.paused i with
        timer := Function.update (m.paused i).timer i { (m.paused i).timer i with
          flag := SvTimer.firedFlag ((m.returned i).timer i).flag }
        bitmap := if head = .softTimerList then release (m.paused i).bitmap i
          else (m.paused i).bitmap } := by
      apply Edit.settle _ _ paused_idle (SvTimer.hasFlag_firedFlag _).1
      split
      · exact .inr rfl
      · exact .inl rfl
    convert hsettled using 1
    split <;> simp [paused, setFlag, setTimer, SvTimer.firedFlag]

section Flag

variable {j : Fin monitorTimeNr} {flag : BitVec 8}

theorem setFlag_timer_of_ne (hj : j ≠ i) : (m.setFlag i flag).timer j = m.timer j :=
  Function.update_of_ne hj _ _

theorem setFlag_timeoutTick (j : Fin monitorTimeNr) :
    ((m.setFlag i flag).timer j).timeoutTick = (m.timer j).timeoutTick := by
  by_cases hj : j = i
  · subst hj
    simp [setFlag, setTimer]
  · rw [setFlag_timer_of_ne hj]

theorem setFlag_setTimer (hj : j ≠ i) (t : SvTimer Func Param) :
    (m.setFlag i flag).setTimer j t = (m.setTimer j t).setFlag i flag := by
  simp [setFlag, setTimer, hj.symm, Function.update_comm hj.symm]

theorem svTimerStart_setFlag (hj : j ≠ i) :
    ((m.setFlag i flag).svTimerStart j).2 = (m.svTimerStart j).2.setFlag i flag := by
  have hplace : ∀ m : TimerManage Func Param, ∀ head timeout,
      (m.setFlag i flag).startPlace head timeout = m.startPlace head timeout := by
    intro m head timeout
    simp only [startPlace, setFlag_timeoutTick]
    rfl
  unfold svTimerStart
  rw [setFlag_timer_of_ne hj]
  split
  · rfl
  · simp only [setFlag_setTimer hj, hplace, setFlag_timer_of_ne hj]
    simp [setFlag, setTimer, hj.symm, hj, Function.update_comm hj.symm]

theorem svTimerStop_setFlag (hj : j ≠ i) :
    ((m.setFlag i flag).svTimerStop j).2 = (m.svTimerStop j).2.setFlag i flag := by
  unfold svTimerStop
  rw [setFlag_timer_of_ne hj]
  split
  · rfl
  · simp [setFlag, setTimer, hj.symm, hj, Function.update_comm hj.symm]

/-- An edit of one timer takes no notice of the flag of another. -/
theorem edit_setFlag (hj : j ≠ i) {m' : TimerManage Func Param} (hedit : Edit j m m') :
    Edit j (m.setFlag i flag) (m'.setFlag i flag) := by
  have htimer : (m.setFlag i flag).timer j = m.timer j := setFlag_timer_of_ne hj
  cases hedit with
  | retime tick htime =>
      rw [← setFlag_setTimer hj, ← htimer]
      exact .retime tick htime
  | start hidle htaken =>
      rw [← svTimerStart_setFlag hj]
      exact .start (htimer ▸ hidle) htaken
  | stop hactive =>
      rw [← svTimerStop_setFlag hj]
      exact .stop (htimer ▸ hactive)
  | register t hfree hidle htime =>
      convert Edit.register (i := j) (m := m.setFlag i flag) t hfree hidle htime using 1
      simp [setFlag, setTimer, hj.symm, Function.update_comm hj.symm]
  | settle newFlag bitmap hidle hflag hbitmap =>
      convert Edit.settle (i := j) (m := m.setFlag i flag) newFlag bitmap (htimer ▸ hidle) hflag
        hbitmap using 1
      simp [setFlag, setTimer, hj.symm, hj, Function.update_comm hj.symm]

theorem edits_setFlag (hj : j ≠ i) {m' : TimerManage Func Param} (hedits : Edits j m m') :
    Edits j (m.setFlag i flag) (m'.setFlag i flag) := by
  induction hedits with
  | refl => exact .refl
  | tail _ hlast ih => exact ih.tail (edit_setFlag hj hlast)

theorem callTimeoutFunc_setFlag (hj : j ≠ i) (tick : Tick) :
    (m.setFlag i flag).callTimeoutFunc j tick = (m.callTimeoutFunc j tick).setFlag i flag := by
  rw [callTimeoutFunc_eq, callTimeoutFunc_eq]
  simp only [calledFlag, firing, setFlag_timer_of_ne hj]
  simp [setFlag, setTimer, hj.symm, Function.update_comm hj.symm]

theorem expire_setFlag (hj : j ≠ i) (head : TimerNode) (tick : Tick) :
    (m.setFlag i flag).expire head j tick = (m.expire head j tick).setFlag i flag := by
  have hcalled := @callTimeoutFunc_setFlag _ _ { m with links := listDel m.links (.timer j) } _ _
    flag hj tick
  unfold expire
  simp only
  rw [show { m.setFlag i flag with links := listDel (m.setFlag i flag).links (.timer j) } =
    ({ m with links := listDel m.links (.timer j) } : TimerManage Func Param).setFlag i flag from
      rfl, hcalled]
  generalize ({ m with links := listDel m.links (.timer j) } :
    TimerManage Func Param).callTimeoutFunc j tick = called
  rw [setFlag_timer_of_ne hj]
  have hset : ∀ flag' : BitVec 8, (called.setFlag i flag).setFlag j flag' =
      (called.setFlag j flag').setFlag i flag := fun flag' ↦ by
    rw [setFlag, setFlag_timer_of_ne hj, setFlag_setTimer hj]
    rfl
  split
  · rw [hset, svTimerStart_setFlag hj]
  · rw [hset]
    split <;> rfl

/-- The pass over the hard timers takes no notice of the flag of a timer that is on no list. -/
theorem pass_setFlag {lists : Lists} (h : OnLists m lists)
    (hidle : (m.timer i).activated = false) (k : ℕ) :
    (m.setFlag i flag).pass .timerList k = (m.pass .timerList k).setFlag i flag := by
  induction k generalizing m lists with
  | zero => rfl
  | succ k ih =>
      have hlinks : (m.setFlag i flag).links = m.links := rfl
      have htick : (m.setFlag i flag).sTick = m.sTick := rfl
      rw [pass, pass, htick, List.replicate_succ, timerHandle, timerHandle, hlinks, htick]
      split
      · next j hnext =>
        have hj : j ≠ i := fun heq ↦ by
          rw [heq] at hnext
          have hfront : m.links.next (headOf false) = .timer i := hnext
          have hactive := h.next_activated hfront
          rw [hidle] at hactive
          contradiction
        rw [setFlag_timeoutTick]
        split
        · have hfront : m.links.next (headOf false) = .timer j := hnext
          obtain ⟨lists', hexpired⟩ := h.expire hfront m.sTick
          obtain ⟨htimer, hsame⟩ := expire_timer_of_ne (m := m) .timerList hj.symm
          have hrest := ih hexpired (by rwa [← htimer] at hidle)
          rw [pass, pass] at hrest
          rw [expire_setFlag hj]
          rwa [show (m.expire (headOf false) j m.sTick).sTick = m.sTick from hsame,
            show ((m.expire (headOf false) j m.sTick).setFlag i flag).sTick = m.sTick from hsame]
            at hrest
        · rfl
      · rfl

/-- Hard timers keep their slots. -/
theorem pass_bitmap (k : ℕ) : (m.pass .timerList k).bitmap = m.bitmap := by
  have hexpire : ∀ (m : TimerManage Func Param) (j : Fin monitorTimeNr) (tick : Tick),
      (m.expire .timerList j tick).bitmap = m.bitmap := by
    intro m j tick
    rw [expire, callTimeoutFunc_eq]
    simp only [svTimerStart]
    split_ifs <;> simp_all [setFlag, setTimer]
  rw [pass]
  generalize List.replicate k m.sTick = ticks
  induction ticks generalizing m with
  | nil => rfl
  | cons tick ticks ih =>
      rw [timerHandle]
      split
      · split
        · rw [ih, hexpire]
        · rfl
      · rfl

/-- A tick takes no notice of the flag of a timer that is on no list either. -/
theorem svTickIncrease_setFlag {lists : Lists} (h : OnLists m lists)
    (hidle : (m.timer i).activated = false) :
    (m.setFlag i flag).svTickIncrease = m.svTickIncrease.setFlag i flag := by
  have hchecked : ∀ m : TimerManage Func Param,
      (m.setFlag i flag).softTimerCheck = m.softTimerCheck.setFlag i flag := by
    intro m
    unfold softTimerCheck
    rw [show (m.setFlag i flag).links = m.links from rfl]
    split
    · rw [setFlag_timeoutTick]
      split
      · next hwake =>
        rw [if_pos (show m.softTimerHandling = false ∧
          m.sTick - (m.timer _).timeoutTick < tickHalf from hwake)]
        rfl
      · next hwake =>
        rw [if_neg (show ¬ (m.softTimerHandling = false ∧
          m.sTick - (m.timer _).timeoutTick < tickHalf) from hwake)]
    · rfl
  have hframe : OnLists { m with sTick := m.sTick + 1 } lists :=
    h.frame rfl rfl (fun _ ↦ rfl) fun _ ↦ rfl
  have hpass := @pass_setFlag _ _ _ _ flag _ hframe hidle (monitorTimeNr + 1)
  calc (m.setFlag i flag).svTickIncrease
      = ((({ m with sTick := m.sTick + 1 } : TimerManage Func Param).setFlag i flag).pass
          .timerList (monitorTimeNr + 1)).softTimerCheck := rfl
    _ = ((({ m with sTick := m.sTick + 1 } : TimerManage Func Param).pass .timerList
          (monitorTimeNr + 1)).setFlag i flag).softTimerCheck := by rw [hpass]
    _ = m.svTickIncrease.setFlag i flag := hchecked _

theorem svTickIncrease_bitmap : m.svTickIncrease.bitmap = m.bitmap := by
  have hchecked : ∀ m : TimerManage Func Param, m.softTimerCheck.bitmap = m.bitmap := by
    intro m
    unfold softTimerCheck
    split
    · split <;> rfl
    · rfl
  exact (hchecked _).trans (pass_bitmap (m := { m with sTick := m.sTick + 1 }) _)

end Flag

end TimerManage

namespace TimerLoop

variable {m : TimerManage Func Param} {i : Fin monitorTimeNr}

/-- Two steps without an interrupt between them handle the timer in front. -/
theorem handle_handle (hnext : m.links.next .softTimerList = .timer i) (hdue : m.Due i) :
    (handle ⟨m, none⟩).handle = ⟨m.expire .softTimerList i m.sTick, none⟩ := by
  have hentered : handle ⟨m, none⟩ = ⟨m.enterCallback i, some i⟩ := by
    simp only [handle, hnext]
    exact if_pos hdue
  rw [hentered, TimerManage.expire_eq_leaveCallback, ite_self,
    ← TimerManage.enterCallback_frame.1]
  rfl

theorem handle_of_not_frontDue (hfront : ¬ m.FrontDue .softTimerList) :
    handle ⟨m, none⟩ = ⟨m.softTimerDone, none⟩ := by
  simp only [handle]
  split
  · next i hnext => exact if_neg fun hdue ↦ hfront ⟨i, hnext, hdue⟩
  · rfl

/-- Without interrupts the steps of a pass that ends are `soft_timer_handle`.  Induction on the
number of timers handled. -/
theorem run_handle {k : ℕ} (hend : ¬ (m.pass .softTimerList k).FrontDue .softTimerList) :
    ∃ n, run step ⟨m, none⟩ (List.replicate n .handle) =
      ⟨m.softTimerHandle (List.replicate k m.sTick), none⟩ := by
  induction k generalizing m with
  | zero => exact ⟨1, handle_of_not_frontDue hend⟩
  | succ k ih =>
      by_cases hfront : m.FrontDue .softTimerList
      · obtain ⟨i, hnext, hdue⟩ := hfront
        have hclock : (m.expire .softTimerList i m.sTick).sTick = m.sTick := by
          rw [TimerManage.expire, TimerManage.callTimeoutFunc_eq]
          simp only [TimerManage.svTimerStart]
          split_ifs <;> simp [TimerManage.setFlag, TimerManage.setTimer]
        have hpass : m.pass .softTimerList (k + 1) =
            (m.expire .softTimerList i m.sTick).pass .softTimerList k := by
          rw [TimerManage.pass, List.replicate_succ, timerHandle, hnext, TimerManage.pass, hclock]
          exact if_pos hdue
        rw [hpass] at hend
        obtain ⟨n, hn⟩ := ih hend
        refine ⟨n + 2, ?_⟩
        calc run step ⟨m, none⟩ (List.replicate (n + 2) .handle)
            = run step (handle ⟨m, none⟩).handle (List.replicate n .handle) := rfl
          _ = run step ⟨m.expire .softTimerList i m.sTick, none⟩ (List.replicate n .handle) := by
            rw [handle_handle hnext hdue]
          _ = ⟨((m.expire .softTimerList i m.sTick).pass .softTimerList k).softTimerDone, none⟩ :=
            hn
          _ = ⟨(m.pass .softTimerList (k + 1)).softTimerDone, none⟩ := by rw [hpass]
      · refine ⟨1, ?_⟩
        calc run step ⟨m, none⟩ (List.replicate 1 .handle)
            = ⟨m.softTimerDone, none⟩ := handle_of_not_frontDue hfront
          _ = ⟨(m.pass .softTimerList (k + 1)).softTimerDone, none⟩ := by
            rw [TimedLists.pass_of_not_frontDue hfront]

end TimerLoop

end ProjectSensor.Service
