import ProjectSensor.Service.TimerLoopRun

/-!
# Timers of both kinds are on time

In runs of allowed steps (`StepAllowed`) a timer that is started and left alone waits, whatever the
other timers do, until its deadline is `n` ticks nearer after `n` ticks (`Waits`).  A hard timer
waits until the tick of its deadline and is called then.  A soft timer waits until the event loop
comes to it after its deadline.
-/

open ProjectSensor.Library ProjectSensor.Library.SlotBitmap ProjectSensor.Library.Transition

namespace ProjectSensor.Service

variable {Func Param : Type}

section Starts

variable {m : TimerManage Func Param} {i : Fin monitorTimeNr}

theorem idle_of_svTimerStart (hok : (m.svTimerStart i).1 = 0) :
    (m.timer i).activated = false := by
  cases hactive : (m.timer i).activated with
  | false => rfl
  | true =>
      rw [TimerManage.svTimerStart, if_pos hactive] at hok
      exact absurd hok (Int.negSucc_ne_zero 0)

theorem svTimerStart_timer_self (hidle : (m.timer i).activated = false) :
    (m.svTimerStart i).2.timer i = m.started i := by
  simp [TimerManage.svTimerStart, hidle, TimerManage.setFlag, TimerManage.setTimer,
    TimerManage.started, SvTimer.startFlag]

/-- A timer that did not run has all of its time after a start. -/
theorem startedAt_of_idle (hidle : (m.timer i).activated = false) :
    StartedAt (m.svTimerStart i).2 m.sTick i := by
  have htimer := svTimerStart_timer_self hidle
  constructor
  · rw [htimer]
    exact (SvTimer.hasFlag_startFlag _).1
  · rw [htimer]
    rfl

theorem timerStart_eq (m : TimerManage Func Param) (i : Fin monitorTimeNr) :
    m.timerStart i = m.svTimerStart i := by
  simp [TimerManage.timerStart]

/-- A start that succeeds gives a timer all of its time. -/
theorem startedAt_timerStart (hok : (m.timerStart i).1 = 0) :
    StartedAt (m.timerStart i).2 m.sTick i := by
  rw [timerStart_eq] at hok ⊢
  exact startedAt_of_idle (idle_of_svTimerStart hok)

theorem startedAt_timerRestart (hok : (m.timerRestart i).1 = 0) :
    StartedAt (m.timerRestart i).2 m.sTick i := by
  rw [TimerManage.timerRestart, dif_pos i.isLt] at hok ⊢
  simp only [Fin.eta] at hok ⊢
  by_cases hrefused : hasFlag (m.timer i).flag (svTimerFlagHandling ||| svTimerFlagPeriodic)
  · rw [if_pos hrefused] at hok
    exact absurd hok (by simp [TimerManage.svEio])
  rw [if_neg hrefused] at hok ⊢
  cases hactive : (m.timer i).activated with
  | false =>
      have hstay : m.svTimerStop i = (-1, m) := by
        rw [TimerManage.svTimerStop, if_pos (by simp [hactive])]
      rw [hstay, if_neg (by simp)] at hok
      exact absurd hok (by simp)
  | true =>
      have hstop : (m.svTimerStop i).1 = 0 := by rw [TimerManage.svTimerStop_eq hactive]
      rw [if_pos hstop] at hok ⊢
      rw [← (onlyTimer_svTimerStop (m := m) (i := i)).tick]
      exact startedAt_of_idle (idle_of_svTimerStart hok)

theorem timerTimeout_sTick (handle : ℕ) (expiredMs : BitVec 32) :
    (m.timerTimeout handle expiredMs).2.sTick = m.sTick := by
  unfold TimerManage.timerTimeout
  split
  · simp only
    split <;> rfl
  · rfl

/-- A timer that was started has all of its time left. -/
theorem startedAt_of_starts {action : TimerAction Func Param} (hstarts : Starts m i action) :
    StartedAt (timerStep m action) m.sTick i := by
  cases action with
  | start handle =>
      obtain ⟨rfl, hok⟩ := hstarts
      exact startedAt_timerStart hok
  | startMs handle expiredMs =>
      obtain ⟨rfl, hok⟩ := hstarts
      have heq := TimerManage.timerStartMs_of_ok hok
      rw [heq] at hok
      rw [timerStep, heq, ← timerTimeout_sTick i expiredMs]
      exact startedAt_timerStart hok
  | restart handle =>
      obtain ⟨rfl, hok⟩ := hstarts
      exact startedAt_timerRestart hok
  | restartMs handle expiredMs =>
      obtain ⟨rfl, hok⟩ := hstarts
      have heq := TimerManage.timerRestartMs_of_ok hok
      rw [heq] at hok
      rw [timerStep, heq, ← timerTimeout_sTick i expiredMs]
      exact startedAt_timerRestart hok
  | _ => exact hstarts.elim

end Starts

namespace TimerLoop

/-- A soft timer that runs and whose callback does not. -/
def SoftWaiting (s : TimerLoop Func Param) (i : Fin monitorTimeNr) : Prop :=
  (s.timers.timer i).activated = true ∧ (s.timers.timer i).soft = true ∧ s.calling ≠ some i

/-- The timer `i` has waited for `n` ticks since it was started. -/
structure Waits (started s : TimerLoop Func Param) (i : Fin monitorTimeNr) (n : ℕ) : Prop where
  calling : s.calling ≠ some i
  timer : s.timers.timer i = started.timers.timer i
  activated : (started.timers.timer i).activated = true
  expiries : s.timers.expiriesOf i = started.timers.expiriesOf i
  clock : s.timers.sTick = started.timers.sTick + BitVec.ofNat 32 n
  remaining : s.timers.remaining i = (started.timers.timer i).initTick.toNat - n

variable {started s s' : TimerLoop Func Param} {lists : Lists} {i : Fin monitorTimeNr} {n : ℕ}

theorem InOrder.mem_iff (h : InOrder s lists) (hi : s.calling ≠ some i) (soft : Bool) :
    i ∈ lists soft ↔ (s.timers.timer i).activated = true ∧ (s.timers.timer i).soft = soft := by
  rw [h.timed.onLists.mem, settled_timer hi]

theorem InOrder.softWaiting_iff (h : InOrder s lists) : s.SoftWaiting i ↔ i ∈ lists true := by
  constructor
  · rintro ⟨hactive, hsoft, hi⟩
    exact (h.mem_iff hi true).mpr ⟨hactive, hsoft⟩
  · intro hmem
    have hi : s.calling ≠ some i := fun hcalling ↦ by
      have hidle := TimerManage.paused_idle (m := s.timers) (i := i)
      have hactive := ((h.timed.onLists.mem true i).mp hmem).1
      rw [settled, hcalling] at hactive
      rw [hidle] at hactive
      contradiction
    exact ⟨((h.mem_iff hi true).mp hmem).1, ((h.mem_iff hi true).mp hmem).2, hi⟩

/-- A step that leaves the clock, the timer and its callbacks alone. -/
theorem Waits.of_same (h : Waits started s i n) (hcalling : s'.calling ≠ some i)
    (htick : s'.timers.sTick = s.timers.sTick) (htimer : s'.timers.timer i = s.timers.timer i)
    (hexpiries : s'.timers.expiriesOf i = s.timers.expiriesOf i) : Waits started s' i n where
  calling := hcalling
  timer := htimer.trans h.timer
  activated := h.activated
  expiries := hexpiries.trans h.expiries
  clock := htick.trans h.clock
  remaining := (TimerManage.remaining_of_same htick (by rw [htimer])).trans h.remaining

/-- An operation that does not disturb a timer that runs. -/
theorem InOrder.operation_alone (horder : InOrder s lists) {action : TimerAction Func Param}
    (hallowed : s.StepAllowed (.operation action)) (hactive : (s.timers.timer i).activated = true)
    (halone : TimerLoopAction.disturbs i (.operation action) = false) :
    (s.step (.operation action)).timers.sTick = s.timers.sTick ∧
      (s.step (.operation action)).timers.timer i = s.timers.timer i ∧
      (s.step (.operation action)).timers.expiriesOf i = s.timers.expiriesOf i := by
  rcases timerStep_edits horder.slotsTaken hallowed.1 with hsame | ⟨j, hedits, hdisturbs⟩
  · rw [TimerLoop.step, hsame]
    exact ⟨rfl, rfl, rfl⟩
  · have hij : i ≠ j := by
      rintro rfl
      have hyes : TimerLoopAction.disturbs i (.operation action) = true := hdisturbs hactive
      rw [halone] at hyes
      contradiction
    have honly := Edits.onlyTimer hedits
    refine ⟨honly.tick, honly.other i hij, ?_⟩
    rw [TimerManage.expiriesOf, TimerManage.expiriesOf, TimerLoop.step, honly.expiries]

theorem Waits.operation (h : Waits started s i n) (horder : InOrder s lists)
    {action : TimerAction Func Param} (hallowed : s.StepAllowed (.operation action))
    (halone : TimerLoopAction.disturbs i (.operation action) = false) :
    Waits started (s.step (.operation action)) i n := by
  have hactive : (s.timers.timer i).activated = true := h.timer ▸ h.activated
  obtain ⟨htick, htimer, hexpiries⟩ := horder.operation_alone hallowed hactive halone
  exact h.of_same h.calling htick htimer hexpiries

/-- A tick; a hard timer must have another one left after it. -/
theorem Waits.tick (h : Waits started s i n) (horder : InOrder s lists)
    (hfed : NotStarved s.settled) (hmore : (started.timers.timer i).soft = false →
      n + 1 < (started.timers.timer i).initTick.toNat) :
    Waits started (s.step .tick) i (n + 1) := by
  obtain ⟨lists', hafter, hticked⟩ := horder.tick hfed
  have hremaining := (settled_remaining h.calling).trans h.remaining
  have hactive : (s.timers.timer i).activated = true := h.timer ▸ h.activated
  have hmem := (horder.mem_iff h.calling (s.timers.timer i).soft).mpr ⟨hactive, rfl⟩
  have hquiet := hticked.untouched i fun hlast ↦ by
    have hsoft := ((horder.mem_iff h.calling false).mp hlast.1).2
    have hless := hmore (h.timer ▸ hsoft)
    have hone := hlast.2
    omega
  have htimer : (s.step .tick).timers.timer i = s.timers.timer i := by
    rw [← settled_timer (s := s.step .tick) h.calling, hquiet.timer, settled_timer h.calling]
  have hclock : (s.step .tick).timers.sTick = s.timers.sTick + 1 := by
    rw [← (settled_eq _).1, hticked.tick, (settled_eq s).1]
  refine ⟨h.calling, htimer.trans h.timer, h.activated, ?_, ?_, ?_⟩
  · rw [← settled_expiriesOf, hquiet.expiries, settled_expiriesOf, h.expiries]
  · rw [hclock, h.clock, BitVec.add_assoc, BitVec.ofNat_add]
    rfl
  · have hlow := (horder.timed.window _ i hmem).1
    rw [settled_remaining h.calling] at hlow
    have hsucc := TimerManage.remaining_succ hlow
    have hsame : (s.step .tick).timers.remaining i =
        ({ s.timers with sTick := s.timers.sTick + 1 } : TimerManage Func Param).remaining i :=
      TimerManage.remaining_of_same hclock (by rw [htimer])
    rw [hsame, hsucc, h.remaining]
    omega

/-- The next step of `soft_timer_handle` either has to do with another timer, or calls this one,
whose deadline has come. -/
theorem Waits.handle (h : Waits started s i n) (horder : InOrder s lists) :
    Waits started s.handle i n ∨ ((started.timers.timer i).soft = true ∧
      (started.timers.timer i).initTick.toNat ≤ n ∧ s.handle.calling = some i ∧
      s.handle.timers = s.timers.enterCallback i ∧
      s.handle.timers.expiriesOf i = s.timers.firing i ++ started.timers.expiriesOf i) := by
  rcases handle_cases s with ⟨j, hcalling, heq⟩ | ⟨j, hcalling, hnext, hdue, heq⟩ |
    ⟨hcalling, -, heq⟩
  · left
    have hij : i ≠ j := fun hij ↦ h.calling (hij ▸ hcalling)
    have honly := (TimerManage.edit_leaveCallback (horder.calling j hcalling).2
      .softTimerList).onlyTimer
    have hsettled : s.settled = s.timers.paused j := by rw [settled, hcalling]
    rw [← hsettled] at honly
    rw [heq]
    refine h.of_same (Option.some_ne_none i).symm (honly.tick.trans (settled_eq s).1)
      ((honly.other i hij).trans (settled_timer h.calling)) ?_
    rw [TimerManage.expiriesOf, honly.expiries, ← TimerManage.expiriesOf, settled_expiriesOf]
  · obtain ⟨htick, -, hexpiries⟩ := TimerManage.enterCallback_frame (m := s.timers) (i := j)
    by_cases hij : i = j
    · right
      subst hij
      have htimed := horder.timed
      rw [settled, hcalling] at htimed
      obtain ⟨rest, hlist⟩ := htimed.onLists.front_soft hnext
      have hmem : i ∈ lists true := hlist ▸ List.mem_cons_self
      have hpast := (TimerManage.due_iff_remaining (htimed.window true i hmem)).mp hdue
      refine ⟨?_, ?_, by rw [heq], by rw [heq], ?_⟩
      · rw [← h.timer]
        exact ((htimed.onLists.mem true i).mp hmem).2
      · rw [h.remaining] at hpast
        omega
      · rw [heq, TimerManage.expiriesOf, hexpiries, List.filter_append, ← TimerManage.expiriesOf,
          h.expiries, TimerManage.firing]
        split <;> simp
    · left
      have htimer : (s.timers.enterCallback j).timer i = s.timers.timer i := by
        unfold TimerManage.enterCallback
        cases hfunc : (s.timers.timer j).timeoutFunc <;> simp [hfunc, TimerManage.setFlag,
          TimerManage.setTimer, hij]
      rw [heq]
      refine h.of_same (fun hsame ↦ hij (Option.some_inj.mp hsame).symm) htick htimer ?_
      rw [TimerManage.expiriesOf, hexpiries, List.filter_append, TimerManage.firing]
      split <;> simp [TimerManage.expiriesOf, Ne.symm hij]
  · left
    rw [heq]
    exact h.of_same (Option.some_ne_none i).symm rfl rfl rfl

/-- A tick that interrupts a callback does nothing to its timer. -/
theorem InOrder.tick_calling (h : InOrder s lists) (hfed : NotStarved s.settled)
    (hcalling : s.calling = some i) : (s.step .tick).timers.timer i = s.timers.timer i ∧
      (s.step .tick).timers.expiriesOf i = s.timers.expiriesOf i := by
  obtain ⟨lists', hticked⟩ := h.timed.svTickIncrease h.ahead hfed
  obtain ⟨lists'', -, hticked'⟩ := h.tick hfed
  have htimed := h.timed
  rw [settled, hcalling] at htimed hticked
  have hnotMem : ¬ (i ∈ lists false ∧ s.settled.remaining i = 1) := fun hin ↦
    htimed.onLists.notMem TimerManage.paused_idle false hin.1
  refine ⟨(TimerManage.svTickIncrease_paused htimed.onLists hticked).2, ?_⟩
  rw [← settled_expiriesOf, (hticked'.untouched i hnotMem).expiries, settled_expiriesOf]

/-- When the callback of a periodic timer returns, the timer begins to wait for its time. -/
theorem waits_of_return (h : InOrder s lists) (hcalling : s.calling = some i)
    (hperiodic : (s.timers.timer i).periodic = true) : Waits s.handle s.handle i 0 ∧
      s.handle.timers.timer i = (s.timers.paused i).started i ∧
      s.handle.timers.expiriesOf i = s.timers.expiriesOf i := by
  obtain ⟨lists', hafter⟩ := h.handle
  have heq : s.handle = ⟨((s.timers.paused i).svTimerStart i).2, none⟩ := by
    rw [handle, hcalling]
    simp only
    rw [TimerManage.leaveCallback_of_periodic .softTimerList hperiodic (h.calling i hcalling).1]
  have hnone : s.handle.calling ≠ some i := by
    rw [heq]
    exact (Option.some_ne_none i).symm
  obtain ⟨hactive, hdeadline⟩ := startedAt_of_idle (TimerManage.paused_idle (m := s.timers)
    (i := i))
  have htimer : s.handle.timers.timer i = (s.timers.paused i).started i := by
    rw [heq]
    exact svTimerStart_timer_self TimerManage.paused_idle
  have honly := onlyTimer_svTimerStart (m := s.timers.paused i) (i := i)
  have hslot := hafter.timed.onLists.taken i (by rwa [settled_timer hnone, heq])
  have hmost := (hafter.timed.initTick i hslot).2
  rw [settled_timer hnone] at hmost
  refine ⟨⟨hnone, rfl, by rwa [heq], rfl, (BitVec.add_zero _).symm, ?_⟩, htimer, ?_⟩
  · have hremaining := TimerManage.remaining_started (m := s.handle.timers) hmost (by
      rw [heq, honly.tick]
      exact hdeadline)
    exact hremaining.trans (by simp)
  · rw [TimerManage.expiriesOf, heq, honly.expiries, TimerManage.paused_eq,
      TimerManage.expiriesOf]
    rfl

/-- The calls of a timer at a tick: one, if it has a callback. -/
def calledAt (t : SvTimer Func Param) (i : Fin monitorTimeNr) (tick : Tick) :
    List (Expiry Func Param) :=
  (t.timeoutFunc.map fun func ↦ ⟨i, func, t.parameter, tick⟩).toList

theorem firing_eq (m : TimerManage Func Param) (i : Fin monitorTimeNr) :
    m.firing i = calledAt (m.timer i) i m.sTick := by
  rw [TimerManage.firing, calledAt]
  cases (m.timer i).timeoutFunc <;> rfl

/-- The timer `i` was called when its deadline had come, and at most `n` ticks after its start. -/
def Called (started s : TimerLoop Func Param) (i : Fin monitorTimeNr) (n : ℕ) : Prop :=
  ∃ k later, (started.timers.timer i).initTick.toNat ≤ k ∧ k ≤ n ∧
    s.timers.expiriesOf i = later ++ calledAt (started.timers.timer i) i
      (started.timers.sTick + BitVec.ofNat 32 k) ++ started.timers.expiriesOf i

theorem timerHandle_expiries (head : TimerNode) (ticks : List Tick)
    (m : TimerManage Func Param) :
    ∃ later, (timerHandle head ticks m).expiries = later ++ m.expiries := by
  have hexpire : ∀ (m : TimerManage Func Param) (j : Fin monitorTimeNr) (tick : Tick),
      (m.expire head j tick).expiries = m.firing j ++ m.expiries := by
    intro m j tick
    rw [TimerManage.expire, TimerManage.callTimeoutFunc_eq]
    simp only [TimerManage.svTimerStart]
    split_ifs <;> rfl
  induction ticks generalizing m with
  | nil => exact ⟨[], rfl⟩
  | cons tick ticks ih =>
      rw [timerHandle]
      split
      · next j hnext =>
        split
        · obtain ⟨later, hlater⟩ := ih (m.expire head j tick)
          exact ⟨later ++ m.firing j, by rw [hlater, hexpire, List.append_assoc]⟩
        · exact ⟨[], rfl⟩
      · exact ⟨[], rfl⟩

/-- The record of the callbacks only grows. -/
theorem InOrder.expiries (h : InOrder s lists) {action : TimerLoopAction Func Param}
    (hallowed : s.StepAllowed action) :
    ∃ later, (s.step action).timers.expiries = later ++ s.timers.expiries := by
  cases action with
  | operation action =>
      rcases timerStep_edits h.slotsTaken hallowed.1 with hsame | ⟨j, hedits, -⟩
      · exact ⟨[], congrArg TimerManage.expiries hsame⟩
      · exact ⟨[], (Edits.onlyTimer hedits).expiries⟩
  | tick =>
      have hchecked : ∀ m : TimerManage Func Param, m.softTimerCheck.expiries = m.expiries := by
        intro m
        unfold TimerManage.softTimerCheck
        split
        · split <;> rfl
        · rfl
      obtain ⟨later, hlater⟩ := timerHandle_expiries .timerList
        (List.replicate (monitorTimeNr + 1) (s.timers.sTick + 1))
        { s.timers with sTick := s.timers.sTick + 1 }
      exact ⟨later, (hchecked _).trans hlater⟩
  | handle =>
      show ∃ later, s.handle.timers.expiries = later ++ s.timers.expiries
      rcases handle_cases s with ⟨j, hcalling, heq⟩ | ⟨j, -, -, -, heq⟩ | ⟨-, -, heq⟩
      · have honly := (TimerManage.edit_leaveCallback (h.calling j hcalling).2
          .softTimerList).onlyTimer
        have hpaused : (s.timers.paused j).expiries = s.timers.expiries := by
          rw [TimerManage.paused_eq]
          rfl
        exact ⟨[], by rw [heq, honly.expiries, hpaused, List.nil_append]⟩
      · exact ⟨s.timers.firing j, by rw [heq, TimerManage.enterCallback_frame.2.2]⟩
      · exact ⟨[], by rw [heq]; rfl⟩

theorem Called.step (h : Called started s i n) (horder : InOrder s lists)
    {action : TimerLoopAction Func Param} (hallowed : s.StepAllowed action) {n' : ℕ}
    (hle : n ≤ n') : Called started (s.step action) i n' := by
  obtain ⟨k, later, htime, hk, heq⟩ := h
  obtain ⟨more, hmore⟩ := horder.expiries hallowed
  refine ⟨k, more.filter (fun expiry ↦ expiry.timer = i) ++ later, htime, hk.trans hle, ?_⟩
  rw [TimerManage.expiriesOf, hmore, List.filter_append, ← TimerManage.expiriesOf, heq]
  simp only [List.append_assoc]

/-- What a run leaves of a timer that is left alone: it still waits, or it is a soft timer that was
called after its deadline.  A hard timer must have a tick left at the end. -/
theorem Waits.run (h : Waits started s i n ∨ Called started s i n) (horder : InOrder s lists)
    {during : List (TimerLoopAction Func Param)} (hallowed : AllSteps step StepAllowed s during)
    (halone : ∀ action ∈ during, TimerLoopAction.disturbs i action = false)
    (hmore : (started.timers.timer i).soft = false → n + during.countP TimerLoopAction.isTick <
      (started.timers.timer i).initTick.toNat) :
    ∃ lists', InOrder (Transition.run step s during) lists' ∧
      (Waits started (Transition.run step s during) i
          (n + during.countP TimerLoopAction.isTick) ∨
        Called started (Transition.run step s during) i
          (n + during.countP TimerLoopAction.isTick)) := by
  induction during generalizing s n lists with
  | nil => exact ⟨lists, horder, h⟩
  | cons action during ih =>
      obtain ⟨hfirst, hrest⟩ := hallowed
      obtain ⟨lists', hafter⟩ := horder.step hfirst
      have halone' := fun action hin ↦ halone action (List.mem_cons_of_mem _ hin)
      have hone := halone action List.mem_cons_self
      cases action with
      | operation action =>
          have hcount : (TimerLoopAction.operation action :: during).countP
              TimerLoopAction.isTick = during.countP TimerLoopAction.isTick :=
            List.countP_cons_of_neg (by simp [TimerLoopAction.isTick])
          rw [hcount] at hmore ⊢
          refine ih (h.imp (fun hwaits ↦ ?_) fun hcalled ↦ ?_) hafter hrest halone' hmore
          · exact hwaits.operation horder hfirst hone
          · exact hcalled.step horder hfirst le_rfl
      | tick =>
          have hcount : (TimerLoopAction.tick :: during).countP TimerLoopAction.isTick =
              during.countP TimerLoopAction.isTick + 1 := List.countP_cons_of_pos rfl
          rw [hcount, add_comm _ 1, ← add_assoc] at hmore ⊢
          refine ih (h.imp (fun hwaits ↦ ?_) fun hcalled ↦ ?_) hafter hrest halone' hmore
          · exact hwaits.tick horder hfirst fun hhard ↦
              (Nat.le_add_right ..).trans_lt (hmore hhard)
          · exact hcalled.step horder hfirst (Nat.le_succ n)
      | handle =>
          have hcount : (TimerLoopAction.handle :: during).countP TimerLoopAction.isTick =
              during.countP TimerLoopAction.isTick :=
            List.countP_cons_of_neg (by simp [TimerLoopAction.isTick])
          rw [hcount] at hmore ⊢
          refine ih ?_ hafter hrest halone' hmore
          rcases h with hwaits | hcalled
          · rcases hwaits.handle horder with hstill | ⟨-, htime, -, -, hexpiries⟩
            · exact .inl hstill
            · refine .inr ⟨n, [], htime, le_rfl, ?_⟩
              rw [firing_eq, hwaits.timer, hwaits.clock] at hexpiries
              exact hexpiries
          · exact .inr (hcalled.step horder hfirst le_rfl)

/-- On its last tick a hard timer is called. -/
theorem Waits.lastTick (h : Waits started s i n) (horder : InOrder s lists)
    (hfed : NotStarved s.settled) (hhard : (started.timers.timer i).soft = false)
    (hlast : n + 1 = (started.timers.timer i).initTick.toNat) :
    OnTime started.timers.sTick (started.timers.timer i).initTick started.timers
      (s.step .tick).timers i := by
  obtain ⟨lists', hafter, hticked⟩ := horder.tick hfed
  set time := (started.timers.timer i).initTick with htime
  have hactive : (s.timers.timer i).activated = true := h.timer ▸ h.activated
  have hmem := (horder.mem_iff h.calling false).mpr ⟨hactive, h.timer ▸ hhard⟩
  have hone : s.settled.remaining i = 1 := by
    rw [settled_remaining h.calling, h.remaining, ← hlast]
    push_cast
    omega
  have hnow : s.settled.sTick + 1 = started.timers.sTick + time := by
    have hsum : BitVec.ofNat 32 n + 1 = time := by
      calc BitVec.ofNat 32 n + 1
          = BitVec.ofNat 32 (n + 1) := (BitVec.ofNat_add n 1).symm
        _ = time := by rw [hlast, BitVec.ofNat_toNat, BitVec.setWidth_eq]
    rw [(settled_eq s).1, h.clock, BitVec.add_assoc, hsum]
  have htimer : ({ s.settled with sTick := s.settled.sTick + 1 } :
      TimerManage Func Param).timer i = started.timers.timer i :=
    (settled_timer h.calling).trans h.timer
  obtain ⟨hexpiries, hperiodic, honeShot⟩ := hticked.fired i hmem hone
  rw [settled_expiriesOf, firing_eq, htimer] at hexpiries
  have hcalling : (s.step .tick).calling ≠ some i := h.calling
  rw [htimer, settled_timer hcalling] at hperiodic honeShot
  refine ⟨?_, ?_, fun hno ↦ ?_, fun hyes ↦ ?_⟩
  · rw [← (settled_eq _).1, hticked.tick, hnow]
  · have hbefore : ({ s.settled with sTick := s.settled.sTick + 1 } :
        TimerManage Func Param).expiriesOf i = started.timers.expiriesOf i :=
      (settled_expiriesOf i).trans h.expiries
    rw [hexpiries, hbefore, calledAt]
    simp only [hnow]
  · obtain ⟨hidle, hexpired⟩ := honeShot hno
    rw [TimerManage.timerExpired_eq, settled_timer hcalling,
      ← TimerManage.timerExpired_eq] at hexpired
    refine ⟨hexpired, hidle, fun timers hring hin ↦ ?_⟩
    rw [← (settled_eq _).2.2.1] at hring
    rw [hafter.timed.onLists.rings.eq_of_ring false hring] at hin
    rw [((hafter.mem_iff hcalling false).mp hin).1] at hidle
    contradiction
  · obtain ⟨hrunning, hdeadline⟩ := hperiodic hyes
    refine ⟨hrunning, hdeadline.trans ?_⟩
    show s.settled.sTick + 1 + time = _
    rw [hnow, BitVec.add_assoc, two_mul]

/-- The front of the soft list tells whether any soft timer that waits is due. -/
theorem InOrder.frontDue_iff (h : InOrder s lists) :
    s.timers.FrontDue .softTimerList ↔ ∃ i, s.SoftWaiting i ∧ s.timers.Due i := by
  have hdue : ∀ j ∈ lists true, s.settled.Due j ↔ s.timers.Due j := fun j hj ↦ by
    rw [TimerManage.Due, (settled_eq s).1, settled_timer (h.softWaiting_iff.mpr hj).2.2]
    rfl
  calc s.timers.FrontDue .softTimerList
      ↔ s.settled.FrontDue .softTimerList := by
        constructor
        · rintro ⟨i, hnext, hi⟩
          rw [← (settled_eq s).2.2.1] at hnext
          obtain ⟨rest, hlist⟩ := h.timed.onLists.front_soft hnext
          exact ⟨i, hnext, (hdue i (hlist ▸ List.mem_cons_self)).mpr hi⟩
        · rintro ⟨i, hnext, hi⟩
          obtain ⟨rest, hlist⟩ := h.timed.onLists.front_soft hnext
          exact ⟨i, (settled_eq s).2.2.1 ▸ hnext, (hdue i (hlist ▸ List.mem_cons_self)).mp hi⟩
    _ ↔ ∃ i ∈ lists true, s.settled.Due i := h.timed.frontDue_iff true
    _ ↔ ∃ i, s.SoftWaiting i ∧ s.timers.Due i := by
        apply exists_congr
        intro i
        rw [h.softWaiting_iff]
        exact and_congr_right (hdue i)

/-- The timer in front is the one whose deadline comes first. -/
theorem InOrder.front_first (h : InOrder s lists)
    (hnext : s.timers.links.next .softTimerList = .timer i) :
    s.SoftWaiting i ∧ ∀ j, s.SoftWaiting j → s.timers.remaining i ≤ s.timers.remaining j := by
  rw [← (settled_eq s).2.2.1] at hnext
  obtain ⟨rest, hlist⟩ := h.timed.onLists.front_soft hnext
  have hfront := h.softWaiting_iff.mpr (hlist ▸ List.mem_cons_self)
  refine ⟨hfront, fun j hj ↦ ?_⟩
  have hsorted := h.timed.sorted true
  have hmem := h.softWaiting_iff.mp hj
  rw [hlist] at hsorted hmem
  rcases List.mem_cons.mp hmem with rfl | hmem
  · exact le_rfl
  · have hle := List.rel_of_pairwise_cons hsorted hmem
    rwa [TimerManage.DueFirst, settled_remaining hfront.2.2, settled_remaining hj.2.2] at hle

/-- In every run of allowed steps the soft timer that `soft_timer_handle` looks at is one whose
deadline comes first, it goes on exactly while some soft timer is due, and an allowed tick at which
one is due leaves the event loop woken. -/
theorem softTimers_in_order (links : LinkedRing.Links TimerNode) (parameter : Param) (tick : Tick)
    (actions : List (TimerLoopAction Func Param))
    (hactions : AllSteps step StepAllowed (construct links parameter tick) actions) :
    let s := Transition.run step (construct links parameter tick) actions
    (∀ i, s.timers.links.next .softTimerList = .timer i →
      s.SoftWaiting i ∧ ∀ j, s.SoftWaiting j → s.timers.remaining i ≤ s.timers.remaining j) ∧
    (s.timers.FrontDue .softTimerList ↔ ∃ i, s.SoftWaiting i ∧ s.timers.Due i) ∧
    (s.StepAllowed .tick → ∀ i, (s.step .tick).SoftWaiting i → (s.step .tick).timers.Due i →
      (s.step .tick).timers.softTimerHandling = true) := by
  intro s
  obtain ⟨lists, h⟩ := inOrder_run (InOrder.construct links parameter tick) hactions
  refine ⟨fun i hnext ↦ h.front_first hnext, h.frontDue_iff, fun hfed i hi hdue ↦ ?_⟩
  obtain ⟨lists', hafter, hticked⟩ := h.tick hfed
  rw [← (settled_eq (s.step .tick)).2.2.2.1]
  refine hticked.woken i (hafter.softWaiting_iff.mp hi) ?_
  rw [TimerManage.Due, (settled_eq _).1, settled_timer hi.2.2]
  exact hdue

/-- A soft timer of one tick and a hard timer of two, registered two ticks before the clock wraps
around. -/
def softAndHard : List (TimerLoopAction Unit Unit) :=
  [.operation (.softRegister 10 0 (some ()) ()), .operation (.hardRegister 20 0 (some ()) ())]

/-- Both are started, the soft timer is called on the next tick, and its callback registers a third
timer and is interrupted by the tick of the hard timer. -/
def interrupted : List (TimerLoopAction Unit Unit) :=
  [.operation (.start 0), .operation (.start 1), .tick, .handle,
    .operation (.softRegister 40 0 (some ()) ()), .tick, .handle]

theorem softAndHard_interrupted :
    AllSteps step StepAllowed (construct clearedLinks () 0xFFFFFFFE)
      (softAndHard ++ interrupted) := by
  have hten : 0 < (svTickFromMillisecond 10).toNat := by decide
  have htwenty : 0 < (svTickFromMillisecond 20).toNat := by decide
  have hforty : 0 < (svTickFromMillisecond 40).toNat := by decide
  exact ⟨stepAllowed_of_idle rfl hten, stepAllowed_of_idle rfl htwenty,
    stepAllowed_of_idle rfl fun _ ↦ by decide +kernel,
    stepAllowed_of_idle rfl fun _ ↦ by decide +kernel, show NotStarved _ by decide +kernel, trivial,
    ⟨hforty, fun _ _ ↦ .inl rfl⟩, show NotStarved _ by decide +kernel, trivial, trivial⟩

theorem softTimers_in_order_softAndHard :
    let s := Transition.run step (construct clearedLinks () 0xFFFFFFFE)
      (softAndHard ++ interrupted)
    s.timers.FrontDue .softTimerList ↔ ∃ i, s.SoftWaiting i ∧ s.timers.Due i :=
  (softTimers_in_order clearedLinks () 0xFFFFFFFE _ softAndHard_interrupted).2.1

/-- A callback does not start its own timer. -/
theorem InOrder.not_calling (h : InOrder s lists) {start : TimerAction Func Param}
    (hallowed : s.StepAllowed (.operation start)) (hstarts : Starts s.timers i start) :
    s.calling ≠ some i := by
  intro hcalling
  have hactive := (h.calling i hcalling).1
  rcases hallowed.2 i hcalling with halone | ⟨expiredMs, rfl⟩
  · cases start with
    | start handle =>
        obtain ⟨rfl, hok⟩ := hstarts
        rw [timerStart_eq] at hok
        rw [idle_of_svTimerStart hok] at hactive
        contradiction
    | startMs handle expiredMs => exact of_decide_eq_false halone hstarts.1
    | restart handle => exact of_decide_eq_false halone hstarts.1
    | restartMs handle expiredMs => exact of_decide_eq_false halone hstarts.1
    | _ => exact hstarts.elim
  · exact hstarts.elim

/-- A timer that was just started begins to wait. -/
theorem waits_of_starts (h : InOrder s lists) {start : TimerAction Func Param}
    (hallowed : s.StepAllowed (.operation start)) (hstarts : Starts s.timers i start) :
    Waits (s.step (.operation start)) (s.step (.operation start)) i 0 ∧
      (s.step (.operation start)).timers.expiriesOf i = s.timers.expiriesOf i ∧
      (s.step (.operation start)).timers.sTick = s.timers.sTick := by
  obtain ⟨lists', hafter⟩ := h.step hallowed
  have honly : (timerStep s.timers start).sTick = s.timers.sTick ∧
      (timerStep s.timers start).expiries = s.timers.expiries := by
    rcases timerStep_edits h.slotsTaken hallowed.1 with hsame | ⟨j, hedits, -⟩
    · rw [hsame]
      exact ⟨rfl, rfl⟩
    · exact ⟨(Edits.onlyTimer hedits).tick, (Edits.onlyTimer hedits).expiries⟩
  obtain ⟨hactive, hdeadline⟩ := startedAt_of_starts hstarts
  have hnone : (s.step (.operation start)).calling ≠ some i := h.not_calling hallowed hstarts
  have hslot := hafter.timed.onLists.taken i (by rwa [settled_timer hnone])
  have hmost := (hafter.timed.initTick i hslot).2
  rw [settled_timer hnone] at hmost
  refine ⟨⟨hnone, rfl, hactive, rfl, (BitVec.add_zero _).symm, ?_⟩, ?_, honly.1⟩
  · have hremaining := TimerManage.remaining_started (m := timerStep s.timers start) hmost
      (by rw [honly.1]; exact hdeadline)
    exact hremaining.trans (by simp)
  · rw [TimerManage.expiriesOf, step, honly.2, TimerManage.expiriesOf]

/-- In every run of allowed steps a soft timer that is started and left alone is not called before
its deadline; and as soon as the deadline has passed and the loop of `soft_timer_handle` finds
nothing to do, it has been called. -/
theorem softTimers_on_time (links : LinkedRing.Links TimerNode) (parameter : Param) (tick : Tick)
    (actions : List (TimerLoopAction Func Param))
    (hactions : AllSteps step StepAllowed (construct links parameter tick) actions) :
    let s := Transition.run step (construct links parameter tick) actions
    ∀ (i : Fin monitorTimeNr) (start : TimerAction Func Param)
      (during : List (TimerLoopAction Func Param)), Starts s.timers i start →
      AllSteps step StepAllowed s (.operation start :: during) →
      (∀ action ∈ during, TimerLoopAction.disturbs i action = false) →
      let started := s.step (.operation start)
      let ended := Transition.run step started during
      let ticks := during.countP TimerLoopAction.isTick
      let time := (started.timers.timer i).initTick
      (started.timers.timer i).soft = true →
      (ticks < time.toNat → ended.timers.expiriesOf i = s.timers.expiriesOf i) ∧
      (time.toNat ≤ ticks → ¬ ended.timers.FrontDue .softTimerList →
        ∃ k later, time.toNat ≤ k ∧ k ≤ ticks ∧ ended.timers.expiriesOf i =
          later ++ calledAt (started.timers.timer i) i (s.timers.sTick + BitVec.ofNat 32 k) ++
            s.timers.expiriesOf i) := by
  intro s i start during hstarts hallowed halone started ended ticks time hsoft
  obtain ⟨lists, h⟩ : ∃ lists, InOrder s lists :=
    inOrder_run (InOrder.construct links parameter tick) hactions
  obtain ⟨hfirst, hrest⟩ := hallowed
  obtain ⟨lists', hafter⟩ : ∃ lists', InOrder started lists' := h.step hfirst
  obtain ⟨hwaits, hbefore, hclock⟩ : Waits started started i 0 ∧ _ ∧ _ :=
    waits_of_starts h hfirst hstarts
  obtain ⟨last, horder, hended⟩ := Waits.run (.inl hwaits) hafter hrest halone fun hhard ↦ by
    rw [hsoft] at hhard
    contradiction
  rw [Nat.zero_add] at hended
  refine ⟨fun hearly ↦ ?_, fun hlate hidle ↦ ?_⟩
  · rcases hended with hstill | ⟨k, later, htime, hk, -⟩
    · exact hstill.expiries.trans hbefore
    · exact absurd (htime.trans hk) (Nat.not_le_of_lt hearly)
  · rcases hended with hstill | ⟨k, later, htime, hk, heq⟩
    · refine absurd (horder.frontDue_iff.mpr ⟨i, ?_, ?_⟩) hidle
      · exact ⟨hstill.timer ▸ hstill.activated, hstill.timer ▸ hsoft, hstill.calling⟩
      · have hmem := horder.softWaiting_iff.mp
          ⟨hstill.timer ▸ hstill.activated, hstill.timer ▸ hsoft, hstill.calling⟩
        have hwindow := horder.timed.window true i hmem
        rw [TimerManage.InWindow, settled_remaining hstill.calling] at hwindow
        rw [TimerManage.due_iff_remaining hwindow, hstill.remaining]
        change (time.toNat : ℤ) - ticks ≤ 0
        omega
    · rw [hbefore, hclock] at heq
      exact ⟨k, later, htime, hk, heq⟩

/-- When its callback has returned the soft timer has been called, one tick late at most. -/
theorem softTimers_on_time_softAndHard :
    let s := Transition.run step (construct clearedLinks () 0xFFFFFFFE) softAndHard
    let started := s.step (.operation (.start 0))
    let ended := Transition.run step started interrupted.tail
    ∃ k later, 1 ≤ k ∧ k ≤ 2 ∧ ended.timers.expiriesOf 0 =
      later ++ calledAt (started.timers.timer 0) 0 (s.timers.sTick + BitVec.ofNat 32 k) ++
        s.timers.expiriesOf 0 := by
  have hstarts : Starts (Transition.run step (construct clearedLinks () 0xFFFFFFFE)
      softAndHard).timers 0 (.start 0) := ⟨rfl, by decide +kernel⟩
  have hnext : (Transition.run step (construct clearedLinks () 0xFFFFFFFE)
      (softAndHard ++ interrupted)).timers.links.next .softTimerList = .softTimerList := by
    decide +kernel
  apply (softTimers_on_time clearedLinks () 0xFFFFFFFE softAndHard
    softAndHard_interrupted.append_left 0 (.start 0) interrupted.tail hstarts
    softAndHard_interrupted.append_right (by decide) (by decide +kernel)).2
  · decide +kernel
  · rintro ⟨i, hfront, -⟩
    cases hnext.symm.trans hfront

/-- In every run of allowed steps a hard timer that is started and left alone is called at its
deadline and not before, whatever the soft timers do and wherever `soft_timer_handle` stands. -/
theorem hardTimers_on_time_among_soft (links : LinkedRing.Links TimerNode) (parameter : Param)
    (tick : Tick) (actions : List (TimerLoopAction Func Param))
    (hactions : AllSteps step StepAllowed (construct links parameter tick) actions) :
    let s := Transition.run step (construct links parameter tick) actions
    ∀ (i : Fin monitorTimeNr) (start : TimerAction Func Param)
      (during : List (TimerLoopAction Func Param)), Starts s.timers i start →
      AllSteps step StepAllowed s (.operation start :: during) →
      (∀ action ∈ during, TimerLoopAction.disturbs i action = false) →
      let started := s.step (.operation start)
      let ended := Transition.run step started during
      let ticks := during.countP TimerLoopAction.isTick
      let time := (started.timers.timer i).initTick
      (started.timers.timer i).soft = false →
      (ticks < time.toNat → ended.timers.expiriesOf i = s.timers.expiriesOf i) ∧
      (ticks + 1 = time.toNat → ended.StepAllowed .tick →
        OnTime s.timers.sTick time started.timers (ended.step .tick).timers i) := by
  intro s i start during hstarts hallowed halone started ended ticks time hhard
  obtain ⟨lists, h⟩ : ∃ lists, InOrder s lists :=
    inOrder_run (InOrder.construct links parameter tick) hactions
  obtain ⟨hfirst, hrest⟩ := hallowed
  obtain ⟨lists', hafter⟩ : ∃ lists', InOrder started lists' := h.step hfirst
  obtain ⟨hwaits, hbefore, hclock⟩ : Waits started started i 0 ∧ _ ∧ _ :=
    waits_of_starts h hfirst hstarts
  have hrun : ticks < time.toNat → ∃ last, InOrder ended last ∧ Waits started ended i ticks := by
    intro hearly
    obtain ⟨last, horder, hended⟩ := Waits.run (.inl hwaits) hafter hrest halone fun _ ↦ by
      rwa [Nat.zero_add]
    rw [Nat.zero_add] at hended
    refine ⟨last, horder, hended.resolve_right ?_⟩
    rintro ⟨k, later, htime, hk, -⟩
    exact absurd (htime.trans hk) (Nat.not_le_of_lt hearly)
  refine ⟨fun hearly ↦ ?_, fun hlast hfed ↦ ?_⟩
  · obtain ⟨last, -, hstill⟩ := hrun hearly
    exact hstill.expiries.trans hbefore
  · obtain ⟨last, horder, hstill⟩ := hrun (by omega)
    rw [← hclock]
    exact hstill.lastTick horder hfed hhard hlast

/-- The hard timer is called while the callback of the soft timer runs. -/
theorem hardTimers_on_time_among_soft_softAndHard :
    let s := Transition.run step (construct clearedLinks () 0xFFFFFFFE)
      (softAndHard ++ [.operation (.start 0)])
    let started := s.step (.operation (.start 1))
    let ended := Transition.run step started
      [.tick, .handle, .operation (.softRegister 40 0 (some ()) ())]
    ended.calling = some 0 ∧ OnTime s.timers.sTick (started.timers.timer 1).initTick
      started.timers (ended.step .tick).timers 1 := by
  have hstarts : Starts (Transition.run step (construct clearedLinks () 0xFFFFFFFE)
      (softAndHard ++ [.operation (.start 0)])).timers 1 (.start 1) := ⟨rfl, by decide +kernel⟩
  have hbefore : AllSteps step StepAllowed (construct clearedLinks () 0xFFFFFFFE)
      (softAndHard ++ [.operation (.start 0)]) := by
    have hsplit : softAndHard ++ interrupted =
      (softAndHard ++ [.operation (.start 0)]) ++ interrupted.tail := rfl
    exact (hsplit ▸ softAndHard_interrupted).append_left
  have hduring : AllSteps step StepAllowed (Transition.run step
      (construct clearedLinks () 0xFFFFFFFE) (softAndHard ++ [.operation (.start 0)]))
      ([.operation (.start 1), .tick, .handle, .operation (.softRegister 40 0 (some ()) ())] ++
        [.tick, .handle]) := by
    have hsplit : softAndHard ++ interrupted = (softAndHard ++ [.operation (.start 0)]) ++
      ([.operation (.start 1), .tick, .handle, .operation (.softRegister 40 0 (some ()) ())] ++
        [.tick, .handle]) := rfl
    exact (hsplit ▸ softAndHard_interrupted).append_right
  have hrule := hardTimers_on_time_among_soft clearedLinks () 0xFFFFFFFE
    (softAndHard ++ [.operation (.start 0)]) hbefore 1 (.start 1)
    [.tick, .handle, .operation (.softRegister 40 0 (some ()) ())]
  refine ⟨by decide +kernel, (hrule hstarts hduring.append_left (by decide)
    (by decide +kernel)).2 (by decide +kernel) hduring.append_right.1⟩

end TimerLoop

end ProjectSensor.Service
