import ProjectSensor.Service.TimerLoop

/-!
# Hard and soft timers in one run

Operations, ticks and the steps of `soft_timer_handle` in any order.  A callback may make
operations too: on its own timer it may set the time, on the others any.  Both lists stay in the
order of the deadlines, so the event loop is woken when a soft timer is due and calls the earliest
one; a hard timer is called on the tick of its deadline, and a soft timer not before its deadline
and not later than the pass that ends after it.
-/

open ProjectSensor.Library ProjectSensor.Library.SlotBitmap ProjectSensor.Library.Transition

namespace ProjectSensor.Service

variable {Func Param : Type}

namespace TimerManage

variable {m m' : TimerManage Func Param} {i : Fin monitorTimeNr}

/-- The flag of a paused timer depends on that timer only. -/
theorem paused_flag_congr (hsame : m'.timer i = m.timer i) :
    ((m'.paused i).timer i).flag = ((m.paused i).timer i).flag := by
  unfold paused returned
  rw [hsame]
  cases (m.timer i).timeoutFunc <;> simp [setFlag, setTimer, hsame]

theorem setFlag_setFlag (flag flag' : BitVec 8) :
    (m.setFlag i flag).setFlag i flag' = m.setFlag i flag' := by
  simp [setFlag, setTimer]

theorem setFlag_flag : m.setFlag i (m.timer i).flag = m := by
  simp [setFlag, setTimer]

/-- An edit of another timer is one, too, when the timer is counted as stopped. -/
theorem edits_paused {j : Fin monitorTimeNr} (hj : j ≠ i) (hedits : Edits j m m') :
    Edits j (m.paused i) (m'.paused i) := by
  rw [paused_eq (m := m), paused_eq (m := m'),
    paused_flag_congr ((Edits.onlyTimer hedits).other i hj.symm)]
  exact edits_setFlag hj hedits

/-- A callback that sets the time of its own timer. -/
theorem edits_paused_timerTimeout {expiredMs : BitVec 32}
    (hpos : 0 < (svTickFromMillisecond expiredMs).toNat) :
    Edits i (m.paused i) ((m.timerTimeout i expiredMs).2.paused i) := by
  have hset : (m.timerTimeout i expiredMs).2.paused i =
      ((m.paused i).timerTimeout i expiredMs).2 := by
    unfold timerTimeout
    rw [dif_pos i.isLt, dif_pos i.isLt]
    split
    · rfl
    · unfold paused returned
      cases hfunc : (m.timer i).timeoutFunc <;> simp [setFlag, setTimer, hfunc]
  rw [hset]
  exact timerTimeout_edits i.isLt hpos

/-- While a callback runs, a tick does to the other timers what it does when the timer is counted
as stopped, and nothing to the timer itself. -/
theorem svTickIncrease_paused {lists lists' : Lists} (h : OnLists (m.paused i) lists)
    (hticked : Ticked (m.paused i) (m.paused i).svTickIncrease lists lists') :
    m.svTickIncrease.paused i = (m.paused i).svTickIncrease ∧
      m.svTickIncrease.timer i = m.timer i := by
  have hbase : (m.paused i).setFlag i (m.timer i).flag = m := by
    rw [paused_eq, setFlag_setFlag, setFlag_flag]
  have hquiet : (m.paused i).svTickIncrease.timer i = (m.paused i).timer i :=
    (hticked.untouched i fun hin ↦ h.notMem paused_idle false hin.1).timer
  have htick : m.svTickIncrease = (m.paused i).svTickIncrease.setFlag i (m.timer i).flag := by
    rw [← svTickIncrease_setFlag h paused_idle, hbase]
  have htimer : m.svTickIncrease.timer i = m.timer i := by
    calc m.svTickIncrease.timer i
        = { (m.paused i).svTickIncrease.timer i with flag := (m.timer i).flag } := by
          rw [htick]
          simp [setFlag, setTimer]
      _ = ((m.paused i).setFlag i (m.timer i).flag).timer i := by
          rw [hquiet]
          simp [setFlag, setTimer]
      _ = m.timer i := by rw [hbase]
  refine ⟨?_, htimer⟩
  calc m.svTickIncrease.paused i
      = m.svTickIncrease.setFlag i ((m.paused i).timer i).flag := by
        rw [paused_eq, paused_flag_congr htimer]
    _ = (m.paused i).svTickIncrease.setFlag i ((m.paused i).svTickIncrease.timer i).flag := by
        rw [htick, setFlag_setFlag, hquiet]
    _ = (m.paused i).svTickIncrease := setFlag_flag

end TimerManage

namespace TimerLoop

variable (s : TimerLoop Func Param)

/-- The timers with the one whose callback runs counted as stopped. -/
def settled : TimerManage Func Param :=
  match s.calling with
  | none => s.timers
  | some i => s.timers.paused i

/-- Operations may be made at any time, but a callback neither stops nor restarts its own timer,
and the loop does not starve the soft timers. -/
def StepAllowed : TimerLoopAction Func Param → Prop
  | .operation action => OperationAllowed s.timers action ∧ ∀ i : Fin monitorTimeNr,
      s.calling = some i → HardAction.disturbs i (.operation action) = false ∨
        ∃ expiredMs, action = .timeout i expiredMs
  | .tick => NotStarved s.settled
  | .handle => True

variable {s} in
theorem stepAllowed_of_idle (hidle : s.calling = none) {action : TimerAction Func Param}
    (hoperation : OperationAllowed s.timers action) : s.StepAllowed (.operation action) :=
  ⟨hoperation, fun i hi ↦ absurd (hidle.symm.trans hi) (Option.some_ne_none i).symm⟩

/-- Both lists are in order; the timer whose callback runs keeps its flag and its slot. -/
structure InOrder (lists : Lists) : Prop where
  timed : TimedLists s.settled lists
  ahead : HardAhead s.settled lists
  calling : ∀ i : Fin monitorTimeNr, s.calling = some i →
    (s.timers.timer i).activated = true ∧ taken s.timers.bitmap i = true

variable {s} {lists : Lists} {i : Fin monitorTimeNr}

theorem settled_eq (s : TimerLoop Func Param) : s.settled.sTick = s.timers.sTick ∧
    s.settled.expiries = s.timers.expiries ∧ s.settled.links = s.timers.links ∧
      s.settled.softTimerHandling = s.timers.softTimerHandling ∧
        s.settled.bitmap = s.timers.bitmap := by
  unfold settled
  cases s.calling with
  | none => exact ⟨rfl, rfl, rfl, rfl, rfl⟩
  | some i =>
      simp only
      rw [TimerManage.paused_eq]
      exact ⟨rfl, rfl, rfl, rfl, rfl⟩

theorem settled_timer (hi : s.calling ≠ some i) : s.settled.timer i = s.timers.timer i := by
  unfold settled
  cases hcalling : s.calling with
  | none => rfl
  | some j =>
      have hij : i ≠ j := fun heq ↦ hi (heq ▸ hcalling)
      simp only
      rw [TimerManage.paused_eq, TimerManage.setFlag_timer_of_ne hij]

theorem settled_remaining (hi : s.calling ≠ some i) :
    s.settled.remaining i = s.timers.remaining i :=
  TimerManage.remaining_of_same (settled_eq s).1 (by rw [settled_timer hi])

theorem settled_expiriesOf (i : Fin monitorTimeNr) :
    s.settled.expiriesOf i = s.timers.expiriesOf i := by
  rw [TimerManage.expiriesOf, (settled_eq s).2.1, TimerManage.expiriesOf]

/-- What the next step of `soft_timer_handle` does. -/
theorem handle_cases (s : TimerLoop Func Param) :
    (∃ i, s.calling = some i ∧ s.handle = ⟨s.timers.leaveCallback .softTimerList i, none⟩) ∨
      (∃ i, s.calling = none ∧ s.timers.links.next .softTimerList = .timer i ∧ s.timers.Due i ∧
        s.handle = ⟨s.timers.enterCallback i, some i⟩) ∨
      (s.calling = none ∧ ¬ s.timers.FrontDue .softTimerList ∧
        s.handle = ⟨s.timers.softTimerDone, none⟩) := by
  unfold handle
  cases hcalling : s.calling with
  | some i => exact .inl ⟨i, rfl, rfl⟩
  | none =>
      right
      simp only [true_and]
      split
      · next i hnext =>
        split
        · next hdue => exact .inl ⟨i, hnext, hdue, rfl⟩
        · next hdue =>
          refine .inr ⟨?_, rfl⟩
          rintro ⟨j, hfront, hjdue⟩
          rw [hnext] at hfront
          obtain rfl := TimerNode.timer.inj hfront
          exact hdue hjdue
      · next hnext =>
        refine .inr ⟨?_, rfl⟩
        rintro ⟨j, hfront, -⟩
        exact hnext j hfront

theorem InOrder.construct (links : LinkedRing.Links TimerNode) (parameter : Param) (tick : Tick) :
    InOrder (construct links parameter tick : TimerLoop Func Param) fun _ ↦ [] where
  timed := by
    have hlists : OnLists (constructAt links parameter tick : TimerManage Func Param) fun _ ↦ [] :=
      (onLists_construct links parameter).frame rfl rfl (fun _ ↦ rfl) fun _ ↦ rfl
    refine ⟨hlists, fun j hj ↦ ?_, fun _ _ hj ↦ absurd hj List.not_mem_nil,
      fun _ ↦ List.Pairwise.nil⟩
    simp [settled, TimerLoop.construct, constructAt, TimerManage.construct] at hj
  ahead _ hj := absurd hj List.not_mem_nil
  calling i hi := by simp [TimerLoop.construct] at hi

/-- A tick, whether a callback runs or not. -/
theorem InOrder.tick (h : InOrder s lists) (hfed : NotStarved s.settled) :
    ∃ lists', InOrder (s.step .tick) lists' ∧
      Ticked s.settled (s.step .tick).settled lists lists' := by
  obtain ⟨lists', hticked⟩ := h.timed.svTickIncrease h.ahead hfed
  have hsettled : (s.step .tick).settled = s.settled.svTickIncrease := by
    have htimed := h.timed
    unfold settled at htimed hticked ⊢
    simp only [step]
    cases hcalling : s.calling with
    | none => rfl
    | some i =>
        simp only [hcalling] at htimed hticked ⊢
        exact (TimerManage.svTickIncrease_paused htimed.onLists hticked).1
  refine ⟨lists', ⟨hsettled ▸ hticked.timed, hsettled ▸ hticked.ahead, fun i hi ↦ ?_⟩,
    hsettled ▸ hticked⟩
  have hcalling : s.calling = some i := hi
  have htimed := h.timed
  rw [settled, hcalling] at htimed hticked
  rw [step, TimerManage.svTickIncrease_bitmap,
    (TimerManage.svTickIncrease_paused htimed.onLists hticked).2]
  exact h.calling i hcalling

theorem InOrder.handle (h : InOrder s lists) : ∃ lists', InOrder s.handle lists' := by
  rcases handle_cases s with ⟨i, hcalling, heq⟩ | ⟨i, hcalling, hnext, -, heq⟩ |
    ⟨hcalling, -, heq⟩
  · have hsettled : s.settled = s.timers.paused i := by rw [settled, hcalling]
    obtain ⟨htimed, hahead, htaken⟩ := h
    rw [hsettled] at htimed hahead
    obtain ⟨lists', htimed', hahead'⟩ := htimed.edits hahead
      (.single (TimerManage.edit_leaveCallback (htaken i hcalling).2 .softTimerList))
    rw [heq]
    exact ⟨lists', htimed', hahead', fun j hj ↦ nomatch hj⟩
  · have hsettled : s.settled = s.timers := by rw [settled, hcalling]
    obtain ⟨htimed, hahead, -⟩ := h
    rw [hsettled] at htimed hahead
    obtain ⟨rest, hlist⟩ := htimed.onLists.front_soft hnext
    have hcalled := htimed.called hlist
    have hactive := (htimed.onLists.soft_of_cons hlist).1
    have hentered : s.handle.settled = s.timers.called i s.timers.sTick := by
      rw [heq]
      exact TimerManage.paused_enterCallback
    refine ⟨_, hentered ▸ hcalled, fun j hj ↦ ?_, fun j hj ↦ ?_⟩
    · have hmem : j ∈ lists false := hj
      have hji : j ≠ i := fun hji ↦
        htimed.onLists.rings.disjoint i (hlist ▸ List.mem_cons_self) (hji ▸ hmem)
      rw [hentered, TimerManage.remaining_of_same (ite_self _)
        (by rw [TimerManage.called_timer_of_ne hji])]
      exact hahead j hmem
    · rw [heq] at hj ⊢
      obtain rfl := Option.some_inj.mp hj
      rw [TimerManage.enterCallback_frame.2.1]
      exact ⟨(TimerManage.activated_enterCallback i).trans hactive, htimed.onLists.taken i hactive⟩
  · have hsettled : s.settled = s.timers := by rw [settled, hcalling]
    obtain ⟨htimed, hahead, -⟩ := h
    rw [hsettled] at htimed hahead
    have hlists : OnLists s.timers.softTimerDone lists :=
      htimed.onLists.frame rfl rfl (fun _ ↦ rfl) fun _ ↦ rfl
    rw [heq]
    exact ⟨lists, (htimed.of_sameLists hlists rfl (fun _ _ _ ↦ rfl) htimed.initTick).1, hahead,
      fun j hj ↦ nomatch hj⟩

theorem InOrder.slotsTaken (h : InOrder s lists) : SlotsTaken s.timers := by
  intro j hj
  by_cases hcalling : s.calling = some j
  · exact (h.calling j hcalling).2
  · have hslot := h.timed.onLists.taken j (by rwa [settled_timer hcalling])
    rwa [(settled_eq s).2.2.2.2] at hslot

/-- An operation, whether a callback runs or not. -/
theorem InOrder.operation (h : InOrder s lists) {action : TimerAction Func Param}
    (hallowed : s.StepAllowed (.operation action)) :
    ∃ lists', InOrder (s.step (.operation action)) lists' := by
  obtain ⟨hoperation, hown⟩ := hallowed
  rcases timerStep_edits h.slotsTaken hoperation with hsame | ⟨j, hedits, hdisturbs⟩
  · have heq : s.step (.operation action) = s := by rw [step, hsame]
    exact ⟨lists, heq.symm ▸ h⟩
  obtain ⟨j, hsettled, hcalling⟩ : ∃ j, Edits j s.settled (s.step (.operation action)).settled ∧
      ∀ i : Fin monitorTimeNr, s.calling = some i →
        ((s.step (.operation action)).timers.timer i).activated = true ∧
          taken (s.step (.operation action)).timers.bitmap i = true := by
    cases hcalling : s.calling with
    | none =>
        refine ⟨j, ?_, fun i hi ↦ absurd hi (Option.some_ne_none i).symm⟩
        simpa only [settled, step, hcalling] using hedits
    | some i =>
        obtain ⟨hactive, hslot⟩ := h.calling i hcalling
        simp only [settled, step, hcalling, Option.some.injEq, forall_eq']
        rcases hown i hcalling with halone | ⟨expiredMs, rfl⟩
        · have hij : i ≠ j := by
            rintro rfl
            rw [hdisturbs hactive] at halone
            contradiction
          have honly := Edits.onlyTimer hedits
          exact ⟨j, TimerManage.edits_paused hij.symm hedits, by rwa [honly.other i hij],
            by rwa [honly.slot i hij]⟩
        · refine ⟨i, TimerManage.edits_paused_timerTimeout hoperation, ?_, ?_⟩
          · rwa [timerStep, TimerManage.timerTimeout_activated]
          · rwa [timerStep, TimerManage.timerTimeout_bitmap]
  obtain ⟨lists', htimed, hahead⟩ := h.timed.edits h.ahead hsettled
  exact ⟨lists', htimed, hahead, hcalling⟩

/-- Every step keeps the order. -/
theorem InOrder.step (h : InOrder s lists) {action : TimerLoopAction Func Param}
    (hallowed : s.StepAllowed action) : ∃ lists', InOrder (s.step action) lists' := by
  cases action with
  | operation action => exact h.operation hallowed
  | tick =>
      obtain ⟨lists', hticked, -⟩ := h.tick hallowed
      exact ⟨lists', hticked⟩
  | handle => exact h.handle

theorem inOrder_run {actions : List (TimerLoopAction Func Param)} (h : InOrder s lists)
    (hallowed : AllSteps step StepAllowed s actions) :
    ∃ lists', InOrder (run step s actions) lists' :=
  have hstep : ∀ (s : TimerLoop Func Param) action, (∃ lists, InOrder s lists) →
      StepAllowed s action → ∃ lists', InOrder (s.step action) lists' :=
    fun _ _ ⟨_, h⟩ hallowed ↦ h.step hallowed
  (allStates_of_step hstep ⟨lists, h⟩ hallowed).last

end TimerLoop

end ProjectSensor.Service
