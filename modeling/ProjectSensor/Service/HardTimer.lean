import Mathlib.Data.List.Sort
import ProjectSensor.Library.WrappedTime
import ProjectSensor.Service.TimerRun

/-!
# The list of the hard timers

When only hard timers are used, every deadline on the list is less than `TICK_MAX/2` ticks away,
and the list is sorted by the ticks left.  Then the wrapped comparison of `sv_timer_start` finds
the place in the order, and the test of `timer_handle` at the front of the list finds every timer
that is due.  `HardLists` is this invariant while a tick is handled; between operations no timer
is due (`Pending`).
-/

open ProjectSensor.Library ProjectSensor.Library.SlotBitmap ProjectSensor.Library.WrappedTime

namespace ProjectSensor.Service

variable {Func Param : Type}

namespace TimerManage

variable (m : TimerManage Func Param)

/-- The ticks until the deadline of a timer. -/
def left (i : Fin monitorTimeNr) : ℕ := WrappedTime.left m.sTick (m.timer i).timeoutTick

/-- One timer is due no later than another. -/
def NoLater (i j : Fin monitorTimeNr) : Prop := m.left i ≤ m.left j

instance : DecidableRel m.NoLater := fun i j ↦ inferInstanceAs (Decidable (m.left i ≤ m.left j))

instance : Std.Total m.NoLater := ⟨fun i j ↦ Nat.le_total (m.left i) (m.left j)⟩

instance : IsTrans (Fin monitorTimeNr) m.NoLater := ⟨fun _ _ _ ↦ Nat.le_trans⟩

/-- The callbacks of a timer that were run. -/
def expiriesOf (i : Fin monitorTimeNr) : List (Expiry Func Param) :=
  m.expiries.filter fun expiry ↦ expiry.timer = i

/-- `sv_tick_increase`: the clock advances and the timers are checked.  The callbacks run in the
tick interrupt, so the clock stands still, and each of the timers is handled at most once. -/
def svTickIncrease : TimerManage Func Param :=
  { m with sTick := m.sTick + 1 }.timerCheck (List.replicate (monitorTimeNr + 1) (m.sTick + 1))

end TimerManage

/-- The hard timers as the only ones on a list. -/
def hardLists (timers : List (Fin monitorTimeNr)) : Lists := fun soft ↦ if soft then [] else timers

@[simp]
theorem hardLists_false (timers : List (Fin monitorTimeNr)) : hardLists timers false = timers := rfl

@[simp]
theorem update_hardLists (timers timers' : List (Fin monitorTimeNr)) :
    Function.update (hardLists timers) false timers' = hardLists timers' := by
  funext soft
  cases soft <;> simp [hardLists]

/-- Hard timers only, each with a time that the comparisons can tell, in the order in which they
are due. -/
structure HardLists (m : TimerManage Func Param) (timers : List (Fin monitorTimeNr)) : Prop where
  lists : OnLists m (hardLists timers)
  hard : ∀ i, (m.timer i).soft = false
  initTick : ∀ i : Fin monitorTimeNr, taken m.bitmap i = true →
    0 < (m.timer i).initTick.toNat ∧ (m.timer i).initTick.toNat < tickHalf.toNat
  window : ∀ i ∈ timers, m.left i < tickHalf.toNat
  sorted : timers.Pairwise m.NoLater

/-- No timer on the list is due. -/
def Pending (m : TimerManage Func Param) (timers : List (Fin monitorTimeNr)) : Prop :=
  ∀ i ∈ timers, 0 < m.left i

theorem two_mul_tickHalf_le : 2 * tickHalf.toNat ≤ 2 ^ 32 := by decide

/-- Where the wrapped comparison agrees with an order, it puts a timer to its place in it. -/
theorem insertDue_eq_orderedInsert {due : Fin monitorTimeNr → Tick} {i : Fin monitorTimeNr}
    {timers : List (Fin monitorTimeNr)} {r : Fin monitorTimeNr → Fin monitorTimeNr → Prop}
    [DecidableRel r] (hr : ∀ j ∈ timers, due j - due i < tickHalf ↔ r i j) :
    insertDue due i timers = timers.orderedInsert r i := by
  induction timers with
  | nil => rfl
  | cons j timers ih =>
      have hj := hr j List.mem_cons_self
      have hrest := ih fun k hk ↦ hr k (List.mem_cons_of_mem _ hk)
      by_cases hlt : due j - due i < tickHalf
      · simp [insertDue, hlt, hj.mp hlt]
      · rw [List.orderedInsert_of_not_le _ _ (mt hj.mpr hlt), ← hrest]
        simp [insertDue, hlt]

namespace HardLists

variable {m m' : TimerManage Func Param} {timers timers' : List (Fin monitorTimeNr)}
  {i : Fin monitorTimeNr}

theorem mem_iff (h : HardLists m timers) : i ∈ timers ↔ (m.timer i).activated = true := by
  simpa [h.hard] using h.lists.mem false i

theorem idle (h : HardLists m timers) (hi : i ∉ timers) : (m.timer i).activated = false := by
  simpa using mt h.mem_iff.mpr hi

theorem taken (h : HardLists m timers) (hi : i ∈ timers) : taken m.bitmap i = true :=
  h.lists.taken i (h.mem_iff.mp hi)

/-- What keeps the deadlines of the timers that stay on the list keeps their order. -/
theorem keep (h : HardLists m timers) (hlists : OnLists m' (hardLists timers'))
    (hsub : timers'.Sublist timers) (htick : m'.sTick = m.sTick)
    (hdue : ∀ j ∈ timers', (m'.timer j).timeoutTick = (m.timer j).timeoutTick)
    (hhard : ∀ j, (m'.timer j).soft = false)
    (hinit : ∀ j : Fin monitorTimeNr, SlotBitmap.taken m'.bitmap j = true →
      0 < (m'.timer j).initTick.toNat ∧ (m'.timer j).initTick.toNat < tickHalf.toNat) :
    HardLists m' timers' := by
  have hleft : ∀ j ∈ timers', m'.left j = m.left j := fun j hj ↦ by
    rw [TimerManage.left, TimerManage.left, htick, hdue j hj]
  refine ⟨hlists, hhard, hinit, fun j hj ↦ ?_, ?_⟩
  · rw [hleft j hj]
    exact h.window j (hsub.subset hj)
  · exact (h.sorted.sublist hsub).imp_of_mem fun {j k} hj hk hle ↦ by
      rwa [TimerManage.NoLater, hleft j hj, hleft k hk]

/-- The timer of `sv_timer_start` goes to its place in the order. -/
theorem svTimerStart (h : HardLists m timers) (hi : i ∉ timers)
    (htaken : SlotBitmap.taken m.bitmap i = true) :
    HardLists (m.svTimerStart i).2 (timers.orderedInsert (m.svTimerStart i).2.NoLater i) ∧
      (m.svTimerStart i).2.left i = (m.timer i).initTick.toNat ∧
      ∀ j, j ≠ i → (m.svTimerStart i).2.left j = m.left j := by
  have hidle := h.idle hi
  have hlists := h.lists.svTimerStart hidle htaken
  rw [h.hard i, hardLists_false, update_hardLists] at hlists
  have heq := TimerManage.svTimerStart_eq h.lists.rings hidle
  set started := (m.svTimerStart i).2 with hstarted
  have htimer : started.timer = Function.update m.timer i (m.started i) := by
    rw [hstarted, heq]
  have htick : started.sTick = m.sTick := by rw [hstarted, heq]
  have hbitmap : started.bitmap = m.bitmap := by rw [hstarted, heq]
  have hself : started.left i = (m.timer i).initTick.toNat := by
    rw [TimerManage.left, htimer, htick]
    simp [TimerManage.started]
  have hother : ∀ j, j ≠ i → started.left j = m.left j := fun j hj ↦ by
    rw [TimerManage.left, TimerManage.left, htimer, htick, Function.update_of_ne hj]
  have hinit := h.initTick i htaken
  have hwindow : ∀ j, j = i ∨ j ∈ timers → started.left j < tickHalf.toNat := by
    rintro j (rfl | hj)
    · exact hself ▸ hinit.2
    · rw [hother j fun heq ↦ hi (heq ▸ hj)]
      exact h.window j hj
  have hinsert : insertDue (m.dueAfterStart i) i timers =
      timers.orderedInsert started.NoLater i := by
    refine insertDue_eq_orderedInsert fun j hj ↦ ?_
    have hcompare := sub_lt_iff_left_le two_mul_tickHalf_le (hwindow j (.inr hj))
      (hwindow i (.inl rfl))
    simp only [TimerManage.NoLater, TimerManage.left, TimerManage.dueAfterStart, BitVec.lt_def]
    rw [htimer] at hcompare ⊢
    exact hcompare
  rw [hinsert] at hlists
  refine ⟨⟨hlists, fun j ↦ ?_, fun j hj ↦ ?_, fun j hj ↦ hwindow j ?_, ?_⟩, hself, hother⟩
  · rw [htimer]
    by_cases hj : j = i
    · subst hj
      simpa [TimerManage.started, SvTimer.soft, (SvTimer.hasFlag_startFlag _).2.2] using h.hard j
    · rw [Function.update_of_ne hj]
      exact h.hard j
  · rw [hbitmap] at hj
    rw [htimer]
    by_cases hji : j = i
    · subst hji
      simpa [TimerManage.started] using hinit
    · rw [Function.update_of_ne hji]
      exact h.initTick j hj
  · exact (List.mem_orderedInsert _).mp hj
  · refine List.Pairwise.orderedInsert i timers (h.sorted.imp_of_mem fun {j k} hj hk hle ↦ ?_)
    rwa [TimerManage.NoLater, hother j fun heq ↦ hi (heq ▸ hj), hother k fun heq ↦ hi (heq ▸ hk)]

/-- The timer at the front of the list taken off it and called. -/
theorem called (h : HardLists m (i :: timers)) : HardLists (m.called i m.sTick) timers := by
  have hactive := h.mem_iff.mp List.mem_cons_self
  have hnotMem := (List.nodup_cons.mp (h.lists.rings.nodup false)).1
  have hlists := h.lists.called hactive m.sTick
  rw [h.hard i, hardLists_false, List.erase_cons_head, update_hardLists] at hlists
  refine h.keep hlists (List.sublist_cons_self ..) (by simp [TimerManage.called])
    (fun j hj ↦ ?_) (fun j ↦ ?_) fun j hj ↦ ?_
  · have hji : j ≠ i := fun heq ↦ hnotMem (heq ▸ hj)
    rw [TimerManage.called_timer_of_ne hji]
  · by_cases hj : j = i
    · subst hj
      rw [(TimerManage.called_timer_self m.sTick).2.2, h.hard]
    · rw [TimerManage.called_timer_of_ne hj, h.hard]
  · by_cases hji : j = i
    · subst hji
      simpa [TimerManage.called] using h.initTick j hj
    · rw [TimerManage.called_timer_of_ne hji]
      exact h.initTick j hj

end HardLists

namespace TimerManage

variable (m m' : TimerManage Func Param) (i : Fin monitorTimeNr)

/-- A timer was called once; it is armed again if it is periodic, and otherwise reports so. -/
structure Fired : Prop where
  expiries : m'.expiriesOf i = m.firing i ++ m.expiriesOf i
  periodic : (m.timer i).periodic = true → (m'.timer i).activated = true ∧
    (m'.timer i).timeoutTick = m.sTick + (m.timer i).initTick
  oneShot : (m.timer i).periodic = false →
    (m'.timer i).activated = false ∧ m'.timerExpired i ≠ 0

/-- Nothing happened to a timer. -/
structure Untouched : Prop where
  timer : m'.timer i = m.timer i
  expiries : m'.expiriesOf i = m.expiriesOf i

variable {m m' i} {m'' : TimerManage Func Param}

theorem timerExpired_eq (m : TimerManage Func Param) (i : Fin monitorTimeNr) :
    m.timerExpired i = ((m.timer i).flag &&& svTimerFlagTimeout).toNat := by
  simp [timerExpired]

theorem Untouched.trans (h : m.Untouched m' i) (h' : m'.Untouched m'' i) : m.Untouched m'' i :=
  ⟨h'.timer.trans h.timer, h'.expiries.trans h.expiries⟩

theorem Untouched.fired (h : m.Untouched m' i) (htick : m'.sTick = m.sTick)
    (h' : m'.Fired m'' i) : m.Fired m'' i := by
  obtain ⟨hexpiries, hperiodic, honeShot⟩ := h'
  rw [h.timer] at hperiodic honeShot
  rw [htick] at hperiodic
  refine ⟨?_, hperiodic, honeShot⟩
  rw [hexpiries, h.expiries, firing, firing, h.timer, htick]

theorem Fired.untouched (h : m.Fired m' i) (h' : m'.Untouched m'' i) : m.Fired m'' i := by
  refine ⟨h'.expiries.trans h.expiries, ?_, ?_⟩
  · rw [h'.timer]
    exact h.periodic
  · have honeShot := h.oneShot
    rw [timerExpired_eq] at honeShot ⊢
    rw [h'.timer]
    exact honeShot

theorem firedFlag_expired (flag : BitVec 8) :
    (SvTimer.firedFlag flag &&& svTimerFlagTimeout).toNat ≠ 0 := by
  revert flag
  decide +kernel

/-- A timer that is handled is called, and the others are not touched. -/
theorem Passed.isFired (h : m.Passed m' i) : m.Fired m' i := by
  refine ⟨?_, h.rearmed, fun hone ↦ ⟨?_, ?_⟩⟩
  · rw [expiriesOf, h.expiries, List.filter_append, firing]
    split <;> simp [expiriesOf]
  · rw [SvTimer.activated, h.fired hone]
    exact (SvTimer.hasFlag_firedFlag _).1
  · rw [timerExpired_eq, h.fired hone]
    exact_mod_cast firedFlag_expired _

theorem Passed.untouched (h : m.Passed m' i) {j : Fin monitorTimeNr} (hj : j ≠ i) :
    m.Untouched m' j := by
  refine ⟨h.other j hj, ?_⟩
  rw [expiriesOf, h.expiries, List.filter_append, firing]
  split <;> simp [expiriesOf, hj.symm]

theorem Passed.left_of_ne (h : m.Passed m' i) {j : Fin monitorTimeNr} (hj : j ≠ i) :
    m'.left j = m.left j := by
  rw [left, left, h.tick, h.other j hj]

end TimerManage

namespace HardLists

variable {m : TimerManage Func Param} {timers : List (Fin monitorTimeNr)} {i : Fin monitorTimeNr}

/-- What handling the timer at the front of the list does. -/
structure Handled (m m' : TimerManage Func Param) (i : Fin monitorTimeNr)
    (timers timers' : List (Fin monitorTimeNr)) : Prop where
  hard : HardLists m' timers'
  fired : m.Fired m' i
  untouched : ∀ j, j ≠ i → m.Untouched m' j
  tick : m'.sTick = m.sTick
  mem : ∀ j ∈ timers', j = i ∧ 0 < m'.left j ∨ j ∈ timers
  kept : timers ⊆ timers'
  due : timers'.countP (fun j ↦ m'.left j = 0) = timers.countP (fun j ↦ m.left j = 0)

theorem Handled.left_of_ne {m' : TimerManage Func Param} {timers' : List (Fin monitorTimeNr)}
    {j : Fin monitorTimeNr} (hhandled : Handled m m' i timers timers') (hj : j ≠ i) :
    m'.left j = m.left j := by
  rw [TimerManage.left, TimerManage.left, hhandled.tick, (hhandled.untouched j hj).timer]

/-- A periodic timer goes back to its place in the order, and is not due there. -/
theorem handled_of_periodic (h : HardLists m (i :: timers))
    (hperiodic : (m.timer i).periodic = true) :
    ∃ timers', Handled m (m.expire .timerList i m.sTick) i timers timers' := by
  have hactive := h.mem_iff.mp List.mem_cons_self
  have htaken := h.lists.taken i hactive
  have hnotMem : i ∉ timers := (List.nodup_cons.mp (h.lists.rings.nodup false)).1
  have hpassed := h.lists.passed .timerList hactive
  have hpos : 0 < (m.expire .timerList i m.sTick).left i := by
    rw [TimerManage.left, hpassed.tick, (hpassed.rearmed hperiodic).2, WrappedTime.left_add]
    exact (h.initTick i htaken).1
  have hstarted := (h.called.svTimerStart hnotMem htaken).1
  rw [← TimerManage.expire_of_periodic .timerList _ hactive hperiodic] at hstarted
  refine ⟨_, hstarted, hpassed.isFired, fun j hj ↦ hpassed.untouched hj, hpassed.tick,
    fun j hj ↦ ?_, fun j hj ↦ (List.mem_orderedInsert _).mpr (.inr hj), ?_⟩
  · rcases (List.mem_orderedInsert _).mp hj with rfl | hj
    · exact .inl ⟨rfl, hpos⟩
    · exact .inr hj
  · rw [(List.perm_orderedInsert _ i timers).countP_eq, List.countP_cons_of_neg (by simp; omega)]
    apply List.countP_congr
    intro j hj
    rw [hpassed.left_of_ne fun heq ↦ hnotMem (heq ▸ hj)]

/-- A one-shot timer leaves the list. -/
theorem handled_of_oneShot (h : HardLists m (i :: timers))
    (hperiodic : (m.timer i).periodic = false) :
    ∃ timers', Handled m (m.expire .timerList i m.sTick) i timers timers' := by
  have hnotMem : i ∉ timers := (List.nodup_cons.mp (h.lists.rings.nodup false)).1
  have hne : ∀ j ∈ timers, j ≠ i := fun j hj heq ↦ hnotMem (heq ▸ hj)
  have hfront : hardLists (i :: timers) false = i :: timers := rfl
  have hlists := h.lists.expire_of_oneShot hfront hperiodic m.sTick
  rw [update_hardLists, show headOf false = .timerList from rfl] at hlists
  have hpassed := h.lists.passed .timerList (h.mem_iff.mp List.mem_cons_self)
  have hbitmap : (m.expire .timerList i m.sTick).bitmap = m.bitmap := by
    rw [TimerManage.expire_of_oneShot _ _ hperiodic]
    rfl
  have hkept : HardLists (m.expire .timerList i m.sTick) timers := by
    apply h.keep hlists (List.sublist_cons_self ..) hpassed.tick
    · intro j hj
      rw [hpassed.other j (hne j hj)]
    · intro j
      by_cases hj : j = i
      · rw [hj, hpassed.soft, h.hard]
      · rw [hpassed.other j hj, h.hard]
    · intro j hj
      rw [hbitmap] at hj
      by_cases hji : j = i
      · subst hji
        rw [hpassed.initTick]
        exact h.initTick j hj
      · rw [hpassed.other j hji]
        exact h.initTick j hj
  refine ⟨timers, hkept, hpassed.isFired, fun j hj ↦ hpassed.untouched hj, hpassed.tick,
    fun j hj ↦ .inr hj, fun j hj ↦ hj, ?_⟩
  apply List.countP_congr
  intro j hj
  rw [hpassed.left_of_ne (hne j hj)]

theorem handled (h : HardLists m (i :: timers)) :
    ∃ timers', Handled m (m.expire .timerList i m.sTick) i timers timers' := by
  cases hperiodic : (m.timer i).periodic with
  | true => exact h.handled_of_periodic hperiodic
  | false => exact h.handled_of_oneShot hperiodic

/-- The test of `timer_handle` tells whether a timer is due. -/
theorem due_iff (h : HardLists m timers) (hi : i ∈ timers) :
    m.sTick - (m.timer i).timeoutTick < tickHalf ↔ m.left i = 0 := by
  rw [BitVec.lt_def]
  exact sub_lt_iff_left_eq_zero two_mul_tickHalf_le (h.window i hi)

theorem next_cons (h : HardLists m (i :: timers)) : m.links.next .timerList = .timer i :=
  h.lists.rings.next_cons false rfl

theorem next_nil (h : HardLists m []) : m.links.next .timerList = .timerList :=
  h.lists.rings.next_nil false rfl

/-- Nothing is handled when no timer is due. -/
theorem timerHandle_of_pending (h : HardLists m timers) (hpending : Pending m timers)
    (ticks : List Tick) : timerHandle .timerList ticks m = m := by
  cases ticks with
  | nil => rfl
  | cons tick ticks =>
      cases timers with
      | nil => rw [timerHandle, h.next_nil]
      | cons i timers =>
          have hnot : ¬ m.sTick - (m.timer i).timeoutTick < tickHalf := fun hdue ↦ by
            have hzero := (h.due_iff List.mem_cons_self).mp hdue
            have hpos := hpending i List.mem_cons_self
            omega
          rw [timerHandle, h.next_cons]
          exact if_neg hnot

/-- The list is sorted, so when its first timer is not due no timer is. -/
theorem pending_of_head (h : HardLists m (i :: timers)) (hpos : 0 < m.left i) :
    Pending m (i :: timers) := by
  intro j hj
  rcases List.mem_cons.mp hj with rfl | hj
  · exact hpos
  · exact hpos.trans_le (List.rel_of_pairwise_cons h.sorted hj)

/-- The loop of `timer_handle` calls the timers that are due, each once, and no other. -/
theorem timerHandle (h : HardLists m timers) {k : ℕ}
    (hk : timers.countP (fun j ↦ m.left j = 0) < k) :
    ∃ timers',
      HardLists (timerHandle .timerList (List.replicate k m.sTick) m) timers' ∧
      Pending (timerHandle .timerList (List.replicate k m.sTick) m) timers' ∧
      (timerHandle .timerList (List.replicate k m.sTick) m).sTick = m.sTick ∧
      (∀ j ∈ timers, m.left j = 0 →
        m.Fired (timerHandle .timerList (List.replicate k m.sTick) m) j) ∧
      ∀ j, ¬ (j ∈ timers ∧ m.left j = 0) →
        m.Untouched (timerHandle .timerList (List.replicate k m.sTick) m) j := by
  induction k generalizing m timers with
  | zero => omega
  | succ k ih =>
      rcases timers with _ | ⟨i, timers⟩
      · have hpending : Pending m [] := fun j hj ↦ absurd hj List.not_mem_nil
        rw [h.timerHandle_of_pending hpending]
        exact ⟨[], h, hpending, rfl, fun j hj ↦ absurd hj List.not_mem_nil,
          fun _ _ ↦ ⟨rfl, rfl⟩⟩
      rcases Nat.eq_zero_or_pos (m.left i) with hzero | hpos
      swap
      · have hpending := h.pending_of_head hpos
        rw [h.timerHandle_of_pending hpending]
        refine ⟨_, h, hpending, rfl, fun j hj hleft ↦ ?_, fun _ _ ↦ ⟨rfl, rfl⟩⟩
        exact absurd hleft (hpending j hj).ne'
      obtain ⟨expired, hexpired⟩ := h.handled
      have hstep : Service.timerHandle .timerList (List.replicate (k + 1) m.sTick) m =
          Service.timerHandle .timerList (List.replicate k (m.expire .timerList i m.sTick).sTick)
            (m.expire .timerList i m.sTick) := by
        rw [List.replicate_succ, Service.timerHandle, h.next_cons, hexpired.tick]
        exact if_pos ((h.due_iff List.mem_cons_self).mpr hzero)
      have hcount : expired.countP (fun j ↦ (m.expire .timerList i m.sTick).left j = 0) < k := by
        rw [List.countP_cons_of_pos (by simpa using hzero)] at hk
        rw [hexpired.due]
        omega
      obtain ⟨timers', hhard, hpending, htick, hfired, huntouched⟩ := ih hexpired.hard hcount
      rw [hstep]
      refine ⟨timers', hhard, hpending, htick.trans hexpired.tick, fun j hj hleft ↦ ?_,
        fun j hj ↦ ?_⟩
      · by_cases hji : j = i
        · subst hji
          refine hexpired.fired.untouched (huntouched j fun hdue ↦ ?_)
          rcases hexpired.mem j hdue.1 with ⟨_, hpos⟩ | hmem
          · omega
          · exact (List.nodup_cons.mp (h.lists.rings.nodup false)).1 hmem
        · have hmem : j ∈ timers := (List.mem_cons.mp hj).resolve_left hji
          have hdue : (m.expire .timerList i m.sTick).left j = 0 := by
            rw [hexpired.left_of_ne hji, hleft]
          exact (hexpired.untouched j hji).fired hexpired.tick (hfired j (hexpired.kept hmem) hdue)
      · have hji : j ≠ i := fun heq ↦ hj ⟨heq ▸ List.mem_cons_self, heq ▸ hzero⟩
        refine (hexpired.untouched j hji).trans (huntouched j fun hdue ↦ ?_)
        rcases hexpired.mem j hdue.1 with ⟨heq, _⟩ | hmem
        · exact hji heq
        · exact hj ⟨List.mem_cons_of_mem _ hmem, hexpired.left_of_ne hji ▸ hdue.2⟩

/-- No soft timer is waiting, so the event loop is not woken. -/
theorem softTimerCheck (h : HardLists m timers) : m.softTimerCheck = m := by
  have hnext : m.links.next .softTimerList = .softTimerList :=
    h.lists.rings.next_nil true rfl
  rw [TimerManage.softTimerCheck, hnext]

/-- The tick on its own brings every deadline one tick closer. -/
theorem advance (h : HardLists m timers) (hpending : Pending m timers) :
    HardLists { m with sTick := m.sTick + 1 } timers ∧
      ∀ j ∈ timers, ({ m with sTick := m.sTick + 1 } : TimerManage Func Param).left j =
        m.left j - 1 := by
  have hleft : ∀ j ∈ timers, ({ m with sTick := m.sTick + 1 } : TimerManage Func Param).left j =
      m.left j - 1 := fun j hj ↦ left_succ (hpending j hj)
  refine ⟨⟨h.lists.frame rfl rfl (fun _ ↦ rfl) fun _ ↦ rfl, h.hard, h.initTick, fun j hj ↦ ?_,
    h.sorted.imp_of_mem fun {j k} hj hk hle ↦ ?_⟩, hleft⟩
  · rw [hleft j hj]
    exact (Nat.sub_le ..).trans_lt (h.window j hj)
  · rw [TimerManage.NoLater, hleft j hj, hleft k hk]
    exact Nat.sub_le_sub_right hle 1

/-- One tick: the timers whose last tick it is are called, and nothing else happens to a timer. -/
theorem svTickIncrease (h : HardLists m timers) (hpending : Pending m timers) :
    ∃ timers', HardLists m.svTickIncrease timers' ∧ Pending m.svTickIncrease timers' ∧
      m.svTickIncrease.sTick = m.sTick + 1 ∧
      (∀ j ∈ timers, m.left j = 1 →
        ({ m with sTick := m.sTick + 1 } : TimerManage Func Param).Fired m.svTickIncrease j) ∧
      ∀ j ∈ timers, 1 < m.left j → m.Untouched m.svTickIncrease j := by
  obtain ⟨hadvanced, hleft⟩ := h.advance hpending
  have hcount : timers.countP (fun j ↦
      ({ m with sTick := m.sTick + 1 } : TimerManage Func Param).left j = 0) <
        monitorTimeNr + 1 :=
    (List.countP_le_length.trans (h.lists.rings.length_le false)).trans_lt (Nat.lt_succ_self _)
  obtain ⟨timers', hhard, hpending', htick, hfired, huntouched⟩ := hadvanced.timerHandle hcount
  have heq : m.svTickIncrease = Service.timerHandle .timerList (List.replicate
      (monitorTimeNr + 1) (m.sTick + 1)) { m with sTick := m.sTick + 1 } :=
    hhard.softTimerCheck
  rw [heq]
  refine ⟨timers', hhard, hpending', htick, fun j hj hone ↦ ?_, fun j hj hmore ↦ ?_⟩
  · exact hfired j hj (by rw [hleft j hj, hone])
  · have hrest := huntouched j fun hdue ↦ by
      have hzero := hdue.2
      rw [hleft j hj] at hzero
      omega
    exact ⟨hrest.timer, hrest.expiries⟩

/-- The loop has come to its own end: with more readings of the clock it would do nothing else. -/
theorem svTickIncrease_ended (h : HardLists m timers) (hpending : Pending m timers)
    (ticks : List Tick) :
    Service.timerHandle .timerList ticks m.svTickIncrease = m.svTickIncrease := by
  obtain ⟨timers', hhard, hpending', -⟩ := h.svTickIncrease hpending
  exact hhard.timerHandle_of_pending hpending' ticks

end HardLists

namespace TimerManage

variable {m : TimerManage Func Param} {i j : Fin monitorTimeNr}

/-- Handling one timer touches no other. -/
theorem expire_timer_of_ne (head : TimerNode) (hne : i ≠ j) :
    (m.expire head j m.sTick).timer i = m.timer i ∧ (m.expire head j m.sTick).sTick = m.sTick := by
  rw [expire, callTimeoutFunc_eq]
  simp only [svTimerStart]
  split_ifs <;> simp [setFlag, setTimer, hne]

/-- The loop of `timer_handle` leaves a timer alone that is not due. -/
theorem timerHandle_timer_of_not_due (k : ℕ)
    (hdue : ¬ m.sTick - (m.timer i).timeoutTick < tickHalf) :
    (Service.timerHandle .timerList (List.replicate k m.sTick) m).timer i = m.timer i ∧
      (Service.timerHandle .timerList (List.replicate k m.sTick) m).sTick = m.sTick := by
  induction k generalizing m with
  | zero => exact ⟨rfl, rfl⟩
  | succ k ih =>
      rw [List.replicate_succ, Service.timerHandle]
      split
      · next j hnext =>
        split
        · next hfront =>
          have hne : i ≠ j := fun heq ↦ hdue (heq ▸ hfront)
          obtain ⟨htimer, htick⟩ := expire_timer_of_ne .timerList hne
          have hrest := ih (m := m.expire .timerList j m.sTick) (by rwa [htimer, htick])
          rw [htick] at hrest
          exact ⟨hrest.1.trans htimer, hrest.2⟩
        · exact ⟨rfl, rfl⟩
      · exact ⟨rfl, rfl⟩

theorem softTimerCheck_timer : m.softTimerCheck.timer = m.timer ∧
    m.softTimerCheck.sTick = m.sTick := by
  unfold softTimerCheck
  split
  · split <;> exact ⟨rfl, rfl⟩
  · exact ⟨rfl, rfl⟩

/-- A tick brings the deadline of a timer with more than one tick left one tick closer, and does
nothing else to it. -/
theorem svTickIncrease_timer (hwindow : m.left i < tickHalf.toNat) (hmore : 1 < m.left i) :
    m.svTickIncrease.timer i = m.timer i ∧ m.svTickIncrease.left i = m.left i - 1 := by
  let next : TimerManage Func Param := { m with sTick := m.sTick + 1 }
  have hleft : next.left i = m.left i - 1 :=
    WrappedTime.left_succ (Nat.zero_lt_of_lt hmore)
  have hdue : ¬ next.sTick - (next.timer i).timeoutTick < tickHalf := fun hdue ↦ by
    have hzero := (WrappedTime.sub_lt_iff_left_eq_zero two_mul_tickHalf_le
      (show next.left i < tickHalf.toNat by omega)).mp (BitVec.lt_def.mp hdue)
    rw [← left] at hzero
    omega
  obtain ⟨htimer, htick⟩ := timerHandle_timer_of_not_due (monitorTimeNr + 1) hdue
  obtain ⟨hsoft, hsoftTick⟩ := softTimerCheck_timer (m := Service.timerHandle .timerList
    (List.replicate (monitorTimeNr + 1) next.sTick) next)
  have hsame : m.svTickIncrease.timer i = m.timer i := (congrFun hsoft i).trans htimer
  refine ⟨hsame, ?_⟩
  rw [← hleft, left, left, hsame]
  exact congrArg (WrappedTime.left · _) (hsoftTick.trans htick)

end TimerManage

end ProjectSensor.Service
