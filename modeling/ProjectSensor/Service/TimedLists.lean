import ProjectSensor.Service.ListPass
import ProjectSensor.Service.TimerEdits

/-!
# The lists of hard and soft timers in the order of their deadlines

A hard timer is called on the tick of its deadline, a soft one when the event loop comes to it.  As
long as no soft timer is overdue by more than `overdueMost` ticks, the wrapped comparisons tell the
order of all deadlines on a list, past ones included.  `TimedLists` is the invariant: both lists
are sorted by the ticks that remain.
-/

open ProjectSensor.Library ProjectSensor.Library.SlotBitmap ProjectSensor.Library.WrappedTime

namespace ProjectSensor.Service

variable {Func Param : Type}

/-- How long a soft timer may be overdue. -/
def overdueMost : ℕ := 2 ^ 31 - 2 ^ 23

namespace TimerManage

variable (m : TimerManage Func Param)

/-- The ticks until the deadline of a timer, below zero when it has passed. -/
def remaining (i : Fin monitorTimeNr) : ℤ := ahead m.sTick (m.timer i).timeoutTick

def DueFirst (i j : Fin monitorTimeNr) : Prop := m.remaining i ≤ m.remaining j

instance instDecidableRelDueFirst : DecidableRel m.DueFirst := fun i j ↦
  inferInstanceAs (Decidable (m.remaining i ≤ m.remaining j))

instance instTotalDueFirst : Std.Total m.DueFirst :=
  ⟨fun i j ↦ Int.le_total (m.remaining i) (m.remaining j)⟩

instance instIsTransDueFirst : IsTrans (Fin monitorTimeNr) m.DueFirst :=
  ⟨fun _ _ _ ↦ Int.le_trans⟩

/-- The deadlines that the comparisons can tell. -/
def InWindow (i : Fin monitorTimeNr) : Prop :=
  -(overdueMost : ℤ) < m.remaining i ∧ m.remaining i ≤ tickMost

variable {m} {i j : Fin monitorTimeNr}

theorem due_iff_remaining (hi : m.InWindow i) : m.Due i ↔ m.remaining i ≤ 0 := by
  have hhalf : tickHalf.toNat = 2 ^ 31 - 1 := rfl
  have hmost : overdueMost = 2 ^ 31 - 2 ^ 23 := rfl
  have htick : tickMost = 4294967 := rfl
  obtain ⟨hlow, hhigh⟩ := hi
  rw [Due, BitVec.lt_def]
  apply sub_lt_iff_ahead_nonpos (by decide) <;> rw [← remaining] <;> omega

/-- The comparison of `sv_timer_start`; `i` is the timer that is started. -/
theorem before_iff_remaining {now due due' : Tick} (hdue : -(overdueMost : ℤ) < ahead now due)
    (hdue' : ahead now due ≤ tickMost) (hpos : 0 < ahead now due')
    (hmost : ahead now due' ≤ tickMost) :
    due - due' < tickHalf ↔ ahead now due' ≤ ahead now due := by
  have hhalf : tickHalf.toNat = 2 ^ 31 - 1 := rfl
  have hoverdue : overdueMost = 2 ^ 31 - 2 ^ 23 := rfl
  have htick : tickMost = 4294967 := rfl
  rw [BitVec.lt_def]
  apply sub_lt_iff_ahead_le (by decide) <;> omega

theorem remaining_of_same {m' : TimerManage Func Param} (htick : m'.sTick = m.sTick)
    (hdue : (m'.timer i).timeoutTick = (m.timer i).timeoutTick) :
    m'.remaining i = m.remaining i := by
  rw [remaining, remaining, htick, hdue]

theorem remaining_succ (hlow : -(overdueMost : ℤ) < m.remaining i) :
    ({ m with sTick := m.sTick + 1 } : TimerManage Func Param).remaining i = m.remaining i - 1 := by
  have hoverdue : overdueMost = 2 ^ 31 - 2 ^ 23 := rfl
  apply ahead_succ (by decide)
  rw [← remaining]
  omega

theorem remaining_started {time : Tick} (hmost : time.toNat ≤ tickMost)
    (hdue : (m.timer i).timeoutTick = m.sTick + time) : m.remaining i = time.toNat := by
  have htick : tickMost = 4294967 := rfl
  rw [remaining, hdue]
  exact ahead_add (by omega)

end TimerManage

/-- Both lists are sorted, and the comparisons tell the deadlines on them. -/
structure TimedLists (m : TimerManage Func Param) (lists : Lists) : Prop where
  onLists : OnLists m lists
  initTick : ∀ i : Fin monitorTimeNr, taken m.bitmap i = true → TimeInRange (m.timer i).initTick
  window : ∀ soft, ∀ i ∈ lists soft, m.InWindow i
  sorted : ∀ soft, (lists soft).Pairwise m.DueFirst

/-- No hard timer is due. -/
def HardAhead (m : TimerManage Func Param) (lists : Lists) : Prop :=
  ∀ i ∈ lists false, 0 < m.remaining i

namespace TimedLists

variable {m m' : TimerManage Func Param} {lists lists' : Lists} {i : Fin monitorTimeNr}

/-- The test at the front of a list finds whether any timer on it is due. -/
theorem frontDue_iff (h : TimedLists m lists) (soft : Bool) :
    m.FrontDue (headOf soft) ↔ ∃ i ∈ lists soft, m.Due i := by
  rw [h.onLists.frontDue_iff]
  constructor
  · rintro ⟨i, rest, hlist, hdue⟩
    exact ⟨i, hlist ▸ List.mem_cons_self, hdue⟩
  · rintro ⟨i, hi, hdue⟩
    have hpast := (TimerManage.due_iff_remaining (h.window soft i hi)).mp hdue
    cases hlist : lists soft with
    | nil => simp [hlist] at hi
    | cons front rest =>
        have hfront : front ∈ lists soft := hlist ▸ List.mem_cons_self
        refine ⟨front, rest, rfl, ?_⟩
        rw [TimerManage.due_iff_remaining (h.window soft front hfront)]
        rw [hlist] at hi
        rcases List.mem_cons.mp hi with rfl | hi
        · exact hpast
        · have hsorted := h.sorted soft
          rw [hlist] at hsorted
          exact (List.rel_of_pairwise_cons hsorted hi).trans hpast

/-- What keeps the deadlines of the timers that stay on their lists keeps the order. -/
theorem keep (h : TimedLists m lists) (hlists : OnLists m' lists')
    (hsub : ∀ soft, (lists' soft).Sublist (lists soft)) (htick : m'.sTick = m.sTick)
    (hdue : ∀ soft, ∀ j ∈ lists' soft, (m'.timer j).timeoutTick = (m.timer j).timeoutTick)
    (hinit : ∀ j : Fin monitorTimeNr, taken m'.bitmap j = true →
      TimeInRange (m'.timer j).initTick) : TimedLists m' lists' := by
  have hsame : ∀ soft, ∀ j ∈ lists' soft, m'.remaining j = m.remaining j := fun soft j hj ↦
    TimerManage.remaining_of_same htick (hdue soft j hj)
  refine ⟨hlists, hinit, fun soft j hj ↦ ?_, fun soft ↦ ?_⟩
  · rw [TimerManage.InWindow, hsame soft j hj]
    exact h.window soft j ((hsub soft).subset hj)
  · exact ((h.sorted soft).sublist (hsub soft)).imp_of_mem fun {j k} hj hk hle ↦ by
      rwa [TimerManage.DueFirst, hsame soft j hj, hsame soft k hk]

/-- The timer of `sv_timer_start` goes to its place in the order. -/
theorem svTimerStart (h : TimedLists m lists) (hidle : (m.timer i).activated = false)
    (htaken : taken m.bitmap i = true) :
    TimedLists (m.svTimerStart i).2 (Function.update lists (m.timer i).soft
        ((lists (m.timer i).soft).orderedInsert (m.svTimerStart i).2.DueFirst i)) ∧
      (m.svTimerStart i).2.remaining i = (m.timer i).initTick.toNat ∧
      ∀ j, j ≠ i → (m.svTimerStart i).2.remaining j = m.remaining j := by
  have hlists := h.onLists.svTimerStart hidle htaken
  have heq := TimerManage.svTimerStart_eq h.onLists.rings hidle
  set started := (m.svTimerStart i).2 with hstarted
  set soft := (m.timer i).soft
  have htimer : started.timer = Function.update m.timer i (m.started i) := by
    rw [hstarted, heq]
  have htick : started.sTick = m.sTick := by rw [hstarted, heq]
  have hbitmap : started.bitmap = m.bitmap := by rw [hstarted, heq]
  obtain ⟨hpos, hmost⟩ := h.initTick i htaken
  have hself : started.remaining i = (m.timer i).initTick.toNat := by
    apply TimerManage.remaining_started hmost
    rw [htimer, htick, Function.update_self, TimerManage.started]
  have hother : ∀ j, j ≠ i → started.remaining j = m.remaining j := fun j hj ↦
    TimerManage.remaining_of_same htick (by rw [htimer, Function.update_of_ne hj])
  have hne : ∀ soft, ∀ j ∈ lists soft, j ≠ i := fun soft j hj heq ↦
    h.onLists.notMem hidle soft (heq ▸ hj)
  have hinsert : insertDue (m.dueAfterStart i) i (lists soft) =
      (lists soft).orderedInsert started.DueFirst i := by
    refine insertDue_eq_orderedInsert fun j hj ↦ ?_
    obtain ⟨hlow, hhigh⟩ := h.window soft j hj
    rw [← hother j (hne soft j hj)] at hlow hhigh
    have hdue : m.dueAfterStart i = fun j ↦ (started.timer j).timeoutTick := by
      rw [htimer]
      rfl
    rw [hdue]
    apply TimerManage.before_iff_remaining hlow hhigh <;> rw [← TimerManage.remaining, hself]
    · exact_mod_cast hpos
    · exact_mod_cast hmost
  rw [hinsert] at hlists
  refine ⟨⟨hlists, fun j hj ↦ ?_, fun soft' j hj ↦ ?_, fun soft' ↦ ?_⟩, hself, hother⟩
  · rw [hbitmap] at hj
    rw [htimer]
    by_cases hji : j = i
    · subst hji
      simpa [TimerManage.started] using h.initTick j htaken
    · rw [Function.update_of_ne hji]
      exact h.initTick j hj
  · have hmem : j = i ∨ j ∈ lists soft' := by
      by_cases hs : soft' = soft
      · subst hs
        rw [Function.update_self] at hj
        exact (List.mem_orderedInsert _).mp hj
      · rw [Function.update_of_ne hs] at hj
        exact .inr hj
    by_cases hji : j = i
    · rw [hji, TimerManage.InWindow, hself]
      omega
    · rw [TimerManage.InWindow, hother j hji]
      exact h.window soft' j (hmem.resolve_left hji)
  · have hsorted : (lists soft').Pairwise started.DueFirst :=
      (h.sorted soft').imp_of_mem fun {j k} hj hk hle ↦ by
        rwa [TimerManage.DueFirst, hother j (hne soft' j hj), hother k (hne soft' k hk)]
    by_cases hs : soft' = soft
    · subst hs
      rw [Function.update_self]
      exact List.Pairwise.orderedInsert i _ hsorted
    · rwa [Function.update_of_ne hs]

/-- A change that touches no list and at most the time of one timer. -/
theorem of_sameLists (h : TimedLists m lists) (hlists : OnLists m' lists)
    (htick : m'.sTick = m.sTick)
    (hdue : ∀ soft, ∀ j ∈ lists soft, (m'.timer j).timeoutTick = (m.timer j).timeoutTick)
    (hinit : ∀ j : Fin monitorTimeNr, taken m'.bitmap j = true →
      TimeInRange (m'.timer j).initTick) :
    TimedLists m' lists ∧ ∀ soft, ∀ j ∈ lists soft, m'.remaining j = m.remaining j :=
  ⟨h.keep hlists (fun _ ↦ List.Sublist.refl _) htick hdue hinit, fun soft j hj ↦
    TimerManage.remaining_of_same htick (hdue soft j hj)⟩

/-- A timer is given a new time. -/
theorem retime (h : TimedLists m lists) {tick : Tick} (htime : TimeInRange tick) :
    let m' := m.setTimer i { m.timer i with initTick := tick }
    TimedLists m' lists ∧ ∀ soft, ∀ j ∈ lists soft, m'.remaining j = m.remaining j := by
  have htimer : ∀ j, (m.setTimer i { m.timer i with initTick := tick }).timer j =
      { m.timer j with initTick := if j = i then tick else (m.timer j).initTick } := by
    intro j
    by_cases hj : j = i <;> simp [TimerManage.setTimer, hj]
  have hlists : OnLists (m.setTimer i { m.timer i with initTick := tick }) lists := by
    refine h.onLists.frame rfl rfl (fun j ↦ ?_) fun j ↦ ?_ <;> rw [htimer]
    · rfl
    · rfl
  refine h.of_sameLists hlists rfl (fun soft j _ ↦ by rw [htimer]) fun j hj ↦ ?_
  rw [htimer]
  have hinit := h.initTick j hj
  split
  · exact htime
  · exact hinit

/-- A running timer is stopped. -/
theorem svTimerStop (h : TimedLists m lists) (hactive : (m.timer i).activated = true) :
    ∃ lists', TimedLists (m.svTimerStop i).2 lists' ∧
      ∀ soft, ∀ j ∈ lists' soft, j ∈ lists soft ∧
        (m.svTimerStop i).2.remaining j = m.remaining j := by
  have hlists := h.onLists.svTimerStop hactive
  set erased := Function.update lists (m.timer i).soft ((lists (m.timer i).soft).erase i)
    with herased
  have hsub : ∀ soft, (erased soft).Sublist (lists soft) := fun soft ↦ by
    by_cases hs : soft = (m.timer i).soft
    · subst hs
      rw [herased, Function.update_self]
      exact List.erase_sublist
    · rw [herased, Function.update_of_ne hs]
  have hne : ∀ soft, ∀ j ∈ erased soft, j ≠ i := by
    intro soft j hj heq
    subst heq
    have hstopped := ((hlists.mem soft j).mp hj).1
    rw [TimerManage.svTimerStop_eq hactive] at hstopped
    simp [SvTimer.activated, (SvTimer.hasFlag_stopFlag _).1] at hstopped
  have htick : (m.svTimerStop i).2.sTick = m.sTick := by rw [TimerManage.svTimerStop_eq hactive]
  have hdue : ∀ soft, ∀ j ∈ erased soft,
      ((m.svTimerStop i).2.timer j).timeoutTick = (m.timer j).timeoutTick := fun soft j hj ↦ by
    rw [onlyTimer_svTimerStop.other j (hne soft j hj)]
  refine ⟨erased, h.keep hlists hsub htick hdue fun j hj ↦ ?_, fun soft j hj ↦
    ⟨(hsub soft).subset hj, TimerManage.remaining_of_same htick (hdue soft j hj)⟩⟩
  rw [TimerManage.svTimerStop_eq hactive] at hj ⊢
  by_cases hji : j = i
  · subst hji
    simpa using h.initTick j hj
  · simpa [hji] using h.initTick j hj

/-- A slot that is free belongs to no running timer, so a timer can be put there. -/
theorem register (h : TimedLists m lists) {t : SvTimer Func Param}
    (hfree : taken m.bitmap i = false) (hidle : t.activated = false)
    (htime : TimeInRange t.initTick) :
    let m' : TimerManage Func Param := { m with
      bitmap := take m.bitmap i
      timer := Function.update m.timer i t
      links := m.links.reset (.timer i) }
    TimedLists m' lists ∧ ∀ soft, ∀ j ∈ lists soft, m'.remaining j = m.remaining j := by
  have hwas : (m.timer i).activated = false := by
    cases hactive : (m.timer i).activated with
    | false => rfl
    | true =>
        rw [h.onLists.taken i hactive] at hfree
        contradiction
  have hne : ∀ soft, ∀ j ∈ lists soft, j ≠ i := fun soft j hj heq ↦
    h.onLists.notMem hwas soft (heq ▸ hj)
  apply h.of_sameLists
  case hlists =>
    refine ⟨h.onLists.rings.reset (h.onLists.notMem hwas), fun soft j ↦ ?_, fun j hj ↦ ?_⟩
    · by_cases hj : j = i
      · subst hj
        simpa [hidle] using h.onLists.notMem hwas soft
      · simpa [hj] using h.onLists.mem soft j
    · by_cases hji : j = i
      · subst hji
        simp [hidle] at hj
      · simp only [Function.update_of_ne hji] at hj
        simp [taken_take _ (handle_lt i) (handle_lt j), h.onLists.taken j hj]
  case htick => rfl
  case hdue => exact fun soft j hj ↦ by simp [hne soft j hj]
  case hinit =>
    intro j hj
    by_cases hji : j = i
    · subst hji
      simpa using htime
    · simp only [taken_take _ (handle_lt i) (handle_lt j), Fin.val_ne_of_ne hji,
        Function.update_of_ne hji] at hj ⊢
      exact h.initTick j (by simpa using hj)

/-- The flag of a timer that does not run is changed, and perhaps its slot given back. -/
theorem settle (h : TimedLists m lists) {flag : BitVec 8} {bitmap : BitVec 16}
    (hidle : (m.timer i).activated = false) (hflag : hasFlag flag svTimerFlagActivated = false)
    (hbitmap : bitmap = m.bitmap ∨ bitmap = release m.bitmap i) :
    let m' : TimerManage Func Param := { m with
      timer := Function.update m.timer i { m.timer i with flag := flag }
      bitmap := bitmap }
    TimedLists m' lists ∧ ∀ soft, ∀ j ∈ lists soft, m'.remaining j = m.remaining j := by
  have hne : ∀ soft, ∀ j ∈ lists soft, j ≠ i := fun soft j hj heq ↦
    h.onLists.notMem hidle soft (heq ▸ hj)
  have htaken : ∀ j : Fin monitorTimeNr, taken bitmap j = true → taken m.bitmap j = true := by
    intro j hj
    rcases hbitmap with rfl | rfl
    · exact hj
    · rw [taken_release _ (handle_lt i) (handle_lt j), Bool.and_eq_true] at hj
      exact hj.2
  have hkept : ∀ j, j ≠ i → taken m.bitmap j = true → taken bitmap j = true := by
    intro j hj hused
    rcases hbitmap with rfl | rfl
    · exact hused
    · rw [taken_release _ (handle_lt i) (handle_lt j)]
      simpa [Fin.val_ne_of_ne hj] using hused
  apply h.of_sameLists
  case hlists =>
    refine ⟨h.onLists.rings, fun soft j ↦ ?_, fun j hj ↦ ?_⟩
    · by_cases hj : j = i
      · subst hj
        simpa [SvTimer.activated, hflag] using h.onLists.notMem hidle soft
      · simpa [hj] using h.onLists.mem soft j
    · by_cases hji : j = i
      · subst hji
        simp [SvTimer.activated, hflag] at hj
      · simp only [Function.update_of_ne hji] at hj
        exact hkept j hji (h.onLists.taken j hj)
  case htick => rfl
  case hdue => exact fun soft j hj ↦ by simp [hne soft j hj]
  case hinit =>
    intro j hj
    have hinit := h.initTick j (htaken j hj)
    by_cases hji : j = i
    · subst hji
      simpa using hinit
    · simpa [hji] using hinit

/-- An edit keeps the order; a timer that is on a list afterwards was there before with the same
deadline, or has just been started. -/
theorem edit (h : TimedLists m lists) (hedit : Edit i m m') :
    ∃ lists', TimedLists m' lists' ∧ ∀ soft, ∀ j ∈ lists' soft,
      0 < m'.remaining j ∨ j ∈ lists soft ∧ m'.remaining j = m.remaining j := by
  cases hedit with
  | retime tick htime =>
      obtain ⟨hkept, hsame⟩ := h.retime (i := i) htime
      exact ⟨lists, hkept, fun soft j hj ↦ .inr ⟨hj, hsame soft j hj⟩⟩
  | start hidle htaken =>
      obtain ⟨hstarted, hself, hother⟩ := h.svTimerStart hidle htaken
      refine ⟨_, hstarted, fun soft j hj ↦ ?_⟩
      by_cases hji : j = i
      · rw [hji, hself]
        exact .inl (by exact_mod_cast (h.initTick i htaken).1)
      · refine .inr ⟨?_, hother j hji⟩
        by_cases hs : soft = (m.timer i).soft
        · subst hs
          rw [Function.update_self] at hj
          exact ((List.mem_orderedInsert _).mp hj).resolve_left hji
        · rwa [Function.update_of_ne hs] at hj
  | stop hactive =>
      obtain ⟨lists', hstopped, hsame⟩ := h.svTimerStop hactive
      exact ⟨lists', hstopped, fun soft j hj ↦ .inr (hsame soft j hj)⟩
  | register t hfree hidle htime =>
      obtain ⟨hkept, hsame⟩ := h.register hfree hidle htime
      exact ⟨lists, hkept, fun soft j hj ↦ .inr ⟨hj, hsame soft j hj⟩⟩
  | settle flag bitmap hidle hflag hbitmap =>
      obtain ⟨hkept, hsame⟩ := h.settle hidle hflag hbitmap
      exact ⟨lists, hkept, fun soft j hj ↦ .inr ⟨hj, hsame soft j hj⟩⟩

/-- Between two ticks, the invariant with no hard timer due is kept by every edit. -/
theorem edits (h : TimedLists m lists) (hahead : HardAhead m lists) (hedits : Edits i m m') :
    ∃ lists', TimedLists m' lists' ∧ HardAhead m' lists' := by
  induction hedits with
  | refl => exact ⟨lists, h, hahead⟩
  | tail _ hlast ih =>
      obtain ⟨before, hbefore, hpending⟩ := ih
      obtain ⟨lists', hafter, hsame⟩ := hbefore.edit hlast
      refine ⟨lists', hafter, fun j hj ↦ ?_⟩
      rcases hsame false j hj with hpos | ⟨hj, hsame⟩
      · exact hpos
      · rw [hsame]
        exact hpending j hj

/-- The timer at the front of a list taken off it and called. -/
theorem called (h : TimedLists m lists) {soft : Bool} {rest : List (Fin monitorTimeNr)}
    (hlist : lists soft = i :: rest) :
    TimedLists (m.called i m.sTick) (Function.update lists soft rest) := by
  obtain ⟨hactive, hsoft⟩ := h.onLists.soft_of_cons hlist
  have hlists := h.onLists.called hactive m.sTick
  rw [hsoft, hlist, List.erase_cons_head] at hlists
  have hidle := (TimerManage.called_timer_self (m := m) (i := i) m.sTick).1
  have hne : ∀ soft', ∀ j ∈ Function.update lists soft rest soft', j ≠ i := fun soft' j hj heq ↦
    hlists.notMem hidle soft' (heq ▸ hj)
  refine h.keep hlists (fun soft' ↦ ?_) (ite_self m.sTick) (fun soft' j hj ↦ ?_) fun j hj ↦ ?_
  · by_cases hs : soft' = soft
    · subst hs
      rw [Function.update_self, hlist]
      exact List.sublist_cons_self ..
    · rw [Function.update_of_ne hs]
  · rw [TimerManage.called_timer_of_ne (hne soft' j hj)]
  · by_cases hji : j = i
    · subst hji
      simpa [TimerManage.called] using h.initTick j hj
    · rw [TimerManage.called_timer_of_ne hji]
      exact h.initTick j hj

end TimedLists

/-- After its callback a timer is started again or settles. -/
theorem edit_expire {m : TimerManage Func Param} {i : Fin monitorTimeNr}
    (hactive : (m.timer i).activated = true) (htaken : taken m.bitmap i = true)
    (head : TimerNode) (tick : Tick) : Edit i (m.called i tick) (m.expire head i tick) := by
  have hidle := (TimerManage.called_timer_self (m := m) (i := i) tick).1
  cases hperiodic : (m.timer i).periodic with
  | true =>
      rw [TimerManage.expire_of_periodic head tick hactive hperiodic]
      exact .start hidle htaken
  | false =>
      have hsettled : Edit i (m.called i tick) { (m.called i tick) with
          timer := Function.update (m.called i tick).timer i
            { (m.called i tick).timer i with flag := SvTimer.firedFlag (m.calledFlag i) }
          bitmap := if head = .softTimerList then release m.bitmap i else m.bitmap } := by
        apply Edit.settle _ _ hidle (SvTimer.hasFlag_firedFlag _).1
        split
        · exact .inr rfl
        · exact .inl rfl
      rw [TimerManage.expire_of_oneShot head tick hperiodic]
      simpa [TimerManage.called] using hsettled

namespace TimedLists

variable {m m' : TimerManage Func Param} {lists lists' : Lists} {i j : Fin monitorTimeNr}
  {soft : Bool}

theorem mem_iff_of_same (h : TimedLists m lists) (h' : TimedLists m' lists')
    (hsame : m'.timer j = m.timer j) : j ∈ lists' soft ↔ j ∈ lists soft := by
  rw [h.onLists.mem, h'.onLists.mem, hsame]

/-- A timer that is due is handled: one due timer less on its list. -/
theorem expire (h : TimedLists m lists) {rest : List (Fin monitorTimeNr)}
    (hlist : lists soft = i :: rest) :
    ∃ lists', TimedLists (m.expire (headOf soft) i m.sTick) lists' ∧
      m.Passed (m.expire (headOf soft) i m.sTick) i ∧
      ¬ (i ∈ lists' soft ∧ (m.expire (headOf soft) i m.sTick).Due i) ∧
      (lists' soft).countP (m.expire (headOf soft) i m.sTick).Due = rest.countP m.Due := by
  have hactive := (h.onLists.soft_of_cons hlist).1
  have htaken := h.onLists.taken i hactive
  have hnotMem : i ∉ rest := (List.nodup_cons.mp (hlist ▸ h.onLists.rings.nodup soft)).1
  obtain ⟨hpos, hmost⟩ := h.initTick i htaken
  have hrearm : (m.timer i).periodic = true →
      (m.timer i).initTick ≠ 0 ∧ (m.timer i).initTick < tickHalf := fun _ ↦ by
    refine ⟨fun hzero ↦ ?_, ?_⟩
    · rw [hzero] at hpos
      exact Nat.lt_irrefl 0 hpos
    · rw [BitVec.lt_def]
      exact hmost.trans_lt (by decide)
  obtain ⟨lists', hexpired, -⟩ := (h.called hlist).edit
    (edit_expire hactive htaken (headOf soft) m.sTick)
  obtain ⟨lists'', hlists'', hpassed, hdue, -, hcount⟩ := h.onLists.handled_due hlist hrearm
  obtain rfl : lists'' = lists' := hexpired.onLists.rings.unique hlists''.rings
  exact ⟨lists'', hexpired, hpassed, fun hstill ↦ hnotMem (hdue i hstill.1 hstill.2).1, hcount⟩

theorem pass_of_not_frontDue {head : TimerNode} (hfront : ¬ m.FrontDue head) (k : ℕ) :
    m.pass head k = m := by
  cases k with
  | zero => rfl
  | succ k =>
      rw [TimerManage.pass, List.replicate_succ, timerHandle]
      split
      · next i hnext => exact if_neg fun hdue ↦ hfront ⟨i, hnext, hdue⟩
      · rfl

/-- A pass while the tick stands still calls the timers of its list that are due, each once, and no
other.  Induction on the number of turns, which exceeds that of the due timers. -/
theorem pass (h : TimedLists m lists) {k : ℕ} (hk : (lists soft).countP m.Due < k) :
    ∃ lists', TimedLists (m.pass (headOf soft) k) lists' ∧
      (m.pass (headOf soft) k).sTick = m.sTick ∧
      (∀ j ∈ lists' soft, ¬ (m.pass (headOf soft) k).Due j) ∧
      (∀ j ∈ lists soft, m.Due j → m.Fired (m.pass (headOf soft) k) j) ∧
      ∀ j, ¬ (j ∈ lists soft ∧ m.Due j) → m.Untouched (m.pass (headOf soft) k) j := by
  induction k generalizing m lists with
  | zero => omega
  | succ k ih =>
      by_cases hfront : m.FrontDue (headOf soft)
      swap
      · have hnone : ∀ j ∈ lists soft, ¬ m.Due j := fun j hj hdue ↦
          hfront ((h.frontDue_iff soft).mpr ⟨j, hj, hdue⟩)
        rw [pass_of_not_frontDue hfront]
        exact ⟨lists, h, rfl, hnone, fun j hj hdue ↦ absurd hdue (hnone j hj),
          fun _ _ ↦ ⟨rfl, rfl⟩⟩
      obtain ⟨i, rest, hlist, hdue⟩ := h.onLists.frontDue_iff.mp hfront
      obtain ⟨lists', hexpired, hpassed, hquiet, hcount⟩ := h.expire hlist
      have hless : (lists' soft).countP (m.expire (headOf soft) i m.sTick).Due < k := by
        rw [hlist, List.countP_cons_of_pos (by simpa using hdue)] at hk
        omega
      obtain ⟨final, hfinal, htick, hnone, hfired, huntouched⟩ := ih hexpired hless
      rw [TimerManage.pass_succ (h.onLists.rings.next_cons soft hlist) hdue hpassed]
      refine ⟨final, hfinal, htick.trans hpassed.tick, hnone, fun j hj hjdue ↦ ?_, fun j hj ↦ ?_⟩
      · by_cases hji : j = i
        · subst hji
          exact hpassed.isFired.untouched (huntouched j hquiet)
        · have hmem := (h.mem_iff_of_same hexpired (hpassed.other j hji)).mpr hj
          exact (hpassed.untouched hji).fired hpassed.tick
            (hfired j hmem ((hpassed.due_iff hji).mpr hjdue))
      · have hji : j ≠ i := fun heq ↦ hj ⟨heq ▸ hlist ▸ List.mem_cons_self, heq ▸ hdue⟩
        refine (hpassed.untouched hji).trans (huntouched j fun hstill ↦ hj ?_)
        exact ⟨(h.mem_iff_of_same hexpired (hpassed.other j hji)).mp hstill.1,
          (hpassed.due_iff hji).mp hstill.2⟩

end TimedLists

/-- No soft timer that runs will be overdue for too long after the next tick. -/
def NotStarved (m : TimerManage Func Param) : Prop :=
  ∀ i, (m.timer i).activated = true → (m.timer i).soft = true →
    -(overdueMost : ℤ) < m.remaining i - 1

instance instDecidableNotStarved (m : TimerManage Func Param) : Decidable (NotStarved m) :=
  inferInstanceAs (Decidable (∀ i, (m.timer i).activated = true → (m.timer i).soft = true →
    -(overdueMost : ℤ) < m.remaining i - 1))

/-- What a tick does: the hard timers whose last tick it was are called, nothing else happens to a
timer, and the event loop is woken if a soft timer is due. -/
structure Ticked (m m' : TimerManage Func Param) (lists lists' : Lists) : Prop where
  timed : TimedLists m' lists'
  ahead : HardAhead m' lists'
  tick : m'.sTick = m.sTick + 1
  fired : ∀ j ∈ lists false, m.remaining j = 1 →
    ({ m with sTick := m.sTick + 1 } : TimerManage Func Param).Fired m' j
  untouched : ∀ j, ¬ (j ∈ lists false ∧ m.remaining j = 1) → m.Untouched m' j
  woken : ∀ j ∈ lists' true, m'.Due j → m'.softTimerHandling = true

namespace TimedLists

variable {m : TimerManage Func Param} {lists : Lists}

/-- The clock on its own brings every deadline one tick closer. -/
theorem advance (h : TimedLists m lists) (hahead : HardAhead m lists) (hfed : NotStarved m) :
    TimedLists { m with sTick := m.sTick + 1 } lists ∧ ∀ soft, ∀ j ∈ lists soft,
      ({ m with sTick := m.sTick + 1 } : TimerManage Func Param).remaining j =
        m.remaining j - 1 := by
  have hsucc : ∀ soft, ∀ j ∈ lists soft,
      ({ m with sTick := m.sTick + 1 } : TimerManage Func Param).remaining j =
        m.remaining j - 1 := fun soft j hj ↦
    TimerManage.remaining_succ (h.window soft j hj).1
  refine ⟨⟨h.onLists.frame rfl rfl (fun _ ↦ rfl) fun _ ↦ rfl, h.initTick, fun soft j hj ↦ ?_,
    fun soft ↦ (h.sorted soft).imp_of_mem fun {j k} hj hk hle ↦ ?_⟩, hsucc⟩
  · have hlow : -(overdueMost : ℤ) < m.remaining j - 1 := by
      cases soft with
      | true =>
          obtain ⟨hactive, hsoft⟩ := (h.onLists.mem true j).mp hj
          exact hfed j hactive hsoft
      | false =>
          have hpos := hahead j hj
          have hsome : (0 : ℤ) < overdueMost := by decide
          omega
    have hhigh := (h.window soft j hj).2
    rw [TimerManage.InWindow, hsucc soft j hj]
    omega
  · rw [TimerManage.DueFirst, hsucc soft j hj, hsucc soft k hk]
    exact Int.sub_le_sub_right hle 1

/-- Looking for a soft timer that is due changes no timer; the event loop is woken if there is
one. -/
theorem softTimerCheck (h : TimedLists m lists) :
    TimedLists m.softTimerCheck lists ∧ m.softTimerCheck.sTick = m.sTick ∧
      (∀ j, m.Untouched m.softTimerCheck j) ∧
      ∀ j ∈ lists true, m.Due j → m.softTimerCheck.softTimerHandling = true := by
  obtain ⟨-, htimer, htick⟩ := softTimerCheck_frame m
  have hrest : m.softTimerCheck.bitmap = m.bitmap ∧ m.softTimerCheck.expiries = m.expiries := by
    unfold TimerManage.softTimerCheck
    split
    · split <;> exact ⟨rfl, rfl⟩
    · exact ⟨rfl, rfl⟩
  have hlists := TimerManage.onLists_softTimerCheck h.onLists
  obtain ⟨hchecked, -⟩ := h.of_sameLists hlists htick (fun _ j _ ↦ by rw [htimer]) fun j hj ↦ by
    rw [hrest.1] at hj
    rw [htimer]
    exact h.initTick j hj
  refine ⟨hchecked, htick, fun j ↦ ⟨congrFun htimer j, ?_⟩, fun j hj hdue ↦ ?_⟩
  · rw [TimerManage.expiriesOf, hrest.2, TimerManage.expiriesOf]
  · have hdue' : m.softTimerCheck.Due j := by rwa [TimerManage.Due, htick, htimer]
    obtain ⟨front, hfront, hfrontDue⟩ := (hchecked.frontDue_iff true).mpr ⟨j, hj, hdue'⟩
    exact timerCheck_expired (m := m) [] hfront hfrontDue

theorem svTickIncrease (h : TimedLists m lists) (hahead : HardAhead m lists)
    (hfed : NotStarved m) : ∃ lists', Ticked m m.svTickIncrease lists lists' := by
  obtain ⟨hadvanced, hsucc⟩ := h.advance hahead hfed
  set next : TimerManage Func Param := { m with sTick := m.sTick + 1 }
  have hcount : (lists false).countP next.Due < monitorTimeNr + 1 :=
    (List.countP_le_length.trans (h.onLists.rings.length_le false)).trans_lt (Nat.lt_succ_self _)
  have hdue : ∀ j ∈ lists false, next.Due j ↔ m.remaining j = 1 := fun j hj ↦ by
    have hpos := hahead j hj
    rw [TimerManage.due_iff_remaining (hadvanced.window false j hj), hsucc false j hj]
    omega
  obtain ⟨lists', hpassed, htick, hnone, hfired, huntouched⟩ := hadvanced.pass hcount
  obtain ⟨hchecked, hclock, hsame, hwoken⟩ := hpassed.softTimerCheck
  have heq : m.svTickIncrease =
      (next.pass (headOf false) (monitorTimeNr + 1)).softTimerCheck := rfl
  rw [heq]
  refine ⟨lists', hchecked, fun j hj ↦ ?_, hclock.trans htick, fun j hj hone ↦ ?_, fun j hj ↦ ?_,
    fun j hj hjdue ↦ ?_⟩
  · have hahead' := mt (TimerManage.due_iff_remaining (hpassed.window false j hj)).mpr (hnone j hj)
    rw [TimerManage.remaining_of_same hclock (by rw [(hsame j).timer])]
    omega
  · exact (hfired j hj ((hdue j hj).mpr hone)).untouched (hsame j)
  · have hquiet := huntouched j fun hnow ↦ hj ⟨hnow.1, (hdue j hnow.1).mp hnow.2⟩
    have hboth := hquiet.trans (hsame j)
    exact ⟨hboth.timer, hboth.expiries⟩
  · rw [TimerManage.Due, hclock, (hsame j).timer] at hjdue
    exact hwoken j hj hjdue

end TimedLists

end ProjectSensor.Service
