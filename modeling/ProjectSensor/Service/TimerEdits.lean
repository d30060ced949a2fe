import Mathlib.Logic.Relation
import ProjectSensor.Service.HardTimerRun

/-!
# What an operation on timers does

An operation that is allowed changes at most one timer, and that by a sequence of the five edits
of `Edit`: a new time, a start, a stop, a registration in a free slot, and a change to a timer
that does not run.  What every edit keeps, every operation keeps.
-/

open ProjectSensor.Library ProjectSensor.Library.SlotBitmap ProjectSensor.Library.Transition

namespace ProjectSensor.Service

variable {Func Param : Type}

/-- The longest time that `sv_tick_from_millisecond` yields. -/
def tickMost : ℕ := 4294967

theorem svTickFromMillisecond_le (ms : BitVec 32) :
    (svTickFromMillisecond ms).toNat ≤ tickMost := by
  rw [svTickFromMillisecond, BitVec.toNat_udiv, tickMost]
  have hlt := (100 * ms + 999).isLt
  exact Nat.le_of_lt_succ (Nat.div_lt_of_lt_mul (by simpa using hlt.trans_le (by decide)))

/-- A time that a timer may be given. -/
def TimeInRange (tick : Tick) : Prop := 0 < tick.toNat ∧ tick.toNat ≤ tickMost

/-- A change to the timer `i`. -/
inductive Edit (i : Fin monitorTimeNr) (m : TimerManage Func Param) :
    TimerManage Func Param → Prop where
  | retime (tick : Tick) (htime : TimeInRange tick) :
      Edit i m (m.setTimer i { m.timer i with initTick := tick })
  | start (hidle : (m.timer i).activated = false) (htaken : taken m.bitmap i = true) :
      Edit i m (m.svTimerStart i).2
  | stop (hactive : (m.timer i).activated = true) : Edit i m (m.svTimerStop i).2
  | register (t : SvTimer Func Param) (hfree : taken m.bitmap i = false)
      (hidle : t.activated = false) (htime : TimeInRange t.initTick) :
      Edit i m { m with
        bitmap := take m.bitmap i
        timer := Function.update m.timer i t
        links := m.links.reset (.timer i) }
  | settle (flag : BitVec 8) (bitmap : BitVec 16) (hidle : (m.timer i).activated = false)
      (hflag : hasFlag flag svTimerFlagActivated = false)
      (hbitmap : bitmap = m.bitmap ∨ bitmap = release m.bitmap i) :
      Edit i m { m with
        timer := Function.update m.timer i { m.timer i with flag := flag }
        bitmap := bitmap }

/-- A sequence of changes to the timer `i`. -/
abbrev Edits (i : Fin monitorTimeNr) :
    TimerManage Func Param → TimerManage Func Param → Prop := Relation.ReflTransGen (Edit i)

/-- The clock, the callbacks run and the timers other than `i`, with their slots, stay as they
are. -/
structure OnlyTimer (i : Fin monitorTimeNr) (m m' : TimerManage Func Param) : Prop where
  tick : m'.sTick = m.sTick
  expiries : m'.expiries = m.expiries
  other : ∀ j, j ≠ i → m'.timer j = m.timer j
  slot : ∀ j : Fin monitorTimeNr, j ≠ i → taken m'.bitmap j = taken m.bitmap j

section Edits

variable {m m' m'' : TimerManage Func Param} {i : Fin monitorTimeNr}

theorem OnlyTimer.trans (h : OnlyTimer i m m') (h' : OnlyTimer i m' m'') : OnlyTimer i m m'' :=
  ⟨h'.tick.trans h.tick, h'.expiries.trans h.expiries,
    fun j hj ↦ (h'.other j hj).trans (h.other j hj),
    fun j hj ↦ (h'.slot j hj).trans (h.slot j hj)⟩

theorem onlyTimer_svTimerStart : OnlyTimer i m (m.svTimerStart i).2 := by
  unfold TimerManage.svTimerStart
  split
  · exact ⟨rfl, rfl, fun _ _ ↦ rfl, fun _ _ ↦ rfl⟩
  · refine ⟨rfl, rfl, fun j hj ↦ ?_, fun _ _ ↦ rfl⟩
    simp [TimerManage.setFlag, TimerManage.setTimer, hj]

theorem onlyTimer_svTimerStop : OnlyTimer i m (m.svTimerStop i).2 := by
  unfold TimerManage.svTimerStop
  split
  · exact ⟨rfl, rfl, fun _ _ ↦ rfl, fun _ _ ↦ rfl⟩
  · refine ⟨rfl, rfl, fun j hj ↦ ?_, fun _ _ ↦ rfl⟩
    simp [TimerManage.setFlag, TimerManage.setTimer, hj]

theorem Edit.onlyTimer (h : Edit i m m') : OnlyTimer i m m' := by
  cases h with
  | retime tick htime =>
      exact ⟨rfl, rfl, fun j hj ↦ Function.update_of_ne hj _ _, fun _ _ ↦ rfl⟩
  | start hidle htaken => exact onlyTimer_svTimerStart
  | stop hactive => exact onlyTimer_svTimerStop
  | register t hfree hidle htime =>
      refine ⟨rfl, rfl, fun j hj ↦ Function.update_of_ne hj _ _, fun j hj ↦ ?_⟩
      simp [taken_take _ (handle_lt i) (handle_lt j), Fin.val_ne_of_ne hj]
  | settle flag bitmap hidle hflag hbitmap =>
      refine ⟨rfl, rfl, fun j hj ↦ Function.update_of_ne hj _ _, fun j hj ↦ ?_⟩
      rcases hbitmap with rfl | rfl
      · rfl
      · simp [taken_release _ (handle_lt i) (handle_lt j), Fin.val_ne_of_ne hj]

theorem Edits.onlyTimer (h : Edits i m m') : OnlyTimer i m m' := by
  induction h with
  | refl => exact ⟨rfl, rfl, fun _ _ ↦ rfl, fun _ _ ↦ rfl⟩
  | tail _ hlast ih => exact ih.trans hlast.onlyTimer

end Edits

/-- Operations with a time of at least one tick, on timers of either kind.  A timer is started when
it is registered and unregistered when it is stopped; the passes over the lists and the clock are
no operations. -/
def OperationAllowed (m : TimerManage Func Param) : TimerAction Func Param → Prop
  | .hardRegister expiredMs _ _ _ => 0 < (svTickFromMillisecond expiredMs).toNat
  | .softRegister expiredMs _ _ _ => 0 < (svTickFromMillisecond expiredMs).toNat
  | .startMs handle expiredMs =>
      0 < (svTickFromMillisecond expiredMs).toNat ∧ Allowed m (.startMs handle expiredMs)
  | .restartMs _ expiredMs => 0 < (svTickFromMillisecond expiredMs).toNat
  | .timeout _ expiredMs => 0 < (svTickFromMillisecond expiredMs).toNat
  | .check _ => False
  | .softHandle _ => False
  | .tick _ => False
  | action => Allowed m action

/-- An operation edits one timer; if that one runs, the operation is one that disturbs it. -/
def EditsOne (m m' : TimerManage Func Param) (action : TimerAction Func Param) : Prop :=
  m' = m ∨ ∃ i, Edits i m m' ∧
    ((m.timer i).activated = true → HardAction.disturbs i (.operation action) = true)

/-- A timer that runs has a slot. -/
def SlotsTaken (m : TimerManage Func Param) : Prop :=
  ∀ i : Fin monitorTimeNr, (m.timer i).activated = true → taken m.bitmap i = true

section Operations

variable {m : TimerManage Func Param}

/-- A registration that finds a free slot. -/
theorem timerRegister_edits (h : SlotsTaken m) {expiredMs : BitVec 32}
    (hpos : 0 < (svTickFromMillisecond expiredMs).toNat) (flag : BitVec 8) (func : Option Func)
    (data : Param) (action : TimerAction Func Param) :
    EditsOne m (m.timerRegister expiredMs flag func data).2 action := by
  unfold TimerManage.timerRegister
  by_cases hlong : tickHalf ≤ svTickFromMillisecond expiredMs
  · exact .inl (by rw [if_pos hlong])
  simp only [if_neg hlong]
  cases hfree : firstFree m.bitmap monitorTimeNr with
  | none => exact .inl rfl
  | some slot =>
      have hslot : taken m.bitmap slot = false := firstFree_eq_some hfree
      refine .inr ⟨slot, .single (.register _ hslot (SvTimer.activated_init ..)
        ⟨hpos, svTickFromMillisecond_le expiredMs⟩), fun hactive ↦ ?_⟩
      rw [h slot hactive] at hslot
      contradiction

theorem timerTimeout_edits {handle : ℕ} (hlt : handle < monitorTimeNr) {expiredMs : BitVec 32}
    (hpos : 0 < (svTickFromMillisecond expiredMs).toNat) :
    Edits ⟨handle, hlt⟩ m (m.timerTimeout handle expiredMs).2 := by
  unfold TimerManage.timerTimeout
  rw [dif_pos hlt]
  by_cases hlong : tickHalf ≤ svTickFromMillisecond expiredMs
  · rw [if_pos hlong]
  · rw [if_neg hlong]
    exact .single (.retime _ ⟨hpos, svTickFromMillisecond_le expiredMs⟩)

theorem TimerManage.timerTimeout_activated (handle : ℕ) (expiredMs : BitVec 32)
    (j : Fin monitorTimeNr) :
    ((m.timerTimeout handle expiredMs).2.timer j).activated = (m.timer j).activated := by
  unfold TimerManage.timerTimeout
  split
  · next hlt =>
    by_cases hji : j = ⟨handle, hlt⟩
    · simp only
      split <;> simp [TimerManage.setTimer, hji, SvTimer.activated]
    · simp only
      split <;> simp [TimerManage.setTimer, hji]
  · rfl

theorem SlotsTaken.timerTimeout (h : SlotsTaken m) (handle : ℕ) (expiredMs : BitVec 32) :
    SlotsTaken (m.timerTimeout handle expiredMs).2 := by
  intro j hj
  rw [TimerManage.timerTimeout_bitmap]
  rw [TimerManage.timerTimeout_activated] at hj
  exact h j hj

/-- Starting a timer that runs does nothing. -/
theorem svTimerStart_edits {i : Fin monitorTimeNr} (htaken : taken m.bitmap i = true) :
    (m.svTimerStart i).2 = m ∨ (m.timer i).activated = false ∧ Edits i m (m.svTimerStart i).2 := by
  cases hactive : (m.timer i).activated with
  | true => exact .inl (by rw [TimerManage.svTimerStart, if_pos hactive])
  | false => exact .inr ⟨rfl, .single (.start hactive htaken)⟩

theorem timerStart_edits {handle : ℕ} (hlt : handle < monitorTimeNr)
    (htaken : taken m.bitmap handle = true) :
    (m.timerStart handle).2 = m ∨
      (m.timer ⟨handle, hlt⟩).activated = false ∧
        Edits ⟨handle, hlt⟩ m (m.timerStart handle).2 := by
  rw [TimerManage.timerStart, dif_pos hlt]
  exact svTimerStart_edits htaken

theorem timerStop_edits {handle : ℕ} (hlt : handle < monitorTimeNr) :
    Edits ⟨handle, hlt⟩ m (m.timerStop handle).2 := by
  rw [TimerManage.timerStop, dif_pos hlt]
  cases hactive : (m.timer ⟨handle, hlt⟩).activated with
  | true => exact .single (.stop hactive)
  | false => rw [TimerManage.svTimerStop, if_pos (by simp [hactive])]

/-- A timer that is restarted is stopped and started, if it runs and is not periodic. -/
theorem timerRestart_edits (h : SlotsTaken m) {handle : ℕ} (hlt : handle < monitorTimeNr) :
    Edits ⟨handle, hlt⟩ m (m.timerRestart handle).2 := by
  rw [TimerManage.timerRestart, dif_pos hlt]
  by_cases hrefused : hasFlag (m.timer ⟨handle, hlt⟩).flag
      (svTimerFlagHandling ||| svTimerFlagPeriodic)
  · rw [if_pos hrefused]
  simp only [if_neg hrefused]
  cases hactive : (m.timer ⟨handle, hlt⟩).activated with
  | false =>
      have hstay : m.svTimerStop ⟨handle, hlt⟩ = (-1, m) := by
        rw [TimerManage.svTimerStop, if_pos (by simp [hactive])]
      rw [hstay, if_neg (by simp)]
  | true =>
      have hstop : Edits ⟨handle, hlt⟩ m (m.svTimerStop ⟨handle, hlt⟩).2 := .single (.stop hactive)
      have hidle : ((m.svTimerStop ⟨handle, hlt⟩).2.timer ⟨handle, hlt⟩).activated = false := by
        rw [TimerManage.svTimerStop_eq hactive]
        simpa [SvTimer.activated] using (SvTimer.hasFlag_stopFlag _).1
      have htaken : taken (m.svTimerStop ⟨handle, hlt⟩).2.bitmap handle = true := by
        rw [TimerManage.svTimerStop_eq hactive]
        exact h ⟨handle, hlt⟩ hactive
      have hok : (m.svTimerStop ⟨handle, hlt⟩).1 = 0 := by
        rw [TimerManage.svTimerStop_eq hactive]
      rw [if_pos hok]
      exact hstop.tail (.start hidle htaken)

/-- Every operation that is allowed edits at most one timer. -/
theorem timerStep_edits (h : SlotsTaken m) {action : TimerAction Func Param}
    (hallowed : OperationAllowed m action) : EditsOne m (timerStep m action) action := by
  cases action with
  | hardRegister expiredMs flag func data => exact timerRegister_edits h hallowed ..
  | softRegister expiredMs flag func data => exact timerRegister_edits h hallowed ..
  | unregister handle =>
      simp only [timerStep, TimerManage.timerUnregister]
      split
      · rename_i hlt
        exact .inr ⟨⟨handle, hlt⟩, .single (.settle _ _ (hallowed hlt)
          (SvTimer.hasFlag_clear _).1 (.inr rfl)), by simp [hallowed hlt]⟩
      · exact .inl rfl
  | start handle =>
      by_cases hlt : handle < monitorTimeNr
      · rcases timerStart_edits hlt (hallowed hlt) with hsame | ⟨hidle, hstart⟩
        · exact .inl hsame
        · exact .inr ⟨_, hstart, by simp [hidle]⟩
      · exact .inl (by rw [timerStep, TimerManage.timerStart, dif_neg hlt])
  | startMs handle expiredMs =>
      obtain ⟨hpos, htaken⟩ := hallowed
      by_cases hlt : handle < monitorTimeNr
      swap
      · exact .inl (by simp [timerStep, TimerManage.timerStartMs, TimerManage.timerTimeout, hlt,
          TimerManage.svEparam])
      have htimeout : Edits ⟨handle, hlt⟩ m _ := timerTimeout_edits hlt hpos
      refine .inr ⟨⟨handle, hlt⟩, ?_, fun _ ↦ by simp [HardAction.disturbs]⟩
      simp only [timerStep, TimerManage.timerStartMs]
      split
      · rename_i hok
        have hlong := ((TimerManage.timerTimeout_eq_zero_iff handle expiredMs).mp hok).2
        have hslot : taken (m.timerTimeout handle expiredMs).2.bitmap handle = true := by
          rw [TimerManage.timerTimeout_bitmap]
          exact htaken hlt hlong
        rcases timerStart_edits hlt hslot with hsame | ⟨-, hstart⟩
        · rwa [hsame]
        · exact htimeout.trans hstart
      · exact htimeout
  | stop handle =>
      by_cases hlt : handle < monitorTimeNr
      · exact .inr ⟨_, timerStop_edits hlt, fun _ ↦ by simp [HardAction.disturbs]⟩
      · exact .inl (by rw [timerStep, TimerManage.timerStop, dif_neg hlt])
  | restart handle =>
      by_cases hlt : handle < monitorTimeNr
      · exact .inr ⟨_, timerRestart_edits h hlt, fun _ ↦ by simp [HardAction.disturbs]⟩
      · exact .inl (by rw [timerStep, TimerManage.timerRestart, dif_neg hlt])
  | restartMs handle expiredMs =>
      by_cases hlt : handle < monitorTimeNr
      swap
      · exact .inl (by simp [timerStep, TimerManage.timerRestartMs, TimerManage.timerTimeout, hlt,
          TimerManage.svEparam])
      have htimeout : Edits ⟨handle, hlt⟩ m _ := timerTimeout_edits hlt hallowed
      refine .inr ⟨⟨handle, hlt⟩, ?_, fun _ ↦ by simp [HardAction.disturbs]⟩
      simp only [timerStep, TimerManage.timerRestartMs]
      split
      · exact htimeout.trans (timerRestart_edits (h.timerTimeout handle expiredMs) hlt)
      · exact htimeout
  | timeout handle expiredMs =>
      by_cases hlt : handle < monitorTimeNr
      · exact .inr ⟨_, timerTimeout_edits hlt hallowed, fun _ ↦ by simp [HardAction.disturbs]⟩
      · exact .inl (by rw [timerStep, TimerManage.timerTimeout, dif_neg hlt])
  | check ticks => exact hallowed.elim
  | softHandle ticks => exact hallowed.elim
  | tick now => exact hallowed.elim

end Operations

end ProjectSensor.Service
