import ProjectSensor.Service.HardTimer

/-!
# Runs of hard timers

Operations on hard timers and ticks in any order, with `timer_check` on every tick.  Each state
between two of them has a sorted list on which no timer is due, so a timer that is left alone
waits until the tick of its deadline and is called then.
-/

open ProjectSensor.Library ProjectSensor.Library.Transition ProjectSensor.Library.SlotBitmap

namespace ProjectSensor.Service

variable {Func Param : Type}

/-- `timer_manage` when the clock stands anywhere. -/
def constructAt (links : LinkedRing.Links TimerNode) (parameter : Param) (tick : Tick) :
    TimerManage Func Param :=
  { TimerManage.construct links parameter with sTick := tick }

inductive HardAction (Func Param : Type) where
  | operation (action : TimerAction Func Param)
  | tick

def hardStep (m : TimerManage Func Param) : HardAction Func Param → TimerManage Func Param
  | .operation action => timerStep m action
  | .tick => m.svTickIncrease

/-- Operations on hard timers with a time of at least one tick.  A timer is started when it is
registered and unregistered when it is stopped, and time passes by ticks. -/
def HardAllowed (m : TimerManage Func Param) : HardAction Func Param → Prop
  | .tick => True
  | .operation (.hardRegister expiredMs flag _ _) =>
      hasFlag flag svTimerFlagSoftTimer = false ∧ 0 < (svTickFromMillisecond expiredMs).toNat
  | .operation (.startMs handle expiredMs) =>
      0 < (svTickFromMillisecond expiredMs).toNat ∧ Allowed m (.startMs handle expiredMs)
  | .operation (.restartMs _ expiredMs) => 0 < (svTickFromMillisecond expiredMs).toNat
  | .operation (.timeout _ expiredMs) => 0 < (svTickFromMillisecond expiredMs).toNat
  | .operation (.start handle) => Allowed m (.start handle)
  | .operation (.unregister handle) => Allowed m (.unregister handle)
  | .operation (.stop _) => True
  | .operation (.restart _) => True
  | .operation _ => False

/-- A call that stops or restarts a timer or gives it a new time. -/
def HardAction.disturbs (i : Fin monitorTimeNr) : HardAction Func Param → Bool
  | .operation (.stop handle) => handle = i
  | .operation (.restart handle) => handle = i
  | .operation (.startMs handle _) => handle = i
  | .operation (.restartMs handle _) => handle = i
  | .operation (.timeout handle _) => handle = i
  | _ => false

def HardAction.isTick : HardAction Func Param → Bool
  | .tick => true
  | .operation _ => false

/-- A call that starts a timer and succeeds. -/
def Starts (m : TimerManage Func Param) (i : Fin monitorTimeNr) : TimerAction Func Param → Prop
  | .start handle => handle = i ∧ (m.timerStart handle).1 = 0
  | .startMs handle expiredMs => handle = i ∧ (m.timerStartMs handle expiredMs).1 = 0
  | .restart handle => handle = i ∧ (m.timerRestart handle).1 = 0
  | .restartMs handle expiredMs => handle = i ∧ (m.timerRestartMs handle expiredMs).1 = 0
  | _ => False

/-- Between two operations: sorted lists with no timer due, the clock and the callbacks run as they
were before the operation. -/
structure Continues (m m' : TimerManage Func Param) (timers' : List (Fin monitorTimeNr)) :
    Prop where
  hard : HardLists m' timers'
  pending : Pending m' timers'
  tick : m'.sTick = m.sTick
  expiries : m'.expiries = m.expiries

theorem Continues.trans {m m' m'' : TimerManage Func Param}
    {timers timers' : List (Fin monitorTimeNr)} (h : Continues m m' timers)
    (h' : Continues m' m'' timers') : Continues m m'' timers' :=
  ⟨h'.hard, h'.pending, h'.tick.trans h.tick, h'.expiries.trans h.expiries⟩

/-- The timer was started at the tick `start`: it has all of its time left. -/
structure StartedAt (m : TimerManage Func Param) (start : Tick) (i : Fin monitorTimeNr) : Prop where
  activated : (m.timer i).activated = true
  timeoutTick : (m.timer i).timeoutTick = start + (m.timer i).initTick

namespace TimerManage

variable {m : TimerManage Func Param} {handle : ℕ} {expiredMs : BitVec 32}

/-- A call that sets the time and succeeds has started the timer with it. -/
theorem timerStartMs_of_ok (hok : (m.timerStartMs handle expiredMs).1 = 0) :
    m.timerStartMs handle expiredMs = (m.timerTimeout handle expiredMs).2.timerStart handle := by
  unfold timerStartMs at hok ⊢
  by_cases hset : (m.timerTimeout handle expiredMs).1 = 0
  · exact if_pos hset
  · simp only [if_neg hset] at hok
    exact absurd hok hset

theorem timerRestartMs_of_ok (hok : (m.timerRestartMs handle expiredMs).1 = 0) :
    m.timerRestartMs handle expiredMs =
      (m.timerTimeout handle expiredMs).2.timerRestart handle := by
  unfold timerRestartMs at hok ⊢
  by_cases hset : (m.timerTimeout handle expiredMs).1 = 0
  · exact if_pos hset
  · simp only [if_neg hset] at hok
    exact absurd hok hset

end TimerManage

namespace HardLists

variable {m m' : TimerManage Func Param} {timers timers' : List (Fin monitorTimeNr)}
  {i : Fin monitorTimeNr}

theorem construct (links : LinkedRing.Links TimerNode) (parameter : Param) (tick : Tick) :
    HardLists (constructAt links parameter tick : TimerManage Func Param) [] := by
  have hlists : OnLists (constructAt links parameter tick : TimerManage Func Param) fun _ ↦ [] :=
    (onLists_construct links parameter).frame rfl rfl (fun _ ↦ rfl) fun _ ↦ rfl
  have hempty : (fun _ ↦ []) = hardLists [] := by
    funext soft
    cases soft <;> rfl
  refine ⟨hempty ▸ hlists, fun _ ↦ ?_, fun j hj ↦ ?_, fun _ hi ↦ absurd hi List.not_mem_nil,
    List.Pairwise.nil⟩
  · simp [constructAt, TimerManage.construct, SvTimer.soft, hasFlag]
  · simp [constructAt, TimerManage.construct] at hj

theorem continues (h : HardLists m timers) (hpending : Pending m timers) :
    Continues m m timers := ⟨h, hpending, rfl, rfl⟩

/-- A change that keeps the clock, the callbacks run and the deadlines of the timers that stay on
the list. -/
theorem continues_of_keep (h : HardLists m timers) (hpending : Pending m timers)
    (hlists : OnLists m' (hardLists timers')) (hsub : timers'.Sublist timers)
    (htick : m'.sTick = m.sTick) (hexpiries : m'.expiries = m.expiries)
    (hdue : ∀ j ∈ timers', (m'.timer j).timeoutTick = (m.timer j).timeoutTick)
    (hhard : ∀ j, (m'.timer j).soft = false)
    (hinit : ∀ j : Fin monitorTimeNr, SlotBitmap.taken m'.bitmap j = true →
      0 < (m'.timer j).initTick.toNat ∧ (m'.timer j).initTick.toNat < tickHalf.toNat) :
    Continues m m' timers' where
  hard := h.keep hlists hsub htick hdue hhard hinit
  pending := fun j hj ↦ by
    have hpos := hpending j (hsub.subset hj)
    rwa [TimerManage.left, ← htick, ← hdue j hj] at hpos
  tick := htick
  expiries := hexpiries

/-- Starting a timer whose slot is in use.  A timer that is running stays as it is. -/
theorem start (h : HardLists m timers) (hpending : Pending m timers)
    (htaken : SlotBitmap.taken m.bitmap i = true) :
    (∃ timers', Continues m (m.svTimerStart i).2 timers') ∧
      ∀ j ∈ timers, (m.svTimerStart i).2.timer j = m.timer j := by
  by_cases hi : i ∈ timers
  · have hsame : (m.svTimerStart i).2 = m := by
      rw [TimerManage.svTimerStart, if_pos (h.mem_iff.mp hi)]
    rw [hsame]
    exact ⟨⟨timers, h.continues hpending⟩, fun _ _ ↦ rfl⟩
  · obtain ⟨hstarted, hself, hother⟩ := h.svTimerStart hi htaken
    have heq := TimerManage.svTimerStart_eq h.lists.rings (h.idle hi)
    refine ⟨⟨_, hstarted, fun j hj ↦ ?_, by rw [heq], by rw [heq]⟩, fun j hj ↦ ?_⟩
    · by_cases hji : j = i
      · rw [hji, hself]
        exact (h.initTick i htaken).1
      · rw [hother j hji]
        exact hpending j (((List.mem_orderedInsert _).mp hj).resolve_left hji)
    · have hji : j ≠ i := fun heq ↦ hi (heq ▸ hj)
      rw [heq]
      exact Function.update_of_ne hji _ _

/-- A start that succeeds puts the timer on the list with all of its time left. -/
theorem start_left (h : HardLists m timers) (hok : (m.svTimerStart i).1 = 0) :
    StartedAt (m.svTimerStart i).2 m.sTick i := by
  have hi : i ∉ timers := fun hi ↦ by
    rw [TimerManage.svTimerStart, if_pos (h.mem_iff.mp hi)] at hok
    exact Int.negSucc_ne_zero 0 hok
  have htimer : (m.svTimerStart i).2.timer i = m.started i := by
    rw [TimerManage.svTimerStart_eq h.lists.rings (h.idle hi)]
    exact Function.update_self ..
  constructor
  · rw [htimer]
    exact (SvTimer.hasFlag_startFlag _).1
  · rw [htimer]
    rfl

/-- Stopping a running timer. -/
theorem stop (h : HardLists m timers) (hpending : Pending m timers) (hi : i ∈ timers) :
    Continues m (m.svTimerStop i).2 (timers.erase i) ∧
      (m.svTimerStop i).2.bitmap = m.bitmap ∧
      ∀ j, j ≠ i → (m.svTimerStop i).2.timer j = m.timer j := by
  have hlists := h.lists.svTimerStop (h.mem_iff.mp hi)
  rw [h.hard i, hardLists_false, update_hardLists] at hlists
  have heq := TimerManage.svTimerStop_eq (h.mem_iff.mp hi)
  rw [heq] at hlists ⊢
  have hother : ∀ j, j ≠ i → Function.update m.timer i
      { m.timer i with flag := SvTimer.stopFlag (m.timer i).flag } j = m.timer j :=
    fun j hj ↦ Function.update_of_ne hj _ _
  have hne : ∀ j ∈ timers.erase i, j ≠ i := fun j hj ↦
    ((h.lists.rings.nodup false).mem_erase_iff.mp hj).1
  have hdue : ∀ j ∈ timers.erase i, (Function.update m.timer i
      { m.timer i with flag := SvTimer.stopFlag (m.timer i).flag } j).timeoutTick =
        (m.timer j).timeoutTick := fun j hj ↦ by rw [hother j (hne j hj)]
  refine ⟨h.continues_of_keep hpending hlists List.erase_sublist rfl rfl hdue (fun j ↦ ?_)
    fun j hj ↦ ?_, rfl, hother⟩
  · by_cases hj : j = i
    · subst hj
      simpa [SvTimer.soft, (SvTimer.hasFlag_stopFlag _).2.2] using h.hard j
    · simpa [hj] using h.hard j
  · by_cases hji : j = i
    · subst hji
      simpa using h.initTick j hj
    · simpa [hji] using h.initTick j hj

/-- A timer in use is given a new time. -/
theorem timeout (h : HardLists m timers) (hpending : Pending m timers) (handle : ℕ)
    {expiredMs : BitVec 32} (hpos : 0 < (svTickFromMillisecond expiredMs).toNat) :
    Continues m (m.timerTimeout handle expiredMs).2 timers ∧
      ∀ j : Fin monitorTimeNr, (j : ℕ) ≠ handle →
        (m.timerTimeout handle expiredMs).2.timer j = m.timer j := by
  have hlists := TimerManage.onLists_timerTimeout h.lists handle expiredMs
  unfold TimerManage.timerTimeout at hlists ⊢
  by_cases hlt : handle < monitorTimeNr
  swap
  · rw [dif_neg hlt]
    exact ⟨h.continues hpending, fun _ _ ↦ rfl⟩
  rw [dif_pos hlt] at hlists ⊢
  by_cases hlong : tickHalf ≤ svTickFromMillisecond expiredMs
  · rw [if_pos hlong]
    exact ⟨h.continues hpending, fun _ _ ↦ rfl⟩
  rw [if_neg hlong] at hlists ⊢
  have htimer : ∀ j, (m.setTimer ⟨handle, hlt⟩ { m.timer ⟨handle, hlt⟩ with
      initTick := svTickFromMillisecond expiredMs }).timer j =
        { m.timer j with initTick := if j = ⟨handle, hlt⟩ then svTickFromMillisecond expiredMs
          else (m.timer j).initTick } := fun j ↦ by
    by_cases hj : j = ⟨handle, hlt⟩ <;> simp [TimerManage.setTimer, hj]
  have hdue : ∀ j ∈ timers, ((m.setTimer ⟨handle, hlt⟩ { m.timer ⟨handle, hlt⟩ with
      initTick := svTickFromMillisecond expiredMs }).timer j).timeoutTick =
        (m.timer j).timeoutTick := fun j _ ↦ by rw [htimer]
  refine ⟨h.continues_of_keep hpending hlists (List.Sublist.refl _) rfl rfl hdue (fun j ↦ ?_)
    fun j hj ↦ ?_, fun j hj ↦ ?_⟩
  · rw [htimer]
    exact h.hard j
  · rw [htimer]
    have hinit := h.initTick j hj
    split
    · exact ⟨hpos, BitVec.lt_def.mp (BitVec.not_le.mp hlong)⟩
    · exact hinit
  · rw [htimer, if_neg fun heq ↦ hj (by rw [heq])]

/-- Restarting a timer: it is stopped and started, if it runs and is not periodic. -/
theorem restart (h : HardLists m timers) (hpending : Pending m timers) (handle : ℕ) :
    (∃ timers', Continues m (m.timerRestart handle).2 timers') ∧
      ∀ j ∈ timers, (j : ℕ) ≠ handle → (m.timerRestart handle).2.timer j = m.timer j := by
  unfold TimerManage.timerRestart
  by_cases hlt : handle < monitorTimeNr
  swap
  · rw [dif_neg hlt]
    exact ⟨⟨timers, h.continues hpending⟩, fun _ _ _ ↦ rfl⟩
  rw [dif_pos hlt]
  by_cases hrefused : hasFlag (m.timer ⟨handle, hlt⟩).flag
      (svTimerFlagHandling ||| svTimerFlagPeriodic)
  · rw [if_pos hrefused]
    exact ⟨⟨timers, h.continues hpending⟩, fun _ _ _ ↦ rfl⟩
  simp only [if_neg hrefused]
  by_cases hi : ⟨handle, hlt⟩ ∈ timers
  swap
  · have hstay : m.svTimerStop ⟨handle, hlt⟩ = (-1, m) := by
      rw [TimerManage.svTimerStop, if_pos (by simp [h.idle hi])]
    rw [hstay, if_neg (by simp)]
    exact ⟨⟨timers, h.continues hpending⟩, fun _ _ _ ↦ rfl⟩
  obtain ⟨hstopped, hbitmap, hother⟩ := h.stop hpending hi
  have hok : (m.svTimerStop ⟨handle, hlt⟩).1 = 0 := by
    rw [TimerManage.svTimerStop_eq (h.mem_iff.mp hi)]
  rw [if_pos hok]
  have htaken : SlotBitmap.taken (m.svTimerStop ⟨handle, hlt⟩).2.bitmap handle = true := by
    rw [hbitmap]
    exact h.taken (i := ⟨handle, hlt⟩) hi
  obtain ⟨⟨timers', hstarted⟩, hsame⟩ :=
    hstopped.hard.start (i := ⟨handle, hlt⟩) hstopped.pending htaken
  refine ⟨⟨timers', hstarted.hard, hstarted.pending, hstarted.tick.trans hstopped.tick,
    hstarted.expiries.trans hstopped.expiries⟩, fun j hj hne ↦ ?_⟩
  have hji : j ≠ ⟨handle, hlt⟩ := fun heq ↦ hne (by rw [heq])
  rw [hsame j (((h.lists.rings.nodup false).mem_erase_iff).mpr ⟨hji, hj⟩), hother j hji]

/-- A new timer gets the slot of none that runs. -/
theorem register (h : HardLists m timers) (hpending : Pending m timers) {expiredMs : BitVec 32}
    {flag : BitVec 8} (hflag : hasFlag flag svTimerFlagSoftTimer = false)
    (hpos : 0 < (svTickFromMillisecond expiredMs).toNat) (func : Option Func) (data : Param) :
    Continues m (m.hardTimerRegister expiredMs flag func data).2 timers ∧
      ∀ j ∈ timers, (m.hardTimerRegister expiredMs flag func data).2.timer j = m.timer j := by
  have hlists := h.lists.timerRegister expiredMs
    (flag &&& (~~~0 ||| svTimerFlagSoftTimer)) func data
  unfold TimerManage.hardTimerRegister
  unfold TimerManage.timerRegister at hlists ⊢
  by_cases hlong : tickHalf ≤ svTickFromMillisecond expiredMs
  · rw [if_pos hlong]
    exact ⟨h.continues hpending, fun _ _ ↦ rfl⟩
  simp only [if_neg hlong] at hlists ⊢
  cases hfree : firstFree m.bitmap monitorTimeNr with
  | none => exact ⟨h.continues hpending, fun _ _ ↦ rfl⟩
  | some slot =>
      simp only [hfree] at hlists ⊢
      have hne : ∀ j ∈ timers, j ≠ slot := fun j hj heq ↦ by
        have htaken := h.taken hj
        rw [heq, firstFree_eq_some hfree] at htaken
        contradiction
      have hsoft : (SvTimer.init func data (svTickFromMillisecond expiredMs)
          (flag &&& (~~~0 ||| svTimerFlagSoftTimer))).soft = false := by
        rw [SvTimer.soft, SvTimer.init, hasFlag_and_of_keeps _ (by decide),
          hasFlag_and_of_keeps _ (by decide), hflag]
      have hdue : ∀ j ∈ timers, (Function.update m.timer slot (SvTimer.init func data
          (svTickFromMillisecond expiredMs) (flag &&& (~~~0 ||| svTimerFlagSoftTimer)))
            j).timeoutTick = (m.timer j).timeoutTick := fun j hj ↦ by
        rw [Function.update_of_ne (hne j hj)]
      refine ⟨h.continues_of_keep hpending hlists (List.Sublist.refl _) rfl rfl hdue (fun j ↦ ?_)
        fun j hj ↦ ?_, fun j hj ↦ ?_⟩
      · by_cases hj : j = slot
        · subst hj
          simpa [TimerManage.setTimer] using hsoft
        · simpa [TimerManage.setTimer, hj] using h.hard j
      · by_cases hji : j = slot
        · subst hji
          simpa [TimerManage.setTimer, SvTimer.init] using
            ⟨hpos, BitVec.lt_def.mp (BitVec.not_le.mp hlong)⟩
        · have htaken : SlotBitmap.taken m.bitmap j = true := by
            have hj : SlotBitmap.taken (take m.bitmap slot) j = true := hj
            rw [taken_take _ (handle_lt slot) (handle_lt j)] at hj
            simpa [Fin.val_ne_of_ne hji] using hj
          simpa [TimerManage.setTimer, hji] using h.initTick j htaken
      · exact Function.update_of_ne (hne j hj) _ _

/-- A stopped timer gives its slot back. -/
theorem unregister (h : HardLists m timers) (hpending : Pending m timers) {handle : ℕ}
    (hidle : ∀ hlt : handle < monitorTimeNr, (m.timer ⟨handle, hlt⟩).activated = false) :
    Continues m (m.timerUnregister handle).2 timers ∧
      ∀ j ∈ timers, (m.timerUnregister handle).2.timer j = m.timer j := by
  have hlists := TimerManage.onLists_timerUnregister h.lists handle hidle
  unfold TimerManage.timerUnregister at hlists ⊢
  by_cases hlt : handle < monitorTimeNr
  swap
  · rw [dif_neg hlt]
    exact ⟨h.continues hpending, fun _ _ ↦ rfl⟩
  rw [dif_pos hlt] at hlists ⊢
  have hne : ∀ j ∈ timers, j ≠ ⟨handle, hlt⟩ := fun j hj heq ↦ by
    have hactive := h.mem_iff.mp hj
    rw [heq, hidle hlt] at hactive
    contradiction
  have hother : ∀ j ∈ timers, Function.update m.timer ⟨handle, hlt⟩ { m.timer ⟨handle, hlt⟩ with
      flag := (m.timer ⟨handle, hlt⟩).flag &&& ~~~svTimerFlagActivated } j = m.timer j :=
    fun j hj ↦ Function.update_of_ne (hne j hj) _ _
  have hdue := fun j hj ↦ congrArg SvTimer.timeoutTick (hother j hj)
  refine ⟨h.continues_of_keep hpending hlists (List.Sublist.refl _) rfl rfl hdue (fun j ↦ ?_)
    fun j hj ↦ ?_, hother⟩
  · by_cases hj : j = ⟨handle, hlt⟩
    · subst hj
      simpa [TimerManage.setFlag, TimerManage.setTimer, SvTimer.soft,
        (SvTimer.hasFlag_clear _).2.2] using h.hard ⟨handle, hlt⟩
    · simpa [TimerManage.setFlag, TimerManage.setTimer, hj] using h.hard j
  · have htaken : SlotBitmap.taken m.bitmap j = true := by
      have hj : SlotBitmap.taken (release m.bitmap handle) j = true := hj
      rw [taken_release _ (handle_lt ⟨handle, hlt⟩) (handle_lt j), Bool.and_eq_true] at hj
      exact hj.2
    have hinit := h.initTick j htaken
    by_cases hji : j = ⟨handle, hlt⟩
    · subst hji
      simpa [TimerManage.setFlag, TimerManage.setTimer] using hinit
    · simpa [TimerManage.setFlag, TimerManage.setTimer, hji] using hinit

theorem timerStart (h : HardLists m timers) (hpending : Pending m timers) {handle : ℕ}
    (htaken : handle < monitorTimeNr → SlotBitmap.taken m.bitmap handle = true) :
    (∃ timers', Continues m (m.timerStart handle).2 timers') ∧
      ∀ j ∈ timers, (m.timerStart handle).2.timer j = m.timer j := by
  unfold TimerManage.timerStart
  by_cases hlt : handle < monitorTimeNr
  · rw [dif_pos hlt]
    exact h.start (i := ⟨handle, hlt⟩) hpending (htaken hlt)
  · rw [dif_neg hlt]
    exact ⟨⟨timers, h.continues hpending⟩, fun _ _ ↦ rfl⟩

theorem timerStop (h : HardLists m timers) (hpending : Pending m timers) (handle : ℕ) :
    (∃ timers', Continues m (m.timerStop handle).2 timers') ∧
      ∀ j ∈ timers, (j : ℕ) ≠ handle → (m.timerStop handle).2.timer j = m.timer j := by
  unfold TimerManage.timerStop
  by_cases hlt : handle < monitorTimeNr
  swap
  · rw [dif_neg hlt]
    exact ⟨⟨timers, h.continues hpending⟩, fun _ _ _ ↦ rfl⟩
  rw [dif_pos hlt]
  by_cases hi : ⟨handle, hlt⟩ ∈ timers
  · obtain ⟨hstopped, -, hother⟩ := h.stop hpending hi
    exact ⟨⟨_, hstopped⟩, fun j _ hne ↦ hother j fun heq ↦ hne (by rw [heq])⟩
  · rw [TimerManage.svTimerStop, if_pos (by simp [h.idle hi])]
    exact ⟨⟨timers, h.continues hpending⟩, fun _ _ _ ↦ rfl⟩

/-- Every allowed operation keeps the order, and the timers it does not disturb. -/
theorem operation (h : HardLists m timers) (hpending : Pending m timers)
    {action : TimerAction Func Param} (hallowed : HardAllowed m (.operation action)) :
    (∃ timers', Continues m (timerStep m action) timers') ∧
      ∀ j ∈ timers, HardAction.disturbs j (.operation action) = false →
        (timerStep m action).timer j = m.timer j := by
  cases action with
  | hardRegister expiredMs flag func data =>
      obtain ⟨hregister, hsame⟩ := h.register hpending hallowed.1 hallowed.2 func data
      exact ⟨⟨timers, hregister⟩, fun j hj _ ↦ hsame j hj⟩
  | unregister handle =>
      obtain ⟨hunregister, hsame⟩ := h.unregister hpending hallowed
      exact ⟨⟨timers, hunregister⟩, fun j hj _ ↦ hsame j hj⟩
  | start handle =>
      obtain ⟨hstart, hsame⟩ := h.timerStart hpending hallowed
      exact ⟨hstart, fun j hj _ ↦ hsame j hj⟩
  | startMs handle expiredMs =>
      obtain ⟨hpos, htaken⟩ := hallowed
      obtain ⟨htimeout, hother⟩ := h.timeout hpending handle hpos
      have hzero := TimerManage.timerTimeout_eq_zero_iff (m := m) handle expiredMs
      simp only [timerStep, TimerManage.timerStartMs, HardAction.disturbs, decide_eq_false_iff_not]
      split
      · rename_i hok
        have hslot : handle < monitorTimeNr →
            SlotBitmap.taken (m.timerTimeout handle expiredMs).2.bitmap handle = true := by
          rw [TimerManage.timerTimeout_bitmap]
          exact fun hlt ↦ htaken hlt (hzero.mp hok).2
        obtain ⟨⟨timers', hstart⟩, hsame⟩ := htimeout.hard.timerStart htimeout.pending hslot
        exact ⟨⟨timers', htimeout.trans hstart⟩, fun j hj hne ↦
          (hsame j hj).trans (hother j fun heq ↦ hne heq.symm)⟩
      · exact ⟨⟨timers, htimeout⟩, fun j hj hne ↦ hother j fun heq ↦ hne heq.symm⟩
  | stop handle =>
      obtain ⟨hstop, hother⟩ := h.timerStop hpending handle
      simp only [HardAction.disturbs, decide_eq_false_iff_not]
      exact ⟨hstop, fun j hj hne ↦ hother j hj fun heq ↦ hne heq.symm⟩
  | restart handle =>
      obtain ⟨hrestart, hother⟩ := h.restart hpending handle
      simp only [HardAction.disturbs, decide_eq_false_iff_not]
      exact ⟨hrestart, fun j hj hne ↦ hother j hj fun heq ↦ hne heq.symm⟩
  | restartMs handle expiredMs =>
      obtain ⟨htimeout, hother⟩ := h.timeout hpending handle hallowed
      simp only [timerStep, TimerManage.timerRestartMs, HardAction.disturbs,
        decide_eq_false_iff_not]
      split
      · obtain ⟨⟨timers', hrestart⟩, hsame⟩ :=
          htimeout.hard.restart htimeout.pending handle
        refine ⟨⟨timers', htimeout.trans hrestart⟩, fun j hj hne ↦ ?_⟩
        have hji : (j : ℕ) ≠ handle := fun heq ↦ hne heq.symm
        exact (hsame j hj hji).trans (hother j hji)
      · exact ⟨⟨timers, htimeout⟩, fun j hj hne ↦ hother j fun heq ↦ hne heq.symm⟩
  | timeout handle expiredMs =>
      obtain ⟨htimeout, hother⟩ := h.timeout hpending handle hallowed
      simp only [HardAction.disturbs, decide_eq_false_iff_not]
      exact ⟨⟨timers, htimeout⟩, fun j hj hne ↦ hother j fun heq ↦ hne heq.symm⟩
  | softRegister expiredMs flag func data => exact hallowed.elim
  | check ticks => exact hallowed.elim
  | softHandle ticks => exact hallowed.elim
  | tick now => exact hallowed.elim

theorem timerStart_left (h : HardLists m timers) (hok : (m.timerStart i).1 = 0) :
    StartedAt (m.timerStart i).2 m.sTick i := by
  have heq : m.timerStart i = m.svTimerStart i := by simp [TimerManage.timerStart]
  rw [heq] at hok ⊢
  exact h.start_left hok

/-- A restart that succeeds has stopped and started the timer. -/
theorem timerRestart_left (h : HardLists m timers) (hpending : Pending m timers)
    (hok : (m.timerRestart i).1 = 0) : StartedAt (m.timerRestart i).2 m.sTick i := by
  by_cases hi : i ∈ timers
  swap
  · have hstay : m.svTimerStop i = (-1, m) := by
      rw [TimerManage.svTimerStop, if_pos (by simp [h.idle hi])]
    have hfail : (m.timerRestart i).1 ≠ 0 := by
      rw [TimerManage.timerRestart, dif_pos i.isLt]
      simp only [Fin.eta, hstay]
      split <;> simp [TimerManage.svEio]
    exact absurd hok hfail
  have hstopped := (h.stop hpending hi).1
  have hstop : (m.svTimerStop i).1 = 0 := by rw [TimerManage.svTimerStop_eq (h.mem_iff.mp hi)]
  have heq : m.timerRestart i = (m.svTimerStop i).2.svTimerStart i := by
    rw [TimerManage.timerRestart, dif_pos i.isLt] at hok ⊢
    simp only [Fin.eta, hstop, if_true] at hok ⊢
    split at hok
    · simp [TimerManage.svEio] at hok
    · rename_i hflags
      rw [if_neg hflags]
  rw [heq] at hok ⊢
  rw [← hstopped.tick]
  exact hstopped.hard.start_left hok

/-- A timer that was started has all of its time left. -/
theorem left_of_starts (h : HardLists m timers) (hpending : Pending m timers)
    {action : TimerAction Func Param} (hallowed : HardAllowed m (.operation action))
    (hstarts : Starts m i action) : StartedAt (timerStep m action) m.sTick i := by
  cases action with
  | start handle =>
      obtain ⟨rfl, hok⟩ := hstarts
      exact h.timerStart_left hok
  | startMs handle expiredMs =>
      obtain ⟨rfl, hok⟩ := hstarts
      have heq := TimerManage.timerStartMs_of_ok hok
      have htimeout := (h.timeout hpending i hallowed.1).1
      rw [heq] at hok
      rw [timerStep, heq, ← htimeout.tick]
      exact htimeout.hard.timerStart_left hok
  | restart handle =>
      obtain ⟨rfl, hok⟩ := hstarts
      exact h.timerRestart_left hpending hok
  | restartMs handle expiredMs =>
      obtain ⟨rfl, hok⟩ := hstarts
      have heq := TimerManage.timerRestartMs_of_ok hok
      have htimeout := (h.timeout hpending i hallowed).1
      rw [heq] at hok
      rw [timerStep, heq, ← htimeout.tick]
      exact htimeout.hard.timerRestart_left htimeout.pending hok
  | _ => exact hstarts.elim

/-- A timer that is left alone waits as long as it has time left. -/
theorem waits (h : HardLists m timers) (hpending : Pending m timers) (hi : i ∈ timers)
    {during : List (HardAction Func Param)} (hallowed : AllSteps hardStep HardAllowed m during)
    (halone : ∀ action ∈ during, HardAction.disturbs i action = false)
    (hticks : during.countP HardAction.isTick < m.left i) :
    ∃ timers', HardLists (run hardStep m during) timers' ∧
      Pending (run hardStep m during) timers' ∧ i ∈ timers' ∧
      m.Untouched (run hardStep m during) i ∧
      (run hardStep m during).left i + during.countP HardAction.isTick = m.left i := by
  induction during generalizing m timers with
  | nil => exact ⟨timers, h, hpending, hi, ⟨rfl, rfl⟩, rfl⟩
  | cons action during ih =>
      obtain ⟨hfirst, hrest⟩ := hallowed
      have halone' := fun action hin ↦ halone action (List.mem_cons_of_mem _ hin)
      have hactive := h.mem_iff.mp hi
      cases action with
      | operation action =>
          obtain ⟨⟨timers', hcont⟩, hsame⟩ := h.operation hpending hfirst
          have htimer := hsame i hi (halone _ List.mem_cons_self)
          have hleft : (timerStep m action).left i = m.left i := by
            rw [TimerManage.left, TimerManage.left, hcont.tick, htimer]
          have huntouched : m.Untouched (timerStep m action) i :=
            ⟨htimer, by rw [TimerManage.expiriesOf, TimerManage.expiriesOf, hcont.expiries]⟩
          have hi' : i ∈ timers' := hcont.hard.mem_iff.mpr (by rw [htimer, hactive])
          have hcount : (HardAction.operation action :: during).countP HardAction.isTick =
              during.countP HardAction.isTick :=
            List.countP_cons_of_neg (by simp [HardAction.isTick])
          rw [hcount] at hticks ⊢
          obtain ⟨final, hfinal, hpend, hmem, hquiet, hsum⟩ :=
            ih hcont.hard hcont.pending hi' hrest halone' (hleft ▸ hticks)
          exact ⟨final, hfinal, hpend, hmem, huntouched.trans hquiet, hsum.trans hleft⟩
      | tick =>
          obtain ⟨timers', hhard, hpend', htick, -, huntouched⟩ := h.svTickIncrease hpending
          have hcount : (HardAction.tick :: during).countP HardAction.isTick =
              during.countP HardAction.isTick + 1 := List.countP_cons_of_pos rfl
          rw [hcount] at hticks ⊢
          have hquiet := huntouched i hi (by omega)
          have hleft : m.svTickIncrease.left i = m.left i - 1 := by
            rw [TimerManage.left, htick, hquiet.timer]
            exact WrappedTime.left_succ (hpending i hi)
          have hi' : i ∈ timers' := hhard.mem_iff.mpr (by rw [hquiet.timer, hactive])
          have hless : during.countP HardAction.isTick < m.svTickIncrease.left i := by omega
          obtain ⟨final, hfinal, hpend, hmem, hquiet', hsum⟩ :=
            ih hhard hpend' hi' hrest halone' hless
          refine ⟨final, hfinal, hpend, hmem, hquiet.trans hquiet', ?_⟩
          calc
            _ = (run hardStep m.svTickIncrease during).left i +
                during.countP HardAction.isTick + 1 := rfl
            _ = m.svTickIncrease.left i + 1 := congrArg (· + 1) hsum
            _ = m.left i := by omega

end HardLists

/-- Every state between two actions has a sorted list on which no timer is due. -/
theorem hardLists_run {m : TimerManage Func Param} {timers : List (Fin monitorTimeNr)}
    (h : HardLists m timers) (hpending : Pending m timers) {actions : List (HardAction Func Param)}
    (hallowed : AllSteps hardStep HardAllowed m actions) :
    ∃ timers', HardLists (run hardStep m actions) timers' ∧
      Pending (run hardStep m actions) timers' := by
  have hkept : ∀ m (action : HardAction Func Param),
      (∃ timers, HardLists m timers ∧ Pending m timers) → HardAllowed m action →
        ∃ timers, HardLists (hardStep m action) timers ∧ Pending (hardStep m action) timers := by
    rintro m action ⟨timers, h, hpending⟩ hallowed
    cases action with
    | operation action =>
        obtain ⟨⟨timers', hcont⟩, -⟩ := h.operation hpending hallowed
        exact ⟨timers', hcont.hard, hcont.pending⟩
    | tick =>
        obtain ⟨timers', hhard, hpending', -⟩ := h.svTickIncrease hpending
        exact ⟨timers', hhard, hpending'⟩
  exact (allStates_of_step hkept ⟨timers, h, hpending⟩ hallowed).last

/-- The ring of the hard timers, sorted by the time left until the deadline. -/
def SortedByTimeLeft (m : TimerManage Func Param) : Prop :=
  ∃ timers : List (Fin monitorTimeNr),
    LinkedRing.IsRing m.links .timerList (timers.map .timer) ∧
      timers.Pairwise fun i j ↦ m.left i ≤ m.left j

/-- What is to be seen of a timer that was started at tick `start` with the time `time` when its
deadline has come: its callback was run then, and it is off the list and reports so, or armed
again. -/
structure OnTime (start time : Tick) (started ended : TimerManage Func Param)
    (i : Fin monitorTimeNr) : Prop where
  tick : ended.sTick = start + time
  expiries : ended.expiriesOf i = ((started.timer i).timeoutFunc.map fun func ↦
    ⟨i, func, (started.timer i).parameter, start + time⟩).toList ++ started.expiriesOf i
  oneShot : (started.timer i).periodic = false → ended.timerExpired i ≠ 0 ∧
    (ended.timer i).activated = false ∧ ∀ timers : List (Fin monitorTimeNr),
      LinkedRing.IsRing ended.links .timerList (timers.map .timer) → i ∉ timers
  periodic : (started.timer i).periodic = true → (ended.timer i).activated = true ∧
    (ended.timer i).timeoutTick = start + 2 * time

/-- The last tick of a timer that was left alone. -/
theorem HardLists.onTime {m : TimerManage Func Param} {timers : List (Fin monitorTimeNr)}
    (h : HardLists m timers) (hpending : Pending m timers) {i : Fin monitorTimeNr}
    (hi : i ∈ timers) {during : List (HardAction Func Param)}
    (hallowed : AllSteps hardStep HardAllowed m during)
    (halone : ∀ action ∈ during, HardAction.disturbs i action = false)
    (hticks : during.countP HardAction.isTick + 1 = m.left i) {start : Tick}
    (hstart : (m.timer i).timeoutTick = start + (m.timer i).initTick) :
    OnTime start (m.timer i).initTick m (run hardStep m during).svTickIncrease i := by
  obtain ⟨last, hlast, hpend, hmem, hquiet, hsum⟩ := h.waits hpending hi hallowed halone (by omega)
  obtain ⟨ended, hended, -, htick, hfired, -⟩ := hlast.svTickIncrease hpend
  have hone : (run hardStep m during).left i = 1 := by omega
  have hnow : (run hardStep m during).sTick + 1 = start + (m.timer i).initTick := by
    have hzero := WrappedTime.left_succ (hpend i hmem)
    rw [← TimerManage.left, hone, WrappedTime.left_eq_zero_iff, hquiet.timer, hstart] at hzero
    exact hzero.symm
  obtain ⟨hexpiries, hperiodic, honeShot⟩ := hfired i hmem hone
  set final := (run hardStep m during).svTickIncrease
  have htimer : ({ run hardStep m during with sTick := (run hardStep m during).sTick + 1 } :
      TimerManage Func Param).timer i = m.timer i := hquiet.timer
  rw [htimer] at hperiodic honeShot
  refine ⟨htick.trans hnow, ?_, fun hno ↦ ?_, fun hyes ↦ ?_⟩
  · have hbefore : ({ run hardStep m during with sTick := (run hardStep m during).sTick + 1 } :
        TimerManage Func Param).expiriesOf i = m.expiriesOf i := hquiet.expiries
    rw [hexpiries, hbefore, TimerManage.firing, htimer]
    cases hfunc : (m.timer i).timeoutFunc with
    | none => rfl
    | some func => rw [← hnow]; rfl
  · obtain ⟨hidle, hexpired⟩ := honeShot hno
    refine ⟨hexpired, hidle, fun timers' hring hin ↦ ?_⟩
    rw [hended.lists.rings.eq_of_ring false hring, hardLists_false, hended.mem_iff, hidle] at hin
    contradiction
  · obtain ⟨hactive, htimeout⟩ := hperiodic hyes
    refine ⟨hactive, htimeout.trans ?_⟩
    show (run hardStep m during).sTick + 1 + (m.timer i).initTick = _
    rw [hnow, add_assoc, two_mul]

/-- In every run of hard timers, wherever the clock stands, the list is sorted by the time left,
and a timer that is started and then left alone is called at its deadline and not before. -/
theorem hardTimers_on_time (links : LinkedRing.Links TimerNode) (parameter : Param) (tick : Tick)
    (actions : List (HardAction Func Param))
    (hactions : AllSteps hardStep HardAllowed (constructAt links parameter tick) actions) :
    let m := run hardStep (constructAt links parameter tick) actions
    SortedByTimeLeft m ∧
      ∀ (i : Fin monitorTimeNr) (start : TimerAction Func Param)
        (during : List (HardAction Func Param)), Starts m i start →
        AllSteps hardStep HardAllowed m (.operation start :: during) →
        (∀ action ∈ during, HardAction.disturbs i action = false) →
        let started := timerStep m start
        let time := (started.timer i).initTick
        (during.countP HardAction.isTick < time.toNat →
          (run hardStep started during).expiriesOf i = m.expiriesOf i) ∧
        (during.countP HardAction.isTick + 1 = time.toNat →
          OnTime m.sTick time started (run hardStep started during).svTickIncrease i) := by
  intro m
  have hstart : HardLists (constructAt links parameter tick : TimerManage Func Param) [] :=
    HardLists.construct links parameter tick
  obtain ⟨timers, h, hpending⟩ : ∃ timers, HardLists m timers ∧ Pending m timers :=
    hardLists_run hstart (fun j hj ↦ absurd hj List.not_mem_nil) hactions
  refine ⟨⟨timers, h.lists.rings.ring false, h.sorted⟩, fun i start during hstarts hallowed
    halone ↦ ?_⟩
  obtain ⟨hfirst, hrest⟩ := hallowed
  obtain ⟨⟨timers', hcont⟩, -⟩ := h.operation hpending hfirst
  obtain ⟨hactive, htimeout⟩ := h.left_of_starts hpending hfirst hstarts
  have hi : i ∈ timers' := hcont.hard.mem_iff.mpr hactive
  have hleft : (timerStep m start).left i = ((timerStep m start).timer i).initTick.toNat := by
    rw [TimerManage.left, htimeout, hcont.tick, WrappedTime.left_add]
  have hbefore : (timerStep m start).expiriesOf i = m.expiriesOf i := by
    rw [TimerManage.expiriesOf, TimerManage.expiriesOf, hcont.expiries]
  refine ⟨fun hticks ↦ ?_, fun hticks ↦ ?_⟩
  · obtain ⟨-, -, -, -, hquiet, -⟩ :=
      hcont.hard.waits hcont.pending hi hrest halone (hleft ▸ hticks)
    exact hquiet.expiries.trans hbefore
  · exact hcont.hard.onTime hcont.pending hi hrest halone (hleft ▸ hticks) htimeout

/-- A one-shot timer of three ticks, registered two ticks before the clock wraps around. -/
def registerBeforeWrap : List (HardAction Unit Unit) :=
  [.operation (.hardRegister 30 0 (some ()) ())]

theorem hardTimers_on_time_across_wrap :
    let m := run hardStep (constructAt clearedLinks () 0xFFFFFFFE) registerBeforeWrap
    let started := timerStep m (.start 0)
    (started.timer 0).initTick = 3 ∧
      OnTime 0xFFFFFFFE (started.timer 0).initTick started
        (run hardStep started [.tick, .tick]).svTickIncrease 0 := by
  have hactions : AllSteps hardStep HardAllowed (constructAt clearedLinks () 0xFFFFFFFE)
      registerBeforeWrap := ⟨⟨by decide, by decide⟩, trivial⟩
  have hstarts : Starts (run hardStep (constructAt clearedLinks () 0xFFFFFFFE) registerBeforeWrap)
      0 (.start 0) := ⟨rfl, by decide +kernel⟩
  have hslot : HardAllowed (run hardStep (constructAt clearedLinks () 0xFFFFFFFE)
      registerBeforeWrap) (.operation (.start 0)) := fun _ ↦ by decide +kernel
  have htick : (run hardStep (constructAt clearedLinks () 0xFFFFFFFE) registerBeforeWrap).sTick =
      0xFFFFFFFE := rfl
  have hended := ((hardTimers_on_time clearedLinks () 0xFFFFFFFE registerBeforeWrap hactions).2 0
    (.start 0) [.tick, .tick] hstarts ⟨hslot, trivial, trivial, trivial⟩ (by decide)).2
    (by decide +kernel)
  rw [htick] at hended
  exact ⟨by decide +kernel, hended⟩

end ProjectSensor.Service
