import ProjectSensor.Service.TimerLists

/-!
# Runs of timer operations

The operations of `timer_manage` in any order, on any handles.  All but two of them keep the lists
well formed whatever they are given: `timer_unregister` of a running timer leaves its node behind
on the list, and `timer_start` puts a timer on a list even though its slot is free.
-/

open ProjectSensor.Library ProjectSensor.Library.Transition ProjectSensor.Library.SlotBitmap

namespace ProjectSensor.Service

variable {Func Param : Type}

/-- The operations of `timer_manage`; `check` and `softHandle` come with the readings of the clock
after the callbacks, and `tick` is the clock on its own. -/
inductive TimerAction (Func Param : Type) where
  | hardRegister (expiredMs : BitVec 32) (flag : BitVec 8) (func : Option Func) (data : Param)
  | softRegister (expiredMs : BitVec 32) (flag : BitVec 8) (func : Option Func) (data : Param)
  | unregister (handle : ℕ)
  | start (handle : ℕ)
  | startMs (handle : ℕ) (expiredMs : BitVec 32)
  | stop (handle : ℕ)
  | restart (handle : ℕ)
  | restartMs (handle : ℕ) (expiredMs : BitVec 32)
  | timeout (handle : ℕ) (expiredMs : BitVec 32)
  | check (ticks : List Tick)
  | softHandle (ticks : List Tick)
  | tick (now : Tick)

def timerStep (m : TimerManage Func Param) : TimerAction Func Param → TimerManage Func Param
  | .hardRegister expiredMs flag func data => (m.hardTimerRegister expiredMs flag func data).2
  | .softRegister expiredMs flag func data => (m.softTimerRegister expiredMs flag func data).2
  | .unregister handle => (m.timerUnregister handle).2
  | .start handle => (m.timerStart handle).2
  | .startMs handle expiredMs => (m.timerStartMs handle expiredMs).2
  | .stop handle => (m.timerStop handle).2
  | .restart handle => (m.timerRestart handle).2
  | .restartMs handle expiredMs => (m.timerRestartMs handle expiredMs).2
  | .timeout handle expiredMs => (m.timerTimeout handle expiredMs).2
  | .check ticks => m.timerCheck ticks
  | .softHandle ticks => m.softTimerHandle ticks
  | .tick now => { m with sTick := now }

/-- Both lists are circular lists of distinct timers, a timer is on the list of its `SOFT` flag
exactly when its `ACTIVATED` flag is set, and its slot is then in use. -/
def WellFormed (m : TimerManage Func Param) : Prop := ∃ lists, OnLists m lists

/-- No running timer is unregistered, and no timer is started whose slot is free. -/
def Allowed (m : TimerManage Func Param) : TimerAction Func Param → Prop
  | .unregister handle => ∀ h : handle < monitorTimeNr, (m.timer ⟨handle, h⟩).activated = false
  | .start handle => handle < monitorTimeNr → taken m.bitmap handle = true
  | .startMs handle expiredMs => handle < monitorTimeNr →
      svTickFromMillisecond expiredMs < tickHalf → taken m.bitmap handle = true
  | _ => True

theorem OnLists.next_activated {m : TimerManage Func Param} {lists : Lists}
    (h : OnLists m lists) {soft : Bool} {i : Fin monitorTimeNr}
    (hnext : m.links.next (headOf soft) = .timer i) : (m.timer i).activated = true := by
  obtain ⟨rest, hlist⟩ := h.rings.next_head hnext
  exact (h.soft_of_cons hlist).1

theorem onLists_construct (links : LinkedRing.Links TimerNode) (parameter : Param) :
    OnLists (.construct links parameter : TimerManage Func Param) fun _ ↦ [] where
  rings := by
    refine ⟨fun soft ↦ ?_, fun i hi ↦ absurd hi List.not_mem_nil⟩
    cases soft with
    | true => exact LinkedRing.IsRing.reset _ _
    | false =>
        exact (LinkedRing.IsRing.reset links TimerNode.timerList).of_agreeAt fun node hnode ↦
          LinkedRing.Links.agreeAt_reset (by
            rw [List.mem_singleton.mp hnode]
            decide)
  mem soft i := by
    simp [TimerManage.construct, SvTimer.activated, hasFlag]
  taken i := by
    simp [TimerManage.construct, SvTimer.activated, hasFlag]

namespace TimerManage

variable {m : TimerManage Func Param} {lists : Lists}

/-- Starting a timer keeps the lists well formed exactly when its slot is in use. -/
theorem wellFormed_svTimerStart_iff (h : OnLists m lists) (i : Fin monitorTimeNr) :
    WellFormed (m.svTimerStart i).2 ↔ taken m.bitmap i = true := by
  cases hactive : (m.timer i).activated with
  | true =>
      have hsame : (m.svTimerStart i).2 = m := by rw [svTimerStart, if_pos hactive]
      rw [hsame]
      exact iff_of_true ⟨lists, h⟩ (h.taken i hactive)
  | false =>
      refine ⟨?_, fun htaken ↦ ⟨_, h.svTimerStart hactive htaken⟩⟩
      rintro ⟨lists', hlists'⟩
      rw [svTimerStart_eq h.rings hactive] at hlists'
      refine hlists'.taken i ?_
      simpa [started, SvTimer.activated] using (SvTimer.hasFlag_startFlag (m.timer i).flag).1

theorem wellFormed_timerStart_iff (h : OnLists m lists) (handle : ℕ) :
    WellFormed (m.timerStart handle).2 ↔
      (handle < monitorTimeNr → taken m.bitmap handle = true) := by
  unfold timerStart
  split
  · rename_i hlt
    simpa [hlt] using wellFormed_svTimerStart_iff h ⟨handle, hlt⟩
  · rename_i hge
    simpa [hge] using ⟨lists, h⟩

/-- A new time changes no list. -/
theorem onLists_timerTimeout (h : OnLists m lists) (handle : ℕ) (expiredMs : BitVec 32) :
    OnLists (m.timerTimeout handle expiredMs).2 lists := by
  unfold timerTimeout
  split
  · simp only
    split
    · exact h
    · refine h.frame rfl rfl (fun j ↦ ?_) fun j ↦ ?_ <;>
        by_cases hj : j = ⟨handle, by assumption⟩ <;>
          simp [setTimer, hj, SvTimer.activated, SvTimer.soft]
  · exact h

theorem timerTimeout_eq_zero_iff (handle : ℕ) (expiredMs : BitVec 32) :
    (m.timerTimeout handle expiredMs).1 = 0 ↔
      handle < monitorTimeNr ∧ svTickFromMillisecond expiredMs < tickHalf := by
  unfold timerTimeout
  by_cases hlt : handle < monitorTimeNr
  · by_cases hle : tickHalf ≤ svTickFromMillisecond expiredMs
    · simp [hlt, hle, svEparam]
    · simp [hlt, hle, BitVec.not_le.mp hle]
  · simp [hlt, svEparam]

@[simp]
theorem timerTimeout_bitmap (handle : ℕ) (expiredMs : BitVec 32) :
    (m.timerTimeout handle expiredMs).2.bitmap = m.bitmap := by
  unfold timerTimeout
  split <;> simp only
  split <;> rfl

theorem wellFormed_timerStop (h : OnLists m lists) (handle : ℕ) :
    WellFormed (m.timerStop handle).2 := by
  unfold timerStop
  split
  · rename_i hlt
    cases hactive : (m.timer ⟨handle, hlt⟩).activated with
    | true => exact ⟨_, h.svTimerStop hactive⟩
    | false => exact ⟨lists, by rwa [svTimerStop, if_pos (by simp [hactive])]⟩
  · exact ⟨lists, h⟩

/-- A timer that is restarted was running, so its slot is in use. -/
theorem wellFormed_timerRestart (h : OnLists m lists) (handle : ℕ) :
    WellFormed (m.timerRestart handle).2 := by
  unfold timerRestart
  split
  · rename_i hlt
    simp only
    split
    · exact ⟨lists, h⟩
    cases hactive : (m.timer ⟨handle, hlt⟩).activated with
    | false =>
        have hstay : m.svTimerStop ⟨handle, hlt⟩ = (-1, m) := by
          rw [svTimerStop, if_pos (by simp [hactive])]
        rw [hstay]
        exact ⟨lists, h⟩
    | true =>
        have hstopped := h.svTimerStop hactive
        rw [svTimerStop_eq hactive] at hstopped ⊢
        exact (wellFormed_svTimerStart_iff hstopped _).mpr (h.taken _ hactive)
  · exact ⟨lists, h⟩

/-- Unregistering a stopped timer only gives its slot back. -/
theorem onLists_timerUnregister (h : OnLists m lists) (handle : ℕ)
    (hidle : ∀ hlt : handle < monitorTimeNr, (m.timer ⟨handle, hlt⟩).activated = false) :
    OnLists (m.timerUnregister handle).2 lists := by
  unfold timerUnregister
  split
  swap
  · exact h
  rename_i hlt
  let i : Fin monitorTimeNr := ⟨handle, hlt⟩
  have hclear := (SvTimer.hasFlag_clear (m.timer i).flag).1
  refine ⟨h.rings, fun soft j ↦ ?_, fun j hj ↦ ?_⟩
  · by_cases hj : j = i
    · subst hj
      simpa [setFlag, setTimer, SvTimer.activated, i, hclear] using h.notMem (hidle hlt) soft
    · simpa [setFlag, setTimer, hj, i] using h.mem soft j
  · by_cases hji : j = i
    · subst hji
      simp [setFlag, setTimer, SvTimer.activated, i, hclear] at hj
    · have htaken := h.taken j (by simpa [setFlag, setTimer, hji, i] using hj)
      show taken (release m.bitmap i) j = true
      rw [taken_release _ (handle_lt i) (handle_lt j)]
      simpa [Fin.val_ne_of_ne hji] using htaken

/-- Unregistering a timer that runs leaves a node on a list that the flags deny. -/
theorem wellFormed_timerUnregister_iff (h : OnLists m lists) (handle : ℕ) :
    WellFormed (m.timerUnregister handle).2 ↔
      ∀ hlt : handle < monitorTimeNr, (m.timer ⟨handle, hlt⟩).activated = false := by
  refine ⟨?_, fun hidle ↦ ⟨lists, onLists_timerUnregister h handle hidle⟩⟩
  rintro ⟨lists', hlists'⟩ hlt
  rw [timerUnregister, dif_pos hlt] at hlists'
  have hsame : lists' = lists := h.rings.unique hlists'.rings
  subst hsame
  by_contra hactive
  have hin : ⟨handle, hlt⟩ ∈ lists' (m.timer ⟨handle, hlt⟩).soft :=
    (h.mem _ _).mpr ⟨by simpa using hactive, rfl⟩
  have hflag := ((hlists'.mem _ _).mp hin).1
  simp only [setFlag, setTimer, Function.update_self, SvTimer.activated,
    (SvTimer.hasFlag_clear _).1] at hflag
  exact Bool.false_ne_true hflag

/-- Waking the event loop touches no list. -/
theorem onLists_softTimerCheck (h : OnLists m lists) : OnLists m.softTimerCheck lists := by
  unfold softTimerCheck
  split
  · split
    · exact h.frame rfl rfl (fun _ ↦ rfl) fun _ ↦ rfl
    · exact h
  · exact h

end TimerManage

/-- What one operation does to well-formed lists. -/
theorem wellFormed_timerStep_iff {m : TimerManage Func Param} (hwell : WellFormed m)
    (action : TimerAction Func Param) : WellFormed (timerStep m action) ↔ Allowed m action := by
  obtain ⟨lists, h⟩ := hwell
  cases action with
  | hardRegister expiredMs flag func data =>
      exact iff_of_true ⟨lists, h.timerRegister expiredMs _ func data⟩ trivial
  | softRegister expiredMs flag func data =>
      exact iff_of_true ⟨lists, h.timerRegister expiredMs _ func data⟩ trivial
  | unregister handle => exact TimerManage.wellFormed_timerUnregister_iff h handle
  | start handle => exact TimerManage.wellFormed_timerStart_iff h handle
  | startMs handle expiredMs =>
      have htimeout := TimerManage.onLists_timerTimeout h handle expiredMs
      have hzero := TimerManage.timerTimeout_eq_zero_iff (m := m) handle expiredMs
      simp only [timerStep, TimerManage.timerStartMs, Allowed]
      split
      · rename_i hok
        rw [TimerManage.wellFormed_timerStart_iff htimeout, TimerManage.timerTimeout_bitmap]
        simp [hzero.mp hok]
      · rename_i hfail
        refine iff_of_true ⟨lists, htimeout⟩ fun hlt htick ↦ absurd (hzero.mpr ⟨hlt, htick⟩) hfail
  | stop handle => exact iff_of_true (TimerManage.wellFormed_timerStop h handle) trivial
  | restart handle => exact iff_of_true (TimerManage.wellFormed_timerRestart h handle) trivial
  | restartMs handle expiredMs =>
      have htimeout := TimerManage.onLists_timerTimeout h handle expiredMs
      refine iff_of_true ?_ trivial
      simp only [timerStep, TimerManage.timerRestartMs]
      split
      · exact TimerManage.wellFormed_timerRestart htimeout handle
      · exact ⟨lists, htimeout⟩
  | timeout handle expiredMs =>
      exact iff_of_true ⟨lists, TimerManage.onLists_timerTimeout h handle expiredMs⟩ trivial
  | check ticks =>
      obtain ⟨lists', hhandled⟩ := h.timerHandle false ticks
      exact iff_of_true ⟨lists', TimerManage.onLists_softTimerCheck hhandled⟩ trivial
  | softHandle ticks =>
      obtain ⟨lists', hhandled⟩ := h.timerHandle true ticks
      exact iff_of_true ⟨lists', hhandled.frame rfl rfl (fun _ ↦ rfl) fun _ ↦ rfl⟩ trivial
  | tick now =>
      exact iff_of_true ⟨lists, h.frame rfl rfl (fun _ ↦ rfl) fun _ ↦ rfl⟩ trivial

/-- The lists are well formed after every operation of a run exactly when no running timer is
unregistered and no timer is started whose slot is free. -/
theorem wellFormed_run_iff (links : LinkedRing.Links TimerNode) (parameter : Param)
    (actions : List (TimerAction Func Param)) :
    AllStates timerStep WellFormed (.construct links parameter) actions ↔
      AllSteps timerStep Allowed (.construct links parameter) actions :=
  allStates_iff_allSteps (fun _ ↦ True) (fun _ _ _ _ _ ↦ trivial)
    (fun _ action _ hwell ↦ wellFormed_timerStep_iff hwell action) actions trivial
    ⟨_, onLists_construct links parameter⟩

/-- A timer that is registered, started and, while it runs, unregistered. -/
def unregisterRunning : List (TimerAction Unit Unit) :=
  [.hardRegister 10 0 (some ()) (), .start 0, .unregister 0]

def clearedLinks : LinkedRing.Links TimerNode := ⟨fun _ ↦ .timerList, fun _ ↦ .timerList⟩

/-- Registering returns handle 0; unregistering it while it runs leaves `m_timer[0]` at the front
of the list of the hard timers with its flag cleared and its slot free. -/
theorem wellFormed_fails_after_unregister :
    (TimerManage.hardTimerRegister (.construct clearedLinks ()) 10 0 (some ()) ()).1 = 0 ∧
      ¬ AllStates timerStep WellFormed (.construct clearedLinks ()) unregisterRunning := by
  refine ⟨by decide +kernel, fun hstates ↦ ?_⟩
  obtain ⟨lists, h⟩ := hstates.last
  have hnext : (run timerStep (.construct clearedLinks ()) unregisterRunning).links.next
      (headOf false) = .timer 0 := by decide +kernel
  have hflag := h.next_activated hnext
  revert hflag
  decide +kernel

/-! ### What wakes the event loop -/

section Wake

variable {m : TimerManage Func Param}

/-- The flag and the counter that wake the loop stay as they are. -/
def SameWake (m m' : TimerManage Func Param) : Prop :=
  m'.softTimerHandling = m.softTimerHandling ∧ m'.sTime = m.sTime

theorem SameWake.trans {m m' m'' : TimerManage Func Param} (h : SameWake m m')
    (h' : SameWake m' m'') : SameWake m m'' :=
  ⟨h'.1.trans h.1, h'.2.trans h.2⟩

theorem sameWake_svTimerStart (i : Fin monitorTimeNr) : SameWake m (m.svTimerStart i).2 := by
  unfold TimerManage.svTimerStart
  split <;> exact ⟨rfl, rfl⟩

theorem sameWake_svTimerStop (i : Fin monitorTimeNr) : SameWake m (m.svTimerStop i).2 := by
  unfold TimerManage.svTimerStop
  split <;> exact ⟨rfl, rfl⟩

theorem sameWake_timerRegister (expiredMs : BitVec 32) (flag : BitVec 8) (func : Option Func)
    (data : Param) : SameWake m (m.timerRegister expiredMs flag func data).2 := by
  unfold TimerManage.timerRegister
  simp only
  split
  · exact ⟨rfl, rfl⟩
  · split <;> exact ⟨rfl, rfl⟩

theorem sameWake_timerUnregister (handle : ℕ) : SameWake m (m.timerUnregister handle).2 := by
  unfold TimerManage.timerUnregister
  split <;> exact ⟨rfl, rfl⟩

theorem sameWake_timerStart (handle : ℕ) : SameWake m (m.timerStart handle).2 := by
  unfold TimerManage.timerStart
  split
  · exact sameWake_svTimerStart _
  · exact ⟨rfl, rfl⟩

theorem sameWake_timerStop (handle : ℕ) : SameWake m (m.timerStop handle).2 := by
  unfold TimerManage.timerStop
  split
  · exact sameWake_svTimerStop _
  · exact ⟨rfl, rfl⟩

theorem sameWake_timerRestart (handle : ℕ) : SameWake m (m.timerRestart handle).2 := by
  unfold TimerManage.timerRestart
  split
  swap
  · exact ⟨rfl, rfl⟩
  simp only
  split
  · exact ⟨rfl, rfl⟩
  split
  · exact (sameWake_svTimerStop _).trans (sameWake_svTimerStart _)
  · exact sameWake_svTimerStop _

theorem sameWake_timerTimeout (handle : ℕ) (expiredMs : BitVec 32) :
    SameWake m (m.timerTimeout handle expiredMs).2 := by
  unfold TimerManage.timerTimeout
  split
  · simp only
    split <;> exact ⟨rfl, rfl⟩
  · exact ⟨rfl, rfl⟩

theorem sameWake_expire (head : TimerNode) (i : Fin monitorTimeNr) (tick : Tick) :
    SameWake m (m.expire head i tick) := by
  have hcall : ∀ m : TimerManage Func Param, SameWake m (m.callTimeoutFunc i tick) := by
    intro m
    unfold TimerManage.callTimeoutFunc
    split <;> exact ⟨rfl, rfl⟩
  have hremoved := hcall { m with links := listDel m.links (.timer i) }
  unfold TimerManage.expire
  simp only
  split
  · exact hremoved.trans (sameWake_svTimerStart _)
  · split <;> exact hremoved

theorem sameWake_timerHandle (head : TimerNode) (ticks : List Tick) :
    SameWake m (timerHandle head ticks m) := by
  induction ticks generalizing m with
  | nil => exact ⟨rfl, rfl⟩
  | cons tick ticks ih =>
      unfold timerHandle
      split
      · split
        · exact (sameWake_expire ..).trans ih
        · exact ⟨rfl, rfl⟩
      · exact ⟨rfl, rfl⟩

/-- Only `timer_check` and `soft_timer_handle` touch the flag and the counter. -/
theorem sameWake_timerStep {op : TimerAction Func Param} (hcheck : ∀ ticks, op ≠ .check ticks)
    (hhandle : ∀ ticks, op ≠ .softHandle ticks) : SameWake m (timerStep m op) := by
  have hthen : ∀ (rt : ℤ × TimerManage Func Param) (next : TimerManage Func Param →
      ℤ × TimerManage Func Param), SameWake m rt.2 → SameWake rt.2 (next rt.2).2 →
      SameWake m (if rt.1 = 0 then next rt.2 else rt).2 := by
    intro rt next hfirst hnext
    split
    · exact hfirst.trans hnext
    · exact hfirst
  cases op with
  | hardRegister expiredMs flag func data => exact sameWake_timerRegister ..
  | softRegister expiredMs flag func data => exact sameWake_timerRegister ..
  | unregister handle => exact sameWake_timerUnregister handle
  | start handle => exact sameWake_timerStart handle
  | startMs handle expiredMs =>
      exact hthen _ (TimerManage.timerStart · handle) (sameWake_timerTimeout handle expiredMs)
        (sameWake_timerStart handle)
  | stop handle => exact sameWake_timerStop handle
  | restart handle => exact sameWake_timerRestart handle
  | restartMs handle expiredMs =>
      exact hthen _ (TimerManage.timerRestart · handle) (sameWake_timerTimeout handle expiredMs)
        (sameWake_timerRestart handle)
  | timeout handle expiredMs => exact sameWake_timerTimeout handle expiredMs
  | check ticks => exact absurd rfl (hcheck ticks)
  | softHandle ticks => exact absurd rfl (hhandle ticks)
  | tick now => exact ⟨rfl, rfl⟩

/-- `timer_check` raises the flag together with the counter, when the first soft timer is due. -/
theorem timerCheck_wake (ticks : List Tick) :
    SameWake m (m.timerCheck ticks) ∨
      m.softTimerHandling = false ∧ (m.timerCheck ticks).softTimerHandling = true ∧
        (m.timerCheck ticks).sTime = m.sTime + 1 := by
  have hhard : SameWake m (timerHandle .timerList ticks m) := sameWake_timerHandle ..
  unfold TimerManage.timerCheck TimerManage.softTimerCheck
  split
  · split
    · next hdue => exact .inr ⟨hhard.1.symm.trans hdue.1, rfl, congrArg (· + 1) hhard.2⟩
    · exact .inl hhard
  · exact .inl hhard

theorem softTimerCheck_frame (m : TimerManage Func Param) :
    m.softTimerCheck.links = m.links ∧ m.softTimerCheck.timer = m.timer ∧
      m.softTimerCheck.sTick = m.sTick := by
  unfold TimerManage.softTimerCheck
  split
  · split <;> exact ⟨rfl, rfl, rfl⟩
  · exact ⟨rfl, rfl, rfl⟩

/-- After `timer_check` the flag is up if the first soft timer is due. -/
theorem timerCheck_expired (ticks : List Tick) {i : Fin monitorTimeNr}
    (hnext : (m.timerCheck ticks).links.next .softTimerList = .timer i)
    (hdue : (m.timerCheck ticks).sTick - ((m.timerCheck ticks).timer i).timeoutTick < tickHalf) :
    (m.timerCheck ticks).softTimerHandling = true := by
  unfold TimerManage.timerCheck at hnext hdue ⊢
  generalize timerHandle .timerList ticks m = m' at hnext hdue ⊢
  obtain ⟨hlinks, htimer, htick⟩ := softTimerCheck_frame m'
  rw [hlinks] at hnext
  rw [htimer, htick] at hdue
  unfold TimerManage.softTimerCheck
  simp only [hnext]
  by_cases hdown : m'.softTimerHandling = false
  · rw [if_pos ⟨hdown, hdue⟩]
  · rw [if_neg fun hcheck ↦ hdown hcheck.1]
    exact Bool.eq_true_of_not_eq_false hdown

end Wake

end ProjectSensor.Service
