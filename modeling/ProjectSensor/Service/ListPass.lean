import ProjectSensor.Library.WrappedTime
import ProjectSensor.Service.Delays
import ProjectSensor.Service.TimerRun

/-!
# One pass over a timer list

`timer_handle` takes timers from the front of a list while they are due, and puts a periodic timer
back before it goes on.  The pass ends because a timer that was put back is not due: its deadline
is `init_tick` ticks away.  A timer with `init_tick` 0, which `timer_register` accepts, is due
again at once, and the loop does not get past it.
-/

open ProjectSensor.Library ProjectSensor.Library.SlotBitmap

namespace ProjectSensor.Service

variable {Func Param : Type}

namespace TimerManage

variable (m : TimerManage Func Param)

/-- The test of `timer_handle`. -/
def Due (i : Fin monitorTimeNr) : Prop := m.sTick - (m.timer i).timeoutTick < tickHalf

instance : DecidablePred m.Due := fun i ↦
  inferInstanceAs (Decidable (m.sTick - (m.timer i).timeoutTick < tickHalf))

/-- The loop of `timer_handle` goes on. -/
def FrontDue (head : TimerNode) : Prop := ∃ i, m.links.next head = .timer i ∧ m.Due i

/-- The loop after `k` timers while the tick stands still. -/
def pass (head : TimerNode) (k : ℕ) : TimerManage Func Param :=
  timerHandle head (List.replicate k m.sTick) m

/-- The loop comes to its end, and until then runs callbacks of timers that were due, each at most
once. -/
def PassEnds (head : TimerNode) : Prop :=
  ∃ k, ¬ (m.pass head k).FrontDue head ∧
    ∃ called : List (Expiry Func Param), (m.pass head k).expiries = called ++ m.expiries ∧
      (called.map Expiry.timer).Nodup ∧ ∀ expiry ∈ called, m.Due expiry.timer

variable {m} {m' : TimerManage Func Param} {i : Fin monitorTimeNr}

theorem Passed.due_iff (h : m.Passed m' i) {j : Fin monitorTimeNr} (hj : j ≠ i) :
    m'.Due j ↔ m.Due j := by
  rw [Due, Due, h.tick, h.other j hj]

theorem firing_timer {expiry : Expiry Func Param} (hmem : expiry ∈ m.firing i) :
    expiry.timer = i := by
  rw [firing] at hmem
  split at hmem
  · exact absurd hmem List.not_mem_nil
  · rw [List.mem_singleton.mp hmem]

theorem firing_map_nodup : ((m.firing i).map Expiry.timer).Nodup := by
  rw [firing]
  split
  · exact List.nodup_nil
  · exact List.nodup_singleton i

theorem pass_succ {head : TimerNode} (hnext : m.links.next head = .timer i) (hdue : m.Due i)
    (hpassed : m.Passed (m.expire head i m.sTick) i) (k : ℕ) :
    m.pass head (k + 1) = (m.expire head i m.sTick).pass head k := by
  rw [pass, List.replicate_succ, timerHandle, hnext, pass, hpassed.tick]
  exact if_pos hdue

end TimerManage

namespace OnLists

variable {m : TimerManage Func Param} {lists : Lists} {i : Fin monitorTimeNr} {soft : Bool}
  {rest : List (Fin monitorTimeNr)}

/-- A deadline that lies ahead has not arrived. -/
theorem not_due_rearmed {now time : Tick} (hpos : time ≠ 0) (hshort : time < tickHalf) :
    ¬ now - (now + time) < tickHalf := by
  have hleft : WrappedTime.left now (now + time) = time.toNat := WrappedTime.left_add now time
  have hwindow : WrappedTime.left now (now + time) < tickHalf.toNat := hleft ▸ hshort
  have htwice : 2 * tickHalf.toNat ≤ 2 ^ 32 := by decide
  rw [BitVec.lt_def, WrappedTime.sub_lt_iff_left_eq_zero htwice hwindow, hleft]
  intro hzero
  apply hpos
  exact BitVec.eq_of_toNat_eq hzero

theorem insertDue_perm (due : Fin monitorTimeNr → Tick) (i : Fin monitorTimeNr)
    (timers : List (Fin monitorTimeNr)) : (insertDue due i timers).Perm (i :: timers) := by
  rw [insertDue]
  exact List.perm_middle.trans (by rw [List.takeWhile_append_dropWhile])

/-- A timer that was due is handled and is not due afterwards: one due timer less on the list. -/
theorem handled_due (h : OnLists m lists) (hlist : lists soft = i :: rest)
    (hrearm : (m.timer i).periodic = true →
      (m.timer i).initTick ≠ 0 ∧ (m.timer i).initTick < tickHalf) :
    ∃ lists', OnLists (m.expire (headOf soft) i m.sTick) lists' ∧
      m.Passed (m.expire (headOf soft) i m.sTick) i ∧
      (∀ j ∈ lists' soft, (m.expire (headOf soft) i m.sTick).Due j → j ∈ rest ∧ m.Due j) ∧
      (∀ j ∈ lists' soft, j ∈ i :: rest) ∧
      (lists' soft).countP (m.expire (headOf soft) i m.sTick).Due = rest.countP m.Due := by
  have hnotMem : i ∉ rest := (List.nodup_cons.mp (hlist ▸ h.rings.nodup soft)).1
  have hne : ∀ j ∈ rest, j ≠ i := fun j hj heq ↦ hnotMem (heq ▸ hj)
  have hpassed := h.passed (headOf soft) (h.soft_of_cons hlist).1
  cases hperiodic : (m.timer i).periodic with
  | true =>
      have hdeadline := (hpassed.rearmed hperiodic).2
      have hnot : ¬ (m.expire (headOf soft) i m.sTick).Due i := by
        rw [TimerManage.Due, hpassed.tick, hdeadline]
        exact not_due_rearmed (hrearm hperiodic).1 (hrearm hperiodic).2
      have hperm := insertDue_perm ((m.called i m.sTick).dueAfterStart i) i rest
      refine ⟨_, h.expire_of_periodic hlist hperiodic m.sTick, hpassed, ?_, ?_, ?_⟩
      · intro j hj hdue
        rw [Function.update_self, hperm.mem_iff, List.mem_cons] at hj
        have hji : j ≠ i := fun heq ↦ hnot (heq ▸ hdue)
        exact ⟨hj.resolve_left hji, (hpassed.due_iff hji).mp hdue⟩
      · intro j hj
        rwa [Function.update_self, hperm.mem_iff] at hj
      · rw [Function.update_self, hperm.countP_eq, List.countP_cons_of_neg (by simpa using hnot)]
        exact List.countP_congr fun j hj ↦ by simp [hpassed.due_iff (hne j hj)]
  | false =>
      refine ⟨_, h.expire_of_oneShot hlist hperiodic m.sTick, hpassed, ?_, ?_, ?_⟩
      · intro j hj hdue
        rw [Function.update_self] at hj
        exact ⟨hj, (hpassed.due_iff (hne j hj)).mp hdue⟩
      · intro j hj
        rw [Function.update_self] at hj
        exact List.mem_cons_of_mem i hj
      · rw [Function.update_self]
        exact List.countP_congr fun j hj ↦ by simp [hpassed.due_iff (hne j hj)]

/-- The timers that are put back are given a time that is neither 0 nor too long. -/
def Rearmable (m : TimerManage Func Param) (timers : List (Fin monitorTimeNr)) : Prop :=
  ∀ i ∈ timers, m.Due i → (m.timer i).periodic = true →
    (m.timer i).initTick ≠ 0 ∧ (m.timer i).initTick < tickHalf

theorem frontDue_iff (h : OnLists m lists) :
    m.FrontDue (headOf soft) ↔ ∃ i rest, lists soft = i :: rest ∧ m.Due i := by
  constructor
  · rintro ⟨i, hnext, hdue⟩
    obtain ⟨rest, hlist⟩ := h.rings.next_head hnext
    exact ⟨i, rest, hlist, hdue⟩
  · rintro ⟨i, rest, hlist, hdue⟩
    exact ⟨i, h.rings.next_cons soft hlist, hdue⟩

/-- The pass ends.  Induction on the number of timers on the list that are due. -/
theorem pass_ends (h : OnLists m lists) (hrearm : Rearmable m (lists soft)) :
    ∃ k, ¬ (m.pass (headOf soft) k).FrontDue (headOf soft) ∧
      ∃ called : List (Expiry Func Param),
        (m.pass (headOf soft) k).expiries = called ++ m.expiries ∧
        (called.map Expiry.timer).Nodup ∧
        ∀ expiry ∈ called, expiry.timer ∈ lists soft ∧ m.Due expiry.timer := by
  induction hcount : (lists soft).countP m.Due generalizing m lists with
  | zero =>
      refine ⟨0, fun hfront ↦ ?_, [], rfl, List.nodup_nil, by simp⟩
      obtain ⟨i, rest, hlist, hdue⟩ := h.frontDue_iff.mp hfront
      rw [hlist, List.countP_cons_of_pos (by simpa using hdue)] at hcount
      exact Nat.succ_ne_zero _ hcount
  | succ n ih =>
      by_cases hfront : m.FrontDue (headOf soft)
      swap
      · exact ⟨0, hfront, [], rfl, List.nodup_nil, by simp⟩
      obtain ⟨i, rest, hlist, hdue⟩ := h.frontDue_iff.mp hfront
      have hmem : i ∈ lists soft := hlist ▸ List.mem_cons_self
      have hnotMem : i ∉ rest := (List.nodup_cons.mp (hlist ▸ h.rings.nodup soft)).1
      obtain ⟨lists', hlists', hpassed, hkept, hless⟩ := h.handled_due hlist (hrearm i hmem hdue)
      have hrearm' : Rearmable (m.expire (headOf soft) i m.sTick) (lists' soft) := by
        intro j hj hjdue
        obtain ⟨hrest, hbefore⟩ := hkept j hj hjdue
        rw [hpassed.other j fun heq ↦ hnotMem (heq ▸ hrest)]
        exact hrearm j (hlist ▸ List.mem_cons_of_mem i hrest) hbefore
      have hcount' : (lists' soft).countP (m.expire (headOf soft) i m.sTick).Due = n := by
        rw [hlist, List.countP_cons_of_pos (by simpa using hdue)] at hcount
        omega
      obtain ⟨k, hend, called, hexpiries, hnodup, hcalled⟩ := ih hlists' hrearm' hcount'
      -- the callbacks of the rest of the pass are of timers behind the one that was handled
      have hrest : ∀ expiry ∈ called, expiry.timer ∈ rest ∧ m.Due expiry.timer :=
        fun expiry hin ↦ hkept expiry.timer (hcalled expiry hin).1 (hcalled expiry hin).2
      refine ⟨k + 1, ?_, called ++ m.firing i, ?_, ?_, ?_⟩
      · rwa [TimerManage.pass_succ (h.rings.next_cons soft hlist) hdue hpassed]
      · rw [TimerManage.pass_succ (h.rings.next_cons soft hlist) hdue hpassed, hexpiries,
          hpassed.expiries, List.append_assoc]
      · rw [List.map_append]
        apply hnodup.append TimerManage.firing_map_nodup
        intro j hj hj'
        obtain ⟨expiry, hin, rfl⟩ := List.mem_map.mp hj
        obtain ⟨last, hlast, heq⟩ := List.mem_map.mp hj'
        rw [TimerManage.firing_timer hlast] at heq
        exact hnotMem (heq ▸ (hrest expiry hin).1)
      · intro expiry hin
        rcases List.mem_append.mp hin with hin | hin
        · exact ⟨hlist ▸ List.mem_cons_of_mem i (hrest expiry hin).1, (hrest expiry hin).2⟩
        · rw [TimerManage.firing_timer hin]
          exact ⟨hmem, hdue⟩

theorem passEnds (h : OnLists m lists) (hrearm : Rearmable m (lists soft)) :
    m.PassEnds (headOf soft) := by
  obtain ⟨k, hend, called, hexpiries, hnodup, hcalled⟩ := h.pass_ends hrearm
  exact ⟨k, hend, called, hexpiries, hnodup, fun expiry hin ↦ (hcalled expiry hin).2⟩

/-- A timer that is due, is due again as soon as it is put back, and stays in front: no timer
behind it is overdue. -/
structure Stuck (m : TimerManage Func Param) (lists : Lists) (soft : Bool)
    (i : Fin monitorTimeNr) (rest : List (Fin monitorTimeNr)) : Prop where
  onLists : OnLists m lists
  front : lists soft = i :: rest
  due : m.Due i
  periodic : (m.timer i).periodic = true
  initTick : (m.timer i).initTick = 0
  behind : ∀ j ∈ rest.head?, (m.timer j).timeoutTick - m.sTick < tickHalf

/-- Handling the timer changes nothing but the record of callbacks. -/
theorem Stuck.expire (h : Stuck m lists soft i rest) :
    Stuck (m.expire (headOf soft) i m.sTick) lists soft i rest ∧
      m.Passed (m.expire (headOf soft) i m.sTick) i := by
  have hpassed := h.onLists.passed (headOf soft) (h.onLists.soft_of_cons h.front).1
  have hdeadline := (hpassed.rearmed h.periodic).2
  have hnow : ((m.expire (headOf soft) i m.sTick).timer i).timeoutTick = m.sTick := by
    rw [hdeadline, h.initTick, add_zero]
  have hlists := h.onLists.expire_of_periodic h.front h.periodic m.sTick
  have hnotMem : i ∉ rest := (List.nodup_cons.mp (h.front ▸ h.onLists.rings.nodup soft)).1
  have hplace : insertDue ((m.called i m.sTick).dueAfterStart i) i rest = i :: rest := by
    cases rest with
    | nil => rfl
    | cons j rest =>
        have hji : j ≠ i := fun heq ↦ hnotMem (heq ▸ List.mem_cons_self)
        have hbehind := h.behind j rfl
        have hlt : (m.called i m.sTick).dueAfterStart i j -
            (m.called i m.sTick).dueAfterStart i i < tickHalf := by
          simpa [TimerManage.dueAfterStart, TimerManage.started, hji, TimerManage.called,
            h.initTick] using hbehind
        simp [insertDue, hlt]
  rw [hplace, ← h.front, Function.update_eq_self] at hlists
  refine ⟨⟨hlists, h.front, ?_, ?_, ?_, ?_⟩, hpassed⟩
  · rw [TimerManage.Due, hpassed.tick, hnow, sub_self]
    decide
  · rw [hpassed.periodic, h.periodic]
  · rw [hpassed.initTick, h.initTick]
  · intro j hj
    have hji : j ≠ i := fun heq ↦ hnotMem (heq ▸ List.mem_of_mem_head? hj)
    rw [hpassed.other j hji, hpassed.tick]
    exact h.behind j hj

/-- However long the loop runs, it does not end. -/
theorem Stuck.frontDue_pass (h : Stuck m lists soft i rest) (k : ℕ) :
    (m.pass (headOf soft) k).FrontDue (headOf soft) := by
  induction k generalizing m with
  | zero => exact h.onLists.frontDue_iff.mpr ⟨i, rest, h.front, h.due⟩
  | succ k ih =>
      obtain ⟨hstuck, hpassed⟩ := h.expire
      rw [TimerManage.pass_succ (h.onLists.rings.next_cons soft h.front) h.due hpassed]
      exact ih hstuck

theorem Stuck.not_passEnds (h : Stuck m lists soft i rest) : ¬ m.PassEnds (headOf soft) := by
  rintro ⟨k, hend, -⟩
  exact hend (h.frontDue_pass k)

end OnLists

/-- The arguments of a `timer_register`. -/
structure Request (Func Param : Type) where
  expiredMs : BitVec 32
  flag : BitVec 8
  func : Option Func
  data : Param

namespace Request

variable (request : Request Func Param)

def periodic : Bool := hasFlag request.flag svTimerFlagPeriodic

def timer : SvTimer Func Param :=
  SvTimer.init request.func request.data (svTickFromMillisecond request.expiredMs) request.flag

theorem hasFlag_timer {test : BitVec 8} (hkeeps : ~~~(svTimerFlagActivated |||
    svTimerFlagTimeout ||| svTimerFlagHandling) &&& test = test) :
    hasFlag request.timer.flag test = hasFlag request.flag test :=
  hasFlag_and_of_keeps _ hkeeps

end Request

/-- The timers are those of the requests, slot by slot.  Which of them run, since when, and what
the clock shows is left open. -/
structure Registered (requests : Fin monitorTimeNr → Option (Request Func Param))
    (m : TimerManage Func Param) : Prop where
  wellFormed : WellFormed m
  initTick : ∀ i, ∀ request ∈ requests i,
    (m.timer i).initTick = svTickFromMillisecond request.expiredMs
  func : ∀ i, ∀ request ∈ requests i, (m.timer i).timeoutFunc = request.func
  parameter : ∀ i, ∀ request ∈ requests i, (m.timer i).parameter = request.data
  periodic : ∀ i, ∀ request ∈ requests i, (m.timer i).periodic = request.periodic
  unused : ∀ i, requests i = none → (m.timer i).activated = false

/-- The requests served in an empty `timer_manage`, at tick 0. -/
def TimerManage.serve (requests : Fin monitorTimeNr → Option (Request Func Param)) (data : Param) :
    TimerManage Func Param :=
  { TimerManage.construct ⟨id, id⟩ data with
    bitmap := 0x3F
    timer := fun i ↦ ((requests i).map Request.timer).getD ⟨0, none, data, 0, 0⟩ }

section Serve

variable (requests : Fin monitorTimeNr → Option (Request Func Param)) (data : Param)

theorem activated_serve (i : Fin monitorTimeNr) :
    ((TimerManage.serve requests data).timer i).activated = false := by
  cases hrequest : requests i with
  | none => simp [TimerManage.serve, hrequest, SvTimer.activated, hasFlag]
  | some request =>
      simpa [TimerManage.serve, hrequest, Request.timer] using SvTimer.activated_init _ _ _ _

theorem onLists_serve : OnLists (TimerManage.serve requests data) fun _ ↦ [] where
  rings := (onLists_construct ⟨id, id⟩ data : OnLists (.construct ⟨id, id⟩ data :
    TimerManage Func Param) _).rings
  mem soft i := by simp [activated_serve]
  taken i := by simp [activated_serve]

variable {requests} {data} {i : Fin monitorTimeNr} {request : Request Func Param}

theorem serve_timer (hrequest : requests i = some request) :
    (TimerManage.serve requests data).timer i = request.timer := by
  simp [TimerManage.serve, hrequest]

theorem taken_serve : taken (TimerManage.serve requests data).bitmap i = true := by
  have htaken : ∀ i : Fin monitorTimeNr, taken (0x3F : BitVec 16) i = true := by decide
  exact htaken i

/-- One of the timers started. -/
theorem serve_started : ((TimerManage.serve requests data).svTimerStart i).2.timer =
    Function.update (TimerManage.serve requests data).timer i
      ((TimerManage.serve requests data).started i) ∧
    ((TimerManage.serve requests data).svTimerStart i).2.sTick =
      (TimerManage.serve requests data).sTick := by
  rw [TimerManage.svTimerStart_eq (onLists_serve requests data).rings
    (activated_serve requests data i)]
  exact ⟨rfl, rfl⟩

/-- Starting a timer leaves the timers those of the requests. -/
theorem registered_serve (hrequest : requests i = some request) :
    Registered requests ((TimerManage.serve requests data).svTimerStart i).2 := by
  have hfields : ∀ j, ((((TimerManage.serve requests data).svTimerStart i).2.timer j).initTick =
        ((TimerManage.serve requests data).timer j).initTick ∧
      (((TimerManage.serve requests data).svTimerStart i).2.timer j).timeoutFunc =
        ((TimerManage.serve requests data).timer j).timeoutFunc ∧
      (((TimerManage.serve requests data).svTimerStart i).2.timer j).parameter =
        ((TimerManage.serve requests data).timer j).parameter ∧
      (((TimerManage.serve requests data).svTimerStart i).2.timer j).periodic =
        ((TimerManage.serve requests data).timer j).periodic) := by
    intro j
    rw [serve_started.1]
    by_cases hj : j = i
    · subst hj
      rw [Function.update_self]
      exact ⟨rfl, rfl, rfl, (SvTimer.hasFlag_startFlag _).2.1⟩
    · rw [Function.update_of_ne hj]
      exact ⟨rfl, rfl, rfl, rfl⟩
  refine ⟨⟨_, (onLists_serve requests data).svTimerStart (activated_serve requests data i)
    taken_serve⟩, ?_, ?_, ?_, ?_, ?_⟩
  · intro j request' hin
    rw [(hfields j).1, serve_timer hin]
    rfl
  · intro j request' hin
    rw [(hfields j).2.1, serve_timer hin]
    rfl
  · intro j request' hin
    rw [(hfields j).2.2.1, serve_timer hin]
    rfl
  · intro j request' hin
    rw [(hfields j).2.2.2, serve_timer hin]
    exact request'.hasFlag_timer (by decide)
  · intro j hnone
    have hj : j ≠ i := fun heq ↦ by simp [heq, hrequest] at hnone
    rw [serve_started.1, Function.update_of_ne hj]
    exact activated_serve requests data j

/-- A periodic timer of 0 ticks started on its own holds up the pass of the very same tick. -/
theorem stuck_serve (hrequest : requests i = some request) (hperiodic : request.periodic = true)
    (hzero : svTickFromMillisecond request.expiredMs = 0) :
    OnLists.Stuck ((TimerManage.serve requests data).svTimerStart i).2
      (Function.update (fun _ ↦ []) ((TimerManage.serve requests data).timer i).soft [i])
      ((TimerManage.serve requests data).timer i).soft i [] := by
  have hinit : ((TimerManage.serve requests data).timer i).initTick = 0 := by
    rw [serve_timer hrequest]
    exact hzero
  have hstarted := (onLists_serve requests data).svTimerStart (activated_serve requests data i)
    taken_serve
  refine ⟨hstarted, Function.update_self .., ?_, ?_, ?_, by simp⟩
  · rw [TimerManage.Due, serve_started.1, serve_started.2, Function.update_self,
      TimerManage.started, hinit, add_zero, sub_self]
    decide
  · rw [serve_started.1, Function.update_self, SvTimer.periodic, TimerManage.started,
      (SvTimer.hasFlag_startFlag _).2.1, serve_timer hrequest]
    exact (request.hasFlag_timer (by decide)).trans hperiodic
  · rw [serve_started.1, Function.update_self]
    exact hinit

end Serve

/-- The timers of a set of requests that are periodic are put back with a time that is neither 0
nor too long. -/
theorem Registered.rearmable {requests : Fin monitorTimeNr → Option (Request Func Param)}
    {m : TimerManage Func Param} (h : Registered requests m)
    (hnonzero : ∀ i, ∀ request ∈ requests i, request.periodic = true →
      svTickFromMillisecond request.expiredMs ≠ 0) {lists : Lists} (hlists : OnLists m lists)
    (soft : Bool) : OnLists.Rearmable m (lists soft) := by
  intro i hi _ hperiodic
  cases hrequest : requests i with
  | none =>
      have hactive := ((hlists.mem soft i).mp hi).1
      rw [h.unused i hrequest] at hactive
      contradiction
  | some request =>
      rw [h.periodic i request hrequest] at hperiodic
      rw [h.initTick i request hrequest]
      exact ⟨hnonzero i request hrequest hperiodic, svTickFromMillisecond_lt_tickHalf _⟩

/-- Whatever runs and whatever the clock shows, a pass over a list of the timers ends, exactly if
no periodic one was registered with a time of 0 ticks. -/
theorem passEnds_iff (requests : Fin monitorTimeNr → Option (Request Func Param)) :
    (∀ m, Registered requests m → ∀ soft, m.PassEnds (headOf soft)) ↔
      ∀ i, ∀ request ∈ requests i, request.periodic = true →
        svTickFromMillisecond request.expiredMs ≠ 0 := by
  constructor
  · intro hends i request hrequest hperiodic hzero
    have hstuck : OnLists.Stuck ((TimerManage.serve requests request.data).svTimerStart i).2 _ _ i
        [] := stuck_serve hrequest hperiodic hzero
    exact hstuck.not_passEnds (hends _ (registered_serve hrequest) _)
  · intro hnonzero m hregistered soft
    obtain ⟨lists, hlists⟩ := hregistered.wellFormed
    exact hlists.passEnds (hregistered.rearmable hnonzero hlists soft)

/-- A hard periodic timer of 42949663 ms in slot 0. -/
def halfDayTimer : TimerManage Unit Unit :=
  (TimerManage.hardTimerRegister (.construct ⟨id, id⟩ ()) 42949663 svTimerFlagPeriodic
    (some ()) ()).2

/-- Started at tick 0 it is due at tick 0, and the pass over the hard timers does not end. -/
theorem passEnds_fails_for_half_day :
    (halfDayTimer.timerStart 0).1 = 0 ∧ ¬ (halfDayTimer.timerStart 0).2.PassEnds .timerList := by
  have hlists := ((onLists_construct ⟨id, id⟩ () : OnLists (.construct ⟨id, id⟩ () :
    TimerManage Unit Unit) _).timerRegister 42949663
      (svTimerFlagPeriodic &&& (~~~0 ||| svTimerFlagSoftTimer)) (some ()) ()).svTimerStart
        (i := 0) (by decide) (by decide)
  have hstuck : OnLists.Stuck (halfDayTimer.timerStart 0).2 _ false 0 [] :=
    ⟨hlists, by decide, by decide, by decide, by decide, by simp⟩
  exact ⟨by decide, hstuck.not_passEnds⟩

end ProjectSensor.Service
