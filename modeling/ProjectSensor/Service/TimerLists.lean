import Mathlib.Data.Fintype.Card
import Mathlib.Data.List.FinRange
import ProjectSensor.Library.RingHeap
import ProjectSensor.Library.Transition
import ProjectSensor.Service.Timer

/-!
# The two timer lists

`OnLists` says which timers are on which list: the links form two disjoint rings, a timer is on a
list exactly when its flag says so, and its slot is then in use.  Each operation of `timer_manage`
has one lemma that says how it changes the lists; `insertDue` is where `sv_timer_start` puts a
timer.  `timer_unregister` clears the flag and the slot without touching the links, and
`timer_start` does not look at the slot; the lists stay well formed along a run exactly when
neither happens at the wrong time.
-/

open ProjectSensor.Library ProjectSensor.Library.LinkedRing ProjectSensor.Library.SlotBitmap

namespace ProjectSensor.Service

theorem handle_lt (i : Fin monitorTimeNr) : (i : ℕ) < 16 := i.isLt.trans (by decide)

/-- The head of the list of the soft timers, or of the hard ones. -/
def headOf (soft : Bool) : TimerNode := if soft then .softTimerList else .timerList

@[simp]
theorem headOf_inj (soft soft' : Bool) : headOf soft = headOf soft' ↔ soft = soft' := by
  cases soft <;> cases soft' <;> simp [headOf]

@[simp]
theorem headOf_ne_timer (soft : Bool) (i : Fin monitorTimeNr) : headOf soft ≠ .timer i := by
  cases soft <;> simp [headOf]

/-- The timers on the two lists, in order. -/
abbrev Lists := Bool → List (Fin monitorTimeNr)

/-- A timer put before the first one that is due no earlier. -/
def insertDue (due : Fin monitorTimeNr → Tick) (i : Fin monitorTimeNr)
    (timers : List (Fin monitorTimeNr)) : List (Fin monitorTimeNr) :=
  timers.takeWhile (fun j ↦ !decide (due j - due i < tickHalf)) ++
    i :: timers.dropWhile (fun j ↦ !decide (due j - due i < tickHalf))

theorem mem_insertDue {due : Fin monitorTimeNr → Tick} {i j : Fin monitorTimeNr}
    {timers : List (Fin monitorTimeNr)} : j ∈ insertDue due i timers ↔ j = i ∨ j ∈ timers := by
  have hsplit : j ∈ timers ↔
      j ∈ timers.takeWhile (fun j ↦ !decide (due j - due i < tickHalf)) ∨
        j ∈ timers.dropWhile (fun j ↦ !decide (due j - due i < tickHalf)) := by
    rw [← List.mem_append, List.takeWhile_append_dropWhile]
  rw [insertDue, hsplit, List.mem_append, List.mem_cons]
  tauto

/-- The links form two rings that share no timer. -/
structure Rings (links : Links TimerNode) (lists : Lists) : Prop where
  ring : ∀ soft, IsRing links (headOf soft) ((lists soft).map .timer)
  disjoint : ∀ i, i ∈ lists true → i ∉ lists false

namespace Rings

variable {links : Links TimerNode} {lists : Lists}

theorem notMem_other (h : Rings links lists) {soft soft' : Bool} {i : Fin monitorTimeNr}
    (hne : soft' ≠ soft) (hi : i ∈ lists soft) : i ∉ lists soft' := by
  cases soft <;> cases soft' <;> first
    | exact absurd rfl hne
    | exact h.disjoint i hi
    | exact fun hin ↦ h.disjoint i hin hi

theorem nodup (h : Rings links lists) (soft : Bool) : (lists soft).Nodup :=
  (h.ring soft).nodes_nodup.of_map

theorem length_le (h : Rings links lists) (soft : Bool) : (lists soft).length ≤ monitorTimeNr := by
  simpa using (h.nodup soft).length_le_card

/-- The nodes a list is read to have. -/
theorem walk_eq (h : Rings links lists) (soft : Bool) :
    walk links (headOf soft) (monitorTimeNr + 1) (links.next (headOf soft)) =
      (lists soft).map .timer :=
  (h.ring soft).walk_eq (by simpa using (h.length_le soft).trans (Nat.le_succ _))

theorem eq_of_ring (h : Rings links lists) (soft : Bool) {timers : List (Fin monitorTimeNr)}
    (hring : IsRing links (headOf soft) (timers.map .timer)) : timers = lists soft :=
  List.map_injective_iff.mpr (fun _ _ hij ↦ TimerNode.timer.inj hij) ((h.ring soft).unique hring)

/-- The links determine the lists. -/
theorem unique {lists' : Lists} (h : Rings links lists) (h' : Rings links lists') :
    lists' = lists := by
  funext soft
  exact h.eq_of_ring soft (h'.ring soft)

theorem next_head (h : Rings links lists) {soft : Bool} {i : Fin monitorTimeNr}
    (hnext : links.next (headOf soft) = .timer i) : ∃ rest, lists soft = i :: rest := by
  rw [(h.ring soft).next_head] at hnext
  cases hlist : lists soft with
  | nil => simp [hlist] at hnext
  | cons j rest =>
      simp only [hlist, List.map_cons, List.headD_cons, TimerNode.timer.injEq] at hnext
      exact ⟨rest, by rw [hnext]⟩

theorem next_cons (h : Rings links lists) (soft : Bool) {i : Fin monitorTimeNr}
    {rest : List (Fin monitorTimeNr)} (hlist : lists soft = i :: rest) :
    links.next (headOf soft) = .timer i := by
  rw [(h.ring soft).next_head, hlist]
  rfl

theorem next_nil (h : Rings links lists) (soft : Bool) (hlist : lists soft = []) :
    links.next (headOf soft) = headOf soft := by
  rw [(h.ring soft).next_head, hlist]
  rfl

/-- The two rings share no node. -/
theorem other_notMem (h : Rings links lists) {soft soft' : Bool} (hne : soft' ≠ soft)
    {node : TimerNode} (hnode : node ∈ headOf soft' :: (lists soft').map .timer) :
    node ∉ headOf soft :: (lists soft).map .timer := by
  intro hin
  rcases List.mem_cons.mp hnode with rfl | hnode
  · simp only [List.mem_cons, headOf_inj, hne, List.mem_map, false_or] at hin
    obtain ⟨j, _, heq⟩ := hin
    exact headOf_ne_timer soft' j heq.symm
  · obtain ⟨j, hj, rfl⟩ := List.mem_map.mp hnode
    simp only [List.mem_cons, List.mem_map, TimerNode.timer.injEq, exists_eq_right] at hin
    rcases hin with heq | hin
    · exact headOf_ne_timer soft j heq.symm
    · exact h.notMem_other hne.symm hj hin

end Rings

/-- The two lists as the sequences of their heads. -/
def sequencesOf (lists : Lists) : Sequences TimerNode
  | .timerList => some ((lists false).map .timer)
  | .softTimerList => some ((lists true).map .timer)
  | .timer _ => none

theorem sequencesOf_headOf (lists : Lists) (soft : Bool) :
    sequencesOf lists (headOf soft) = some ((lists soft).map .timer) := by
  cases soft <;> rfl

theorem sequencesOf_eq_some {lists : Lists} {head : TimerNode} {nodes : List TimerNode}
    (hlist : sequencesOf lists head = some nodes) :
    ∃ soft, headOf soft = head ∧ (lists soft).map .timer = nodes := by
  cases head with
  | timerList => exact ⟨false, rfl, Option.some_inj.mp hlist⟩
  | softTimerList => exact ⟨true, rfl, Option.some_inj.mp hlist⟩
  | timer i => contradiction

theorem sequencesOf_update (lists : Lists) (soft : Bool) (timers : List (Fin monitorTimeNr)) :
    Function.update (sequencesOf lists) (headOf soft) (some (timers.map .timer)) =
      sequencesOf (Function.update lists soft timers) := by
  funext head
  cases soft <;> cases head <;> simp [sequencesOf, headOf]

theorem onNoList_sequencesOf {lists : Lists} {i : Fin monitorTimeNr}
    (hfresh : ∀ soft, i ∉ lists soft) : OnNoList (sequencesOf lists) (.timer i) := by
  intro head nodes hlist
  obtain ⟨soft, rfl, rfl⟩ := sequencesOf_eq_some hlist
  simp [hfresh, (headOf_ne_timer soft i).symm]

theorem rings_iff_represents {links : Links TimerNode} {lists : Lists} :
    Rings links lists ↔ Represents links (sequencesOf lists) := by
  constructor
  · intro h
    constructor
    case ring =>
      intro head nodes hlist
      obtain ⟨soft, rfl, rfl⟩ := sequencesOf_eq_some hlist
      exact h.ring soft
    case disjoint =>
      intro head nodes head' nodes' hlist hlist' hne node hnode
      obtain ⟨soft, rfl, rfl⟩ := sequencesOf_eq_some hlist
      obtain ⟨soft', rfl, rfl⟩ := sequencesOf_eq_some hlist'
      exact h.other_notMem (mt (headOf_inj soft' soft).mpr hne) hnode
  · intro h
    refine ⟨fun soft ↦ h.ring _ _ (sequencesOf_headOf lists soft), fun i hi hin ↦ ?_⟩
    have hapart := h.disjoint _ _ _ _ (sequencesOf_headOf lists false)
      (sequencesOf_headOf lists true) (by simp) (.timer i)
    simp [hi, hin] at hapart

namespace Rings

variable {links : Links TimerNode} {lists : Lists}

/-- A timer on neither list put on one of them. -/
theorem insert (h : Rings links lists) {i : Fin monitorTimeNr} (hfresh : ∀ soft, i ∉ lists soft)
    (soft : Bool) (due : Fin monitorTimeNr → Tick) :
    Rings (links.insertBefore ((((lists soft).find? fun j ↦ due j - due i < tickHalf).map
      TimerNode.timer).getD (headOf soft)) (.timer i))
      (Function.update lists soft (insertDue due i (lists soft))) := by
  have hlist := sequencesOf_headOf lists soft
  have hfree := onNoList_sequencesOf hfresh
  have hplace : (((lists soft).find? fun j ↦ due j - due i < tickHalf).map
      TimerNode.timer).getD (headOf soft) ∈ headOf soft :: (lists soft).map .timer := by
    cases hfound : (lists soft).find? fun j ↦ due j - due i < tickHalf with
    | none => exact List.mem_cons_self
    | some j =>
        exact List.mem_cons_of_mem _ (List.mem_map_of_mem (List.mem_of_find?_eq_some hfound))
  have hring := (h.ring soft).insertBefore_find (hfree _ _ hlist)
    fun j ↦ decide (due j - due i < tickHalf)
  rw [← List.map_cons, ← List.map_append, ← insertDue] at hring
  have hmem : ∀ other, other ∈ (insertDue due i (lists soft)).map TimerNode.timer ↔
      other = .timer i ∨ other ∈ (lists soft).map TimerNode.timer := by
    intro other
    simp only [List.mem_map, mem_insertDue, or_and_right, exists_or, exists_eq_left]
    exact or_congr_left eq_comm
  have hinserted := (rings_iff_represents.mp h).insert hlist hfree hring hmem fun other hother ↦
    (h.ring soft).agreeAt_insertBefore hplace hother
  rw [rings_iff_represents, ← sequencesOf_update]
  exact hinserted.represents

/-- A timer taken off its list. -/
theorem erase (h : Rings links lists) {soft : Bool} {i : Fin monitorTimeNr}
    (hi : i ∈ lists soft) :
    Rings (links.unlink (.timer i)) (Function.update lists soft ((lists soft).erase i)) := by
  obtain ⟨before, after, hlist⟩ := List.append_of_mem hi
  have hnotMem : i ∉ before := fun hin ↦ by
    have hnodup := h.nodup soft
    rw [hlist] at hnodup
    exact (List.nodup_append.mp hnodup).2.2 i hin i List.mem_cons_self rfl
  have herase : (lists soft).erase i = before ++ after := by
    rw [hlist, List.erase_append_right _ hnotMem, List.erase_cons_head]
  have hsequence := sequencesOf_headOf lists soft
  rw [hlist, List.map_append, List.map_cons] at hsequence
  rw [rings_iff_represents, ← sequencesOf_update, herase, List.map_append]
  exact ((rings_iff_represents.mp h).unlink hsequence).represents

/-- Initialising the node of a timer on neither list. -/
theorem reset (h : Rings links lists) {i : Fin monitorTimeNr} (hfresh : ∀ soft, i ∉ lists soft) :
    Rings (links.reset (.timer i)) lists where
  ring soft := (h.ring soft).of_agreeAt fun node hnode ↦ Links.agreeAt_reset fun heq ↦ by
    subst heq
    simp [hfresh, (headOf_ne_timer soft i).symm] at hnode
  disjoint := h.disjoint

end Rings

section Flags

variable (flag : BitVec 8) {mask test : BitVec 8}

theorem hasFlag_and_of_keeps (hkeeps : mask &&& test = test) :
    hasFlag (flag &&& mask) test = hasFlag flag test := by
  rw [hasFlag, hasFlag, BitVec.and_assoc, hkeeps]

theorem hasFlag_and_of_clears (hclears : mask &&& test = 0) :
    hasFlag (flag &&& mask) test = false := by
  rw [hasFlag, BitVec.and_assoc, hclears]
  simp

theorem hasFlag_or_of_disjoint (hdisjoint : mask &&& test = 0) :
    hasFlag (flag ||| mask) test = hasFlag flag test := by
  rw [hasFlag, hasFlag, BitVec.and_or_distrib_right, hdisjoint]
  simp

theorem hasFlag_or_self (hpos : test ≠ 0) : hasFlag (flag ||| test) test = true := by
  have habsorb : (flag ||| test) &&& test = test := by
    ext k hk
    simpa using fun hbit ↦ Or.inr hbit
  rw [hasFlag, habsorb]
  simpa using hpos

end Flags

namespace SvTimer

/-- The flag of a timer that was started. -/
def startFlag (flag : BitVec 8) : BitVec 8 :=
  (flag ||| svTimerFlagActivated) &&& ~~~(svTimerFlagTimeout ||| svTimerFlagHandling)

def stopFlag (flag : BitVec 8) : BitVec 8 :=
  flag &&& ~~~(svTimerFlagActivated ||| svTimerFlagTimeout)

/-- The flag of a one-shot timer that has fired. -/
def firedFlag (flag : BitVec 8) : BitVec 8 :=
  flag &&& ~~~svTimerFlagActivated ||| svTimerFlagTimeout

theorem hasFlag_startFlag (flag : BitVec 8) :
    hasFlag (startFlag flag) svTimerFlagActivated = true ∧
      hasFlag (startFlag flag) svTimerFlagPeriodic = hasFlag flag svTimerFlagPeriodic ∧
      hasFlag (startFlag flag) svTimerFlagSoftTimer = hasFlag flag svTimerFlagSoftTimer := by
  unfold startFlag
  refine ⟨?_, ?_, ?_⟩
  · rw [hasFlag_and_of_keeps _ (by decide), hasFlag_or_self _ (by decide)]
  · rw [hasFlag_and_of_keeps _ (by decide), hasFlag_or_of_disjoint _ (by decide)]
  · rw [hasFlag_and_of_keeps _ (by decide), hasFlag_or_of_disjoint _ (by decide)]

theorem hasFlag_stopFlag (flag : BitVec 8) :
    hasFlag (stopFlag flag) svTimerFlagActivated = false ∧
      hasFlag (stopFlag flag) svTimerFlagPeriodic = hasFlag flag svTimerFlagPeriodic ∧
      hasFlag (stopFlag flag) svTimerFlagSoftTimer = hasFlag flag svTimerFlagSoftTimer :=
  ⟨hasFlag_and_of_clears _ (by decide), hasFlag_and_of_keeps _ (by decide),
    hasFlag_and_of_keeps _ (by decide)⟩

theorem hasFlag_clear (flag : BitVec 8) :
    hasFlag (flag &&& ~~~svTimerFlagActivated) svTimerFlagActivated = false ∧
      hasFlag (flag &&& ~~~svTimerFlagActivated) svTimerFlagPeriodic =
        hasFlag flag svTimerFlagPeriodic ∧
      hasFlag (flag &&& ~~~svTimerFlagActivated) svTimerFlagSoftTimer =
        hasFlag flag svTimerFlagSoftTimer :=
  ⟨hasFlag_and_of_clears _ (by decide), hasFlag_and_of_keeps _ (by decide),
    hasFlag_and_of_keeps _ (by decide)⟩

theorem hasFlag_firedFlag (flag : BitVec 8) :
    hasFlag (firedFlag flag) svTimerFlagActivated = false ∧
      hasFlag (firedFlag flag) svTimerFlagPeriodic = hasFlag flag svTimerFlagPeriodic ∧
      hasFlag (firedFlag flag) svTimerFlagSoftTimer = hasFlag flag svTimerFlagSoftTimer := by
  unfold firedFlag
  rw [hasFlag_or_of_disjoint _ (by decide), hasFlag_or_of_disjoint _ (by decide),
    hasFlag_or_of_disjoint _ (by decide)]
  exact hasFlag_clear flag

theorem hasFlag_handled (flag : BitVec 8) {test : BitVec 8}
    (hother : svTimerFlagHandling &&& test = 0) :
    hasFlag ((flag ||| svTimerFlagHandling) &&& ~~~svTimerFlagHandling) test =
      hasFlag flag test := by
  have hkeeps : ~~~svTimerFlagHandling &&& test = test := by
    ext k hk
    have hbit := congrArg (·.getLsbD k) hother
    simp only [BitVec.getLsbD_and] at hbit
    simp [← BitVec.getLsbD_eq_getElem]
    grind
  rw [hasFlag_and_of_keeps _ hkeeps, hasFlag_or_of_disjoint _ hother]

/-- A timer that was just registered does not run. -/
theorem activated_init {Func Param : Type} (func : Option Func) (parameter : Param) (time : Tick)
    (flag : BitVec 8) : (init func parameter time flag).activated = false := by
  have hflag : ∀ flag : BitVec 8, hasFlag (flag &&& ~~~(svTimerFlagActivated |||
      svTimerFlagTimeout ||| svTimerFlagHandling)) svTimerFlagActivated = false := by decide +kernel
  exact hflag flag

end SvTimer

variable {Func Param : Type}

/-- Which timers are on which list. -/
structure OnLists (m : TimerManage Func Param) (lists : Lists) : Prop where
  rings : Rings m.links lists
  mem : ∀ soft i, i ∈ lists soft ↔ (m.timer i).activated = true ∧ (m.timer i).soft = soft
  taken : ∀ i, (m.timer i).activated = true → taken m.bitmap i = true

namespace OnLists

variable {m : TimerManage Func Param} {lists : Lists} {i : Fin monitorTimeNr}

theorem notMem (h : OnLists m lists) (hidle : (m.timer i).activated = false) (soft : Bool) :
    i ∉ lists soft := by
  simp [h.mem, hidle]

/-- What only changes one timer, and not whether and where it runs, keeps the lists. -/
theorem frame (h : OnLists m lists) {m' : TimerManage Func Param} (hlinks : m'.links = m.links)
    (hbitmap : m'.bitmap = m.bitmap)
    (hactivated : ∀ j, (m'.timer j).activated = (m.timer j).activated)
    (hsoft : ∀ j, (m'.timer j).soft = (m.timer j).soft) : OnLists m' lists where
  rings := hlinks ▸ h.rings
  mem soft j := by rw [hactivated, hsoft, h.mem]
  taken j := by rw [hactivated, hbitmap]; exact h.taken j

end OnLists

namespace TimerManage

variable (m : TimerManage Func Param) (i : Fin monitorTimeNr)

/-- The timer that `sv_timer_start` puts on a list. -/
def started : SvTimer Func Param :=
  { m.timer i with
    flag := SvTimer.startFlag (m.timer i).flag
    timeoutTick := m.sTick + (m.timer i).initTick }

/-- The deadlines `sv_timer_start` compares. -/
def dueAfterStart : Fin monitorTimeNr → Tick :=
  fun j ↦ (Function.update m.timer i (m.started i) j).timeoutTick

variable {m i}

theorem startPlace_eq {lists : Lists} (h : Rings m.links lists) (soft : Bool) (timeout : Tick) :
    m.startPlace (headOf soft) timeout =
      (((lists soft).find? fun j ↦ (m.timer j).timeoutTick - timeout < tickHalf).map
        TimerNode.timer).getD (headOf soft) := by
  rw [startPlace, h.walk_eq, List.find?_map]
  rfl

theorem svTimerStart_eq {lists : Lists} (h : Rings m.links lists)
    (hidle : (m.timer i).activated = false) :
    m.svTimerStart i = (0, { m with
      links := m.links.insertBefore ((((lists (m.timer i).soft).find? fun j ↦
        m.dueAfterStart i j - m.dueAfterStart i i < tickHalf).map TimerNode.timer).getD
          (headOf (m.timer i).soft)) (.timer i)
      timer := Function.update m.timer i (m.started i) }) := by
  let waiting := m.setTimer i { m.timer i with timeoutTick := m.sTick + (m.timer i).initTick }
  have hself : waiting.timer i =
      { m.timer i with timeoutTick := m.sTick + (m.timer i).initTick } := by
    simp [waiting, setTimer]
  have hdue : ∀ j, (waiting.timer j).timeoutTick = m.dueAfterStart i j := fun j ↦ by
    by_cases hj : j = i <;> simp [waiting, setTimer, dueAfterStart, started, hj]
  have hplace := startPlace_eq (m := waiting) h (m.timer i).soft (waiting.timer i).timeoutTick
  simp only [hdue] at hplace
  have hlist : listOf (waiting.timer i) = headOf (m.timer i).soft := by
    rw [hself]
    rfl
  rw [svTimerStart, if_neg (by simp [hidle])]
  simp only [listInsertBefore_eq]
  rw [show m.setTimer i _ = waiting from rfl, hlist, hdue, hplace]
  simp [setFlag, setTimer, waiting, started, SvTimer.startFlag]

theorem svTimerStop_eq (hactive : (m.timer i).activated = true) :
    m.svTimerStop i = (0, { m with
      links := m.links.unlink (.timer i)
      timer := Function.update m.timer i
        { m.timer i with flag := SvTimer.stopFlag (m.timer i).flag } }) := by
  rw [svTimerStop, if_neg (by simp [hactive])]
  simp [listDel_eq, setFlag, setTimer, SvTimer.stopFlag]

variable (m i)

/-- The flag of a timer after its callback. -/
def calledFlag : BitVec 8 :=
  match (m.timer i).timeoutFunc with
  | none => (m.timer i).flag
  | some _ => ((m.timer i).flag ||| svTimerFlagHandling) &&& ~~~svTimerFlagHandling

/-- What the callback of a timer leaves in the record. -/
def firing : List (Expiry Func Param) :=
  match (m.timer i).timeoutFunc with
  | none => []
  | some func => [⟨i, func, (m.timer i).parameter, m.sTick⟩]

/-- A timer taken off its list and called; it counts as stopped until it is armed again. -/
def called (tick : Tick) : TimerManage Func Param :=
  { m with
    links := m.links.unlink (.timer i)
    timer := Function.update m.timer i
      { m.timer i with flag := m.calledFlag i &&& ~~~svTimerFlagActivated }
    sTick := if (m.timer i).timeoutFunc.isSome then tick else m.sTick
    expiries := m.firing i ++ m.expiries }

variable {m i}

theorem callTimeoutFunc_eq (tick : Tick) : m.callTimeoutFunc i tick =
    { m with
      timer := Function.update m.timer i { m.timer i with flag := m.calledFlag i }
      sTick := if (m.timer i).timeoutFunc.isSome then tick else m.sTick
      expiries := m.firing i ++ m.expiries } := by
  rw [callTimeoutFunc, calledFlag, firing]
  cases hfunc : (m.timer i).timeoutFunc with
  | none => simp
  | some func => simp [hfunc, setFlag, setTimer]

theorem hasFlag_calledFlag :
    hasFlag (m.calledFlag i) svTimerFlagActivated = (m.timer i).activated ∧
      hasFlag (m.calledFlag i) svTimerFlagPeriodic = (m.timer i).periodic ∧
      hasFlag (m.calledFlag i) svTimerFlagSoftTimer = (m.timer i).soft := by
  unfold calledFlag
  split
  · exact ⟨rfl, rfl, rfl⟩
  · exact ⟨SvTimer.hasFlag_handled _ (by decide), SvTimer.hasFlag_handled _ (by decide),
      SvTimer.hasFlag_handled _ (by decide)⟩

theorem called_timer_self (tick : Tick) : ((m.called i tick).timer i).activated = false ∧
    ((m.called i tick).timer i).periodic = (m.timer i).periodic ∧
      ((m.called i tick).timer i).soft = (m.timer i).soft := by
  obtain ⟨hactivated, hperiodic, hsoft⟩ := SvTimer.hasFlag_clear (m.calledFlag i)
  have hflag : ((m.called i tick).timer i).flag =
      m.calledFlag i &&& ~~~svTimerFlagActivated := by simp [called]
  rw [SvTimer.activated, SvTimer.periodic, SvTimer.soft, hflag, hactivated, hperiodic, hsoft]
  exact ⟨rfl, hasFlag_calledFlag.2.1, hasFlag_calledFlag.2.2⟩

theorem called_timer_of_ne {j : Fin monitorTimeNr} (hj : j ≠ i) (tick : Tick) :
    (m.called i tick).timer j = m.timer j := by
  simp [called, hj]

/-- A periodic timer is started again after its callback. -/
theorem expire_of_periodic (head : TimerNode) (tick : Tick)
    (hactive : (m.timer i).activated = true) (hperiodic : (m.timer i).periodic = true) :
    m.expire head i tick = ((m.called i tick).svTimerStart i).2 := by
  have hflags := hasFlag_calledFlag (m := m) (i := i)
  rw [hactive, hperiodic] at hflags
  rw [expire, callTimeoutFunc_eq]
  simp only [listDel_eq]
  rw [if_pos]
  · simp [setFlag, setTimer, called, calledFlag, firing]
  · simpa [SvTimer.periodic, SvTimer.activated, calledFlag, and_comm] using
      And.intro hflags.1 hflags.2.1

/-- A one-shot timer reports that it has fired; a soft one gives its slot back. -/
theorem expire_of_oneShot (head : TimerNode) (tick : Tick)
    (hperiodic : (m.timer i).periodic = false) :
    m.expire head i tick = { (m.called i tick) with
      timer := Function.update m.timer i
        { m.timer i with flag := SvTimer.firedFlag (m.calledFlag i) }
      bitmap := if head = .softTimerList then release m.bitmap i else m.bitmap } := by
  have hflags := hasFlag_calledFlag (m := m) (i := i)
  rw [hperiodic] at hflags
  rw [expire, callTimeoutFunc_eq]
  simp only [listDel_eq]
  rw [if_neg]
  · by_cases hsoft : head = .softTimerList <;>
      simp [hsoft, setFlag, setTimer, called, calledFlag, firing, SvTimer.firedFlag]
  · have hoff := hflags.2.1
    simp [SvTimer.periodic, calledFlag] at hoff ⊢
    simp [hoff]

/-- What handling a timer that is due leaves behind while the tick stands still. -/
structure Passed (m m' : TimerManage Func Param) (i : Fin monitorTimeNr) : Prop where
  tick : m'.sTick = m.sTick
  other : ∀ j, j ≠ i → m'.timer j = m.timer j
  expiries : m'.expiries = m.firing i ++ m.expiries
  initTick : (m'.timer i).initTick = (m.timer i).initTick
  periodic : (m'.timer i).periodic = (m.timer i).periodic
  soft : (m'.timer i).soft = (m.timer i).soft
  rearmed : (m.timer i).periodic = true → (m'.timer i).activated = true ∧
    (m'.timer i).timeoutTick = m.sTick + (m.timer i).initTick
  fired : (m.timer i).periodic = false → (m'.timer i).flag = SvTimer.firedFlag (m.calledFlag i)

end TimerManage

namespace OnLists

variable {m : TimerManage Func Param} {lists : Lists} {i : Fin monitorTimeNr}

/-- A timer that was started is on its list. -/
theorem svTimerStart (h : OnLists m lists) (hidle : (m.timer i).activated = false)
    (htaken : SlotBitmap.taken m.bitmap i = true) :
    OnLists (m.svTimerStart i).2 (Function.update lists (m.timer i).soft
      (insertDue (m.dueAfterStart i) i (lists (m.timer i).soft))) := by
  rw [TimerManage.svTimerStart_eq h.rings hidle]
  obtain ⟨hactivated, _, hsoft⟩ := SvTimer.hasFlag_startFlag (m.timer i).flag
  have hself : (m.started i).activated = true ∧ (m.started i).soft = (m.timer i).soft :=
    ⟨hactivated, hsoft⟩
  refine ⟨h.rings.insert (h.notMem hidle) _ _, fun soft j ↦ ?_, fun j hj ↦ ?_⟩
  · by_cases hj : j = i
    · subst hj
      by_cases hs : soft = (m.timer j).soft
      · simp [hs, hself, mem_insertDue]
      · simp [hs, hself, h.notMem hidle, Ne.symm hs]
    · have hmem := h.mem soft j
      by_cases hs : soft = (m.timer i).soft
      · subst hs
        simpa [mem_insertDue, hj] using hmem
      · simpa [hs, hj] using hmem
  · by_cases hji : j = i
    · exact hji ▸ htaken
    · exact h.taken j (by simpa [hji] using hj)

/-- What takes a running timer off its list and stops it. -/
theorem remove (h : OnLists m lists) (hactive : (m.timer i).activated = true)
    {m' : TimerManage Func Param} (hlinks : m'.links = m.links.unlink (.timer i))
    (hself : (m'.timer i).activated = false) (hother : ∀ j, j ≠ i → m'.timer j = m.timer j)
    (htaken : ∀ j, j ≠ i → SlotBitmap.taken m.bitmap j = true →
      SlotBitmap.taken m'.bitmap j = true) :
    OnLists m' (Function.update lists (m.timer i).soft ((lists (m.timer i).soft).erase i)) := by
  have hi : i ∈ lists (m.timer i).soft := (h.mem _ i).mpr ⟨hactive, rfl⟩
  have hnodup := h.rings.nodup (m.timer i).soft
  refine ⟨hlinks ▸ h.rings.erase hi, fun soft j ↦ ?_, fun j hj ↦ ?_⟩
  · by_cases hj : j = i
    · subst hj
      rw [hself]
      by_cases hs : soft = (m.timer j).soft
      · subst hs
        simp [hnodup.mem_erase_iff]
      · rw [Function.update_of_ne hs]
        simpa using h.rings.notMem_other hs hi
    · rw [hother j hj, ← h.mem soft j]
      by_cases hs : soft = (m.timer i).soft
      · subst hs
        simp [hnodup.mem_erase_iff, hj]
      · rw [Function.update_of_ne hs]
  · have hji : j ≠ i := fun heq ↦ by simp [heq, hself] at hj
    rw [hother j hji] at hj
    exact htaken j hji (h.taken j hj)

theorem svTimerStop (h : OnLists m lists) (hactive : (m.timer i).activated = true) :
    OnLists (m.svTimerStop i).2
      (Function.update lists (m.timer i).soft ((lists (m.timer i).soft).erase i)) := by
  rw [TimerManage.svTimerStop_eq hactive]
  refine h.remove hactive rfl ?_ (fun j hj ↦ by simp [hj]) fun _ _ htaken ↦ htaken
  simpa [SvTimer.activated] using (SvTimer.hasFlag_stopFlag (m.timer i).flag).1

theorem called (h : OnLists m lists) (hactive : (m.timer i).activated = true) (tick : Tick) :
    OnLists (m.called i tick)
      (Function.update lists (m.timer i).soft ((lists (m.timer i).soft).erase i)) :=
  h.remove hactive rfl (TimerManage.called_timer_self tick).1
    (fun _ hj ↦ TimerManage.called_timer_of_ne hj tick) fun _ _ htaken ↦ htaken

theorem soft_of_cons (h : OnLists m lists) {soft : Bool} {rest : List (Fin monitorTimeNr)}
    (hlist : lists soft = i :: rest) :
    (m.timer i).activated = true ∧ (m.timer i).soft = soft :=
  (h.mem soft i).mp (by simp [hlist])

/-- A periodic timer at the front of its list moves to its new place. -/
theorem expire_of_periodic (h : OnLists m lists) {soft : Bool} {rest : List (Fin monitorTimeNr)}
    (hlist : lists soft = i :: rest) (hperiodic : (m.timer i).periodic = true) (tick : Tick) :
    OnLists (m.expire (headOf soft) i tick)
      (Function.update lists soft (insertDue ((m.called i tick).dueAfterStart i) i rest)) := by
  obtain ⟨hactive, hsoft⟩ := h.soft_of_cons hlist
  have hcalled := h.called hactive tick
  obtain ⟨hidle, _, hsoft'⟩ := TimerManage.called_timer_self (m := m) (i := i) tick
  have hstarted := hcalled.svTimerStart hidle (h.taken i hactive)
  rw [hsoft', hsoft, hlist, List.erase_cons_head, Function.update_self,
    Function.update_idem] at hstarted
  rwa [TimerManage.expire_of_periodic _ _ hactive hperiodic]

/-- A one-shot timer at the front of its list leaves it. -/
theorem expire_of_oneShot (h : OnLists m lists) {soft : Bool} {rest : List (Fin monitorTimeNr)}
    (hlist : lists soft = i :: rest) (hperiodic : (m.timer i).periodic = false) (tick : Tick) :
    OnLists (m.expire (headOf soft) i tick) (Function.update lists soft rest) := by
  obtain ⟨hactive, hsoft⟩ := h.soft_of_cons hlist
  have hfired := (SvTimer.hasFlag_firedFlag (m.calledFlag i)).1
  rw [TimerManage.expire_of_oneShot _ _ hperiodic]
  rw [← List.erase_cons_head (a := i) (l := rest), ← hlist]
  subst hsoft
  refine h.remove hactive rfl (by simpa [SvTimer.activated] using hfired)
    (fun j hj ↦ by simp [hj]) fun j hj htaken ↦ ?_
  · have hrelease : SlotBitmap.taken (release m.bitmap i) j = true := by
      rw [taken_release _ (handle_lt i) (handle_lt j)]
      simpa [Fin.val_ne_of_ne hj] using htaken
    show SlotBitmap.taken (if headOf (m.timer i).soft = .softTimerList then _ else _) j = true
    split
    · exact hrelease
    · exact htaken

/-- A periodic timer is put back with a deadline that is its time away. -/
theorem passed_of_periodic (h : OnLists m lists) (head : TimerNode)
    (hactive : (m.timer i).activated = true) (hperiodic : (m.timer i).periodic = true) :
    m.Passed (m.expire head i m.sTick) i := by
  obtain ⟨hidle, hkept, hsoft⟩ := TimerManage.called_timer_self (m := m) (i := i) m.sTick
  have heq := TimerManage.svTimerStart_eq (h.called hactive m.sTick).rings hidle
  have hflag := SvTimer.hasFlag_startFlag ((m.called i m.sTick).timer i).flag
  have htick : (m.called i m.sTick).sTick = m.sTick := ite_self m.sTick
  have hinit : ((m.called i m.sTick).timer i).initTick = (m.timer i).initTick := by
    simp [TimerManage.called]
  rw [TimerManage.expire_of_periodic _ _ hactive hperiodic, heq]
  refine ⟨htick, fun j hj ↦ ?_, rfl, ?_, ?_, ?_, fun _ ↦ ⟨?_, ?_⟩, fun hno ↦ ?_⟩
  · simp only [Function.update_of_ne hj]
    exact TimerManage.called_timer_of_ne hj m.sTick
  · simp only [Function.update_self]
    exact hinit
  · simp only [Function.update_self]
    exact hflag.2.1.trans hkept
  · simp only [Function.update_self]
    exact hflag.2.2.trans hsoft
  · simp only [Function.update_self]
    exact hflag.1
  · simp only [Function.update_self, TimerManage.started, htick, hinit]
  · rw [hperiodic] at hno
    contradiction

theorem passed_of_oneShot (head : TimerNode) (hperiodic : (m.timer i).periodic = false) :
    m.Passed (m.expire head i m.sTick) i := by
  have hcalled := TimerManage.hasFlag_calledFlag (m := m) (i := i)
  have hflag := SvTimer.hasFlag_firedFlag (m.calledFlag i)
  rw [TimerManage.expire_of_oneShot _ _ hperiodic]
  refine ⟨ite_self m.sTick, fun j hj ↦ Function.update_of_ne hj _ _, rfl, ?_, ?_, ?_,
    fun hyes ↦ ?_, fun _ ↦ ?_⟩
  · simp only [Function.update_self]
  · simp only [Function.update_self]
    exact hflag.2.1.trans hcalled.2.1
  · simp only [Function.update_self]
    exact hflag.2.2.trans hcalled.2.2
  · rw [hperiodic] at hyes
    contradiction
  · simp only [Function.update_self]

theorem passed (h : OnLists m lists) (head : TimerNode) (hactive : (m.timer i).activated = true) :
    m.Passed (m.expire head i m.sTick) i := by
  cases hperiodic : (m.timer i).periodic with
  | true => exact h.passed_of_periodic head hactive hperiodic
  | false => exact passed_of_oneShot head hperiodic

/-- One timer handled. -/
theorem expire (h : OnLists m lists) {soft : Bool}
    (hnext : m.links.next (headOf soft) = .timer i) (tick : Tick) :
    ∃ lists', OnLists (m.expire (headOf soft) i tick) lists' := by
  obtain ⟨rest, hlist⟩ := h.rings.next_head hnext
  cases hperiodic : (m.timer i).periodic with
  | true => exact ⟨_, h.expire_of_periodic hlist hperiodic tick⟩
  | false => exact ⟨_, h.expire_of_oneShot hlist hperiodic tick⟩

/-- The loop of `timer_handle`, however far it gets. -/
theorem timerHandle (h : OnLists m lists) (soft : Bool) (ticks : List Tick) :
    ∃ lists', OnLists (timerHandle (headOf soft) ticks m) lists' := by
  induction ticks generalizing m lists with
  | nil => exact ⟨lists, h⟩
  | cons tick ticks ih =>
      unfold Service.timerHandle
      split
      · rename_i i hnext
        split
        · obtain ⟨lists', hexpired⟩ := h.expire hnext tick
          exact ih hexpired
        · exact ⟨lists, h⟩
      · exact ⟨lists, h⟩

/-- A slot that is free belongs to no running timer, so its node can be initialised. -/
theorem timerRegister (h : OnLists m lists) (expiredMs : BitVec 32) (flag : BitVec 8)
    (func : Option Func) (data : Param) :
    OnLists (m.timerRegister expiredMs flag func data).2 lists := by
  unfold TimerManage.timerRegister
  simp only
  split
  · exact h
  split
  · exact h
  rename_i slot hfree
  have hidle : (m.timer slot).activated = false := by
    cases hactive : (m.timer slot).activated with
    | false => rfl
    | true =>
        have htaken := h.taken slot hactive
        rw [firstFree_eq_some hfree] at htaken
        contradiction
  have hinit := SvTimer.activated_init func data (svTickFromMillisecond expiredMs) flag
  refine ⟨h.rings.reset (h.notMem hidle), fun soft j ↦ ?_, fun j hj ↦ ?_⟩
  · by_cases hj : j = slot
    · subst hj
      simpa [TimerManage.setTimer, hinit] using h.notMem hidle soft
    · simpa [TimerManage.setTimer, hj] using h.mem soft j
  · by_cases hji : j = slot
    · subst hji
      simp [TimerManage.setTimer, hinit] at hj
    · have htaken := h.taken j (by simpa [TimerManage.setTimer, hji] using hj)
      simp [TimerManage.setTimer, taken_take _ (handle_lt slot) (handle_lt j), htaken]

end OnLists

end ProjectSensor.Service
