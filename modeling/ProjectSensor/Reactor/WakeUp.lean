import ProjectSensor.Reactor.EventPool
import ProjectSensor.Service.TimerRun

/-!
# Waking the event loop

`run_inloop` and `timer_check` wake the event loop through the counters of two devices.  A pass of
the loop polls the devices once, and for each channel that was readable reads the device, which
clears its counter, and calls the handler of the channel, which clears it again.  Posts and timer
operations come between any two of these steps.  `callbackStep` takes the handlers apart as well.
-/

open ProjectSensor.Library.LinkedRing ProjectSensor.Library.SlotBitmap
open ProjectSensor.Library.Transition
open ProjectSensor.Service

namespace ProjectSensor.Reactor

/-- The channels of the two devices. -/
inductive LoopChannel where
  | timer
  | event
  deriving DecidableEq

/-- Where `eventloop::loop` stands: between two channels, in `handleEvent` with the device read and
the handler dispatched, or in `event_handle` behind the splice. -/
inductive LoopPlace where
  | pass
  | dispatched (channel : LoopChannel)
  | spliced
  deriving DecidableEq

variable {Handler Pvoid Func Param : Type}

/-- The event loop and the timers; `active` are the channels the last poll found readable that are
still to be handled. -/
structure WakeUp (Handler Pvoid Func Param : Type) where
  loop : EventLoop Handler Pvoid
  timers : TimerManage Func Param
  place : LoopPlace
  active : List LoopChannel

/-- The interrupts, and the steps of the loop; `Call` is what a step of a handler is given. -/
inductive WakeAction (Handler Pvoid Func Param Call : Type) where
  | post (event : Event Handler Pvoid)
  | timer (op : TimerAction Func Param)
  | poll
  | channelRead
  | callback (call : Call)

namespace WakeUp

/-- The loop before its first pass. -/
def construct (links : Links EventNode) (param : Fin eventNr → Library.ByteMemory.Mem)
    (timerLinks : Links TimerNode) (parameter : Param) : WakeUp Handler Pvoid Func Param where
  loop := .construct links param
  timers := .construct timerLinks parameter
  place := .pass
  active := []

variable (s : WakeUp Handler Pvoid Func Param)

/-- `_drv_poll` of the two devices, in the order in which their channels are handled. -/
def ready : List LoopChannel :=
  (if s.timers.sTime = 0 then [] else [.timer]) ++ if s.loop.sEvent = 0 then [] else [.event]

def post (event : Event Handler Pvoid) : WakeUp Handler Pvoid Func Param :=
  { s with loop := (s.loop.runInloop event).2 }

/-- Any operation on the timers; `soft_timer_handle` is only called by the handler of the timer
channel. -/
def operate (op : TimerAction Func Param) : WakeUp Handler Pvoid Func Param :=
  match op with
  | .softHandle _ => s
  | op => { s with timers := timerStep s.timers op }

def poll : WakeUp Handler Pvoid Func Param :=
  if s.place = .pass ∧ s.active = [] then { s with active := s.ready } else s

/-- `handleEvent` of the next channel reads its device. -/
def channelRead : WakeUp Handler Pvoid Func Param :=
  match s.place, s.active with
  | .pass, .timer :: rest => { s with
      timers := { s.timers with sTime := 0 }, place := .dispatched .timer, active := rest }
  | .pass, .event :: rest => { s with
      loop := { s.loop with sEvent := 0 }, place := .dispatched .event, active := rest }
  | _, _ => s

/-- The handler that was dispatched runs to its end. -/
def callback (ticks : List Tick) : WakeUp Handler Pvoid Func Param :=
  match s.place with
  | .dispatched .timer => { s with timers := s.timers.softTimerHandle ticks, place := .pass }
  | .dispatched .event => { s with
      loop := s.loop.eventHandle
      place := if s.loop.eventHandle.drain = .idle then .pass else .spliced }
  | _ => s

/-- The end of `soft_timer_handle`, with interrupts disabled. -/
def softTimerDone : WakeUp Handler Pvoid Func Param := { s with
  timers := { s.timers with softTimerHandling := false, sTime := 0 }, place := .pass }

/-- The next step of the handler that runs: a timer that is due or the end of `soft_timer_handle`,
the splice of `event_handle` or a step of its drain. -/
def callbackStep (tick : Tick) : WakeUp Handler Pvoid Func Param :=
  match s.place with
  | .pass => s
  | .dispatched .timer =>
      match s.timers.links.next .softTimerList with
      | .timer i =>
          if s.timers.sTick - (s.timers.timer i).timeoutTick < tickHalf then
            { s with timers := s.timers.expire .softTimerList i tick }
          else s.softTimerDone
      | _ => s.softTimerDone
  | .dispatched .event => { s with loop := s.loop.handleStep, place := .spliced }
  | .spliced => { s with
      loop := s.loop.handleStep
      place := if s.loop.handleStep.drain = .idle then .pass else .spliced }

/-- A step, with what a step of a handler does. -/
def stepWith {Call : Type}
    (call : WakeUp Handler Pvoid Func Param → Call → WakeUp Handler Pvoid Func Param) :
    WakeAction Handler Pvoid Func Param Call → WakeUp Handler Pvoid Func Param
  | .post event => s.post event
  | .timer op => s.operate op
  | .poll => s.poll
  | .channelRead => s.channelRead
  | .callback given => call s given

/-- The steps of the loop are the poll, the reading of a device and the call of a handler. -/
def step (s : WakeUp Handler Pvoid Func Param) :
    WakeAction Handler Pvoid Func Param (List Tick) → WakeUp Handler Pvoid Func Param :=
  s.stepWith callback

/-- The handlers are taken apart too. -/
def fineStep (s : WakeUp Handler Pvoid Func Param) :
    WakeAction Handler Pvoid Func Param Tick → WakeUp Handler Pvoid Func Param :=
  s.stepWith callbackStep

/-- `m_list_event` is not empty. -/
def Posted : Prop := s.loop.links.next .listEvent ≠ .listEvent

/-- No wake-up is lost. -/
structure NoLostWakeUp : Prop where
  event : s.Posted → s.loop.sEvent ≠ 0 ∨ s.place = .dispatched .event
  timer : s.timers.softTimerHandling = true → s.timers.sTime ≠ 0 ∨ s.place = .dispatched .timer
  /-- A poll notices a posted event and a soft timer `timer_check` has found expired. -/
  noticed : s.place = .pass → (s.Posted → .event ∈ s.ready) ∧
    (s.timers.softTimerHandling = true → .timer ∈ s.ready)
  /-- `timer_check` finds a soft timer expired that is due. -/
  expired : ∀ ticks i, (s.timers.timerCheck ticks).links.next .softTimerList = .timer i →
    (s.timers.timerCheck ticks).sTick - ((s.timers.timerCheck ticks).timer i).timeoutTick <
      tickHalf → (s.timers.timerCheck ticks).softTimerHandling = true

/-- A post that gets a slot does not wrap the counter of the event device, unless `event_handle` is
about to splice the list. -/
def CounterHolds : WakeAction Handler Pvoid Func Param Tick → Prop
  | .post _ => s.loop.nextSlot ≠ none → s.loop.sEvent + 1 ≠ 0 ∨ s.place = .dispatched .event
  | _ => True

end WakeUp

/-! ### What the steps of a drain leave alone -/

namespace EventLoop

variable {loop : EventLoop Handler Pvoid}

theorem drainUntilIdle_sEvent (fuel : ℕ) (hbusy : loop.drain ≠ .idle) :
    (loop.drainUntilIdle fuel).sEvent = loop.sEvent := by
  induction fuel generalizing loop with
  | zero => rfl
  | succ fuel ih =>
      have hsame := (handleStep_frame hbusy).2
      unfold drainUntilIdle
      by_cases hidle : loop.handleStep.drain = .idle
      · simp only [if_pos hidle]
        exact hsame
      · simp only [if_neg hidle]
        exact (ih hidle).trans hsame

theorem eventHandle_sEvent (hidle : loop.drain = .idle) : loop.eventHandle.sEvent = 0 := by
  rw [eventHandle_of_idle hidle]
  exact drainUntilIdle_sEvent _ (by simp [splice])

/-- Whatever the links, `m_list_event` is empty after the splice. -/
theorem splice_next (loop : EventLoop Handler Pvoid) :
    loop.splice.links.next .listEvent = .listEvent := by
  unfold splice listSpliceInit
  simp only
  split
  · next hempty => simpa [listEmpty] using hempty
  · simp [listInit]

end EventLoop

namespace WakeUp

variable {s : WakeUp Handler Pvoid Func Param} {place : LoopPlace}

/-- A post is counted, unless the handler of its channel is about to splice the list. -/
theorem NoLostWakeUp.event_counted (h : s.NoLostWakeUp) (hplace : s.place = place)
    (hne : place ≠ .dispatched .event) (hposted : s.Posted) : s.loop.sEvent ≠ 0 :=
  (h.event hposted).resolve_right (hplace ▸ hne)

theorem NoLostWakeUp.timer_counted (h : s.NoLostWakeUp) (hplace : s.place = place)
    (hne : place ≠ .dispatched .timer) (hup : s.timers.softTimerHandling = true) :
    s.timers.sTime ≠ 0 :=
  (h.timer hup).resolve_right (hplace ▸ hne)

theorem noLostWakeUp_of
    (hevent : s.Posted → s.loop.sEvent ≠ 0 ∨ s.place = .dispatched .event)
    (htimer : s.timers.softTimerHandling = true →
      s.timers.sTime ≠ 0 ∨ s.place = .dispatched .timer) : s.NoLostWakeUp where
  event := hevent
  timer := htimer
  noticed hpass := by
    constructor
    · intro hposted
      have hcount : s.loop.sEvent ≠ 0 := (hevent hposted).resolve_right (by simp [hpass])
      rw [ready, if_neg hcount]
      exact List.mem_append_right _ List.mem_cons_self
    · intro hup
      have hcount : s.timers.sTime ≠ 0 := (htimer hup).resolve_right (by simp [hpass])
      rw [ready, if_neg hcount]
      exact List.mem_append_left _ List.mem_cons_self
  expired ticks _ hnext hdue := timerCheck_expired ticks hnext hdue

/-- The flag is down with the counter at 0, and a drain is under way exactly behind the splice. -/
structure Inv (s : WakeUp Handler Pvoid Func Param) : Prop where
  down : s.timers.softTimerHandling = false → s.timers.sTime = 0
  place : s.place = .spliced ↔ s.loop.drain ≠ .idle

theorem Inv.drain_idle (h : Inv s) (hplace : s.place = place) (hne : place ≠ .spliced) :
    s.loop.drain = .idle := by
  by_contra hbusy
  exact hne (hplace.symm.trans (h.place.mpr hbusy))

theorem inv_of_idle (hdown : s.timers.softTimerHandling = false → s.timers.sTime = 0)
    (hplace : s.place ≠ .spliced) (hidle : s.loop.drain = .idle) : Inv s where
  down := hdown
  place := iff_of_false hplace (not_not.mpr hidle)

theorem inv_construct (links : Links EventNode) (param : Fin eventNr → Library.ByteMemory.Mem)
    (timerLinks : Links TimerNode) (parameter : Param) :
    (construct links param timerLinks parameter : WakeUp Handler Pvoid Func Param).Inv where
  down _ := rfl
  place := by simp [construct, EventLoop.construct]

theorem noLostWakeUp_construct (links : Links EventNode)
    (param : Fin eventNr → Library.ByteMemory.Mem) (timerLinks : Links TimerNode)
    (parameter : Param) :
    (construct links param timerLinks parameter :
      WakeUp Handler Pvoid Func Param).NoLostWakeUp := by
  apply noLostWakeUp_of
  · intro hposted
    exact absurd (by simp [construct, EventLoop.construct, listInit]) hposted
  · intro hup
    exact absurd hup Bool.false_ne_true

/-- A post is noticed exactly if it does not wrap the counter. -/
theorem noLostWakeUp_post_iff (h : s.NoLostWakeUp) (event : Event Handler Pvoid) :
    (s.post event).NoLostWakeUp ↔
      (s.loop.nextSlot ≠ none → s.loop.sEvent + 1 ≠ 0 ∨ s.place = .dispatched .event) := by
  cases hslot : s.loop.nextSlot with
  | none =>
      have hsame : s.post event = s := by
        rw [post, EventLoop.runInloop_of_none event hslot]
      rw [hsame]
      exact iff_of_true h fun hsome ↦ absurd rfl hsome
  | some i =>
      have hposted : (s.post event).Posted := by
        rw [Posted, post, EventLoop.runInloop_of_some event hslot]
        simp [Links.insertAfter]
      have hcount : (s.post event).loop.sEvent = s.loop.sEvent + 1 := by
        rw [post, EventLoop.runInloop_of_some event hslot]
      constructor
      · intro hnext _
        rw [← hcount]
        exact hnext.event hposted
      · intro hholds
        apply noLostWakeUp_of
        · intro _
          rw [hcount]
          exact hholds (Option.some_ne_none i)
        · exact h.timer

theorem Inv.post (h : Inv s) (event : Event Handler Pvoid) : Inv (s.post event) := by
  refine ⟨h.down, h.place.trans ?_⟩
  cases hslot : s.loop.nextSlot with
  | none => rw [WakeUp.post, EventLoop.runInloop_of_none event hslot]
  | some i => rw [WakeUp.post, EventLoop.runInloop_of_some event hslot]

/-- What an operation on the timers does to the flag and the counter. -/
theorem operate_wake (s : WakeUp Handler Pvoid Func Param) (op : TimerAction Func Param) :
    (s.operate op).loop = s.loop ∧ (s.operate op).place = s.place ∧
      (SameWake s.timers (s.operate op).timers ∨
        s.timers.softTimerHandling = false ∧ (s.operate op).timers.softTimerHandling = true ∧
          (s.operate op).timers.sTime = s.timers.sTime + 1) := by
  cases op with
  | softHandle ticks => exact ⟨rfl, rfl, .inl ⟨rfl, rfl⟩⟩
  | check ticks => exact ⟨rfl, rfl, timerCheck_wake ticks⟩
  | _ => exact ⟨rfl, rfl, .inl (sameWake_timerStep (by simp) (by simp))⟩

theorem operate_keeps (hinv : Inv s) (h : s.NoLostWakeUp) (op : TimerAction Func Param) :
    Inv (s.operate op) ∧ (s.operate op).NoLostWakeUp := by
  obtain ⟨hloop, hplace, hwake⟩ := operate_wake s op
  have hevent : (s.operate op).Posted →
      (s.operate op).loop.sEvent ≠ 0 ∨ (s.operate op).place = .dispatched .event := by
    rw [Posted, hloop, hplace]
    exact h.event
  have hdrain : (s.operate op).place = .spliced ↔ (s.operate op).loop.drain ≠ .idle := by
    rw [hloop, hplace]
    exact hinv.place
  rcases hwake with ⟨hflag, hcount⟩ | ⟨hdown, hup, hcount⟩
  · refine ⟨⟨?_, hdrain⟩, noLostWakeUp_of hevent ?_⟩
    · rw [hflag, hcount]
      exact hinv.down
    · rw [hflag, hcount, hplace]
      exact h.timer
  · rw [hinv.down hdown] at hcount
    refine ⟨⟨fun hno ↦ ?_, hdrain⟩, noLostWakeUp_of hevent fun _ ↦ .inl ?_⟩
    · exact absurd (hno.symm.trans hup) Bool.false_ne_true
    · rw [hcount]
      decide

theorem poll_keeps (hinv : Inv s) (h : s.NoLostWakeUp) : Inv s.poll ∧ s.poll.NoLostWakeUp := by
  unfold poll
  split
  · exact ⟨⟨hinv.down, hinv.place⟩, noLostWakeUp_of h.event h.timer⟩
  · exact ⟨hinv, h⟩

/-- The counter is cleared, and its handler is dispatched. -/
theorem channelRead_keeps (hinv : Inv s) (h : s.NoLostWakeUp) :
    Inv s.channelRead ∧ s.channelRead.NoLostWakeUp := by
  unfold channelRead
  split
  · next hpass _ =>
      have hidle : s.loop.drain = .idle := hinv.drain_idle hpass (by decide)
      refine ⟨inv_of_idle (fun _ ↦ rfl) (by simp) hidle, ?_⟩
      apply noLostWakeUp_of
      · exact fun hposted ↦ .inl (h.event_counted hpass (by decide) hposted)
      · exact fun _ ↦ .inr rfl
  · next hpass _ =>
      have hidle : s.loop.drain = .idle := hinv.drain_idle hpass (by decide)
      refine ⟨inv_of_idle hinv.down (by simp) hidle, ?_⟩
      apply noLostWakeUp_of
      · exact fun _ ↦ .inr rfl
      · exact fun hup ↦ .inl (h.timer_counted hpass (by decide) hup)
  · exact ⟨hinv, h⟩

/-- Leaving the handler of the timer channel, the flag is down and the counter at 0. -/
theorem noLostWakeUp_of_down {s' : WakeUp Handler Pvoid Func Param} (h : s.NoLostWakeUp)
    (htimer : s.place = .dispatched .timer) (hloop : s'.loop = s.loop)
    (hdown : s'.timers.softTimerHandling = false) : s'.NoLostWakeUp := by
  apply noLostWakeUp_of
  · intro hposted
    rw [Posted, hloop] at hposted
    rw [hloop]
    exact .inl (h.event_counted htimer (by decide) hposted)
  · intro hup
    exact absurd (hdown.symm.trans hup) Bool.false_ne_true

theorem softTimerDone_keeps (hinv : Inv s) (h : s.NoLostWakeUp)
    (htimer : s.place = .dispatched .timer) :
    Inv s.softTimerDone ∧ s.softTimerDone.NoLostWakeUp := by
  have hidle : s.loop.drain = .idle := hinv.drain_idle htimer (by decide)
  constructor
  · exact inv_of_idle (fun _ ↦ rfl) (by simp [softTimerDone]) hidle
  · exact noLostWakeUp_of_down h htimer rfl rfl

/-- A step behind the splice leaves the list and the counter alone. -/
theorem drain_keeps (hinv : Inv s) (h : s.NoLostWakeUp) (hspliced : s.place = .spliced)
    {s' : WakeUp Handler Pvoid Func Param} (hloop : s'.loop = s.loop.handleStep)
    (htimers : s'.timers = s.timers)
    (hplace : s'.place = if s.loop.handleStep.drain = .idle then .pass else .spliced) :
    Inv s' ∧ s'.NoLostWakeUp := by
  obtain ⟨hlinks, hcount⟩ := EventLoop.handleStep_frame (hinv.place.mp hspliced)
  constructor
  · refine ⟨htimers ▸ hinv.down, ?_⟩
    rw [hplace, hloop]
    by_cases hidle : s.loop.handleStep.drain = .idle
    · simp [hidle]
    · simp [hidle]
  · apply noLostWakeUp_of
    · intro hposted
      rw [Posted, hloop, hlinks] at hposted
      rw [hloop, hcount]
      exact .inl (h.event_counted hspliced (by decide) hposted)
    · rw [htimers]
      exact fun hup ↦ .inl (h.timer_counted hspliced (by decide) hup)

theorem callbackStep_keeps (hinv : Inv s) (h : s.NoLostWakeUp) (tick : Tick) :
    Inv (s.callbackStep tick) ∧ (s.callbackStep tick).NoLostWakeUp := by
  unfold callbackStep
  split
  · exact ⟨hinv, h⟩
  · next htimer =>
      have hdone := softTimerDone_keeps hinv h htimer
      split
      · split
        · next i _ _ =>
            obtain ⟨hflag, hcount⟩ := sameWake_expire (m := s.timers) .softTimerList i tick
            refine ⟨⟨?_, hinv.place⟩, noLostWakeUp_of h.event fun _ ↦ .inr htimer⟩
            rw [hflag, hcount]
            exact hinv.down
        · exact hdone
      · exact hdone
  · next hevent =>
      have hidle : s.loop.drain = .idle := hinv.drain_idle hevent (by decide)
      have hsplice : s.loop.handleStep = s.loop.splice := by
        simp only [EventLoop.handleStep, hidle]
      rw [hsplice]
      refine ⟨⟨hinv.down, iff_of_true rfl (by simp [EventLoop.splice])⟩, ?_⟩
      apply noLostWakeUp_of
      · exact fun hposted ↦ absurd s.loop.splice_next hposted
      · exact fun hup ↦ .inl (h.timer_counted hevent (by decide) hup)
  · next hspliced => exact drain_keeps hinv h hspliced rfl rfl rfl

/-- With interrupts at every point of the handlers too, no wake-up is lost exactly as long as the
counter of the event device does not wrap. -/
theorem noLostWakeUp_fineRun_iff (links : Links EventNode)
    (param : Fin eventNr → Library.ByteMemory.Mem) (timerLinks : Links TimerNode)
    (parameter : Param) (actions : List (WakeAction Handler Pvoid Func Param Tick)) :
    AllStates fineStep NoLostWakeUp (construct links param timerLinks parameter) actions ↔
      AllSteps fineStep CounterHolds (construct links param timerLinks parameter) actions := by
  apply allStates_iff_allSteps Inv
  · intro s action hinv h _
    cases action with
    | post event => exact hinv.post event
    | timer op => exact (operate_keeps hinv h op).1
    | poll => exact (poll_keeps hinv h).1
    | channelRead => exact (channelRead_keeps hinv h).1
    | callback tick => exact (callbackStep_keeps hinv h tick).1
  · intro s action hinv h
    cases action with
    | post event => exact noLostWakeUp_post_iff h event
    | timer op => exact iff_of_true (operate_keeps hinv h op).2 trivial
    | poll => exact iff_of_true (poll_keeps hinv h).2 trivial
    | channelRead => exact iff_of_true (channelRead_keeps hinv h).2 trivial
    | callback tick => exact iff_of_true (callbackStep_keeps hinv h tick).2 trivial
  · exact inv_construct ..
  · exact noLostWakeUp_construct ..

/-! ### Handlers that are called as a whole -/

/-- Between the steps of the loop the queue holds the slots in use, no fewer than the counter
shows. -/
structure Counted (s : WakeUp Handler Pvoid Func Param) : Prop where
  inv : Inv s
  noLost : s.NoLostWakeUp
  idle : s.loop.drain = .idle
  queue : ∃ queue, s.loop.Holds queue [] ∧
    (∀ i ∈ queue, taken s.loop.manage.bitmap i = true) ∧ s.loop.sEvent.toNat ≤ queue.length

/-- A slot that is free is not queued, and the counter is as small as the pool. -/
theorem Counted.post (h : Counted s) (event : Event Handler Pvoid) : Counted (s.post event) := by
  obtain ⟨queue, hholds, htaken, hcount⟩ := h.queue
  have hsmall : s.loop.sEvent.toNat + 1 < 2 ^ 32 := by
    calc s.loop.sEvent.toNat + 1 ≤ queue.length + 1 := Nat.succ_le_succ hcount
      _ ≤ eventNr + 1 := Nat.succ_le_succ
        (EventLoop.length_le_eventNr (List.nodup_append.mp hholds.nodup).1)
      _ < 2 ^ 32 := by decide
  have hsucc : (s.loop.sEvent + 1).toNat = s.loop.sEvent.toNat + 1 :=
    BitVec.toNat_add_of_lt hsmall
  have hnoLost : (s.post event).NoLostWakeUp := by
    apply (noLostWakeUp_post_iff h.noLost event).mpr
    intro _
    refine .inl fun hzero ↦ ?_
    rw [hzero] at hsucc
    exact absurd hsucc (Nat.succ_ne_zero _).symm
  cases hslot : s.loop.nextSlot with
  | none =>
      have hsame : s.post event = s := by
        rw [WakeUp.post, EventLoop.runInloop_of_none event hslot]
      rwa [hsame]
  | some i =>
      have hfree : taken s.loop.manage.bitmap i = false := firstFree_eq_some hslot
      have hnotMem : i ∉ queue := fun hin ↦ by simp [htaken i hin] at hfree
      have hnext := hholds.runInloop event hslot hnotMem List.not_mem_nil
      have hrun := EventLoop.runInloop_of_some event hslot
      refine ⟨h.inv.post event, hnoLost, ?_, i :: queue, hnext, fun j hj ↦ ?_, ?_⟩
      · rw [WakeUp.post, hrun]
        exact h.idle
      · rw [WakeUp.post, hrun]
        show taken (take s.loop.manage.bitmap i) j = true
        rw [taken_take _ (EventLoop.slot_lt i) (EventLoop.slot_lt j)]
        rcases List.mem_cons.mp hj with rfl | hbefore
        · simp
        · simp [htaken j hbefore]
      · rw [WakeUp.post, hrun]
        exact hsucc.trans_le (Nat.succ_le_succ hcount)

/-- The handler of the event channel leaves nothing queued, and the counter at 0. -/
theorem Counted.callback (h : Counted s) (ticks : List Tick) : Counted (s.callback ticks) := by
  unfold WakeUp.callback
  split
  · next htimer =>
      refine ⟨?_, noLostWakeUp_of_down h.noLost htimer rfl rfl, h.idle, h.queue⟩
      exact inv_of_idle (fun _ ↦ rfl) (by simp) h.idle
  · next hevent =>
      obtain ⟨queue, hholds, -, -⟩ := h.queue
      obtain ⟨hidle, hempty, -⟩ := eventHandle_drained hholds h.idle
      have hcount : s.loop.eventHandle.sEvent = 0 := EventLoop.eventHandle_sEvent h.idle
      simp only [if_pos hidle]
      refine ⟨inv_of_idle h.inv.down (by simp) hidle, ?_, hidle, [], hempty,
        fun _ hi ↦ absurd hi List.not_mem_nil, ?_⟩
      · apply noLostWakeUp_of
        · exact fun hposted ↦ absurd (hempty.ring.next_head_eq_iff.mpr rfl) hposted
        · exact fun hup ↦ .inl (h.noLost.timer_counted hevent (by decide) hup)
      · rw [hcount]
        exact Nat.le_refl 0
  · exact h

/-- The other steps change nothing of the loop but the counter, which they clear. -/
theorem Counted.of_loop (h : Counted s) {s' : WakeUp Handler Pvoid Func Param}
    (hkeeps : Inv s' ∧ s'.NoLostWakeUp)
    (hloop : s'.loop = s.loop ∨ s'.loop = { s.loop with sEvent := 0 }) : Counted s' := by
  obtain ⟨hinv, hnoLost⟩ := hkeeps
  obtain ⟨queue, hholds, htaken, hcount⟩ := h.queue
  rcases hloop with hsame | hcleared
  · refine ⟨hinv, hnoLost, ?_, queue, ?_⟩
    · rw [hsame]
      exact h.idle
    · rw [hsame]
      exact ⟨hholds, htaken, hcount⟩
  · refine ⟨hinv, hnoLost, ?_, queue, ?_⟩
    · rw [hcleared]
      exact h.idle
    · rw [hcleared]
      exact ⟨⟨hholds.ring, hholds.trail, hholds.nodup⟩, htaken, Nat.zero_le _⟩

theorem Counted.step (h : Counted s)
    (action : WakeAction Handler Pvoid Func Param (List Tick)) : Counted (s.step action) := by
  cases action with
  | post event => exact h.post event
  | timer op => exact h.of_loop (operate_keeps h.inv h.noLost op) (.inl (operate_wake s op).1)
  | poll =>
      apply h.of_loop (poll_keeps h.inv h.noLost)
      unfold poll
      split <;> exact .inl rfl
  | channelRead =>
      apply h.of_loop (channelRead_keeps h.inv h.noLost)
      unfold channelRead
      split
      · exact .inl rfl
      · exact .inr rfl
      · exact .inl rfl
  | callback ticks => exact h.callback ticks

end WakeUp

end ProjectSensor.Reactor
