import ProjectSensor.Reactor.EventLoop
import Mathlib.Data.List.Perm.Subperm

/-!
# Every posted event runs exactly once

Posts come between any two steps of the drain.  As long as no post is given a slot whose node is
still linked, the events accepted so far are, each once, the ones already called and the ones still
waiting on one of the two lists; and every drain ends, whatever is posted meanwhile.
-/

open ProjectSensor.Library.LinkedRing ProjectSensor.Library.SlotBitmap
open ProjectSensor.Library.Transition
open ProjectSensor.Service

namespace ProjectSensor.Reactor

variable {Handler Pvoid : Type}

/-- The event loop with a record of the events `run_inloop` returned 0 for and of the events
called, each as the handler received it; the latest comes first. -/
structure Monitored (Handler Pvoid : Type) where
  loop : EventLoop Handler Pvoid
  accepted : List (Event Handler Pvoid)
  called : List (Event Handler Pvoid)

inductive LoopAction (Handler Pvoid : Type) where
  | post (event : Event Handler Pvoid)
  | handle

def LoopAction.isHandle : LoopAction Handler Pvoid → Bool
  | .post _ => false
  | .handle => true

namespace Monitored

/-- The start: nothing posted, nothing called. -/
def construct (links : Links EventNode) (param : Fin eventNr → Library.ByteMemory.Mem) :
    Monitored Handler Pvoid where
  loop := EventLoop.construct links param
  accepted := []
  called := []

def step (state : Monitored Handler Pvoid) : LoopAction Handler Pvoid → Monitored Handler Pvoid
  | .post event =>
      let (rt, loop) := state.loop.runInloop event
      { state with
        loop := loop
        accepted := if rt = 0 then event :: state.accepted else state.accepted }
  | .handle =>
      { state with
        loop := state.loop.handleStep
        called := (state.loop.calling.map state.loop.manage.event).toList ++ state.called }

@[simp]
theorem step_handle_accepted (state : Monitored Handler Pvoid) :
    (state.step .handle).accepted = state.accepted := rfl

@[simp]
theorem step_post_called (state : Monitored Handler Pvoid) (event : Event Handler Pvoid) :
    (state.step (.post event)).called = state.called := rfl

end Monitored

namespace EventLoop

/-- The nodes of the drain under way that have not been called yet. -/
def uncalled (loop : EventLoop Handler Pvoid) : List EventNode :=
  match loop.drain with
  | .called _ | .freed _ => loop.ahead.tail
  | _ => loop.ahead

/-- The events waiting on the two lists. -/
def waiting (loop : EventLoop Handler Pvoid) : List (Event Handler Pvoid) :=
  (loop.queued ++ loop.uncalled).filterMap fun
    | .event i => some (loop.manage.event i)
    | _ => none

end EventLoop

/-- The lists are well formed, the drain stays on its list, and every event accepted so far has
either been called or is still waiting, once. -/
structure RunsOnce (state : Monitored Handler Pvoid) : Prop where
  onCourse : state.loop.drain ≠ .astray
  listEvent : ∃ nodes, IsRing state.loop.links .listEvent nodes
  listHeadEvent : state.loop.drain ≠ .idle → ∃ nodes, IsRing state.loop.links .listHeadEvent nodes
  once : state.accepted.Perm (state.called ++ state.loop.waiting)

/-- A post that gets a slot gets one whose node is on neither list. -/
def SlotUnlinked (state : Monitored Handler Pvoid) : LoopAction Handler Pvoid → Prop
  | .post _ => ∀ i, state.loop.nextSlot = some i →
      .event i ∉ state.loop.queued ∧ .event i ∉ state.loop.batch
  | .handle => True

instance (state : Monitored Handler Pvoid) :
    ∀ action : LoopAction Handler Pvoid, Decidable (SlotUnlinked state action)
  | .post _ => inferInstanceAs (Decidable (∀ _, _ → _ ∧ _))
  | .handle => inferInstanceAs (Decidable True)

/-- The part of `left` that the drain has not called. -/
def Drain.uncalled : Drain → List (Fin eventNr) → List (Fin eventNr)
  | .called _, left | .freed _, left => left.tail
  | _, left => left

/-- The invariant: `queue` on `m_list_event`, `gone ++ left` on the list of the drain under way,
of which `gone` has been advanced from. -/
structure OnCourse (state : Monitored Handler Pvoid) (queue gone left : List (Fin eventNr)) :
    Prop where
  holds : state.loop.Holds queue left
  batch : state.loop.drain ≠ .idle →
    IsRing state.loop.links .listHeadEvent ((gone ++ left).map .event)
  disjoint : state.loop.drain ≠ .idle → ∀ i ∈ gone, i ∉ queue
  accounted : state.accepted.Perm (state.called ++
    (queue ++ state.loop.drain.uncalled left).map state.loop.manage.event)

variable {state : Monitored Handler Pvoid} {queue gone left : List (Fin eventNr)}

theorem onCourse_construct (links : Links EventNode)
    (param : Fin eventNr → Library.ByteMemory.Mem) :
    OnCourse (Monitored.construct links param : Monitored Handler Pvoid) [] [] [] where
  holds := EventLoop.holds_construct links param
  batch := fun hne ↦ absurd rfl hne
  disjoint := fun hne ↦ absurd rfl hne
  accounted := List.Perm.nil

theorem OnCourse.batch_eq (hcourse : OnCourse state queue gone left)
    (hbusy : state.loop.drain ≠ .idle) : state.loop.batch = (gone ++ left).map .event := by
  have hring := hcourse.batch hbusy
  have hnodup := List.Nodup.of_map _ hring.nodes_nodup
  have hlen := EventLoop.length_le_eventNr hnodup
  rw [EventLoop.batch, if_neg hbusy]
  exact hring.walk_eq (by rw [List.length_map]; omega)

/-- The uncalled nodes are those of the slots the drain has not called. -/
theorem EventLoop.Holds.uncalled_eq {loop : EventLoop Handler Pvoid}
    (hholds : loop.Holds queue left) : loop.uncalled = (loop.drain.uncalled left).map .event := by
  unfold EventLoop.uncalled Drain.uncalled
  rw [hholds.ahead_eq]
  cases loop.drain <;> simp

theorem OnCourse.waiting_eq (hcourse : OnCourse state queue gone left) :
    state.loop.waiting =
      (queue ++ state.loop.drain.uncalled left).map state.loop.manage.event := by
  rw [EventLoop.waiting, hcourse.holds.uncalled_eq, hcourse.holds.queued_eq, ← List.map_append,
    List.filterMap_map]
  exact congrFun List.filterMap_eq_map _

theorem OnCourse.runsOnce (hcourse : OnCourse state queue gone left) : RunsOnce state where
  onCourse := fun hastray ↦ by simpa [hastray] using hcourse.holds.trail
  listEvent := ⟨_, hcourse.holds.ring⟩
  listHeadEvent := fun hbusy ↦ ⟨_, hcourse.batch hbusy⟩
  once := hcourse.waiting_eq ▸ hcourse.accounted

theorem uncalled_sublist (drain : Drain) (left : List (Fin eventNr)) :
    (drain.uncalled left).Sublist left := by
  cases drain <;> simp [Drain.uncalled, List.tail_sublist]

/-- Linking into the queue leaves the list of the drain under way as it is. -/
theorem OnCourse.batch_insertAfter (hcourse : OnCourse state queue gone left)
    (hbusy : state.loop.drain ≠ .idle) {i : Fin eventNr} (hbatch : i ∉ gone ++ left) :
    IsRing (state.loop.links.insertAfter .listEvent (.event i)) .listHeadEvent
      ((gone ++ left).map .event) := by
  apply (hcourse.batch hbusy).of_agreeAt
  intro node hnode
  apply hcourse.holds.ring.agreeAt_insertAfter List.mem_cons_self
  rcases List.mem_cons.mp hnode with rfl | hmem
  · simp
  · obtain ⟨j, hj, rfl⟩ := List.mem_map.mp hmem
    have hji : j ≠ i := ne_of_mem_of_not_mem hj hbatch
    have hjqueue : j ∉ queue := by
      rcases List.mem_append.mp hj with hgone | hleft
      · exact hcourse.disjoint hbusy j hgone
      · exact fun hin ↦ (List.nodup_append.mp hcourse.holds.nodup).2.2 j hin j hleft rfl
    simp [hji, hjqueue]

/-- A post that gets a slot on neither list puts its event at the front of the queue. -/
theorem OnCourse.post (hcourse : OnCourse state queue gone left) (event : Event Handler Pvoid)
    {i : Fin eventNr} (hslot : state.loop.nextSlot = some i)
    (hunlinked : SlotUnlinked state (.post event)) :
    OnCourse (state.step (.post event)) (i :: queue) gone left := by
  obtain ⟨hqueued, hbatch⟩ := hunlinked i hslot
  have hqueue : i ∉ queue := by simpa [hcourse.holds.queued_eq] using hqueued
  have hlocal : state.loop.drain ≠ .idle → i ∉ gone ++ left := fun hbusy ↦ by
    simpa [hcourse.batch_eq hbusy] using hbatch
  have hleft : i ∉ left := by
    by_cases hidle : state.loop.drain = .idle
    · have hnil : left = [] := by simpa [hidle] using hcourse.holds.trail
      simp [hnil]
    · exact fun hin ↦ hlocal hidle (List.mem_append_right _ hin)
  have hholds := hcourse.holds.runInloop event hslot hqueue hleft
  have hrun := EventLoop.runInloop_of_some event hslot
  have hloop : (state.step (.post event)).loop = (state.loop.runInloop event).2 := rfl
  have hdrain : (state.step (.post event)).loop.drain = state.loop.drain := by rw [hloop, hrun]
  have huncalled : i ∉ queue ++ state.loop.drain.uncalled left := fun hin ↦
    (List.mem_append.mp hin).elim hqueue
      fun hin ↦ hleft ((uncalled_sublist _ _).subset hin)
  refine ⟨hholds, fun hbusy ↦ ?_, fun hbusy j hj hin ↦ ?_, ?_⟩
  · rw [hdrain] at hbusy
    rw [hloop, hrun]
    exact hcourse.batch_insertAfter hbusy (hlocal hbusy)
  · rw [hdrain] at hbusy
    rcases List.mem_cons.mp hin with rfl | hmem
    · exact hlocal hbusy (List.mem_append_left _ hj)
    · exact hcourse.disjoint hbusy j hj hmem
  · have haccepted : (state.step (.post event)).accepted = event :: state.accepted := by
      simp [Monitored.step, hrun]
    have hcalled : (state.step (.post event)).called = state.called := rfl
    rw [haccepted, hcalled, hdrain, hloop, List.cons_append, List.map_cons,
      EventLoop.event_runInloop_self event hslot,
      EventLoop.map_event_runInloop event hslot huncalled]
    exact (hcourse.accounted.cons event).trans List.perm_middle.symm

/-- A refused post changes nothing. -/
theorem step_post_refused (event : Event Handler Pvoid) (hslot : state.loop.nextSlot = none) :
    state.step (.post event) = state := by
  simp [Monitored.step, EventLoop.runInloop_of_none event hslot]

/-- A step of a drain under way leaves both lists as they are; `gone` and `left` share the second
one between them. -/
theorem OnCourse.handle_busy (hcourse : OnCourse state queue gone left)
    (hbusy : state.loop.drain ≠ .idle) {gone' left' : List (Fin eventNr)}
    (hholds : state.loop.handleStep.Holds queue left') (hshared : gone' ++ left' = gone ++ left)
    (hdisjoint : ∀ i ∈ gone', i ∉ queue)
    (haccounted : state.accepted.Perm ((state.step .handle).called ++
      (queue ++ state.loop.handleStep.drain.uncalled left').map
        state.loop.handleStep.manage.event)) :
    OnCourse (state.step .handle) queue gone' left' where
  holds := hholds
  batch _ := by
    show IsRing state.loop.handleStep.links .listHeadEvent ((gone' ++ left').map .event)
    rw [hshared, (EventLoop.handleStep_frame hbusy).1]
    exact hcourse.batch hbusy
  disjoint _ := hdisjoint
  accounted := haccounted

/-- What a step of the drain does to the three lists. -/
theorem OnCourse.handle (hcourse : OnCourse state queue gone left) :
    match state.loop.drain with
    | .idle => OnCourse (state.step .handle) [] [] queue
    | .freed i => ∃ rest, left = i :: rest ∧
        OnCourse (state.step .handle) queue (gone ++ [i]) rest
    | _ => OnCourse (state.step .handle) queue gone left := by
  have hstep := hcourse.holds.handleStep
  have hloop : (state.step .handle).loop = state.loop.handleStep := rfl
  have haccounted := hcourse.accounted
  have hdisjoint := hcourse.disjoint
  rcases hdrain : state.loop.drain with _ | pos | i | i | _
  · rw [hdrain] at hstep haccounted
    refine ⟨hstep.2, fun _ ↦ ?_, fun _ i hi ↦ absurd hi List.not_mem_nil, ?_⟩
    · have hsplice := (hcourse.holds.splice hdrain).2.2
      simpa [hloop, EventLoop.handleStep, hdrain] using hsplice
    · have hcalled : (state.step .handle).called = state.called := by
        simp [Monitored.step, EventLoop.calling, hdrain]
      rw [hcalled, hloop]
      simpa [EventLoop.handleStep, hdrain, EventLoop.splice, Drain.uncalled, hstep.1]
        using haccounted
  · have hbusy : state.loop.drain ≠ .idle := by simp [hdrain]
    cases pos with
    | listHeadEvent =>
        rw [hdrain] at hstep haccounted
        obtain ⟨rfl, hholds⟩ := hstep
        apply hcourse.handle_busy hbusy hholds rfl (hdisjoint hbusy)
        simpa [Monitored.step, EventLoop.calling, EventLoop.handleStep, hdrain, Drain.uncalled]
          using haccounted
    | listEvent => simp [hdrain] at hstep
    | event i =>
        rw [hdrain] at hstep haccounted
        obtain ⟨rest, rfl, hholds⟩ := hstep
        apply hcourse.handle_busy hbusy hholds rfl (hdisjoint hbusy)
        have hcalled : (state.step .handle).called =
            state.loop.manage.event i :: state.called := by
          simp [Monitored.step, EventLoop.calling, hdrain]
        -- the event of the slot goes from the uncalled ones to the front of the called ones
        rw [hcalled]
        refine haccounted.trans ?_
        simp only [EventLoop.handleStep, hdrain, Drain.uncalled, List.map_append, List.map_cons,
          List.tail_cons]
        rw [← List.append_assoc, List.cons_append, ← List.append_assoc]
        exact List.perm_middle
  · have hbusy : state.loop.drain ≠ .idle := by simp [hdrain]
    rw [hdrain] at hstep haccounted
    obtain ⟨rest, rfl, hholds⟩ := hstep
    apply hcourse.handle_busy hbusy hholds rfl (hdisjoint hbusy)
    simpa [Monitored.step, EventLoop.calling, EventLoop.handleStep, hdrain, Drain.uncalled,
      EventManage.eventFree] using haccounted
  · have hbusy : state.loop.drain ≠ .idle := by simp [hdrain]
    rw [hdrain] at hstep haccounted
    obtain ⟨rest, rfl, hholds⟩ := hstep
    refine ⟨rest, rfl, hcourse.handle_busy hbusy hholds (by simp) (fun j hj ↦ ?_) ?_⟩
    · rcases List.mem_append.mp hj with hgone | hlast
      · exact hdisjoint hbusy j hgone
      · obtain rfl : j = i := List.mem_singleton.mp hlast
        exact fun hin ↦ (List.nodup_append.mp hcourse.holds.nodup).2.2 j hin j
          List.mem_cons_self rfl
    · simpa [Monitored.step, EventLoop.calling, EventLoop.handleStep, hdrain, Drain.uncalled]
        using haccounted
  · simp [hdrain] at hstep

/-- How many steps the drain under way still takes. -/
def Drain.stepsLeft : Drain → List (Fin eventNr) → ℕ
  | .idle, _ | .astray, _ => 0
  | .test _, left => 3 * left.length + 1
  | .called _, left => 3 * left.length
  | .freed _, left => 3 * left.length - 1

theorem OnCourse.stepsLeft_le (hcourse : OnCourse state queue gone left) :
    state.loop.drain.stepsLeft left ≤ 3 * eventNr + 1 := by
  have hlen := EventLoop.length_le_eventNr (List.nodup_append.mp hcourse.holds.nodup).2.1
  cases state.loop.drain <;> simp only [Drain.stepsLeft] <;> omega

theorem OnCourse.stepsLeft_pos (hcourse : OnCourse state queue gone left)
    (hbusy : state.loop.drain ≠ .idle) : 0 < state.loop.drain.stepsLeft left := by
  have hstep := hcourse.holds.handleStep
  rcases hdrain : state.loop.drain with _ | pos | i | i | _
  · exact absurd hdrain hbusy
  · exact Nat.succ_pos _
  · rw [hdrain] at hstep
    obtain ⟨rest, rfl, -⟩ := hstep
    simp [Drain.stepsLeft]
  · rw [hdrain] at hstep
    obtain ⟨rest, rfl, -⟩ := hstep
    simp only [Drain.stepsLeft, List.length_cons]
    omega
  · simp [hdrain] at hstep

/-- A post neither moves the drain nor changes an event it has yet to call. -/
theorem OnCourse.post_drain (hcourse : OnCourse state queue gone left)
    (event : Event Handler Pvoid) (hunlinked : SlotUnlinked state (.post event)) :
    ∃ queue', OnCourse (state.step (.post event)) queue' gone left ∧
      (state.step (.post event)).loop.drain = state.loop.drain ∧
      (state.loop.drain.uncalled left).map (state.step (.post event)).loop.manage.event =
        (state.loop.drain.uncalled left).map state.loop.manage.event ∧
      (queue.map state.loop.manage.event).Sublist
        (queue'.map (state.step (.post event)).loop.manage.event) := by
  cases hslot : state.loop.nextSlot with
  | none =>
      rw [step_post_refused event hslot]
      exact ⟨queue, hcourse, rfl, rfl, List.Sublist.refl _⟩
  | some i =>
      have hnext := hcourse.post event hslot hunlinked
      have hloop : (state.step (.post event)).loop = (state.loop.runInloop event).2 := rfl
      have hdrain : (state.step (.post event)).loop.drain = state.loop.drain := by
        rw [hloop, EventLoop.runInloop_of_some event hslot]
      obtain ⟨hqueue, hleft⟩ :=
        not_or.mp (mt List.mem_append.mpr (List.nodup_cons.mp hnext.holds.nodup).1)
      have huncalled : i ∉ state.loop.drain.uncalled left :=
        fun hin ↦ hleft ((uncalled_sublist _ _).subset hin)
      refine ⟨i :: queue, hnext, hdrain, EventLoop.map_event_runInloop event hslot huncalled, ?_⟩
      rw [List.map_cons, hloop, EventLoop.map_event_runInloop event hslot hqueue]
      exact List.sublist_cons_self _ _

/-- A step of a drain under way uses up one step and calls what it no longer has to call. -/
theorem OnCourse.handle_drain (hcourse : OnCourse state queue gone left)
    (hbusy : state.loop.drain ≠ .idle) :
    ∃ gone' left', OnCourse (state.step .handle) queue gone' left' ∧
      (state.step .handle).loop.drain.stepsLeft left' + 1 = state.loop.drain.stepsLeft left ∧
      (state.called ++ (state.loop.drain.uncalled left).map state.loop.manage.event).Perm
        ((state.step .handle).called ++ ((state.step .handle).loop.drain.uncalled left').map
          (state.step .handle).loop.manage.event) := by
  have hhandle := hcourse.handle
  have hstep := hcourse.holds.handleStep
  rcases hdrain : state.loop.drain with _ | pos | i | i | _
  · exact absurd hdrain hbusy
  · rw [hdrain] at hhandle hstep
    refine ⟨gone, left, hhandle, ?_⟩
    cases pos with
    | listHeadEvent =>
        obtain ⟨rfl, -⟩ := hstep
        simp [Monitored.step, EventLoop.handleStep, EventLoop.calling, hdrain, Drain.stepsLeft,
          Drain.uncalled]
    | listEvent => exact hstep.elim
    | event i =>
        obtain ⟨rest, rfl, -⟩ := hstep
        simp only [Monitored.step, EventLoop.handleStep, EventLoop.calling, hdrain,
          Drain.stepsLeft, Drain.uncalled, List.map_cons, List.tail_cons]
        exact ⟨trivial, List.perm_middle⟩
  · rw [hdrain] at hhandle hstep
    obtain ⟨rest, rfl, -⟩ := hstep
    refine ⟨gone, i :: rest, hhandle, ?_⟩
    simp only [Monitored.step, EventLoop.handleStep, EventLoop.calling, hdrain, Drain.stepsLeft,
      Drain.uncalled, List.length_cons]
    exact ⟨by omega, List.Perm.refl _⟩
  · rw [hdrain] at hhandle
    obtain ⟨rest, rfl, hnext⟩ := hhandle
    refine ⟨gone ++ [i], rest, hnext, ?_⟩
    simp only [Monitored.step, EventLoop.handleStep, EventLoop.calling, hdrain, Drain.stepsLeft,
      Drain.uncalled, List.length_cons, List.tail_cons]
    exact ⟨by omega, List.Perm.refl _⟩
  · rw [hdrain] at hstep
    exact hstep.elim

/-- A drain under way ends after exactly the steps it has left, and has called all it had to. -/
theorem OnCourse.drain_ends {owed : List (Event Handler Pvoid)}
    {more : List (LoopAction Handler Pvoid)} (hcourse : OnCourse state queue gone left)
    (hbusy : state.loop.drain ≠ .idle)
    (howed : owed.Subperm (state.called ++
      (state.loop.drain.uncalled left).map state.loop.manage.event))
    (hslots : AllSteps Monitored.step SlotUnlinked state more)
    (hcount : state.loop.drain.stepsLeft left ≤ more.countP LoopAction.isHandle) :
    ∃ before after queue' gone', more = before ++ after ∧
      before.countP LoopAction.isHandle = state.loop.drain.stepsLeft left ∧
      OnCourse (run Monitored.step state before) queue' gone' [] ∧
      (run Monitored.step state before).loop.drain = .idle ∧
      owed.Subperm (run Monitored.step state before).called := by
  induction more generalizing state queue gone left with
  | nil => exact absurd (hcourse.stepsLeft_pos hbusy) (by simpa using hcount)
  | cons action more ih =>
      cases action with
      | post event =>
          obtain ⟨queue', hnext, hdrain, huncalled, -⟩ := hcourse.post_drain event hslots.1
          obtain ⟨before, after, queue'', gone', rfl, hbefore, hdone⟩ := ih hnext
            (by rwa [hdrain]) (by rwa [hdrain, huncalled]) hslots.2
            (by rw [hdrain]; simpa [LoopAction.isHandle] using hcount)
          refine ⟨.post event :: before, after, queue'', gone', rfl, ?_, hdone⟩
          rw [← hdrain, ← hbefore]
          simp [LoopAction.isHandle]
      | handle =>
          obtain ⟨gone', left', hnext, hless, hperm⟩ := hcourse.handle_drain hbusy
          have howed' := howed.trans hperm.subperm
          rw [List.countP_cons_of_pos (by rfl)] at hcount
          by_cases hidle : (state.step .handle).loop.drain = .idle
          · have hleft : left' = [] := by simpa [hidle] using hnext.holds.trail
            subst hleft
            refine ⟨[.handle], more, queue, gone', rfl, ?_, hnext, hidle, ?_⟩
            · rw [hidle] at hless
              exact hless
            · simpa [hidle, Drain.uncalled] using howed'
          · obtain ⟨before, after, queue'', gone'', rfl, hbefore, hdone⟩ := ih hnext hidle howed'
              hslots.2 (by omega)
            refine ⟨.handle :: before, after, queue'', gone'', rfl, ?_, hdone⟩
            simp only [List.countP_cons, hbefore, LoopAction.isHandle, if_true]
            exact hless

/-- From an idle loop the next drain starts with the next step of `event_handle`, and calls
everything that was queued. -/
theorem OnCourse.next_drain_ends {owed : List (Event Handler Pvoid)}
    {more : List (LoopAction Handler Pvoid)} (hcourse : OnCourse state queue gone left)
    (hidle : state.loop.drain = .idle)
    (howed : owed.Subperm (state.called ++ queue.map state.loop.manage.event))
    (hslots : AllSteps Monitored.step SlotUnlinked state more)
    (hcount : 3 * eventNr + 2 ≤ more.countP LoopAction.isHandle) :
    ∃ before after, more = before ++ after ∧
      (run Monitored.step state before).loop.drain = .idle ∧
      owed.Subperm (run Monitored.step state before).called := by
  induction more generalizing state queue with
  | nil => simp at hcount
  | cons action more ih =>
      cases action with
      | post event =>
          obtain ⟨queue', hnext, hdrain, -, hsub⟩ := hcourse.post_drain event hslots.1
          obtain ⟨before, after, rfl, hdone⟩ := ih hnext (by rw [hdrain, hidle])
            (howed.trans ((List.Sublist.refl _).append hsub).subperm) hslots.2
            (by simpa [LoopAction.isHandle] using hcount)
          exact ⟨.post event :: before, after, rfl, hdone⟩
      | handle =>
          rw [List.countP_cons_of_pos (by rfl)] at hcount
          have hnext := hcourse.handle
          rw [hidle] at hnext
          have hbusy : (state.step .handle).loop.drain ≠ .idle := by
            simp [Monitored.step, EventLoop.handleStep, hidle, EventLoop.splice]
          have hsteps := hnext.stepsLeft_le
          have howed' : owed.Subperm ((state.step .handle).called ++
              ((state.step .handle).loop.drain.uncalled queue).map
                (state.step .handle).loop.manage.event) := by
            simpa [Monitored.step, EventLoop.handleStep, EventLoop.calling, hidle,
              EventLoop.splice, Drain.uncalled] using howed
          obtain ⟨before, after, -, -, rfl, -, -, hdone⟩ :=
            hnext.drain_ends hbusy howed' hslots.2 (by omega)
          exact ⟨.handle :: before, after, rfl, hdone⟩

/-- The invariant after one allowed step. -/
theorem OnCourse.step {action : LoopAction Handler Pvoid}
    (hcourse : OnCourse state queue gone left) (hunlinked : SlotUnlinked state action) :
    ∃ queue gone left, OnCourse (state.step action) queue gone left := by
  cases action with
  | post event =>
      obtain ⟨queue', hnext, -⟩ := hcourse.post_drain event hunlinked
      exact ⟨queue', gone, left, hnext⟩
  | handle =>
      have hnext := hcourse.handle
      revert hnext
      rcases state.loop.drain with _ | pos | i | i | _
      · exact fun hnext ↦ ⟨_, _, _, hnext⟩
      · exact fun hnext ↦ ⟨_, _, _, hnext⟩
      · exact fun hnext ↦ ⟨_, _, _, hnext⟩
      · exact fun ⟨rest, _, hnext⟩ ↦ ⟨_, _, rest, hnext⟩
      · exact fun hnext ↦ ⟨_, _, _, hnext⟩

theorem onCourse_run {actions : List (LoopAction Handler Pvoid)} (links : Links EventNode)
    (param : Fin eventNr → Library.ByteMemory.Mem)
    (hslots : AllSteps Monitored.step SlotUnlinked (Monitored.construct links param) actions) :
    AllStates Monitored.step (fun state ↦ ∃ queue gone left, OnCourse state queue gone left)
      (Monitored.construct links param) actions :=
  allStates_of_step (fun _ _ ⟨_, _, _, hcourse⟩ hunlinked ↦ hcourse.step hunlinked)
    ⟨[], [], [], onCourse_construct links param⟩ hslots

/-- The events accepted so far stay accepted. -/
theorem accepted_subperm_run (state : Monitored Handler Pvoid)
    (actions : List (LoopAction Handler Pvoid)) :
    state.accepted.Subperm (run Monitored.step state actions).accepted := by
  induction actions generalizing state with
  | nil => exact List.Subperm.refl _
  | cons action actions ih =>
      refine List.Subperm.trans ?_ (ih (state.step action))
      cases action with
      | post event =>
          simp only [Monitored.step]
          split
          · exact (List.sublist_cons_self _ _).subperm
          · exact List.Subperm.refl _
      | handle => exact List.Subperm.refl _

/-- The drain under way ends, and the one after it has called every event accepted by now. -/
theorem OnCourse.all_called {more : List (LoopAction Handler Pvoid)}
    (hcourse : OnCourse state queue gone left)
    (hslots : AllSteps Monitored.step SlotUnlinked state more)
    (hcount : 2 * (3 * eventNr + 2) ≤ more.countP LoopAction.isHandle) :
    ∃ before after, more = before ++ after ∧
      (run Monitored.step state before).loop.drain = .idle ∧
      state.accepted.Subperm (run Monitored.step state before).called := by
  by_cases hidle : state.loop.drain = .idle
  · have hleft : left = [] := by simpa [hidle] using hcourse.holds.trail
    refine hcourse.next_drain_ends hidle ?_ hslots (by omega)
    simpa [hidle, hleft, Drain.uncalled] using hcourse.accounted.subperm
  · have hsteps := hcourse.stepsLeft_le
    obtain ⟨first, more, queue', gone', rfl, hfirst, hnext, hdone, -⟩ :=
      hcourse.drain_ends hidle List.nil_subperm hslots (by omega)
    rw [List.countP_append] at hcount
    have haccounted := hnext.accounted
    rw [hdone] at haccounted
    have howed : state.accepted.Subperm _ := (accepted_subperm_run state first).trans
      (by simpa [Drain.uncalled] using haccounted.subperm)
    obtain ⟨before, after, rfl, hlast, hcalled⟩ := hnext.next_drain_ends hdone howed
      (AllSteps.append_right hslots) (by omega)
    refine ⟨first ++ before, after, (List.append_assoc ..).symm, ?_⟩
    rw [run_append]
    exact ⟨hlast, hcalled⟩

/-- In every run in which no post is given a slot that is still linked, every accepted event is
called exactly once, as it was posted: it is never called twice or lost (`RunsOnce`), and any
continuation with enough steps of `event_handle` reaches the end of a drain by which it has been
called. -/
theorem runsOnce_run (links : Links EventNode)
    (param : Fin eventNr → Library.ByteMemory.Mem) (actions : List (LoopAction Handler Pvoid))
    (hslots : AllSteps Monitored.step SlotUnlinked (Monitored.construct links param) actions) :
    AllStates Monitored.step RunsOnce (Monitored.construct links param) actions ∧
      ∀ more, AllSteps Monitored.step SlotUnlinked
          (run Monitored.step (Monitored.construct links param) actions) more →
        2 * (3 * eventNr + 2) ≤ more.countP LoopAction.isHandle →
        ∃ before after, more = before ++ after ∧
          (run Monitored.step (Monitored.construct links param)
            (actions ++ before)).loop.drain = .idle ∧
          (run Monitored.step (Monitored.construct links param) actions).accepted.Subperm
            (run Monitored.step (Monitored.construct links param) (actions ++ before)).called := by
  have hcourse := onCourse_run links param hslots
  refine ⟨hcourse.mono fun _ ⟨_, _, _, hstate⟩ ↦ hstate.runsOnce, fun more hmore hcount ↦ ?_⟩
  obtain ⟨queue, gone, left, hlast⟩ := hcourse.last
  obtain ⟨before, after, hsplit, hdone⟩ := hlast.all_called hmore hcount
  refine ⟨before, after, hsplit, ?_⟩
  rw [run_append]
  exact hdone

/-- Two events posted before the drain and a third one while the first of them is executing. -/
theorem runsOnce_run_three_posts :
    AllStates Monitored.step RunsOnce
        (Monitored.construct ⟨id, id⟩ (fun _ _ ↦ 0) : Monitored Unit Unit)
        [.post (Event.construct (fun _ ↦ 0) (some ()) none),
         .post (Event.construct (fun _ ↦ 1) (some ()) none), .handle, .handle,
         .post (Event.construct (fun _ ↦ 2) (some ()) none), .handle, .handle] :=
  (runsOnce_run _ _ _ (by decide +kernel)).1

/-- A post between the release of a slot and the advance: the slot is linked into `m_list_event`
again, and the drain follows its node onto that list and takes the list head for an event. -/
theorem runsOnce_fails_after_post_before_advance :
    ¬ AllStates Monitored.step RunsOnce
        (Monitored.construct ⟨id, id⟩ (fun _ _ ↦ 0) : Monitored Unit Unit)
        [.post (Event.construct (fun _ ↦ 0) (some ()) none), .handle, .handle, .handle,
         .post (Event.construct (fun _ ↦ 1) (some ()) none), .handle, .handle] :=
  fun hstates ↦ absurd (by decide +kernel) hstates.last.onCourse

end ProjectSensor.Reactor
