import ProjectSensor.Reactor.EventPool
import ProjectSensor.Reactor.EventRun

/-!
# The order in which events run

Posts and uninterrupted drains follow each other.  `run_inloop` links each event right behind the
head of `m_list_event` and `event_handle` walks the spliced list from its head, so that between two
drains the events are kept as on a stack: a drain calls the latest posted first.  Events of
different drains run in posting order, those of one drain in the reverse of it.
-/

open ProjectSensor.Library.LinkedRing ProjectSensor.Library.SlotBitmap
open ProjectSensor.Library.Transition
open ProjectSensor.Service

namespace ProjectSensor.Reactor

variable {Handler Pvoid : Type}

namespace Monitored

/-- `step .handle` until the drain has ended. -/
def handleUntilIdle : ℕ → Monitored Handler Pvoid → Monitored Handler Pvoid
  | 0, state => state
  | fuel + 1, state =>
      let state := state.step .handle
      if state.loop.drain = .idle then state else handleUntilIdle fuel state

/-- A whole call of `event_handle` that nothing interrupts. -/
def eventHandle (state : Monitored Handler Pvoid) : Monitored Handler Pvoid :=
  handleUntilIdle (3 * eventNr + 2) state

theorem handleUntilIdle_loop (fuel : ℕ) (state : Monitored Handler Pvoid) :
    (state.handleUntilIdle fuel).loop = state.loop.drainUntilIdle fuel := by
  induction fuel generalizing state with
  | zero => rfl
  | succ fuel ih =>
      rw [handleUntilIdle, EventLoop.drainUntilIdle, apply_ite Monitored.loop, ih]
      rfl

/-- The monitor only watches: its loop is the one `event_handle` leaves. -/
@[simp]
theorem eventHandle_loop (state : Monitored Handler Pvoid) :
    state.eventHandle.loop = state.loop.eventHandle :=
  handleUntilIdle_loop _ state

end Monitored

/-- Posts and drains one after the other, none while another is running. -/
inductive WholeAction (Handler Pvoid : Type) where
  | post (event : Event Handler Pvoid)
  | drain

def wholeStep (state : Monitored Handler Pvoid) :
    WholeAction Handler Pvoid → Monitored Handler Pvoid
  | .post event => state.step (.post event)
  | .drain => state.eventHandle

/-- A post finds a free slot. -/
def PoolNotExhausted (state : Monitored Handler Pvoid) : WholeAction Handler Pvoid → Prop
  | .post _ => state.loop.nextSlot.isSome = true
  | .drain => True

instance (state : Monitored Handler Pvoid) :
    ∀ action : WholeAction Handler Pvoid, Decidable (PoolNotExhausted state action)
  | .post _ => inferInstanceAs (Decidable (_ = true))
  | .drain => inferInstanceAs (Decidable True)

/-- The events called so far are the ones posted first, in the order of the posts. -/
def InPostingOrder (state : Monitored Handler Pvoid) : Prop := state.called <:+ state.accepted

/-- What the event loop does for its callers: events pile up until a drain calls them from the top
of the pile down.  The latest comes first in both lists. -/
structure EventStack (Handler Pvoid : Type) where
  pending : List (Event Handler Pvoid)
  called : List (Event Handler Pvoid)

namespace EventStack

def construct : EventStack Handler Pvoid where
  pending := []
  called := []

def step (stack : EventStack Handler Pvoid) :
    WholeAction Handler Pvoid → EventStack Handler Pvoid
  | .post event => { stack with pending := event :: stack.pending }
  | .drain => { pending := [], called := stack.pending.reverse ++ stack.called }

end EventStack

/-- The loop between operations: `queue` are the slots on `m_list_event`, all of them taken, and
their events are the ones on the stack. -/
structure StacksUp (state : Monitored Handler Pvoid) (stack : EventStack Handler Pvoid)
    (queue : List (Fin eventNr)) : Prop where
  idle : state.loop.drain = .idle
  holds : state.loop.Holds queue []
  taken : ∀ i ∈ queue, taken state.loop.manage.bitmap i = true
  pending : queue.map state.loop.manage.event = stack.pending
  called : state.called = stack.called

variable {state : Monitored Handler Pvoid} {stack : EventStack Handler Pvoid}
variable {queue left : List (Fin eventNr)}

theorem stacksUp_construct (links : Links EventNode)
    (param : Fin eventNr → Library.ByteMemory.Mem) :
    StacksUp (Monitored.construct links param : Monitored Handler Pvoid)
      EventStack.construct [] where
  idle := rfl
  holds := EventLoop.holds_construct links param
  taken := fun _ hin ↦ absurd hin List.not_mem_nil
  pending := rfl
  called := rfl

/-- Between operations the events waiting are those on the stack. -/
theorem StacksUp.waiting_eq (hstacks : StacksUp state stack queue) :
    state.loop.waiting = stack.pending := by
  have hnone : Drain.idle.uncalled ([] : List (Fin eventNr)) = [] := rfl
  rw [← hstacks.pending, EventLoop.waiting, hstacks.holds.uncalled_eq, hstacks.holds.queued_eq,
    hstacks.idle, hnone, List.map_nil, List.append_nil, List.filterMap_map]
  exact congrFun List.filterMap_eq_map _

/-- A post that finds a slot puts its event on the stack. -/
theorem StacksUp.post (hstacks : StacksUp state stack queue) (event : Event Handler Pvoid)
    {i : Fin eventNr} (hslot : state.loop.nextSlot = some i) :
    StacksUp (state.step (.post event)) (stack.step (.post event)) (i :: queue) := by
  have hfree := firstFree_eq_some hslot
  have hqueue : i ∉ queue := fun hin ↦ by simp [hstacks.taken i hin] at hfree
  have hloop : (state.step (.post event)).loop = (state.loop.runInloop event).2 := rfl
  have hrun := EventLoop.runInloop_of_some event hslot
  refine ⟨?_, hstacks.holds.runInloop event hslot hqueue List.not_mem_nil, fun j hj ↦ ?_, ?_,
    hstacks.called⟩
  · rw [hloop, hrun]
    exact hstacks.idle
  · rw [hloop, hrun, taken_take _ (EventLoop.slot_lt i) (EventLoop.slot_lt j)]
    rcases List.mem_cons.mp hj with rfl | hin
    · simp
    · simp [hstacks.taken j hin]
  · calc (i :: queue).map (state.step (.post event)).loop.manage.event
        = event :: queue.map (state.loop.runInloop event).2.manage.event := by
          rw [hloop, List.map_cons, EventLoop.event_runInloop_self event hslot]
      _ = event :: queue.map state.loop.manage.event := by
          rw [EventLoop.map_event_runInloop event hslot hqueue]
      _ = event :: stack.pending := by rw [hstacks.pending]

/-- A drain under way calls the events of its list from the head on. -/
theorem handleUntilIdle_called {pos : EventNode} {fuel : ℕ}
    (hholds : state.loop.Holds queue left) (hdrain : state.loop.drain = .test pos)
    (hfuel : 3 * left.length + 1 ≤ fuel) :
    (state.handleUntilIdle fuel).called =
      (left.map state.loop.manage.event).reverse ++ state.called := by
  have htrail := hholds.trail
  rw [hdrain] at htrail
  induction left generalizing state pos fuel with
  | nil =>
      obtain ⟨fuel, rfl⟩ : ∃ less, fuel = less + 1 := ⟨fuel - 1, by simp at hfuel; omega⟩
      obtain rfl : pos = .listHeadEvent := htrail
      simp [Monitored.handleUntilIdle, Monitored.step, EventLoop.handleStep, EventLoop.calling,
        hdrain]
  | cons i rest ih =>
      obtain ⟨fuel, rfl⟩ : ∃ less, fuel = less + 1 + 1 + 1 :=
        ⟨fuel - 3, by simp only [List.length_cons] at hfuel; omega⟩
      obtain rfl : pos = .event i := htrail.1
      -- the state past the three steps of the event at the head
      let next := ((state.step .handle).step .handle).step .handle
      have hloop : next.loop = { state.loop with
          manage := state.loop.manage.eventFree i
          drain := .test (state.loop.links.next (.event i)) } := by
        simp [next, Monitored.step, EventLoop.handleStep, hdrain]
      have hcalled : next.called = state.loop.manage.event i :: state.called := by
        simp [next, Monitored.step, EventLoop.handleStep, EventLoop.calling, hdrain]
      have hsteps : state.handleUntilIdle (fuel + 1 + 1 + 1) = next.handleUntilIdle fuel := by
        simp [next, Monitored.handleUntilIdle, Monitored.step, EventLoop.handleStep, hdrain]
      have hnext : next.loop.Holds queue rest := by
        rw [hloop]
        exact ⟨hholds.ring, htrail.2, (List.nodup_middle.mp hholds.nodup).of_cons⟩
      have hless : 3 * rest.length + 1 ≤ fuel := by
        simp only [List.length_cons] at hfuel
        omega
      have hevent : next.loop.manage.event = state.loop.manage.event := by rw [hloop]; rfl
      calc (state.handleUntilIdle (fuel + 1 + 1 + 1)).called
          = (next.handleUntilIdle fuel).called := by rw [hsteps]
        _ = (rest.map next.loop.manage.event).reverse ++ next.called :=
            ih hnext (by rw [hloop]) hless (by rw [hloop]; exact htrail.2)
        _ = ((i :: rest).map state.loop.manage.event).reverse ++ state.called := by
            rw [hevent, hcalled, List.map_cons, List.reverse_cons, List.append_assoc]
            rfl

/-- A whole drain calls what is on the stack, from the top down. -/
theorem StacksUp.drain (hstacks : StacksUp state stack queue) :
    StacksUp state.eventHandle (stack.step .drain) [] := by
  obtain ⟨hidle, hempty, -⟩ := eventHandle_drained hstacks.holds hstacks.idle
  obtain ⟨-, hspliced, -⟩ := hstacks.holds.splice hstacks.idle
  have hlen := EventLoop.length_le_eventNr (List.nodup_append.mp hstacks.holds.nodup).1
  have hfirst : (state.step .handle).loop = state.loop.splice := by
    simp only [Monitored.step, EventLoop.handleStep, hstacks.idle]
  have hnone : (state.step .handle).called = state.called := by
    simp [Monitored.step, EventLoop.calling, hstacks.idle]
  have hsteps : state.eventHandle = (state.step .handle).handleUntilIdle (3 * eventNr + 1) := by
    change Monitored.handleUntilIdle (3 * eventNr + 1 + 1) state = _
    rw [Monitored.handleUntilIdle]
    exact if_neg (by rw [hfirst]; simp [EventLoop.splice])
  refine ⟨by rwa [Monitored.eventHandle_loop], by rwa [Monitored.eventHandle_loop],
    fun _ hin ↦ absurd hin List.not_mem_nil, rfl, ?_⟩
  calc state.eventHandle.called
      = ((state.step .handle).handleUntilIdle (3 * eventNr + 1)).called := by rw [hsteps]
    _ = (queue.map (state.step .handle).loop.manage.event).reverse
          ++ (state.step .handle).called :=
        handleUntilIdle_called (by rwa [hfirst]) (by rw [hfirst]; rfl) (by omega)
    _ = (queue.map state.loop.manage.event).reverse ++ state.called := by rw [hnone, hfirst]; rfl
    _ = (stack.step .drain).called := by rw [hstacks.pending, hstacks.called]; rfl

/-- Each whole operation is that of the stack. -/
theorem StacksUp.step (hstacks : StacksUp state stack queue) {action : WholeAction Handler Pvoid}
    (hpool : PoolNotExhausted state action) :
    ∃ queue', StacksUp (wholeStep state action) (stack.step action) queue' := by
  cases action with
  | post event =>
      obtain ⟨i, hslot⟩ := Option.isSome_iff_exists.mp hpool
      exact ⟨i :: queue, hstacks.post event hslot⟩
  | drain => exact ⟨[], hstacks.drain⟩

theorem StacksUp.run {actions : List (WholeAction Handler Pvoid)}
    (hstacks : StacksUp state stack queue)
    (hpool : AllSteps wholeStep PoolNotExhausted state actions) :
    ∃ queue', StacksUp (run wholeStep state actions) (run EventStack.step stack actions)
      queue' := by
  induction actions generalizing state stack queue with
  | nil => exact ⟨queue, hstacks⟩
  | cons action actions ih =>
      obtain ⟨queue', hnext⟩ := hstacks.step hpool.1
      exact ih hnext hpool.2

/-- In every run of posts and whole drains that never exhausts the pool, each drain calls exactly
the events posted since the drain before it, the latest posted first. -/
theorem called_run_eq_stack (links : Links EventNode)
    (param : Fin eventNr → Library.ByteMemory.Mem) (actions : List (WholeAction Handler Pvoid))
    (hpool : AllSteps wholeStep PoolNotExhausted (Monitored.construct links param) actions) :
    (run wholeStep (Monitored.construct links param) actions).called =
        (run EventStack.step EventStack.construct actions).called ∧
      (run wholeStep (Monitored.construct links param) actions).loop.waiting =
        (run EventStack.step EventStack.construct actions).pending := by
  obtain ⟨queue, hlast⟩ := (stacksUp_construct links param).run hpool
  exact ⟨hlast.called, hlast.waiting_eq⟩

/-- Two events before the first drain and one before the second. -/
theorem called_run_eq_stack_three_posts :
    (run wholeStep (Monitored.construct ⟨id, id⟩ (fun _ _ ↦ 0) : Monitored (Fin 3) Unit)
        [.post (Event.construct (fun _ ↦ 0) (some 0) none),
         .post (Event.construct (fun _ ↦ 0) (some 1) none), .drain,
         .post (Event.construct (fun _ ↦ 0) (some 2) none), .drain]).called.reverse.map
      Event.handler = [some 1, some 0, some 2] := by
  rw [(called_run_eq_stack _ _ _ (by decide +kernel)).1]
  rfl

/-- Two events posted before one drain: the second runs first. -/
theorem inPostingOrder_fails_after_two_posts :
    ¬ ∀ actions : List (WholeAction Bool Unit),
        AllSteps wholeStep PoolNotExhausted (Monitored.construct ⟨id, id⟩ fun _ _ ↦ 0) actions →
        InPostingOrder (run wholeStep (Monitored.construct ⟨id, id⟩ fun _ _ ↦ 0) actions) := by
  intro horder
  have hsuffix := horder
    [.post (Event.construct (fun _ ↦ 0) (some true) none),
     .post (Event.construct (fun _ ↦ 0) (some false) none), .drain] (by decide +kernel)
  exact absurd (hsuffix.map Event.handler) (by decide +kernel)

end ProjectSensor.Reactor
