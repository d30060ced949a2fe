import ProjectSensor.Library.Transition
import ProjectSensor.Service.Event
import ProjectSensor.Service.LinkedList

/-!
# Posting and draining events

`eventloop::run_inloop` may run in an interrupt and is one atomic step; `eventloop::event_handle`
is taken apart into the steps an interrupt can come between: the splice of `m_list_event` into a
local list, and then for each node the call, the release of its slot and the advance to
`pos->m_next`.
-/

open ProjectSensor.Library.LinkedRing ProjectSensor.Library.SlotBitmap
open ProjectSensor.Service

namespace ProjectSensor.Reactor

/-- The nodes that events are linked through: the head `m_list_event`, the head
`list_head_event` on the stack of `event_handle`, and the node inside each event of the pool. -/
inductive EventNode where
  | listEvent
  | listHeadEvent
  | event (i : Fin eventNr)
  deriving DecidableEq

/-- Where `event_handle` stands: not running, about to test `pos` against the head, or past the
call or the release of the event at `pos`.  It goes astray when `pos` is not an event. -/
inductive Drain where
  | idle
  | test (pos : EventNode)
  | called (i : Fin eventNr)
  | freed (i : Fin eventNr)
  | astray
  deriving DecidableEq

variable {Handler Pvoid : Type}

structure EventLoop (Handler Pvoid : Type) where
  links : Links EventNode
  manage : EventManage Handler Pvoid
  sEvent : BitVec 32
  drain : Drain

namespace EventLoop

/-- The loop and the pool as their constructors leave them; `links` and `param` are whatever the
memory held before. -/
def construct (links : Links EventNode) (param : Fin eventNr → Library.ByteMemory.Mem) :
    EventLoop Handler Pvoid where
  links := listInit links .listEvent
  manage := EventManage.construct param
  sEvent := 0
  drain := .idle

/-- `run_inloop`: the result and the loop after it. -/
def runInloop (loop : EventLoop Handler Pvoid) (event : Event Handler Pvoid) :
    ℤ × EventLoop Handler Pvoid :=
  match loop.manage.eventMalloc with
  | none => (-1, loop)
  | some (i, manage) =>
      (0, { loop with
            manage := manage.assign i event
            links := listInsertAfter loop.links .listEvent (.event i)
            sEvent := loop.sEvent + 1 })

/-- The part of `event_handle` with interrupts disabled, and the first `pos`. -/
def splice (loop : EventLoop Handler Pvoid) : EventLoop Handler Pvoid :=
  let links := listInit loop.links .listHeadEvent
  let links := listSpliceInit links .listEvent .listHeadEvent
  { loop with links := links, sEvent := 0, drain := .test (links.next .listHeadEvent) }

/-- One step of `event_handle`. -/
def handleStep (loop : EventLoop Handler Pvoid) : EventLoop Handler Pvoid :=
  match loop.drain with
  | .idle => loop.splice
  | .test .listHeadEvent => { loop with drain := .idle }
  | .test .listEvent => { loop with drain := .astray }
  | .test (.event i) => { loop with drain := .called i }
  | .called i => { loop with manage := loop.manage.eventFree i, drain := .freed i }
  | .freed i => { loop with drain := .test (loop.links.next (.event i)) }
  | .astray => loop

/-- The slot whose event the next step calls. -/
def calling (loop : EventLoop Handler Pvoid) : Option (Fin eventNr) :=
  match loop.drain with
  | .test (.event i) => some i
  | _ => none

/-- The events on `m_list_event`, met by walking it. -/
def queued (loop : EventLoop Handler Pvoid) : List EventNode :=
  walk loop.links .listEvent (eventNr + 1) (loop.links.next .listEvent)

/-- The nodes of the list of the drain under way. -/
def batch (loop : EventLoop Handler Pvoid) : List EventNode :=
  if loop.drain = .idle then []
  else walk loop.links .listHeadEvent (eventNr + 1) (loop.links.next .listHeadEvent)

/-- The nodes the drain under way has yet to advance from. -/
def ahead (loop : EventLoop Handler Pvoid) : List EventNode :=
  match loop.drain with
  | .idle | .astray => []
  | .test pos => walk loop.links .listHeadEvent (eventNr + 1) pos
  | .called i | .freed i => walk loop.links .listHeadEvent (eventNr + 1) (.event i)

/-- What the links say: `queue` are the slots on `m_list_event`, the last posted first, and
`left` the slots the drain under way has yet to advance from. -/
structure Holds (loop : EventLoop Handler Pvoid) (queue left : List (Fin eventNr)) : Prop where
  ring : IsRing loop.links .listEvent (queue.map .event)
  trail : match loop.drain with
    | .idle => left = []
    | .test pos => Trail loop.links pos (left.map .event) .listHeadEvent
    | .called i | .freed i => Trail loop.links (.event i) (left.map .event) .listHeadEvent
    | .astray => False
  nodup : (queue ++ left).Nodup

theorem slot_lt (i : Fin eventNr) : (i : ℕ) < 16 := Nat.lt_of_lt_of_le i.isLt (by decide)

theorem length_le_eventNr {slots : List (Fin eventNr)} (hnodup : slots.Nodup) :
    slots.length ≤ eventNr := by
  simpa using hnodup.length_le_card

theorem holds_construct (links : Links EventNode)
    (param : Fin eventNr → Library.ByteMemory.Mem) :
    (construct links param : EventLoop Handler Pvoid).Holds [] [] where
  ring := IsRing.reset links .listEvent
  trail := rfl
  nodup := List.nodup_nil

variable {loop : EventLoop Handler Pvoid} {queue left : List (Fin eventNr)}

theorem Holds.queued_eq (hholds : loop.Holds queue left) : loop.queued = queue.map .event := by
  have hlen := length_le_eventNr (List.nodup_append.mp hholds.nodup).1
  refine hholds.ring.walk_eq ?_
  rw [List.length_map]
  omega

theorem Holds.ahead_eq (hholds : loop.Holds queue left) : loop.ahead = left.map .event := by
  have hlen := length_le_eventNr (List.nodup_append.mp hholds.nodup).2.1
  have hwalk : ∀ pos, Trail loop.links pos (left.map .event) .listHeadEvent →
      walk loop.links .listHeadEvent (eventNr + 1) pos = left.map .event := fun pos htrail ↦
    htrail.walk_eq (by simp) (by rw [List.length_map]; omega)
  have htrail := hholds.trail
  unfold ahead
  cases hdrain : loop.drain with
  | idle => simp_all
  | test pos => exact hwalk pos (by simpa [hdrain] using htrail)
  | called i => exact hwalk _ (by simpa [hdrain] using htrail)
  | freed i => exact hwalk _ (by simpa [hdrain] using htrail)
  | astray => simp [hdrain] at htrail

/-- The slot `run_inloop` gets, when it gets one. -/
def nextSlot (loop : EventLoop Handler Pvoid) : Option (Fin eventNr) :=
  firstFree loop.manage.bitmap eventNr

theorem runInloop_of_none (event : Event Handler Pvoid) (hslot : loop.nextSlot = none) :
    loop.runInloop event = (-1, loop) := by
  have hslot' : firstFree loop.manage.bitmap eventNr = none := hslot
  simp only [runInloop, EventManage.eventMalloc, hslot', Option.map_none]

theorem runInloop_of_some (event : Event Handler Pvoid) {i : Fin eventNr}
    (hslot : loop.nextSlot = some i) :
    loop.runInloop event =
      (0, { loop with
            links := loop.links.insertAfter .listEvent (.event i)
            manage := { bitmap := take loop.manage.bitmap i
                        event := Function.update loop.manage.event i event }
            sEvent := loop.sEvent + 1 }) := by
  have hslot' : firstFree loop.manage.bitmap eventNr = some i := hslot
  simp [runInloop, EventManage.eventMalloc, hslot', EventManage.assign, listInsertAfter_eq]

theorem event_runInloop_self (event : Event Handler Pvoid) {i : Fin eventNr}
    (hslot : loop.nextSlot = some i) : (loop.runInloop event).2.manage.event i = event := by
  rw [runInloop_of_some event hslot]
  exact Function.update_self ..

/-- A post changes the event in its own slot only. -/
theorem event_runInloop_of_ne (event : Event Handler Pvoid) {i j : Fin eventNr}
    (hslot : loop.nextSlot = some i) (hne : j ≠ i) :
    (loop.runInloop event).2.manage.event j = loop.manage.event j := by
  rw [runInloop_of_some event hslot]
  exact Function.update_of_ne hne ..

theorem map_event_runInloop (event : Event Handler Pvoid) {i : Fin eventNr}
    (hslot : loop.nextSlot = some i) {slots : List (Fin eventNr)} (hfresh : i ∉ slots) :
    slots.map (loop.runInloop event).2.manage.event = slots.map loop.manage.event := by
  apply List.map_congr_left
  intro j hj
  exact event_runInloop_of_ne event hslot (ne_of_mem_of_not_mem hj hfresh)

/-- Posting into a slot that no list holds puts it at the front of `m_list_event`. -/
theorem Holds.runInloop (hholds : loop.Holds queue left) (event : Event Handler Pvoid)
    {i : Fin eventNr} (hslot : loop.nextSlot = some i) (hqueue : i ∉ queue) (hleft : i ∉ left) :
    (loop.runInloop event).2.Holds (i :: queue) left := by
  rw [runInloop_of_some event hslot]
  have hfresh : EventNode.event i ∉ EventNode.listEvent :: queue.map .event := by
    simpa using hqueue
  refine ⟨hholds.ring.insertAfter_head hfresh, ?_, List.nodup_cons.mpr ⟨?_, hholds.nodup⟩⟩
  · have hkeep : ∀ node ∈ left.map EventNode.event,
        (loop.links.insertAfter .listEvent (.event i)).next node = loop.links.next node := by
      intro node hnode
      obtain ⟨j, hj, rfl⟩ := List.mem_map.mp hnode
      have hji : j ≠ i := fun heq ↦ hleft (heq ▸ hj)
      have hjqueue : j ∉ queue := fun hin ↦
        (List.nodup_append.mp hholds.nodup).2.2 j hin j hj rfl
      exact (hholds.ring.agreeAt_insertAfter List.mem_cons_self (by simp [hji, hjqueue])).1
    have htrail := hholds.trail
    cases hdrain : loop.drain with
    | idle => simpa [hdrain] using htrail
    | test pos => exact Trail.congr (by simpa [hdrain] using htrail) hkeep
    | called j => exact Trail.congr (by simpa [hdrain] using htrail) hkeep
    | freed j => exact Trail.congr (by simpa [hdrain] using htrail) hkeep
    | astray => simp [hdrain] at htrail
  · simpa using ⟨hqueue, hleft⟩

/-- The splice moves the whole of `m_list_event` to the drain and leaves it empty. -/
theorem Holds.splice (hholds : loop.Holds queue left) (hidle : loop.drain = .idle) :
    left = [] ∧ loop.splice.Holds [] queue ∧
      IsRing loop.splice.links .listHeadEvent (queue.map .event) := by
  have hleft : left = [] := by simpa [hidle] using hholds.trail
  have hring : IsRing (loop.links.reset .listHeadEvent) .listEvent (queue.map .event) :=
    hholds.ring.of_agreeAt fun node hnode ↦ Links.agreeAt_reset fun heq ↦ by simp [heq] at hnode
  obtain ⟨hlist, hhead⟩ := listSpliceInit_rings hring
    (IsRing.reset loop.links .listHeadEvent) (by simp)
  refine ⟨hleft, ⟨hlist, hhead.path.trail, ?_⟩, hhead⟩
  simpa [hleft] using hholds.nodup

/-- Behind the splice a drain touches neither the links nor the counter. -/
theorem handleStep_frame (hbusy : loop.drain ≠ .idle) :
    loop.handleStep.links = loop.links ∧ loop.handleStep.sEvent = loop.sEvent := by
  unfold handleStep
  split
  · next hidle => exact absurd hidle hbusy
  all_goals exact ⟨rfl, rfl⟩

/-- Each step of a drain, by where it stands. -/
theorem Holds.handleStep (hholds : loop.Holds queue left) :
    match loop.drain with
    | .idle => left = [] ∧ loop.handleStep.Holds [] queue
    | .test .listHeadEvent => left = [] ∧ loop.handleStep.Holds queue []
    | .test .listEvent => False
    | .test (.event i) => ∃ rest, left = i :: rest ∧ loop.handleStep.Holds queue left
    | .called i => ∃ rest, left = i :: rest ∧ loop.handleStep.Holds queue left
    | .freed i => ∃ rest, left = i :: rest ∧ loop.handleStep.Holds queue rest
    | .astray => False := by
  have htrail := hholds.trail
  have hsplit : ∀ {i : Fin eventNr},
      Trail loop.links (.event i) (left.map EventNode.event) .listHeadEvent →
      ∃ rest, left = i :: rest ∧
        Trail loop.links (loop.links.next (.event i)) (rest.map .event) .listHeadEvent := by
    intro i htrail
    cases left with
    | nil => exact absurd htrail (by simp [Trail])
    | cons j rest =>
        obtain ⟨heq, hrest⟩ := htrail
        obtain rfl := EventNode.event.inj heq
        exact ⟨rest, rfl, hrest⟩
  rcases hdrain : loop.drain with _ | pos | i | i | _
  · exact ⟨(hholds.splice hdrain).1, by
      simpa [EventLoop.handleStep, hdrain] using (hholds.splice hdrain).2.1⟩
  · rw [hdrain] at htrail
    cases pos with
    | listHeadEvent =>
        have hleft : left = [] := by
          cases left with
          | nil => rfl
          | cons j rest => simp [Trail] at htrail
        refine ⟨hleft, ?_⟩
        simp only [EventLoop.handleStep, hdrain]
        exact ⟨hholds.ring, rfl, by simpa [hleft] using hholds.nodup⟩
    | listEvent => cases left <;> simp [Trail] at htrail
    | event i =>
        obtain ⟨rest, hleft, -⟩ := hsplit htrail
        refine ⟨rest, hleft, ?_⟩
        simp only [EventLoop.handleStep, hdrain]
        exact ⟨hholds.ring, htrail, hholds.nodup⟩
  · rw [hdrain] at htrail
    obtain ⟨rest, hleft, -⟩ := hsplit htrail
    refine ⟨rest, hleft, ?_⟩
    simp only [EventLoop.handleStep, hdrain]
    exact ⟨hholds.ring, htrail, hholds.nodup⟩
  · rw [hdrain] at htrail
    obtain ⟨rest, rfl, hrest⟩ := hsplit htrail
    refine ⟨rest, rfl, ?_⟩
    simp only [EventLoop.handleStep, hdrain]
    exact ⟨hholds.ring, hrest, (List.nodup_middle.mp hholds.nodup).of_cons⟩
  · simp [hdrain] at htrail

end EventLoop

end ProjectSensor.Reactor
