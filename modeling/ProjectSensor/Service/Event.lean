import ProjectSensor.Library.SlotBitmap
import ProjectSensor.Service.Buffer

/-!
# Events and their pool

`event_manage` hands out the slots of `m_event`.  The number of a slot is written into the event
object itself by `event_malloc` and read back from it by `event_free`.
-/

open ProjectSensor.Library.SlotBitmap ProjectSensor.Library.ByteMemory

namespace ProjectSensor.Service

/-- `def_EVENT_NR`. -/
abbrev eventNr : ℕ := 6

/-- `def_EVENT_DATA_SIZE`. -/
def eventDataSize : ℕ := 15

variable {Handler Pvoid : Type}

/-- `class event` without its list node, which is kept with the other links. -/
structure Event (Handler Pvoid : Type) where
  priority : BitVec 8
  index : BitVec 8
  buffer : Buffer
  handler : Option Handler
  pvoid : Option Pvoid

/-- `event(handler, pvoid)`, with the bytes `param` that `m_param` happens to hold. -/
def Event.construct (param : Mem) (handler : Option Handler) (pvoid : Option Pvoid) :
    Event Handler Pvoid where
  priority := 0
  index := 0
  buffer := Buffer.construct param eventDataSize
  handler := handler
  pvoid := pvoid

def Event.indexSet (event : Event Handler Pvoid) (index : BitVec 8) : Event Handler Pvoid :=
  { event with index := index }

def Event.bufferInit (event : Event Handler Pvoid) : Event Handler Pvoid :=
  { event with buffer := event.buffer.retrieveAll }

/-- `event::operator=`: every field but the list node, the slot number included. -/
def Event.assign (_event other : Event Handler Pvoid) : Event Handler Pvoid where
  priority := other.priority
  index := other.index
  buffer := other.buffer
  handler := other.handler
  pvoid := other.pvoid

@[simp]
theorem Event.assign_eq (event other : Event Handler Pvoid) : event.assign other = other := rfl

structure EventManage (Handler Pvoid : Type) where
  bitmap : BitVec 16
  event : Fin eventNr → Event Handler Pvoid

namespace EventManage

def construct (param : Fin eventNr → Mem) : EventManage Handler Pvoid where
  bitmap := 0
  event := fun i ↦ Event.construct (param i) none none

def eventMalloc (manage : EventManage Handler Pvoid) :
    Option (Fin eventNr × EventManage Handler Pvoid) :=
  (firstFree manage.bitmap eventNr).map fun i ↦
    (i, { bitmap := take manage.bitmap i
          event := Function.update manage.event i
            ((manage.event i).indexSet (BitVec.ofNat 8 i)).bufferInit })

/-- `event_free` of the event in slot `i`: the bit cleared is the one the event names. -/
def eventFree (manage : EventManage Handler Pvoid) (i : Fin eventNr) :
    EventManage Handler Pvoid :=
  { manage with bitmap := release manage.bitmap (manage.event i).index.toNat }

/-- `*pevent_malloc = *event`. -/
def assign (manage : EventManage Handler Pvoid) (i : Fin eventNr) (event : Event Handler Pvoid) :
    EventManage Handler Pvoid :=
  { manage with event := Function.update manage.event i ((manage.event i).assign event) }

end EventManage

end ProjectSensor.Service
