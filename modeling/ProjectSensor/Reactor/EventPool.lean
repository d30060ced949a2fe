import ProjectSensor.Reactor.EventLoop

/-!
# Slots of the event pool over runs of posts and drains

Posts and whole drains follow each other in any order.  The pool is exact when the bits of
`m_bitmap` are those of the queued events.  A drain gives back the slot each event names, and since
`run_inloop` copies the caller's event over the slot, that is slot 0 every time; so the pool stays
exact as long as no drain meets more than one event, and no longer.
-/

open ProjectSensor.Library.LinkedRing ProjectSensor.Library.SlotBitmap
open ProjectSensor.Library.Transition
open ProjectSensor.Service

namespace ProjectSensor.Reactor

variable {Handler Pvoid : Type}

namespace EventLoop

/-- `handleStep` until the drain has ended. -/
def drainUntilIdle : ℕ → EventLoop Handler Pvoid → EventLoop Handler Pvoid
  | 0, loop => loop
  | fuel + 1, loop =>
      let loop := loop.handleStep
      if loop.drain = .idle then loop else drainUntilIdle fuel loop

/-- A whole call of `event_handle` that nothing interrupts; each event takes three steps. -/
def eventHandle (loop : EventLoop Handler Pvoid) : EventLoop Handler Pvoid :=
  drainUntilIdle (3 * eventNr + 2) loop

end EventLoop

/-- An event as callers make it: `index_set` is only ever called by `event_malloc`, so that the
slot number of a posted event is the one its constructor wrote. -/
abbrev PostedEvent (Handler Pvoid : Type) := {event : Event Handler Pvoid // event.index = 0}

inductive PoolAction (Handler Pvoid : Type) where
  | post (event : PostedEvent Handler Pvoid)
  | drain

def poolStep (loop : EventLoop Handler Pvoid) :
    PoolAction Handler Pvoid → EventLoop Handler Pvoid
  | .post event => (loop.runInloop event.1).2
  | .drain => loop.eventHandle

/-- Between operations: the bit of a slot is set exactly while its event is queued, a slot handed
out is not queued, and with nothing queued every slot is free. -/
structure SlotsConserved (loop : EventLoop Handler Pvoid) : Prop where
  idle : loop.drain = .idle
  exact : ∀ i : Fin eventNr, taken loop.manage.bitmap i = true ↔ .event i ∈ loop.queued
  fresh : ∀ i, loop.nextSlot = some i → .event i ∉ loop.queued
  free : loop.queued = [] → ∀ i : Fin eventNr, taken loop.manage.bitmap i = false

/-- A drain is only made with at most one event queued. -/
def SingleDrain (loop : EventLoop Handler Pvoid) : PoolAction Handler Pvoid → Prop
  | .post _ => True
  | .drain => loop.queued.length ≤ 1

variable {loop : EventLoop Handler Pvoid} {queue left : List (Fin eventNr)}

theorem slotsConserved_iff (hholds : loop.Holds queue []) (hidle : loop.drain = .idle) :
    SlotsConserved loop ↔ ∀ i : Fin eventNr, taken loop.manage.bitmap i = true ↔ i ∈ queue := by
  have hmem : ∀ i : Fin eventNr, EventNode.event i ∈ loop.queued ↔ i ∈ queue := fun i ↦ by
    simp [hholds.queued_eq]
  constructor
  · intro hconserved i
    rw [hconserved.exact i, hmem]
  · intro hexact
    refine ⟨hidle, fun i ↦ by rw [hexact, hmem], fun i hslot hin ↦ ?_, fun hnil i ↦ ?_⟩
    · have htaken := (hexact i).mpr ((hmem i).mp hin)
      simp [firstFree_eq_some hslot] at htaken
    · have hnotMem : i ∉ queue := fun hin ↦ by simpa [hnil] using (hmem i).mpr hin
      simpa using mt (hexact i).mp hnotMem

/-- A drain calls and frees the events of its list one after the other and ends. -/
theorem drainUntilIdle_spec {pos : EventNode} {fuel : ℕ} (hholds : loop.Holds queue left)
    (hdrain : loop.drain = .test pos) (hfuel : 3 * left.length + 1 ≤ fuel) :
    (loop.drainUntilIdle fuel).drain = .idle ∧ (loop.drainUntilIdle fuel).Holds queue [] ∧
      (loop.drainUntilIdle fuel).manage =
        { loop.manage with bitmap := left.foldl (fun bitmap i ↦
            release bitmap (loop.manage.event i).index.toNat) loop.manage.bitmap } := by
  induction left generalizing loop pos fuel with
  | nil =>
      obtain ⟨fuel, rfl⟩ : ∃ less, fuel = less + 1 := ⟨fuel - 1, by simp at hfuel; omega⟩
      have hpos : pos = .listHeadEvent := by
        have htrail := hholds.trail
        rw [hdrain] at htrail
        exact htrail
      subst hpos
      have hstep := hholds.handleStep
      rw [hdrain] at hstep
      have hnext : loop.handleStep = { loop with drain := .idle } := by
        simp [EventLoop.handleStep, hdrain]
      rw [hnext] at hstep
      simpa [EventLoop.drainUntilIdle, hnext] using hstep.2
  | cons i rest ih =>
      obtain ⟨fuel, rfl⟩ : ∃ less, fuel = less + 1 + 1 + 1 :=
        ⟨fuel - 3, by simp only [List.length_cons] at hfuel; omega⟩
      have hpos : pos = .event i := by
        have htrail := hholds.trail
        rw [hdrain] at htrail
        exact htrail.1
      subst hpos
      have hlast : EventLoop.Holds
          { loop with
            manage := loop.manage.eventFree i
            drain := .test (loop.links.next (.event i)) } queue rest := by
        refine ⟨hholds.ring, ?_, (List.nodup_middle.mp hholds.nodup).of_cons⟩
        have htrail := hholds.trail
        rw [hdrain] at htrail
        exact htrail.2
      have hless : 3 * rest.length + 1 ≤ fuel := by
        simp only [List.length_cons] at hfuel
        omega
      have hmanage := ih hlast rfl hless
      simpa [EventLoop.drainUntilIdle, EventLoop.handleStep, hdrain,
        EventManage.eventFree] using hmanage

/-- Releasing slot 0 over and over clears its bit and no other. -/
theorem taken_foldl_release (index : Fin eventNr → BitVec 8) {slots : List (Fin eventNr)}
    (hindex : ∀ i ∈ slots, index i = 0) (bitmap : BitVec 16) (j : Fin eventNr) :
    taken (slots.foldl (fun bitmap i ↦ release bitmap (index i).toNat) bitmap) j =
      (taken bitmap j && !(decide (j = 0) && !slots.isEmpty)) := by
  induction slots generalizing bitmap with
  | nil => simp
  | cons i rest ih =>
      have hzero : (index i).toNat = 0 := by rw [hindex i List.mem_cons_self]; rfl
      rw [List.foldl_cons, ih fun other hother ↦ hindex other (List.mem_cons_of_mem _ hother),
        hzero, taken_release _ (by decide) (EventLoop.slot_lt j)]
      have hj : decide ((j : ℕ) = 0) = decide (j = 0) := decide_eq_decide.mpr Fin.val_eq_zero_iff
      rw [hj]
      cases decide (j = 0) <;> simp

theorem EventLoop.eventHandle_of_idle (hidle : loop.drain = .idle) :
    loop.eventHandle = loop.splice.drainUntilIdle (3 * eventNr + 1) := by
  have hstep : loop.handleStep = loop.splice := by simp only [EventLoop.handleStep, hidle]
  change EventLoop.drainUntilIdle (3 * eventNr + 1 + 1) loop = _
  rw [EventLoop.drainUntilIdle, hstep]
  exact if_neg (by simp [EventLoop.splice])

/-- A whole drain ends, leaves both lists empty and frees what its events name. -/
theorem eventHandle_drained (hholds : loop.Holds queue []) (hidle : loop.drain = .idle) :
    loop.eventHandle.drain = .idle ∧ loop.eventHandle.Holds [] [] ∧
      loop.eventHandle.manage =
        { loop.manage with bitmap := queue.foldl (fun bitmap i ↦
            release bitmap (loop.manage.event i).index.toNat) loop.manage.bitmap } := by
  obtain ⟨-, hspliced, -⟩ := hholds.splice hidle
  have hlen := EventLoop.length_le_eventNr (List.nodup_append.mp hholds.nodup).1
  have hfuel : 3 * queue.length + 1 ≤ 3 * eventNr + 1 := by omega
  rw [EventLoop.eventHandle_of_idle hidle]
  exact drainUntilIdle_spec hspliced rfl hfuel

/-- A whole drain of events that all name slot 0. -/
theorem eventHandle_spec (hholds : loop.Holds queue []) (hidle : loop.drain = .idle)
    (hindex : ∀ i ∈ queue, (loop.manage.event i).index = 0) :
    loop.eventHandle.drain = .idle ∧ loop.eventHandle.Holds [] [] ∧
      ∀ j : Fin eventNr, taken loop.eventHandle.manage.bitmap j =
        (taken loop.manage.bitmap j && !(decide (j = 0) && !queue.isEmpty)) := by
  obtain ⟨hdone, hempty, hmanage⟩ := eventHandle_drained hholds hidle
  refine ⟨hdone, hempty, fun j ↦ ?_⟩
  rw [hmanage]
  exact taken_foldl_release (fun i ↦ (loop.manage.event i).index) hindex loop.manage.bitmap j

/-- What a pool that has stayed exact looks like between operations. -/
structure PoolInvariant (loop : EventLoop Handler Pvoid) : Prop where
  idle : loop.drain = .idle
  queue : ∃ queue, loop.Holds queue [] ∧ (queue = [] ∨ 0 ∈ queue) ∧
    ∀ i ∈ queue, (loop.manage.event i).index = 0

theorem poolInvariant_construct (links : Links EventNode)
    (param : Fin eventNr → Library.ByteMemory.Mem) :
    PoolInvariant (EventLoop.construct links param : EventLoop Handler Pvoid) where
  idle := rfl
  queue := ⟨[], EventLoop.holds_construct links param, .inl rfl, by simp⟩

theorem slotsConserved_construct (links : Links EventNode)
    (param : Fin eventNr → Library.ByteMemory.Mem) :
    SlotsConserved (EventLoop.construct links param : EventLoop Handler Pvoid) := by
  rw [slotsConserved_iff (EventLoop.holds_construct links param) rfl]
  simp [EventLoop.construct, EventManage.construct]

theorem slotsConserved_post (event : PostedEvent Handler Pvoid) (hinvariant : PoolInvariant loop)
    (hconserved : SlotsConserved loop) :
    PoolInvariant (poolStep loop (.post event)) ∧ SlotsConserved (poolStep loop (.post event)) := by
  obtain ⟨queue, hholds, hzero, hindex⟩ := hinvariant.queue
  have hexact := (slotsConserved_iff hholds hinvariant.idle).mp hconserved
  cases hslot : loop.nextSlot with
  | none =>
      rw [poolStep, EventLoop.runInloop_of_none event.1 hslot]
      exact ⟨hinvariant, hconserved⟩
  | some i =>
      have hfree := firstFree_eq_some hslot
      have hnotMem : i ∉ queue := fun hin ↦ by simp [(hexact i).mpr hin] at hfree
      have hnext := hholds.runInloop event.1 hslot hnotMem List.not_mem_nil
      have hrun := EventLoop.runInloop_of_some event.1 hslot
      have hidle : (loop.runInloop event.1).2.drain = .idle := by rw [hrun]; exact hinvariant.idle
      refine ⟨⟨hidle, i :: queue, hnext, .inr ?_, fun j hj ↦ ?_⟩, ?_⟩
      · rcases hzero with rfl | hmem
        · have hfirst : loop.nextSlot = some 0 :=
            firstFree_eq_zero (by simpa using mt (hexact 0).mp List.not_mem_nil)
          simp [Option.some.inj (hslot.symm.trans hfirst)]
        · exact List.mem_cons_of_mem _ hmem
      · rw [poolStep, hrun]
        by_cases hji : j = i
        · simp [hji, event.2]
        · have hj' : j ∈ queue := (List.mem_cons.mp hj).resolve_left hji
          simpa [Function.update_of_ne hji] using hindex j hj'
      · refine (slotsConserved_iff hnext hidle).mpr fun j ↦ ?_
        rw [hrun]
        simp [taken_take _ (EventLoop.slot_lt i) (EventLoop.slot_lt j), Fin.ext_iff, ← hexact j]

/-- A drain keeps the pool exact if and only if it meets at most one event. -/
theorem slotsConserved_drain (hinvariant : PoolInvariant loop) (hconserved : SlotsConserved loop) :
    PoolInvariant (poolStep loop .drain) ∧
      (SlotsConserved (poolStep loop .drain) ↔ loop.queued.length ≤ 1) := by
  obtain ⟨queue, hholds, hzero, hindex⟩ := hinvariant.queue
  have hexact := (slotsConserved_iff hholds hinvariant.idle).mp hconserved
  obtain ⟨hidle, hempty, htaken⟩ := eventHandle_spec hholds hinvariant.idle hindex
  have hnodup : queue.Nodup := (List.nodup_append.mp hholds.nodup).1
  refine ⟨⟨hidle, [], hempty, .inl rfl, by simp⟩, ?_⟩
  rw [show poolStep loop .drain = loop.eventHandle from rfl, slotsConserved_iff hempty hidle,
    hholds.queued_eq, List.length_map]
  simp only [htaken, List.not_mem_nil, iff_false]
  constructor
  · intro hfree
    have hall : ∀ j ∈ queue, j = 0 := fun j hj ↦ by
      by_contra hne
      exact hfree j (by simp [hne, (hexact j).mpr hj])
    have hsub : queue ⊆ [0] := fun j hj ↦ by simp [hall j hj]
    simpa using (hnodup.subperm hsub).length_le
  · intro hlen j
    rcases hzero with rfl | hmem
    · simpa using mt (hexact j).mp List.not_mem_nil
    · obtain ⟨i, rfl⟩ : ∃ i, queue = [i] := List.length_eq_one_iff.mp
        (le_antisymm hlen (List.length_pos_of_mem hmem))
      obtain rfl : 0 = i := by simpa using hmem
      by_cases hj : j = 0
      · simp [hj]
      · have hnotTaken := mt (hexact j).mp (by simpa using hj)
        simp [hj, Bool.not_eq_true _ ▸ hnotTaken]

/-- In every run of posts and drains the pool stays exact between all operations if and only if
no drain meets more than one event. -/
theorem slotsConserved_run_iff (links : Links EventNode)
    (param : Fin eventNr → Library.ByteMemory.Mem) (actions : List (PoolAction Handler Pvoid)) :
    AllStates poolStep SlotsConserved (EventLoop.construct links param) actions ↔
      AllSteps poolStep SingleDrain (EventLoop.construct links param) actions := by
  refine allStates_iff_allSteps PoolInvariant ?_ ?_ actions
    (poolInvariant_construct links param) (slotsConserved_construct links param)
  · intro loop action hinvariant hconserved _
    cases action with
    | post event => exact (slotsConserved_post event hinvariant hconserved).1
    | drain => exact (slotsConserved_drain hinvariant hconserved).1
  · intro loop action hinvariant hconserved
    cases action with
    | post event => exact iff_of_true (slotsConserved_post event hinvariant hconserved).2 trivial
    | drain => exact (slotsConserved_drain hinvariant hconserved).2

/-- Two events posted and drained: the slot of the second one is never free again. -/
theorem slotsConserved_fails_after_two_posts :
    ¬ AllStates poolStep SlotsConserved
        (EventLoop.construct ⟨id, id⟩ (fun _ _ ↦ 0) : EventLoop Unit Unit)
        [.post ⟨Event.construct (fun _ ↦ 0) (some ()) none, rfl⟩,
         .post ⟨Event.construct (fun _ ↦ 0) (some ()) none, rfl⟩, .drain] := by
  intro hstates
  have hexact := hstates.last.exact 1
  revert hexact
  decide +kernel

end ProjectSensor.Reactor
