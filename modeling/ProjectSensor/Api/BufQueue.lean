import ProjectSensor.Library.ByteMemory
import ProjectSensor.Library.RingQueue

/-!
# `buf_queue`

Three buffers of 130 bytes in a ring.  A buffer is the list of its first `m_len` bytes; a frame
that is too long is cut off.
-/

open ProjectSensor.Library ProjectSensor.Library.ByteMemory

namespace ProjectSensor.Api

/-- `def_QUEUE_BUF_CNTS`. -/
abbrev queueBufCnts : ℕ := 3

/-- `def_QUEUE_BUF_LEN`. -/
abbrev queueBufLen : ℕ := 130

abbrev BufQueue := RingQueue (List Byte)

def bufQueueInit : BufQueue where
  slot := fun _ ↦ []
  front := 0
  rear := 0
  size := 0

def bufQueuePut (lq : BufQueue) (pbuf : List Byte) : ℤ × BufQueue :=
  if queueBufCnts ≤ lq.size then (-1, lq)
  else (0, lq.put queueBufCnts (pbuf.take queueBufLen))

def bufQueueGet (lq : BufQueue) : Option (List Byte) × BufQueue :=
  if lq.size = 0 then (none, lq) else (some lq.head, lq.pop queueBufCnts)

def bufQueuePop (lq : BufQueue) : ℤ × BufQueue :=
  if lq.size = 0 then (-1, lq) else (0, lq.pop queueBufCnts)

/-- The frames in the queue, oldest first. -/
abbrev frames (lq : BufQueue) : List (List Byte) := lq.contents queueBufCnts

/-- A queue between two operations. -/
structure QueueSound (lq : BufQueue) : Prop where
  ring : lq.Sound queueBufCnts
  length_le : ∀ frame ∈ frames lq, frame.length ≤ queueBufLen

theorem queueSound_init : QueueSound bufQueueInit where
  ring := ⟨by decide, by decide, by decide⟩
  length_le := by simp [frames, RingQueue.contents, bufQueueInit]

/-- A frame is appended as long as there is a buffer for it. -/
theorem QueueSound.put {lq : BufQueue} (h : QueueSound lq) (hroom : lq.size < queueBufCnts)
    (pbuf : List Byte) :
    (bufQueuePut lq pbuf).1 = 0 ∧ QueueSound (bufQueuePut lq pbuf).2 ∧
      frames (bufQueuePut lq pbuf).2 = frames lq ++ [pbuf.take queueBufLen] := by
  have hframes := h.ring.contents_put hroom (pbuf.take queueBufLen)
  rw [bufQueuePut, if_neg (not_le.mpr hroom)]
  refine ⟨rfl, ⟨h.ring.put hroom _, fun frame hframe ↦ ?_⟩, hframes⟩
  rw [frames, hframes, List.mem_append, List.mem_singleton] at hframe
  rcases hframe with hframe | rfl
  · exact h.length_le frame hframe
  · exact List.length_take_le ..

/-- The oldest frame is dropped. -/
theorem QueueSound.pop {lq : BufQueue} (h : QueueSound lq) (hsome : 0 < lq.size) :
    QueueSound (lq.pop queueBufCnts) ∧ frames lq = lq.head :: frames (lq.pop queueBufCnts) := by
  have hframes := h.ring.contents_pop hsome
  refine ⟨⟨h.ring.pop hsome, fun frame hframe ↦ h.length_le frame ?_⟩, hframes⟩
  rw [frames, hframes]
  exact List.mem_cons_of_mem _ hframe

theorem QueueSound.get {lq : BufQueue} (h : QueueSound lq) :
    (bufQueueGet lq).1 = (frames lq).head? ∧ QueueSound (bufQueueGet lq).2 ∧
      frames (bufQueueGet lq).2 = (frames lq).tail := by
  unfold bufQueueGet
  rcases Nat.eq_zero_or_pos lq.size with hzero | hpos
  · have hnil : frames lq = [] := RingQueue.contents_eq_nil_iff.mpr hzero
    rw [if_pos hzero, hnil]
    exact ⟨rfl, h, rfl⟩
  · obtain ⟨hpop, hframes⟩ := h.pop hpos
    rw [if_neg hpos.ne', hframes]
    exact ⟨rfl, hpop, rfl⟩

end ProjectSensor.Api
