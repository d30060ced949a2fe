import ProjectSensor.Api.BufQueue

/-!
# `buf_queue` in memory

The three buffers are blocks of memory with a length each, and the indices are bytes.  `ring` reads
every buffer as the list of its first `m_len` bytes; on it the operations are those of `BufQueue`.
-/

open ProjectSensor.Library ProjectSensor.Library.ByteMemory

namespace ProjectSensor.Api

/-- `rx_buf`. -/
structure RxBuf where
  buf : Mem
  len : BitVec 16

/-- The bytes of a buffer that count. -/
def RxBuf.frame (rxBuf : RxBuf) : List Byte := bytes rxBuf.buf 0 rxBuf.len.toNat

/-- `buf_queue`. -/
structure BufQueueRam where
  rxBuf : ℕ → RxBuf
  front : BitVec 8
  rear : BitVec 8
  size : BitVec 8
  capacity : BitVec 8

namespace BufQueueRam

variable (lq : BufQueueRam)

/-- `buf_queue_init`; the buffers keep what they hold. -/
def init : BufQueueRam := { lq with front := 0, rear := 0, size := 0, capacity := queueBufCnts }

/-- `(index + 1) % lq->capacity`. -/
def after (index : BitVec 8) : BitVec 8 := .ofNat 8 ((index.toNat + 1) % lq.capacity.toNat)

/-- `buf_queue_put`. -/
def put (pbuf : Mem) (len : BitVec 16) : ℤ × BufQueueRam :=
  if lq.capacity ≤ lq.size then (-1, lq)
  else
    let rear := lq.rear.toNat
    let len := if queueBufLen < len.toNat then BitVec.ofNat 16 queueBufLen else len
    (0, { lq with
      rxBuf := Function.update lq.rxBuf rear
        ⟨blit (lq.rxBuf rear).buf 0 pbuf 0 len.toNat, len⟩
      rear := lq.after lq.rear
      size := lq.size + 1 })

/-- The buffer at the front. -/
def oldest : List Byte := (lq.rxBuf lq.front.toNat).frame

/-- `buf_queue_get`: the result, `pbuf`, `*len` and the queue. -/
def get (pbuf : Mem) (len : BitVec 16) : ℤ × Mem × BitVec 16 × BufQueueRam :=
  if lq.size = 0 then (-1, pbuf, len, lq)
  else
    let prxBuf := lq.rxBuf lq.front.toNat
    (0, blit pbuf 0 prxBuf.buf 0 prxBuf.len.toNat, prxBuf.len,
      { lq with size := lq.size - 1, front := lq.after lq.front })

/-- `buf_queue_pop`. -/
def pop : ℤ × BufQueueRam :=
  if lq.size = 0 then (-1, lq)
  else (0, { lq with size := lq.size - 1, front := lq.after lq.front })

/-- The queue as a ring of frames. -/
def ring : BufQueue where
  slot k := (lq.rxBuf k).frame
  front := lq.front.toNat
  rear := lq.rear.toNat
  size := lq.size.toNat

/-- A queue that was initialised, between two operations. -/
structure Sound : Prop where
  capacity_eq : lq.capacity = queueBufCnts
  ring : QueueSound lq.ring

variable {lq}

theorem sound_init : lq.init.Sound where
  capacity_eq := rfl
  ring := ⟨⟨Nat.zero_lt_succ _, Nat.zero_le _, rfl⟩, fun _ hframe ↦ absurd hframe List.not_mem_nil⟩

theorem after_toNat (h : lq.capacity = queueBufCnts) (index : BitVec 8) :
    (lq.after index).toNat = RingQueue.after queueBufCnts index.toNat := by
  have hlt : (index.toNat + 1) % 3 < 2 ^ 8 := (Nat.mod_lt _ (by decide)).trans (by decide)
  rw [after, h]
  exact Nat.mod_eq_of_lt hlt

theorem size_eq_zero_iff : lq.size = 0 ↔ lq.ring.size = 0 :=
  BitVec.toNat_inj.symm

/-- A frame cut off at the length of a buffer. -/
theorem bytes_cut (pbuf : Mem) (len : BitVec 16) :
    bytes pbuf 0 (if queueBufLen < len.toNat then BitVec.ofNat 16 queueBufLen else len).toNat =
      (bytes pbuf 0 len.toNat).take queueBufLen := by
  rw [take_bytes]
  split
  · next hlong =>
      rw [Nat.min_eq_left hlong.le]
      rfl
  · next hshort => rw [Nat.min_eq_right (not_lt.mp hshort)]

theorem ring_put (h : lq.capacity = queueBufCnts) (pbuf : Mem) (len : BitVec 16) :
    (lq.put pbuf len).1 = (bufQueuePut lq.ring (bytes pbuf 0 len.toNat)).1 ∧
      (lq.put pbuf len).2.ring = (bufQueuePut lq.ring (bytes pbuf 0 len.toNat)).2 ∧
      (lq.put pbuf len).2.capacity = queueBufCnts := by
  have hfull : lq.capacity ≤ lq.size ↔ queueBufCnts ≤ lq.ring.size := by
    rw [h]
    exact BitVec.le_def
  unfold put bufQueuePut
  by_cases hsize : queueBufCnts ≤ lq.ring.size
  · rw [if_pos (hfull.mpr hsize), if_pos hsize]
    exact ⟨rfl, rfl, h⟩
  · rw [if_neg (mt hfull.mp hsize), if_neg hsize]
    refine ⟨rfl, ?_, h⟩
    have hsmall : lq.size.toNat < queueBufCnts := not_le.mp hsize
    have hsucc : (lq.size + 1).toNat = lq.size.toNat + 1 := by
      apply BitVec.toNat_add_of_lt
      calc lq.size.toNat + 1 ≤ queueBufCnts := hsmall
        _ < 2 ^ 8 := by decide
    have hcopied : RxBuf.frame ⟨blit (lq.rxBuf lq.rear.toNat).buf 0 pbuf 0
          (if queueBufLen < len.toNat then BitVec.ofNat 16 queueBufLen else len).toNat,
        if queueBufLen < len.toNat then BitVec.ofNat 16 queueBufLen else len⟩ =
          (bytes pbuf 0 len.toNat).take queueBufLen :=
      (bytes_blit ..).trans (bytes_cut pbuf len)
    rw [ring, RingQueue.put, RingQueue.mk.injEq]
    refine ⟨?_, rfl, after_toNat h lq.rear, hsucc⟩
    funext k
    rw [← hcopied]
    exact Function.apply_update (fun _ ↦ RxBuf.frame) lq.rxBuf lq.rear.toNat _ k

/-- The queue without its oldest frame. -/
theorem ring_drop (h : lq.capacity = queueBufCnts) (hsome : ¬ lq.size = 0) :
    ring { lq with size := lq.size - 1, front := lq.after lq.front } =
      lq.ring.pop queueBufCnts := by
  have hpred : (lq.size - 1).toNat = lq.size.toNat - 1 := by
    apply BitVec.toNat_sub_of_le
    rw [BitVec.le_def]
    exact Nat.one_le_iff_ne_zero.mpr fun hzero ↦ hsome (BitVec.eq_of_toNat_eq hzero)
  rw [ring, RingQueue.pop, RingQueue.mk.injEq]
  exact ⟨rfl, after_toNat h lq.front, rfl, hpred⟩

theorem ring_pop (h : lq.capacity = queueBufCnts) :
    lq.pop.2.ring = (bufQueuePop lq.ring).2 ∧ lq.pop.2.capacity = queueBufCnts := by
  unfold pop bufQueuePop
  by_cases hempty : lq.size = 0
  · rw [if_pos hempty, if_pos (size_eq_zero_iff.mp hempty)]
    exact ⟨rfl, h⟩
  · rw [if_neg hempty, if_neg (mt size_eq_zero_iff.mpr hempty)]
    exact ⟨ring_drop h hempty, h⟩

/-- The frame that was got stands in `pbuf`, with its length in `*len`. -/
theorem ring_get (h : lq.capacity = queueBufCnts) (pbuf : Mem) (len : BitVec 16) :
    let (rt, pbuf', len', lq') := lq.get pbuf len
    (if rt = 0 then some (bytes pbuf' 0 len'.toNat) else none) = (bufQueueGet lq.ring).1 ∧
      lq'.ring = (bufQueueGet lq.ring).2 ∧ lq'.capacity = queueBufCnts := by
  unfold get bufQueueGet
  by_cases hempty : lq.size = 0
  · rw [if_pos hempty, if_pos (size_eq_zero_iff.mp hempty)]
    exact ⟨rfl, rfl, h⟩
  · rw [if_neg hempty, if_neg (mt size_eq_zero_iff.mpr hempty)]
    refine ⟨?_, ring_drop h hempty, h⟩
    rw [if_pos rfl, bytes_blit]
    rfl

/-- The buffer at the front holds the oldest frame. -/
theorem Sound.frames_eq (h : lq.Sound) (hsome : 0 < lq.ring.size) :
    frames lq.ring = lq.oldest :: (frames lq.ring).tail := by
  rw [(h.ring.pop hsome).2]
  rfl

end BufQueueRam

end ProjectSensor.Api
