import ProjectSensor.Api.BufQueueRam
import ProjectSensor.Bsp.CpuUart
import ProjectSensor.Library.Transition

/-!
# The receive path in memory

`m_rx_buf` is a block of memory and `m_rx_index` counts the bytes in it.  The path is a bounded
queue of whole frames: what `fetch` returns is what `force_done` completed, in order, without the
frames that had to make room.
-/

open ProjectSensor.Library ProjectSensor.Library.ByteMemory ProjectSensor.Library.Transition
open ProjectSensor.Api

namespace ProjectSensor.Bsp

/-- How a frame left the queue. -/
inductive Leaving where
  | dropped
  | fetched
  deriving DecidableEq

/-- `transceiver`, and what can be seen from outside: the indices `m_rx_buf` was written at, the
frames that were completed, the frames that left the queue, and what `fetch` returned. -/
structure ReceivePath where
  txStatus : TxStat
  duplex : Duplex
  rxIndex : BitVec 16
  rxStatus : RxStat
  rxBuf : Mem
  bufQueue : BufQueueRam
  stores : List ℕ
  completed : List (List Byte)
  left : List (Leaving × List Byte)
  returned : List (List Byte)

/-- The steps of the path; `transmit` and the end of a transmission set `m_tx_status`. -/
inductive PathAction where
  | push (c : Byte)
  | byteTimerTimeout
  | recvInit
  | poll (pbuf : Mem) (len : BitVec 16)
  | txStatusSet (status : TxStat)

namespace ReceivePath

variable (p : ReceivePath)

/-- `t_transceiver_uart0` before it is opened; `m_rx_buf` and the buffers may hold anything. -/
def construct (mode : Duplex) (rxBuf : Mem) (lq : BufQueueRam) : ReceivePath where
  txStatus := .idle
  duplex := mode
  rxIndex := 0
  rxStatus := .idle
  rxBuf := rxBuf
  bufQueue := lq.init
  stores := []
  completed := []
  left := []
  returned := []

/-- The bytes received so far. -/
def frame : List Byte := bytes p.rxBuf 0 p.rxIndex.toNat

def recvInit : ReceivePath := { p with rxIndex := 0, rxStatus := .recv }

/-- A frame is completed; the oldest one in the queue is dropped if the queue is full. -/
def recordDone : ReceivePath := { p with
  completed := p.completed ++ [p.frame]
  left := if p.bufQueue.size.toNat = queueBufCnts then p.left ++ [(.dropped, p.bufQueue.oldest)]
    else p.left }

/-- `force_done`, without the trigger of PendSV. -/
def forceDone : ReceivePath :=
  let p := p.recordDone
  let (rt, lq) := p.bufQueue.put p.rxBuf p.rxIndex
  let lq := if rt = -1 then (lq.pop.2.put p.rxBuf p.rxIndex).2 else lq
  let p := { p with bufQueue := lq }
  if p.duplex = .halfDuplex then { p with rxIndex := 0, rxStatus := .done } else p.recvInit

/-- `m_rx_buf[m_rx_index++] = c`. -/
def storeByte (c : Byte) : ReceivePath := { p with
  rxBuf := store p.rxBuf p.rxIndex.toNat c
  rxIndex := p.rxIndex + 1
  stores := p.stores ++ [p.rxIndex.toNat] }

/-- `transceiver::push`; `is_done` is never true. -/
def push (c : Byte) : ℤ × ReceivePath :=
  if p.duplex = .halfDuplex ∧ p.txStatus = .processing then (-1, p)
  else if p.rxStatus ≠ .recv then (-1, p)
  else
    let p := if transceiverRxBufSize ≤ p.rxIndex.toNat then p.forceDone else p
    (0, p.storeByte c)

/-- `poll` with timeout 0, which is one `fetch`. -/
def poll (pbuf : Mem) (len : BitVec 16) : ℤ × ReceivePath :=
  let (rt, pbuf, len, lq) := p.bufQueue.get pbuf len
  if rt = 0 then
    (1, { p with
      bufQueue := lq
      left := p.left ++ [(.fetched, p.bufQueue.oldest)]
      returned := p.returned ++ [bytes pbuf 0 len.toNat] })
  else (0, { p with bufQueue := lq })

def step : PathAction → ReceivePath
  | .push c => (p.push c).2
  | .byteTimerTimeout => p.forceDone
  | .recvInit => p.recvInit
  | .poll pbuf len => (p.poll pbuf len).2
  | .txStatusSet status => { p with txStatus := status }

/-- The frames that left the queue one way. -/
def leftBy (way : Leaving) : List (List Byte) := (p.left.filter (·.1 = way)).map Prod.snd

/-- The path is a bounded queue of whole frames. -/
structure BoundedFifo : Prop where
  index_le : p.rxIndex.toNat ≤ transceiverRxBufSize
  stores_lt : ∀ index ∈ p.stores, index < transceiverRxBufSize
  size_le : p.bufQueue.size.toNat ≤ queueBufCnts
  rear_eq : p.bufQueue.rear.toNat =
    (p.bufQueue.front.toNat + p.bufQueue.size.toNat) % queueBufCnts
  /-- Every frame completed has left the queue or is in it, in the order of completion. -/
  completed_eq : p.completed = p.left.map Prod.snd ++ frames p.bufQueue.ring
  /-- What `fetch` returned is what left the queue and was not dropped. -/
  returned_eq : p.returned = p.leftBy .fetched

/-- The path as the transceiver of the other modules. -/
@[simps]
def transceiver : Transceiver where
  txStatus := p.txStatus
  duplex := p.duplex
  rxBuf := p.frame
  rxStatus := p.rxStatus
  bufQueue := p.bufQueue.ring
  byteTimer := false

/-! ### The path and the transceiver -/

variable {p}

/-- The queue that `force_done` leaves. -/
def doneQueue (p : ReceivePath) : BufQueueRam :=
  if (p.bufQueue.put p.rxBuf p.rxIndex).1 = -1 then
    ((p.bufQueue.put p.rxBuf p.rxIndex).2.pop.2.put p.rxBuf p.rxIndex).2
  else (p.bufQueue.put p.rxBuf p.rxIndex).2

theorem forceDone_eq (p : ReceivePath) : p.forceDone =
    { p.recordDone with
      rxIndex := 0
      rxStatus := if p.duplex = .halfDuplex then .done else .recv
      bufQueue := p.doneQueue } := by
  show (if p.duplex = .halfDuplex then _ else _) = _
  split <;> rfl

theorem ring_doneQueue (h : p.bufQueue.capacity = queueBufCnts) :
    p.doneQueue.ring = p.transceiver.forceDone.bufQueue ∧
      p.doneQueue.capacity = queueBufCnts := by
  obtain ⟨hresult, hring, hcapacity⟩ := BufQueueRam.ring_put h p.rxBuf p.rxIndex
  obtain ⟨hpop, hpopped⟩ := BufQueueRam.ring_pop hcapacity
  obtain ⟨-, hagain, hkept⟩ := BufQueueRam.ring_put hpopped p.rxBuf p.rxIndex
  rw [doneQueue, Transceiver.forceDone_eq, hresult]
  show _ = (if (bufQueuePut p.bufQueue.ring p.frame).1 = -1 then _ else _) ∧ _
  rw [frame]
  split
  · exact ⟨hagain.trans (by rw [hpop, hring]; rfl), hkept⟩
  · exact ⟨hring, hcapacity⟩

theorem transceiver_forceDone (h : p.bufQueue.capacity = queueBufCnts) :
    p.forceDone.transceiver = p.transceiver.forceDone := by
  rw [forceDone_eq, transceiver, (ring_doneQueue h).1, Transceiver.forceDone_eq]
  rfl

theorem transceiver_storeByte (hindex : p.rxIndex.toNat ≤ transceiverRxBufSize) (c : Byte) :
    (p.storeByte c).transceiver = { p.transceiver with rxBuf := p.transceiver.rxBuf ++ [c] } := by
  have hsucc : (p.rxIndex + 1).toNat = p.rxIndex.toNat + 1 := by
    apply BitVec.toNat_add_of_lt
    calc p.rxIndex.toNat + 1 ≤ transceiverRxBufSize + 1 := Nat.succ_le_succ hindex
      _ < 2 ^ 16 := by decide
  have hframe : (p.storeByte c).frame = p.frame ++ [c] := by
    have hbytes := bytes_store p.rxBuf 0 p.rxIndex.toNat c
    rw [Nat.zero_add] at hbytes
    rw [frame, frame, ← hbytes, ← hsucc]
    rfl
  rw [transceiver, hframe]
  rfl

/-- The path takes and refuses the same bytes, and closes the same frames. -/
theorem transceiver_push (h : p.bufQueue.capacity = queueBufCnts)
    (hindex : p.rxIndex.toNat ≤ transceiverRxBufSize) (c : Byte) :
    (p.push c).1 = (p.transceiver.pushByte c).1 ∧
      (p.push c).2.transceiver = (p.transceiver.pushByte c).2 := by
  have hlength : p.transceiver.rxBuf.length = p.rxIndex.toNat := length_bytes ..
  unfold push Transceiver.pushByte
  rw [hlength, transceiver_duplex, transceiver_txStatus, transceiver_rxStatus]
  split
  · exact ⟨rfl, rfl⟩
  split
  · exact ⟨rfl, rfl⟩
  refine ⟨rfl, ?_⟩
  by_cases hfull : transceiverRxBufSize ≤ p.rxIndex.toNat
  · have hempty : p.forceDone.rxIndex.toNat ≤ transceiverRxBufSize := by
      rw [forceDone_eq]
      exact Nat.zero_le _
    simp only [if_pos hfull]
    rw [transceiver_storeByte hempty, transceiver_forceDone h]
  · simp only [if_neg hfull]
    exact transceiver_storeByte hindex c

/-- A `poll` returns the frame that `fetch` takes from the queue. -/
theorem transceiver_poll (h : p.bufQueue.capacity = queueBufCnts) (pbuf : Mem) (len : BitVec 16) :
    (p.poll pbuf len).2.returned = p.returned ++ p.transceiver.fetch.1.toList ∧
      (p.poll pbuf len).2.transceiver = p.transceiver.fetch.2 := by
  have hget := BufQueueRam.ring_get h pbuf len
  unfold poll Transceiver.fetch
  generalize p.bufQueue.get pbuf len = got at hget ⊢
  obtain ⟨rt, pbuf', len', lq⟩ := got
  obtain ⟨hframe, hring, -⟩ := hget
  rw [transceiver_bufQueue]
  simp only [← hframe, ← hring]
  by_cases hok : rt = 0
  · rw [if_pos hok, if_pos hok]
    exact ⟨rfl, rfl⟩
  · rw [if_neg hok, if_neg hok]
    exact ⟨(List.append_nil _).symm, rfl⟩

/-! ### The law of the queue -/

/-- The path between two steps. -/
structure Inv (p : ReceivePath) : Prop where
  queue : p.bufQueue.Sound
  index_le : p.rxIndex.toNat ≤ transceiverRxBufSize
  stores_lt : ∀ index ∈ p.stores, index < transceiverRxBufSize
  completed_eq : p.completed = p.left.map Prod.snd ++ frames p.bufQueue.ring
  returned_eq : p.returned = p.leftBy .fetched

theorem Inv.boundedFifo (h : Inv p) : p.BoundedFifo where
  index_le := h.index_le
  stores_lt := h.stores_lt
  size_le := h.queue.ring.ring.size_le
  rear_eq := h.queue.ring.ring.rear_eq
  completed_eq := h.completed_eq
  returned_eq := h.returned_eq

theorem inv_construct (mode : Duplex) (rxBuf : Mem) (lq : BufQueueRam) :
    Inv (construct mode rxBuf lq) where
  queue := BufQueueRam.sound_init
  index_le := Nat.zero_le _
  stores_lt := fun _ hindex ↦ absurd hindex List.not_mem_nil
  completed_eq := rfl
  returned_eq := rfl

/-- The queue of three frames that a frame joins: the oldest one leaves if there is no room. -/
theorem Inv.forceDone (h : Inv p) : Inv p.forceDone := by
  obtain ⟨hring, hcapacity⟩ := ring_doneQueue h.queue.capacity_eq
  have hsound : QueueSound p.transceiver.bufQueue := h.queue.ring
  obtain ⟨hqueue, hframes⟩ := queueSound_forceDone hsound
  have hwhole : p.frame.take queueBufLen = p.frame := by
    apply List.take_of_length_le
    calc p.frame.length = p.rxIndex.toNat := length_bytes ..
      _ ≤ transceiverRxBufSize := h.index_le
      _ ≤ queueBufLen := by decide
  rw [transceiver_rxBuf, hwhole, ← hring] at hframes
  have hcompleted : p.recordDone.completed =
      p.recordDone.left.map Prod.snd ++ frames p.doneQueue.ring := by
    show p.completed ++ [p.frame] = (if _ then _ else _ : List (Leaving × List Byte)).map _ ++ _
    rw [hframes, h.completed_eq]
    by_cases hfull : p.bufQueue.size.toNat = queueBufCnts
    · have hsome : 0 < p.bufQueue.ring.size := by
        calc 0 < queueBufCnts := by decide
          _ = p.bufQueue.ring.size := hfull.symm
      have hroom : ¬ p.bufQueue.ring.size < queueBufCnts := hfull.not_lt
      rw [if_pos hfull, transceiver_bufQueue, if_neg hroom, List.map_append, List.map_singleton,
        h.queue.frames_eq hsome]
      simp
    · have hroom : p.bufQueue.ring.size < queueBufCnts :=
        lt_of_le_of_ne h.queue.ring.ring.size_le hfull
      rw [if_neg hfull, transceiver_bufQueue, if_pos hroom, List.append_assoc]
  have hreturned : p.returned = p.recordDone.leftBy .fetched := by
    rw [h.returned_eq, leftBy, leftBy, recordDone]
    split
    · simp
    · rfl
  rw [forceDone_eq]
  exact ⟨⟨hcapacity, hring ▸ hqueue⟩, Nat.zero_le _, h.stores_lt, hcompleted, hreturned⟩

theorem Inv.push (h : Inv p) (c : Byte) : Inv (p.push c).2 := by
  have hstore : ∀ p' : ReceivePath, Inv p' → p'.rxIndex.toNat < transceiverRxBufSize →
      Inv (p'.storeByte c) := by
    intro p' hinv hlt
    have hsucc : (p'.rxIndex + 1).toNat = p'.rxIndex.toNat + 1 := by
      apply BitVec.toNat_add_of_lt
      calc p'.rxIndex.toNat + 1 ≤ transceiverRxBufSize := hlt
        _ < 2 ^ 16 := by decide
    refine ⟨hinv.queue, hsucc.trans_le hlt, ?_, hinv.completed_eq, hinv.returned_eq⟩
    intro index hindex
    rcases List.mem_append.mp hindex with hbefore | hnow
    · exact hinv.stores_lt index hbefore
    · exact (List.mem_singleton.mp hnow).trans_lt hlt
  unfold ReceivePath.push
  split
  · exact h
  split
  · exact h
  by_cases hfull : transceiverRxBufSize ≤ p.rxIndex.toNat
  · simp only [if_pos hfull]
    apply hstore _ h.forceDone
    rw [forceDone_eq]
    exact show 0 < transceiverRxBufSize by decide
  · simp only [if_neg hfull]
    exact hstore p h (not_le.mp hfull)

theorem Inv.poll (h : Inv p) (pbuf : Mem) (len : BitVec 16) : Inv (p.poll pbuf len).2 := by
  have hget := BufQueueRam.ring_get h.queue.capacity_eq pbuf len
  obtain ⟨hhead, hsound, htail⟩ := h.queue.ring.get
  unfold ReceivePath.poll
  generalize p.bufQueue.get pbuf len = got at hget ⊢
  obtain ⟨rt, pbuf', len', lq⟩ := got
  obtain ⟨hframe, hring, hcapacity⟩ := hget
  rw [← hring] at hsound htail
  by_cases hok : rt = 0
  · rw [if_pos hok, hhead] at hframe
    have hsome : 0 < p.bufQueue.ring.size := by
      apply Nat.pos_of_ne_zero
      intro hzero
      rw [show frames p.bufQueue.ring = [] from RingQueue.contents_eq_nil_iff.mpr hzero] at hframe
      exact absurd hframe (Option.some_ne_none _)
    have hframes := h.queue.frames_eq hsome
    rw [hframes, List.head?_cons, Option.some_inj] at hframe
    simp only [if_pos hok]
    refine ⟨⟨hcapacity, hsound⟩, h.index_le, h.stores_lt, ?_, ?_⟩
    · show p.completed = _ ++ _
      rw [h.completed_eq, htail, List.map_append, List.map_singleton, List.append_assoc,
        List.singleton_append, ← hframes]
    · show p.returned ++ [_] = List.map _ (List.filter _ (_ ++ [_]))
      rw [hframe, h.returned_eq, leftBy]
      simp
  · rw [if_neg hok, hhead] at hframe
    have hempty : frames p.bufQueue.ring = [] := List.head?_eq_none_iff.mp hframe.symm
    simp only [if_neg hok]
    refine ⟨⟨hcapacity, hsound⟩, h.index_le, h.stores_lt, ?_, h.returned_eq⟩
    show p.completed = _ ++ _
    rw [h.completed_eq, htail, hempty, List.tail_nil]

theorem Inv.step (h : Inv p) (action : PathAction) : Inv (p.step action) := by
  cases action with
  | push c => exact h.push c
  | byteTimerTimeout => exact h.forceDone
  | recvInit => exact ⟨h.queue, Nat.zero_le _, h.stores_lt, h.completed_eq, h.returned_eq⟩
  | poll pbuf len => exact h.poll pbuf len
  | txStatusSet status =>
      exact ⟨h.queue, h.index_le, h.stores_lt, h.completed_eq, h.returned_eq⟩

/-- Whatever order the bytes, the timer, the polls and the starts come in, in both modes. -/
theorem boundedFifo_run (mode : Duplex) (rxBuf : Mem) (lq : BufQueueRam)
    (actions : List PathAction) :
    (run step (construct mode rxBuf lq) actions).BoundedFifo := by
  have hinv : Inv (run step (construct mode rxBuf lq) actions) :=
    run_of_step Inv (fun _ action h ↦ h.step action) (inv_construct mode rxBuf lq)
  exact hinv.boundedFifo

end ReceivePath

end ProjectSensor.Bsp
