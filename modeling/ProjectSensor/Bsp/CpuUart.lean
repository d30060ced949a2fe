import ProjectSensor.Api.BufQueue

/-!
# The transceiver

A byte goes into `m_rx_buf` while the receiver is armed; the byte timer, or a byte too many, closes
the frame and puts it into the queue.  `m_rx_buf` is the list of its first `m_rx_index` bytes.
-/

open ProjectSensor.Library ProjectSensor.Library.ByteMemory ProjectSensor.Api

namespace ProjectSensor.Bsp

inductive TxStat where
  | idle
  | processing
  deriving DecidableEq

inductive RxStat where
  | idle
  | recv
  | done
  | timeout
  deriving DecidableEq

inductive Duplex where
  | duplex
  | halfDuplex
  deriving DecidableEq

/-- `def_TRANSCEIVER_RX_BUF_SIZE`. -/
def transceiverRxBufSize : ℕ := 100

/-- `transceiver_uart0`; `byteTimer` tells whether its byte timer is running. -/
structure Transceiver where
  txStatus : TxStat
  duplex : Duplex
  rxBuf : List Byte
  rxStatus : RxStat
  bufQueue : BufQueue
  byteTimer : Bool

namespace Transceiver

variable (t : Transceiver)

/-- `t_transceiver_uart0` before it is opened. -/
def construct (mode : Duplex) : Transceiver where
  txStatus := .idle
  duplex := mode
  rxBuf := []
  rxStatus := .idle
  bufQueue := bufQueueInit
  byteTimer := false

def recvInit : Transceiver := { t with rxBuf := [], rxStatus := .recv }

/-- `force_done`, without the trigger of PendSV; the oldest frame makes room for the new one. -/
def forceDone : Transceiver :=
  let (rt, bufQueue) := bufQueuePut t.bufQueue t.rxBuf
  let bufQueue :=
    if rt = -1 then (bufQueuePut (bufQueuePop bufQueue).2 t.rxBuf).2 else bufQueue
  let t := { t with bufQueue := bufQueue }
  if t.duplex = .halfDuplex then { t with rxBuf := [], rxStatus := .done } else t.recvInit

/-- `transceiver::push`; `is_done` is never true. -/
def pushByte (c : Byte) : ℤ × Transceiver :=
  if t.duplex = .halfDuplex ∧ t.txStatus = .processing then (-1, t)
  else if t.rxStatus ≠ .recv then (-1, t)
  else
    let t := if transceiverRxBufSize ≤ t.rxBuf.length then t.forceDone else t
    (0, { t with rxBuf := t.rxBuf ++ [c] })

/-- `transceiver_uart0::push`: a byte that was taken starts the byte timer again. -/
def push (c : Byte) : ℤ × Transceiver :=
  let (rt, t) := t.pushByte c
  if rt = 0 then (rt, { t with byteTimer := true }) else (rt, t)

/-- `byte_timer_timeout`, run when the one-shot byte timer expires. -/
def byteTimerTimeout : Transceiver :=
  if t.byteTimer then { t with byteTimer := false }.forceDone else t

def fetch : Option (List Byte) × Transceiver :=
  let (frame, bufQueue) := bufQueueGet t.bufQueue
  (frame, { t with bufQueue := bufQueue })

/-- `transmit`: it waits for the end of the last transmission and starts the next one. -/
def transmit : Transceiver := { t with txStatus := .processing }

/-- `DMA_UART_TX_Int_Handler`. -/
def dmaUartTxIntHandler : Transceiver := { t with txStatus := .idle }

end Transceiver

/-- Closing a frame empties `m_rx_buf` in both modes. -/
theorem Transceiver.forceDone_eq (t : Transceiver) : t.forceDone =
    { t with
      rxBuf := []
      rxStatus := if t.duplex = .halfDuplex then .done else .recv
      bufQueue :=
        if (bufQueuePut t.bufQueue t.rxBuf).1 = -1 then
          (bufQueuePut (bufQueuePop (bufQueuePut t.bufQueue t.rxBuf).2).2 t.rxBuf).2
        else (bufQueuePut t.bufQueue t.rxBuf).2 } := by
  show (if t.duplex = .halfDuplex then _ else _) = _
  split <;> rfl

/-- The queue after a frame was closed: the oldest frame is dropped when there are three. -/
theorem queueSound_forceDone {t : Transceiver} (h : QueueSound t.bufQueue) :
    QueueSound t.forceDone.bufQueue ∧ frames t.forceDone.bufQueue =
      (if t.bufQueue.size < queueBufCnts then frames t.bufQueue else (frames t.bufQueue).tail) ++
        [t.rxBuf.take queueBufLen] := by
  rw [Transceiver.forceDone_eq]
  show QueueSound (if _ then _ else _) ∧ frames (if _ then _ else _) = _
  rcases Nat.lt_or_ge t.bufQueue.size queueBufCnts with hroom | hfull
  · obtain ⟨hok, hput, hframes⟩ := h.put hroom t.rxBuf
    rw [hok, if_neg (by decide), if_pos hroom]
    exact ⟨hput, hframes⟩
  · have hfail : bufQueuePut t.bufQueue t.rxBuf = (-1, t.bufQueue) := if_pos hfull
    have hpos : 0 < t.bufQueue.size := hfull.trans_lt' (by decide)
    have hsize := h.ring.size_le
    obtain ⟨hpop, hdrop⟩ := h.pop hpos
    have hroom : (t.bufQueue.pop queueBufCnts).size < queueBufCnts := by
      simp only [RingQueue.pop]
      omega
    obtain ⟨-, hput, hframes⟩ := hpop.put hroom t.rxBuf
    rw [hfail, if_pos rfl, if_neg (not_lt.mpr hfull), bufQueuePop, if_neg hpos.ne', hdrop]
    exact ⟨hput, hframes⟩

theorem queueSound_push {t : Transceiver} (h : QueueSound t.bufQueue) (c : Byte) :
    QueueSound (t.push c).2.bufQueue := by
  have hbyte : QueueSound (t.pushByte c).2.bufQueue := by
    unfold Transceiver.pushByte
    split
    · exact h
    split
    · exact h
    simp only
    split
    · exact (queueSound_forceDone h).1
    · exact h
  unfold Transceiver.push
  simp only
  split <;> exact hbyte

theorem queueSound_byteTimerTimeout {t : Transceiver} (h : QueueSound t.bufQueue) :
    QueueSound t.byteTimerTimeout.bufQueue := by
  unfold Transceiver.byteTimerTimeout
  split
  · exact (queueSound_forceDone (t := { t with byteTimer := false }) h).1
  · exact h

end ProjectSensor.Bsp
