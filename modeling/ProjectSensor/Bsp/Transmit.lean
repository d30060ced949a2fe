import ProjectSensor.Bsp.CpuUart
import ProjectSensor.Library.Transition

/-!
# Transmissions and the busy flag

`transmit` waits until the last transmission is over, sets `TX_STAT_PROCESSING`, and only then looks
at the length.  The flag is cleared by nothing but the interrupt at the end of a DMA transfer, and
no transfer is started for a frame that is too long.
-/

open ProjectSensor.Library ProjectSensor.Library.ByteMemory ProjectSensor.Library.Transition

namespace ProjectSensor.Bsp

/-- `def_TRANSCEIVER_TX_BUF_SIZE`. -/
def transceiverTxBufSize : ℕ := 300

/-- A call of `transmit` that is still in its wait loop. -/
structure TransmitCall where
  pdata : Mem
  len : BitVec 16

/-- The transceiver with `m_tx_buf`, the DMA transfer under way, the direction of the line, the call
of `transmit` under way, and what the calls before it have returned, the latest first. -/
structure TxLink where
  transceiver : Transceiver
  txBuf : Mem
  dma : Option (BitVec 16)
  rs485Send : Bool
  call : Option TransmitCall
  returned : List (BitVec 16)

/-- The main program calls `transmit`; `proceed` is one test of its wait loop and, if that ends,
the rest of the call.  The other steps are the interrupts and what the program does with received
frames. -/
inductive TxAction where
  | transmit (pdata : Mem) (len : BitVec 16)
  | proceed
  | dmaUartTxInt
  | push (c : Byte)
  | byteTimerTimeout
  | recvInit
  | fetch

namespace TxLink

variable (s : TxLink)

/-- The link after start-up; `m_tx_buf` may hold anything. -/
def construct (mode : Duplex) (txBuf : Mem) : TxLink where
  transceiver := .construct mode
  txBuf := txBuf
  dma := none
  rs485Send := false
  call := none
  returned := []

/-- `transmit` behind its wait loop. -/
def transmit (call : TransmitCall) : BitVec 16 × TxLink :=
  let s := { s with transceiver := s.transceiver.transmit }
  if transceiverTxBufSize < call.len.toNat then (0, s)
  else (call.len, { s with
    txBuf := blit s.txBuf 0 call.pdata 0 call.len.toNat
    dma := some call.len
    rs485Send := true })

/-- A test of the wait loop; the call returns if it goes on from there. -/
def proceed : TxLink :=
  match s.call with
  | some call =>
      if s.transceiver.txStatus = .processing then s
      else
        let (rt, s) := s.transmit call
        { s with call := none, returned := rt :: s.returned }
  | none => s

/-- `DMA_UART_TX_Int_Handler`, which runs at the end of a transfer. -/
def dmaUartTxIntHandler : TxLink :=
  if s.dma.isSome then { s with
    transceiver := s.transceiver.dmaUartTxIntHandler
    dma := none
    rs485Send := false }
  else s

def step : TxAction → TxLink
  | .transmit pdata len =>
      if s.call.isNone then { s with call := some ⟨pdata, len⟩ } else s
  | .proceed => s.proceed
  | .dmaUartTxInt => s.dmaUartTxIntHandler
  | .push c => { s with transceiver := (s.transceiver.push c).2 }
  | .byteTimerTimeout => { s with transceiver := s.transceiver.byteTimerTimeout }
  | .recvInit => { s with transceiver := s.transceiver.recvInit }
  | .fetch => { s with transceiver := s.transceiver.fetch.2 }

/-- The transceiver is busy only while a transfer is under way. -/
def BusyOnlySending : Prop := s.transceiver.txStatus = .processing → s.dma.isSome

/-- A call that leaves its wait loop has a frame that fits. -/
def StartFits : TxAction → Prop
  | .proceed => s.transceiver.txStatus ≠ .processing →
      ∀ call ∈ s.call, call.len.toNat ≤ transceiverTxBufSize
  | _ => True

end TxLink

/-! ### Receiving leaves the busy flag alone -/

namespace Transceiver

variable (t : Transceiver)

theorem txStatus_forceDone : t.forceDone.txStatus = t.txStatus := by
  rw [forceDone_eq]

theorem txStatus_pushByte (c : Byte) : (t.pushByte c).2.txStatus = t.txStatus := by
  unfold pushByte
  split
  · rfl
  split
  · rfl
  simp only
  split
  · exact t.txStatus_forceDone
  · rfl

theorem txStatus_push (c : Byte) : (t.push c).2.txStatus = t.txStatus := by
  unfold push
  simp only
  split <;> exact t.txStatus_pushByte c

theorem txStatus_byteTimerTimeout : t.byteTimerTimeout.txStatus = t.txStatus := by
  unfold byteTimerTimeout
  split
  · exact txStatus_forceDone _
  · rfl

end Transceiver

namespace TxLink

variable {s : TxLink}

/-- The steps that have to do with neither the flag nor the transfer. -/
theorem step_frame (action : TxAction) (hproceed : action ≠ .proceed)
    (hdma : action ≠ .dmaUartTxInt) :
    (s.step action).transceiver.txStatus = s.transceiver.txStatus ∧
      (s.step action).dma = s.dma ∧ (s.step action).returned = s.returned := by
  cases action with
  | transmit pdata len =>
      unfold step
      simp only
      split <;> exact ⟨rfl, rfl, rfl⟩
  | proceed => exact absurd rfl hproceed
  | dmaUartTxInt => exact absurd rfl hdma
  | push c => exact ⟨s.transceiver.txStatus_push c, rfl, rfl⟩
  | byteTimerTimeout => exact ⟨s.transceiver.txStatus_byteTimerTimeout, rfl, rfl⟩
  | recvInit => exact ⟨rfl, rfl, rfl⟩
  | fetch => exact ⟨rfl, rfl, rfl⟩

/-- A call gets behind its wait loop when the flag is clear: the flag is set, and the transfer
started if the frame fits. -/
theorem proceed_of_idle {call : TransmitCall} (hcall : s.call = some call)
    (hidle : s.transceiver.txStatus ≠ .processing) :
    s.proceed.transceiver.txStatus = .processing ∧
      s.proceed.dma =
        (if transceiverTxBufSize < call.len.toNat then s.dma else some call.len) := by
  unfold proceed transmit
  simp only [hcall, hidle, if_false]
  split <;> exact ⟨rfl, rfl⟩

theorem proceed_of_waiting (hwait : s.call = none ∨ s.transceiver.txStatus = .processing) :
    s.proceed = s := by
  unfold proceed
  split
  · rename_i call hcall
    rw [if_pos (hwait.resolve_left (by simp [hcall]))]
  · rfl

/-- A transfer is under way only while the transceiver is busy. -/
def SendingBusy (s : TxLink) : Prop := s.dma.isSome → s.transceiver.txStatus = .processing

theorem SendingBusy.step (h : s.SendingBusy) (action : TxAction) :
    (s.step action).SendingBusy := by
  by_cases hproceed : action = .proceed
  · subst hproceed
    show s.proceed.SendingBusy
    rcases hcall : s.call with _ | call
    · rw [proceed_of_waiting (.inl hcall)]
      exact h
    by_cases hbusy : s.transceiver.txStatus = .processing
    · rw [proceed_of_waiting (.inr hbusy)]
      exact h
    · exact fun _ ↦ (proceed_of_idle hcall hbusy).1
  by_cases hdma : action = .dmaUartTxInt
  · subst hdma
    show s.dmaUartTxIntHandler.SendingBusy
    unfold dmaUartTxIntHandler
    split
    · exact fun hsome ↦ absurd hsome Bool.false_ne_true
    · exact h
  · obtain ⟨hstatus, hsame, -⟩ := step_frame (s := s) action hproceed hdma
    unfold SendingBusy
    rw [hstatus, hsame]
    exact h

/-- A step leaves the flag to the transfers exactly if no frame that is too long is started. -/
theorem busyOnlySending_step_iff (hsending : s.SendingBusy) (h : s.BusyOnlySending)
    (action : TxAction) : (s.step action).BusyOnlySending ↔ s.StartFits action := by
  by_cases hproceed : action = .proceed
  · subst hproceed
    show s.proceed.BusyOnlySending ↔ (_ → ∀ call ∈ s.call, _)
    rcases hcall : s.call with _ | call
    · rw [proceed_of_waiting (.inl hcall)]
      exact iff_of_true h fun _ call hmem ↦ absurd hmem (Option.not_mem_none call)
    by_cases hbusy : s.transceiver.txStatus = .processing
    · rw [proceed_of_waiting (.inr hbusy)]
      exact iff_of_true h fun hidle ↦ absurd hbusy hidle
    · obtain ⟨hstatus, hdma⟩ := proceed_of_idle hcall hbusy
      have hnone : s.dma = none := by
        simpa using mt hsending hbusy
      rw [BusyOnlySending, hstatus, hdma, hnone]
      simp [hbusy]
  · have hfits : s.StartFits action := by
      cases action <;> first | exact trivial | exact absurd rfl hproceed
    refine iff_of_true ?_ hfits
    by_cases hdma : action = .dmaUartTxInt
    · subst hdma
      show s.dmaUartTxIntHandler.BusyOnlySending
      unfold dmaUartTxIntHandler
      split
      · exact fun hbusy ↦ absurd (show TxStat.idle = .processing from hbusy) (by decide)
      · exact h
    · obtain ⟨hstatus, hsame, -⟩ := step_frame (s := s) action hproceed hdma
      unfold BusyOnlySending
      rw [hstatus, hsame]
      exact h

/-- In a run the transceiver is busy only while it is sending, exactly if no call starts with a
frame that is too long. -/
theorem busyOnlySending_run_iff (mode : Duplex) (txBuf : Mem) (actions : List TxAction) :
    AllStates step BusyOnlySending (construct mode txBuf) actions ↔
      AllSteps step StartFits (construct mode txBuf) actions := by
  apply allStates_iff_allSteps SendingBusy
  · intro s action hsending _ _
    exact hsending.step action
  · intro s action hsending hbusy
    exact busyOnlySending_step_iff hsending hbusy action
  · exact fun hsome ↦ absurd hsome Bool.false_ne_true
  · exact fun hbusy ↦ absurd (show TxStat.idle = .processing from hbusy) (by decide)

/-- The flag is set and no interrupt will clear it. -/
def Blocked (s : TxLink) : Prop := s.transceiver.txStatus = .processing ∧ s.dma = none

/-- Once blocked, the link stays so, and no call returns any more. -/
theorem blocked_run (h : s.Blocked) (actions : List TxAction) :
    (run step s actions).Blocked ∧ (run step s actions).returned = s.returned := by
  apply run_of_step (fun s' : TxLink ↦ s'.Blocked ∧ s'.returned = s.returned)
  · rintro s' action ⟨hblocked, hreturned⟩
    by_cases hproceed : action = .proceed
    · subst hproceed
      show s'.proceed.Blocked ∧ s'.proceed.returned = _
      rw [proceed_of_waiting (.inr hblocked.1)]
      exact ⟨hblocked, hreturned⟩
    by_cases hdma : action = .dmaUartTxInt
    · subst hdma
      show s'.dmaUartTxIntHandler.Blocked ∧ s'.dmaUartTxIntHandler.returned = _
      rw [dmaUartTxIntHandler, hblocked.2]
      exact ⟨hblocked, hreturned⟩
    · obtain ⟨hstatus, hsame, hkept⟩ := step_frame (s := s') action hproceed hdma
      exact ⟨⟨hstatus.trans hblocked.1, hsame.trans hblocked.2⟩, hkept.trans hreturned⟩
  · exact ⟨h, rfl⟩

/-- A frame of 301 bytes is refused, and the link is left busy: it refuses the bytes it receives. -/
theorem not_busyOnlySending_refused :
    ¬ AllStates step BusyOnlySending (construct .halfDuplex fun _ ↦ 0)
        [.transmit (fun _ ↦ 0) 301, .proceed] ∧
      (run step (construct .halfDuplex fun _ ↦ 0)
        [.transmit (fun _ ↦ 0) 301, .proceed]).returned = [0] ∧
      ((run step (construct .halfDuplex fun _ ↦ 0)
        [.recvInit, .transmit (fun _ ↦ 0) 301, .proceed]).transceiver.push 0).1 = -1 := by
  refine ⟨fun hall ↦ ?_, rfl, rfl⟩
  exact absurd (hall.last rfl) Bool.false_ne_true

/-- After a refused frame no call of `transmit` returns any more, whatever happens. -/
theorem blocked_after_refused (pdata : Mem) {len : BitVec 16}
    (hlong : transceiverTxBufSize < len.toNat) {s : TxLink} (hcall : s.call = some ⟨pdata, len⟩)
    (hidle : s.transceiver.txStatus ≠ .processing) (hsending : s.SendingBusy)
    (actions : List TxAction) :
    (run step s.proceed actions).Blocked ∧
      (run step s.proceed actions).returned = s.proceed.returned := by
  obtain ⟨hstatus, hdma⟩ := proceed_of_idle hcall hidle
  have hnone : s.dma = none := by
    simpa using mt hsending hidle
  rw [if_pos hlong] at hdma
  exact blocked_run ⟨hstatus, hdma.trans hnone⟩ actions

end TxLink

end ProjectSensor.Bsp
