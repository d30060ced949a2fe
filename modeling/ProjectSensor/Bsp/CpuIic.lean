import Mathlib.Data.BitVec
import ProjectSensor.Library.ByteMemory
import ProjectSensor.Library.Transition

/-!
# A transfer on the I2C bus

`cpu_iic_transfer` starts the transfer and then polls `m_accessFinished`, which the interrupt
handler `I2C0_Master_Int_Handler` sets; the handler may run between any two steps of the polling
loop.  It tests its error bits one by one, one of them against the mask of another, and a
completion that follows an error overwrites it.
-/

open ProjectSensor.Library.ByteMemory ProjectSensor.Library.Transition

namespace ProjectSensor.Bsp

/-- The bits of `I2CMSTA` that the handler tests.  Their masks come from the header of the part;
the handler relies on arbitration lost and NACK of data being different bits. -/
structure MasterSta where
  rxof : Fin 32
  nackData : Fin 32
  aLost : Fin 32
  nackAddr : Fin 32
  rxReq : Fin 32
  txReq : Fin 32
  tComp : Fin 32
  aLost_ne_nackData : aLost ≠ nackData

/-- The positions that the description of `I2cSta` lists. -/
def i2cMsta : MasterSta where
  rxof := 9
  nackData := 7
  aLost := 5
  nackAddr := 4
  rxReq := 3
  txReq := 2
  tComp := 8
  aLost_ne_nackData := by decide

/-- The mask of a bit. -/
def bitMask (bit : Fin 32) : BitVec 32 := BitVec.twoPow 32 bit

/-- `FALSE`, `TRUE`, `I2C_ABNORMAL` and `I2C_TIMEOUT`. -/
inductive AccessFinished where
  | no
  | yes
  | abnormal
  | timeout
  deriving DecidableEq

/-- `I2C_NONE`, `I2C_READ` and `I2C_WRITE`. -/
inductive TransferCtrl where
  | none
  | read
  | write
  deriving DecidableEq

/-- What `I2cMCfg` enables: the interrupt sources and the master. -/
structure MasterCfg where
  ienCmp : Bool
  ienRx : Bool
  ienTx : Bool
  ienNack : Bool
  masEn : Bool
  deriving DecidableEq

/-- `def_I2C_INT_SOURCE` with the master enabled. -/
def intSourceCfg : MasterCfg := ⟨true, true, true, true, true⟩

/-- What is written to the registers of the bus. -/
inductive BusWrite where
  | mCfg (cfg : MasterCfg)
  | tx (byte : Byte)
  | mWrCfg (slaAddr : Byte)
  | mRdCfg (slaAddr : Byte) (numBytes : BitVec 8)
  deriving DecidableEq

/-- `t_iic_transfer`, the memory `m_paccessAddr` points into, and what was written to the bus, the
latest first. -/
structure IicTransfer where
  subAddr : BitVec 16
  slaAddr : Byte
  accessNumbBytes : BitVec 8
  index : BitVec 8
  lock : BitVec 8
  accessFinished : AccessFinished
  accessCtrl : TransferCtrl
  subAddrCnt : BitVec 8
  accessAddr : ℕ
  ram : Mem
  bus : List BusWrite

namespace IicTransfer

variable (t : IicTransfer)

def write (w : BusWrite) : IicTransfer := { t with bus := w :: t.bus }

/-- The next byte of the address inside the part. -/
def sendSubAddr : IicTransfer :=
  if t.subAddrCnt = 2 then
    { t.write (.tx ((t.subAddr >>> 8) &&& 0xff |>.setWidth 8)) with subAddrCnt := t.subAddrCnt - 1 }
  else if t.subAddrCnt = 1 then
    { t.write (.tx (t.subAddr &&& 0xff |>.setWidth 8)) with
      subAddrCnt := t.subAddrCnt - 1
      accessCtrl := if t.accessCtrl = .write then .none else t.accessCtrl }
  else t

/-- What `cpu_iic_transfer` does before the loop. -/
def start : IicTransfer :=
  let t := { t with index := 0, lock := 0 }
  let t := t.write (.mCfg intSourceCfg)
  let t := if 0 < t.subAddrCnt then t.sendSubAddr else t
  t.write (.mWrCfg t.slaAddr)

/-- A byte was received. -/
def receive (rx : Byte) : IicTransfer :=
  let t := { t with
    ram := store t.ram (t.accessAddr + t.index.toNat) rx
    index := t.index + 1 }
  if t.accessNumbBytes ≤ t.index then { t with index := 0 } else t

/-- The bus asks for a byte. -/
def transmit : IicTransfer :=
  let t := if t.lock = 0 ∧ t.accessCtrl = .read then
    { t.write (.mRdCfg t.slaAddr t.accessNumbBytes) with lock := 1 } else t
  if t.accessCtrl = .none then
    if t.index < t.accessNumbBytes then
      { t.write (.tx (t.ram (t.accessAddr + t.index.toNat))) with index := t.index + 1 }
    else t.write (.mCfg { intSourceCfg with ienTx := false })
  else t.sendSubAddr

end IicTransfer

section Handler

variable (sta : MasterSta) (uiStatus : BitVec 32)

def bitSet (bit : Fin 32) : Prop := uiStatus &&& bitMask bit = bitMask bit

instance (bit : Fin 32) : Decidable (bitSet uiStatus bit) := inferInstanceAs (Decidable (_ = _))

/-- The first test of the handler, as it is written. -/
def takesForError : Prop :=
  bitSet uiStatus sta.rxof ∨ bitSet uiStatus sta.nackData ∨
    uiStatus &&& bitMask sta.aLost = bitMask sta.nackData ∨ bitSet uiStatus sta.nackAddr

instance : Decidable (takesForError sta uiStatus) := inferInstanceAs (Decidable (_ ∨ _))

/-- `I2C0_Master_Int_Handler`, with the byte `I2cRx` would give. -/
def i2c0MasterIntHandler (rx : Byte) (t : IicTransfer) : IicTransfer :=
  if takesForError sta uiStatus then { t with accessFinished := .abnormal }
  else
    let t := if bitSet uiStatus sta.rxReq then t.receive rx else t
    let t := if bitSet uiStatus sta.txReq then t.transmit else t
    if bitSet uiStatus sta.tComp then
      { t.write (.mCfg intSourceCfg) with accessFinished := .yes }
    else t

/-- The bus reports an error. -/
def busError : Prop :=
  bitSet uiStatus sta.rxof ∨ bitSet uiStatus sta.nackData ∨ bitSet uiStatus sta.aLost ∨
    bitSet uiStatus sta.nackAddr

instance : Decidable (busError sta uiStatus) := inferInstanceAs (Decidable (_ ∨ _))

/-- One of the errors that the handler's test finds. -/
def foundError : Prop :=
  bitSet uiStatus sta.rxof ∨ bitSet uiStatus sta.nackData ∨ bitSet uiStatus sta.nackAddr

instance : Decidable (foundError sta uiStatus) := inferInstanceAs (Decidable (_ ∨ _))

end Handler

/-- Where `cpu_iic_transfer` stands: before the loop, at the two conditions of the loop, at the
test behind it, at the end. -/
inductive TransferPc where
  | start
  | timerExpired
  | accessFinished
  | abnormalTest
  | stop
  | returned
  deriving DecidableEq

/-- A call of `cpu_iic_transfer`.  `seen` and `seenLate` are the status words of the invocations of
the handler before and after the test behind the loop, the latest first; `timedOut` tells that the
loop was left by its timer. -/
structure Transferring where
  transfer : IicTransfer
  pc : TransferPc
  rt : ℤ
  seen : List (BitVec 32)
  seenLate : List (BitVec 32)
  timedOut : Bool

/-- The handler is invoked, or the call takes its next step; `expired` is what `timer_expired`
answers if it is asked. -/
inductive TransferAction where
  | interrupt (uiStatus : BitVec 32) (rx : Byte)
  | advance (expired : Bool)

namespace Transferring

variable (sta : MasterSta) (c : Transferring)

/-- `_i2c_access` has filled in the transfer and calls. -/
def construct (t : IicTransfer) : Transferring where
  transfer := { t with accessFinished := .no }
  pc := .start
  rt := 0
  seen := []
  seenLate := []
  timedOut := false

/-- The next step of `cpu_iic_transfer`. -/
def advance (expired : Bool) : Transferring :=
  match c.pc with
  | .start =>
      if 256 < c.transfer.accessNumbBytes.toNat then { c with rt := -2, pc := .returned }
      else { c with
        transfer := c.transfer.start
        rt := c.transfer.accessNumbBytes.toNat
        pc := .timerExpired }
  | .timerExpired =>
      if expired then { c with
        transfer := { c.transfer.write (.mCfg ⟨false, false, false, false, false⟩) with
          accessFinished := .timeout }
        rt := -1
        pc := .abnormalTest
        timedOut := true }
      else { c with pc := .accessFinished }
  | .accessFinished =>
      if c.transfer.accessFinished = .no then { c with pc := .timerExpired }
      else { c with pc := .abnormalTest }
  | .abnormalTest =>
      { c with rt := if c.transfer.accessFinished = .abnormal then -1 else c.rt, pc := .stop }
  | .stop => { c with pc := .returned }
  | .returned => c

/-- The handler is invoked while the call lasts. -/
def interrupt (uiStatus : BitVec 32) (rx : Byte) : Transferring :=
  let c' := { c with transfer := i2c0MasterIntHandler sta uiStatus rx c.transfer }
  match c.pc with
  | .returned => c
  | .stop => { c' with seenLate := uiStatus :: c.seenLate }
  | _ => { c' with seen := uiStatus :: c.seen }

def step : TransferAction → Transferring
  | .interrupt uiStatus rx => c.interrupt sta uiStatus rx
  | .advance expired => c.advance expired

/-- Some invocation during the call saw a bus error. -/
def SawError : Prop := ∃ uiStatus ∈ c.seenLate ++ c.seen, busError sta uiStatus

/-- An invocation that decides the transfer: an error that is found, or the completion. -/
def decides (uiStatus : BitVec 32) : Bool :=
  decide (foundError sta uiStatus) || decide (bitSet uiStatus sta.tComp)

/-- The last invocation before the test that decides the transfer found an error. -/
def EndsInError : Prop := ∃ uiStatus ∈ c.seen.find? (decides sta), foundError sta uiStatus

/-- A call that saw a bus error does not return as if it had not. -/
def ReportsErrors : Prop := c.pc = .returned → c.SawError sta → c.rt = -1

end Transferring

/-! ### What the handler decides -/

variable {sta : MasterSta} {uiStatus : BitVec 32}

/-- The test for arbitration lost never holds. -/
theorem takesForError_iff : takesForError sta uiStatus ↔ foundError sta uiStatus := by
  have hnever : uiStatus &&& bitMask sta.aLost ≠ bitMask sta.nackData := by
    intro heq
    have hbit := congrArg (BitVec.getLsbD · sta.nackData) heq
    simp only [bitMask, BitVec.getLsbD_and, BitVec.getLsbD_twoPow, Fin.is_lt, decide_true,
      Bool.true_and, Bool.and_eq_true, decide_eq_true_eq] at hbit
    exact sta.aLost_ne_nackData (Fin.ext hbit.2)
  simp only [takesForError, foundError, hnever, false_or]

namespace IicTransfer

variable (t : IicTransfer)

@[simp]
theorem sendSubAddr_accessFinished : t.sendSubAddr.accessFinished = t.accessFinished := by
  unfold sendSubAddr
  split
  · rfl
  · split <;> rfl

@[simp]
theorem start_accessFinished : t.start.accessFinished = t.accessFinished := by
  have hsend : ∀ t' : IicTransfer, t'.accessFinished = t.accessFinished →
      (if 0 < t'.subAddrCnt then t'.sendSubAddr else t').accessFinished = t.accessFinished := by
    intro t' hsame
    split
    · rw [sendSubAddr_accessFinished, hsame]
    · exact hsame
  exact hsend _ rfl

@[simp]
theorem receive_accessFinished (rx : Byte) : (t.receive rx).accessFinished = t.accessFinished := by
  unfold receive
  simp only
  split <;> rfl

@[simp]
theorem transmit_accessFinished : t.transmit.accessFinished = t.accessFinished := by
  have hread : ∀ t' : IicTransfer, t'.accessFinished = t.accessFinished →
      (if t'.accessCtrl = .none then
        if t'.index < t'.accessNumbBytes then
          { t'.write (.tx (t'.ram (t'.accessAddr + t'.index.toNat))) with index := t'.index + 1 }
        else t'.write (.mCfg { intSourceCfg with ienTx := false })
      else t'.sendSubAddr).accessFinished = t.accessFinished := by
    intro t' hsame
    split
    · split <;> exact hsame
    · rw [sendSubAddr_accessFinished, hsame]
  unfold transmit
  apply hread
  split <;> rfl

end IicTransfer

/-- What an invocation does to `m_accessFinished`. -/
theorem handler_accessFinished (rx : Byte) (t : IicTransfer) :
    (i2c0MasterIntHandler sta uiStatus rx t).accessFinished =
      if foundError sta uiStatus then .abnormal
      else if bitSet uiStatus sta.tComp then .yes else t.accessFinished := by
  unfold i2c0MasterIntHandler
  by_cases herror : foundError sta uiStatus
  · rw [if_pos (takesForError_iff.mpr herror), if_pos herror]
  · rw [if_neg (mt takesForError_iff.mp herror), if_neg herror]
    by_cases hcomp : bitSet uiStatus sta.tComp
    · simp only [if_pos hcomp]
    · simp only [if_neg hcomp]
      split <;> split <;> simp

namespace Transferring

/-- What a sequence of invocations, the latest first, leaves in `m_accessFinished`. -/
def finishedBy (sta : MasterSta) (seen : List (BitVec 32)) : AccessFinished :=
  match seen.find? (decides sta) with
  | none => .no
  | some uiStatus => if foundError sta uiStatus then .abnormal else .yes

theorem finishedBy_cons (uiStatus : BitVec 32) (seen : List (BitVec 32)) :
    finishedBy sta (uiStatus :: seen) =
      if foundError sta uiStatus then .abnormal
      else if bitSet uiStatus sta.tComp then .yes else finishedBy sta seen := by
  by_cases herror : foundError sta uiStatus
  · simp [finishedBy, decides, herror]
  · by_cases hcomp : bitSet uiStatus sta.tComp
    · simp [finishedBy, decides, herror, hcomp]
    · simp [finishedBy, decides, herror, hcomp]

variable {c : Transferring}

theorem finishedBy_eq_abnormal_iff : finishedBy sta c.seen = .abnormal ↔ c.EndsInError sta := by
  rw [finishedBy, EndsInError]
  cases c.seen.find? (decides sta) with
  | none => simp
  | some uiStatus =>
      by_cases herror : foundError sta uiStatus
      · simp [herror]
      · simp [herror]

/-- The call at each of its places. -/
structure Inv (sta : MasterSta) (c : Transferring) : Prop where
  polling : c.pc ≠ .stop → c.pc ≠ .returned → c.timedOut = false →
    c.transfer.accessFinished = finishedBy sta c.seen ∧ 0 ≤ c.rt
  timedOut : c.timedOut = true → c.rt = -1 ∧
    (c.pc = .abnormalTest ∨ c.pc = .stop ∨ c.pc = .returned)
  tested : c.pc = .stop ∨ c.pc = .returned →
    (c.rt = -1 ↔ c.timedOut = true ∨ c.EndsInError sta)

theorem inv_of_polling (hstop : c.pc ≠ .stop) (hreturned : c.pc ≠ .returned)
    (hwaiting : c.timedOut = false)
    (hfinished : c.transfer.accessFinished = finishedBy sta c.seen) (hrt : 0 ≤ c.rt) :
    Inv sta c where
  polling _ _ _ := ⟨hfinished, hrt⟩
  timedOut hout := absurd (hwaiting.symm.trans hout) Bool.false_ne_true
  tested hlate := absurd hlate (not_or.mpr ⟨hstop, hreturned⟩)

theorem Inv.not_timedOut (h : Inv sta c) (htest : c.pc ≠ .abnormalTest) (hstop : c.pc ≠ .stop)
    (hreturned : c.pc ≠ .returned) : c.timedOut = false := by
  by_contra hout
  have hplace := (h.timedOut (Bool.eq_true_of_not_eq_false hout)).2
  simp only [htest, hstop, hreturned, or_self] at hplace

theorem inv_construct (t : IicTransfer) : Inv sta (construct t) := by
  apply inv_of_polling
  · exact TransferPc.noConfusion
  · exact TransferPc.noConfusion
  · rfl
  · rfl
  · exact Int.le_refl 0

/-- An invocation during the loop changes what the test will find, a later one does not. -/
theorem Inv.interrupt (h : Inv sta c) (uiStatus : BitVec 32) (rx : Byte) :
    Inv sta (c.interrupt sta uiStatus rx) := by
  obtain ⟨transfer, pc, rt, seen, seenLate, timedOut⟩ := c
  obtain ⟨hpolling, htimedOut, htested⟩ := h
  have hfinished : pc ≠ .stop → pc ≠ .returned → timedOut = false →
      (i2c0MasterIntHandler sta uiStatus rx transfer).accessFinished =
        finishedBy sta (uiStatus :: seen) ∧ 0 ≤ rt := by
    intro hstop hreturned hwaiting
    obtain ⟨hsame, hrt⟩ := hpolling hstop hreturned hwaiting
    rw [handler_accessFinished, finishedBy_cons, hsame]
    exact ⟨rfl, hrt⟩
  cases pc with
  | stop => exact ⟨fun hstop ↦ absurd rfl hstop, htimedOut, htested⟩
  | returned => exact ⟨hpolling, htimedOut, htested⟩
  | _ => exact ⟨hfinished, htimedOut, fun hlate ↦ by simp [Transferring.interrupt] at hlate⟩

/-- The test behind the loop settles the result. -/
theorem Inv.abnormalTest (h : Inv sta c) (hpc : c.pc = .abnormalTest) :
    Inv sta { c with
      rt := if c.transfer.accessFinished = .abnormal then -1 else c.rt
      pc := .stop } := by
  have hresult : (if c.transfer.accessFinished = .abnormal then -1 else c.rt) = -1 ↔
      c.timedOut = true ∨ c.EndsInError sta := by
    cases hout : c.timedOut with
    | true =>
        rw [(h.timedOut hout).1, ite_self]
        exact iff_of_true rfl (.inl rfl)
    | false =>
        obtain ⟨hfinished, hrt⟩ := h.polling (by simp [hpc]) (by simp [hpc]) hout
        have hne : c.rt ≠ -1 := by omega
        rw [hfinished, ← finishedBy_eq_abnormal_iff]
        by_cases habnormal : finishedBy sta c.seen = .abnormal
        · simp [habnormal]
        · simp [habnormal, hne]
  exact ⟨fun hstop ↦ absurd rfl hstop, fun hout ↦ ⟨hresult.mpr (.inl hout), .inr (.inl rfl)⟩,
    fun _ ↦ hresult⟩

/-- The steps of the call. -/
theorem Inv.advance (h : Inv sta c) (expired : Bool) : Inv sta (c.advance expired) := by
  unfold Transferring.advance
  cases hpc : c.pc with
  | start =>
      have hshort : ¬ 256 < c.transfer.accessNumbBytes.toNat := by omega
      have hwaiting := h.not_timedOut (by simp [hpc]) (by simp [hpc]) (by simp [hpc])
      have hfinished := (h.polling (by simp [hpc]) (by simp [hpc]) hwaiting).1
      simp only [if_neg hshort]
      apply inv_of_polling
      · simp
      · simp
      · exact hwaiting
      · exact (IicTransfer.start_accessFinished _).trans hfinished
      · exact Int.natCast_nonneg _
  | timerExpired =>
      have hwaiting := h.not_timedOut (by simp [hpc]) (by simp [hpc]) (by simp [hpc])
      obtain ⟨hfinished, hrt⟩ := h.polling (by simp [hpc]) (by simp [hpc]) hwaiting
      cases expired with
      | true => exact ⟨by simp, fun _ ↦ ⟨rfl, .inl rfl⟩, by simp⟩
      | false => exact inv_of_polling (by simp) (by simp) hwaiting hfinished hrt
  | accessFinished =>
      have hwaiting := h.not_timedOut (by simp [hpc]) (by simp [hpc]) (by simp [hpc])
      obtain ⟨hfinished, hrt⟩ := h.polling (by simp [hpc]) (by simp [hpc]) hwaiting
      simp only
      split
      · exact inv_of_polling (by simp) (by simp) hwaiting hfinished hrt
      · exact inv_of_polling (by simp) (by simp) hwaiting hfinished hrt
  | abnormalTest => exact h.abnormalTest hpc
  | stop =>
      exact ⟨fun _ hreturned ↦ absurd rfl hreturned,
        fun hout ↦ ⟨(h.timedOut hout).1, .inr (.inr rfl)⟩, fun _ ↦ h.tested (.inl hpc)⟩
  | returned => exact h

theorem Inv.step (h : Inv sta c) (action : TransferAction) : Inv sta (c.step sta action) := by
  cases action with
  | interrupt uiStatus rx => exact h.interrupt uiStatus rx
  | advance expired => exact h.advance expired

/-- A call that saw a bus error says so exactly if it timed out or the last invocation that decided
it before the test behind the loop found an error. -/
theorem reportsErrors_run_iff (sta : MasterSta) (t : IicTransfer) (actions : List TransferAction) :
    (run (step sta) (construct t) actions).ReportsErrors sta ↔
      ((run (step sta) (construct t) actions).pc = .returned →
        (run (step sta) (construct t) actions).SawError sta →
          (run (step sta) (construct t) actions).timedOut = true ∨
            (run (step sta) (construct t) actions).EndsInError sta) := by
  have hinv : Inv sta (run (step sta) (construct t) actions) :=
    run_of_step (Inv sta) (fun _ action h ↦ h.step action) (inv_construct t)
  apply imp_congr_right
  intro hreturned
  rw [hinv.tested (.inr hreturned)]

/-- `_i2c_access` writes one page at address 0. -/
def pageWrite : IicTransfer where
  subAddr := 0
  slaAddr := 0xa0
  accessNumbBytes := 16
  index := 0
  lock := 0
  accessFinished := .no
  accessCtrl := .write
  subAddrCnt := 1
  accessAddr := 0
  ram _ := 0
  bus := []

/-- The page is written while the bus is lost, which no test notices. -/
def lostArbitration : List TransferAction :=
  [.advance false, .interrupt (bitMask i2cMsta.aLost) 0, .interrupt (bitMask i2cMsta.tComp) 0,
    .advance false, .advance false, .advance false, .advance false]

/-- A page for which the arbitration was lost is reported as written: 16 bytes. -/
theorem reportsErrors_fails_at_lost_arbitration :
    (run (step i2cMsta) (construct pageWrite) lostArbitration).rt = 16 ∧
      ¬ (run (step i2cMsta) (construct pageWrite) lostArbitration).ReportsErrors i2cMsta := by
  have hresult : (run (step i2cMsta) (construct pageWrite) lostArbitration).rt = 16 := by decide
  have hreturned : (run (step i2cMsta) (construct pageWrite) lostArbitration).pc = .returned := by
    decide
  have hseen : (run (step i2cMsta) (construct pageWrite) lostArbitration).seen =
      [bitMask i2cMsta.tComp, bitMask i2cMsta.aLost] := by decide
  refine ⟨hresult, fun hreports ↦ ?_⟩
  have hlost : (run (step i2cMsta) (construct pageWrite) lostArbitration).SawError i2cMsta := by
    refine ⟨bitMask i2cMsta.aLost, ?_, by decide⟩
    rw [hseen]
    simp
  have habnormal := hreports hreturned hlost
  rw [hresult] at habnormal
  exact absurd habnormal (by decide)

end Transferring

end ProjectSensor.Bsp
