import ProjectSensor.App.RegisterRead
import ProjectSensor.App.WellFormedRequest

/-!
# Building the response over the request

`process_command` calls `pack` with the request as the destination.  By the time a byte of the
request is overwritten with another value it is no longer needed: the header repeats the first two
bytes, a read takes nothing from the request once its byte count is in place, a write changes
nothing else before its values are stored, and its echo copies bytes onto themselves.  So the
response is the one that is built in a buffer of its own; both are compared with the response to the
same request at address 0.
-/

open ProjectSensor.Library ProjectSensor.Library.ByteMemory ProjectSensor.Api

namespace ProjectSensor.App

/-- The request at `src`, from its first byte on. -/
def packet (ram : Ram) (src : ℤ) : Ram := fun i ↦ ram (src + i)

/-- The layout of each function: the four that name registers, the slave id, and any other frame
with an address, a function and a checksum. -/
def WellFormedRequest (request : Ram) (len : BitVec 16) : Prop :=
  if namesRegisters (request 1) then ExactLayout request len
  else if request 1 = fcReportSlaveId then len.toNat = 4
  else 4 ≤ len.toNat

section Loops

variable (datum : ModelDatum) (reg : BitVec 16)

/-- The registers are put into the response wherever it is built. -/
theorem readRegs_relocated (type : RegType) {count i : ℕ} {buffer dst : ℤ} {moved canon : Ram}
    (hsame : ∀ j, 0 ≤ j → j < buffer → moved (dst + j) = canon j) :
    ∀ j, 0 ≤ j → j < buffer + 2 * count →
      readRegs datum type reg count i (dst + buffer) moved (dst + j) =
        readRegs datum type reg count i buffer canon j := by
  induction count generalizing i buffer moved canon with
  | zero => simpa [readRegs] using hsame
  | succ count ih =>
      intro j hlow hhigh
      have hnext : dst + buffer + 2 = dst + (buffer + 2) := add_assoc ..
      unfold readRegs
      rw [hnext]
      refine ih (fun k hk hk' ↦ ?_) j hlow (by push_cast at hhigh; omega)
      simp only [Function.update_apply, add_assoc, add_right_inj]
      split_ifs
      · rfl
      · rfl
      · exact hsame k hk (by omega)

/-- The values are taken from the request wherever it lies. -/
theorem writeRegs_relocated {left i : ℕ} {buffer src : ℤ} {moved canon : Ram}
    (hsame : ∀ j, buffer ≤ j → j < buffer + 2 * left → moved (src + j) = canon j) :
    writeRegs moved reg left i (src + buffer) datum = writeRegs canon reg left i buffer datum := by
  induction left generalizing i buffer datum with
  | zero => rfl
  | succ left ih =>
      have hhigh : moved (src + buffer) = canon buffer := hsame _ le_rfl (by push_cast; omega)
      have hlow : moved (src + buffer + 1) = canon (buffer + 1) := by
        rw [add_assoc]
        exact hsame _ (by omega) (by push_cast; omega)
      have hnext : src + buffer + 2 = src + (buffer + 2) := add_assoc ..
      rw [writeRegs, writeRegs, hhigh, hlow, hnext]
      split
      · exact ih _ fun j hj hj' ↦ hsame j (by omega) (by push_cast; omega)
      · rfl

end Loops

/-- The response built at `dst` is the one built at 0. -/
structure Relocates (dst : ℤ) (moved canon : ℤ × Exchange) : Prop where
  nonneg : 0 ≤ canon.1
  length : moved.1 = canon.1
  datum : moved.2.datum = canon.2.datum
  bytes : ∀ i, 0 ≤ i → i < canon.1 → moved.2.ram (dst + i) = canon.2.ram i

namespace Exchange

variable {ram : Ram} {slave : Byte} {info : ModbusRtuInfo} {datum : ModelDatum} {dst src : ℤ}

/-- An exception consists of three bytes that are all written. -/
theorem relocates_responseException {moved canon : Exchange} (hdatum : moved.datum = canon.datum)
    (slave function code : Byte) : Relocates dst (moved.responseException slave function code dst)
      (canon.responseException slave function code 0) := by
  have hnonneg : (0 : ℤ) ≤ 2 + 1 := by decide
  refine ⟨hnonneg, rfl, hdatum, fun i hlow hhigh ↦ ?_⟩
  have hthree : i < 3 := hhigh
  obtain rfl | rfl | rfl : i = 0 ∨ i = 1 ∨ i = 2 := by omega
  all_goals simp [responseException, buildResponseBasis, setByte]

/-- The checksum closes the response at either place. -/
theorem relocates_sendMsgPre {moved canon : ℤ × Exchange} (h : Relocates dst moved canon) :
    Relocates dst (moved.2.sendMsgPre dst moved.1) (canon.2.sendMsgPre 0 canon.1) := by
  have hnonneg := h.nonneg
  have hcrc : (crc16 (fun i ↦ moved.2.ram (dst + i)) (BitVec.ofInt 16 canon.1)).value =
      (crc16 (fun i ↦ canon.2.ram (0 + i)) (BitVec.ofInt 16 canon.1)).value := by
    apply crc16_value_congr
    intro i hlow hhigh
    rw [BitVec.toNat_ofInt] at hhigh
    rw [zero_add]
    exact h.bytes i hlow (by omega)
  have hlength : (moved.2.sendMsgPre dst moved.1).1 = (canon.2.sendMsgPre 0 canon.1).1 := by
    simp [sendMsgPre, h.length]
  refine ⟨by simp only [sendMsgPre]; omega, hlength, h.datum, fun i hlow hhigh ↦ ?_⟩
  have hclosed : i < canon.1 + 2 := hhigh
  simp only [sendMsgPre, setByte, h.length, hcrc, Function.update_apply, add_assoc, add_right_inj,
    zero_add]
  split_ifs
  · rfl
  · rfl
  · exact h.bytes i hlow (by omega)

variable {request : Ram}

/-- The record of a request, with the place of its values. -/
def parsedAt (info : ModbusRtuInfo) (request : Ram) (pparam : ℤ) : ModbusRtuInfo :=
  { requestInfo info request with pparam := pparam }

/-- What `info` reads from a request that names registers. -/
theorem parse_packet (hrequest : packet ram src = request)
    (hnames : namesRegisters (request 1) = true) :
    (configured slave info).parse ram src = configured slave
      (parsedAt info request (src + if request 1 = fcWriteSingleRegister then 4 else 6)) := by
  have hfunction : ram (src + 1) = request 1 := congrFun hrequest 1
  have hbehind : ∀ k, ram (src + 1 + k) = request (1 + k) := fun k ↦ by
    rw [← hrequest, packet, add_assoc]
  have hsinglePlace : src + 1 + 3 = src + 4 := by ring
  have hmultiplePlace : src + 1 + 5 = src + 6 := by ring
  by_cases hsingle : request 1 = fcWriteSingleRegister
  · simp only [ProtocolModbusRtu.parse, configured, hfunction, hbehind, hnames, if_true, parsedAt,
      requestInfo, requestReg, requestRegNo, if_pos hsingle, hsinglePlace]
    rfl
  · simp only [ProtocolModbusRtu.parse, configured, hfunction, hbehind, hnames, if_true, parsedAt,
      requestInfo, requestReg, requestRegNo, if_neg hsingle, hmultiplePlace]
    rfl

/-- The test of the window, wherever the values of the request lie. -/
theorem window_iff_registersExist (slave : Byte) (info : ModbusRtuInfo) (request : Ram)
    (pparam : ℤ) :
    (configured slave (parsedAt info request pparam)).info.reg.toNat +
        (configured slave (parsedAt info request pparam)).info.regNo.toNat <
        (if request 1 = fcReadInputRegisters then
            (configured slave (parsedAt info request pparam)).modbus.inputRegMaxNo
          else (configured slave (parsedAt info request pparam)).modbus.holdRegMaxNo).toNat ↔
      RegistersExist request := by
  unfold RegistersExist maxRegNo
  split <;> exact Iff.rfl

/-- The memory with the header of the response at `dst`. -/
def headed (ram request : Ram) (dst : ℤ) : Ram :=
  Function.update (Function.update ram dst (request 0)) (dst + 1) (request 1)

/-- The memory with the byte count of a read behind the header. -/
def counted (ram request : Ram) (dst : ℤ) : Ram :=
  Function.update (headed ram request dst) (dst + 2) ((requestRegNo request <<< 1).setWidth 8)

/-- A read request is answered with the registers behind the byte count. -/
theorem replyRegisters_read (hrequest : packet ram src = request) (hread : IsRead request)
    (slave : Byte) (info : ModbusRtuInfo) (datum : ModelDatum) (dst reqLength : ℤ) :
    replyRegisters handlePrepare ⟨ram, configured slave info, datum⟩ (request 0) (request 1) dst
        src reqLength =
      if RegistersExist request then
        (3 + ((requestRegNo request * 2).toNat : ℤ),
          { ram := readRegs datum (readType (request 1)) (requestReg request)
              (requestRegNo request).toNat 0 (dst + 3) (counted ram request dst)
            rtu := configured slave
              { parsedAt info request (dst + 3) with paramLen := requestRegNo request * 2 }
            datum := datum })
      else (⟨counted ram request dst, configured slave (parsedAt info request (dst + 3)), datum⟩ :
        Exchange).responseException (request 0) (request 1) modbusExceptionIllegalDataAddress
          dst := by
  have hnames := (namesRegisters_iff request).mpr (.inl hread)
  have hread' : request 1 = fcReadHoldingRegisters ∨ request 1 = fcReadInputRegisters := hread
  have hwindow := window_iff_registersExist slave info request
    (src + if request 1 = fcWriteSingleRegister then 4 else 6)
  simp only [replyRegisters, parse_packet hrequest hnames, buildResponseBasis, setByte,
    if_pos hread']
  by_cases hexist : RegistersExist request
  · rw [if_pos hexist, if_pos (hwindow.mpr hexist)]
    simp only [handlePrepare, packageEventPrepare, configured, parsedAt, requestInfo, hread', ne_eq,
      not_true_eq_false, if_false, if_true]
    rfl
  · rw [if_neg hexist, if_neg fun h ↦ hexist (hwindow.mp h)]
    rfl

theorem packet_self (request : Ram) : packet request 0 = request := by
  funext i
  rw [packet, zero_add]

theorem counted_relocated (ram request : Ram) (dst : ℤ) :
    ∀ j, 0 ≤ j → j < 3 → counted ram request dst (dst + j) = counted request request 0 j := by
  intro j hlow hhigh
  obtain rfl | rfl | rfl : j = 0 ∨ j = 1 ∨ j = 2 := by omega
  all_goals simp [counted, headed]

/-- A read takes nothing from the request behind its header. -/
theorem relocates_read (hrequest : packet ram src = request) (hread : IsRead request)
    (slave : Byte) (info : ModbusRtuInfo) (datum : ModelDatum) (dst reqLength : ℤ) :
    Relocates dst
      (replyRegisters handlePrepare ⟨ram, configured slave info, datum⟩ (request 0) (request 1) dst
        src reqLength)
      (replyRegisters handlePrepare ⟨request, configured slave info, datum⟩ (request 0) (request 1)
        0 0 reqLength) := by
  rw [replyRegisters_read hrequest hread, replyRegisters_read (packet_self request) hread]
  by_cases hexist : RegistersExist request
  · have hlt := requestRegNo_lt hexist
    have hlength : ((requestRegNo request * 2).toNat : ℤ) = 2 * (requestRegNo request).toNat := by
      rw [BitVec.toNat_mul]
      simp
      omega
    rw [if_pos hexist, if_pos hexist, zero_add]
    refine ⟨by omega, rfl, rfl, fun i hlow hhigh ↦ ?_⟩
    exact readRegs_relocated datum _ _ (counted_relocated ram request dst) i hlow
      (by simp only [hlength] at hhigh; omega)
  · rw [if_neg hexist, if_neg hexist]
    apply relocates_responseException
    rfl

/-- The handler of a write stores the values it finds at `pparam`. -/
theorem handlePrepare_parsed (hwrite : IsWrite request) (ram : Ram) (slave : Byte)
    (info : ModbusRtuInfo) (pparam : ℤ) (datum : ModelDatum) :
    handlePrepare ⟨ram, configured slave (parsedAt info request pparam), datum⟩ =
      let (rt, datum) := writeRegs ram (requestReg request) (requestRegNo request).toNat 0 pparam
        datum
      (if rt = 0 then 0 else -1,
        ⟨ram, configured slave (parsedAt info request pparam), datum⟩) := by
  have hread : ¬ (request 1 = fcReadHoldingRegisters ∨ request 1 = fcReadInputRegisters) :=
    not_isRead_of_isWrite hwrite
  have hwrite' : request 1 = fcWriteSingleRegister ∨ request 1 = fcWriteMultipleRegisters := hwrite
  simp only [handlePrepare, packageEventPrepare, configured, parsedAt, requestInfo, hread, hwrite',
    ne_eq, not_true_eq_false, if_false, if_true]

/-- The echo of a write request, by its function. -/
def echoed (ram request : Ram) (dst src reqLength : ℤ) : ℤ × Ram :=
  if request 1 = fcWriteSingleRegister then
    (reqLength, memcpy (headed ram request dst) dst src (sizeOfInt reqLength))
  else (6, memcpy (headed (headed ram request dst) request dst) (dst + 2) (src + 2) 4)

/-- A write request is answered with its echo, or with an exception. -/
theorem replyRegisters_write (hrequest : packet ram src = request) (hwrite : IsWrite request)
    (slave : Byte) (info : ModbusRtuInfo) (datum : ModelDatum) (dst reqLength : ℤ) :
    replyRegisters handlePrepare ⟨ram, configured slave info, datum⟩ (request 0) (request 1) dst
        src reqLength =
      let pparam := src + if request 1 = fcWriteSingleRegister then 4 else 6
      let header := headed ram request dst
      let stored :=
        writeRegs header (requestReg request) (requestRegNo request).toNat 0 pparam datum
      let rtu := configured slave (parsedAt info request pparam)
      if RegistersExist request then
        if stored.1 = 0 then
          ((echoed ram request dst src reqLength).1,
            ⟨(echoed ram request dst src reqLength).2, rtu, stored.2⟩)
        else (⟨header, rtu, stored.2⟩ : Exchange).responseException (request 0) (request 1)
          modbusExceptionIllegalDataAddress dst
      else (⟨header, rtu, datum⟩ : Exchange).responseException (request 0) (request 1)
        modbusExceptionIllegalDataAddress dst := by
  have hnames := namesRegisters_of_isWrite hwrite
  have hread : ¬ (request 1 = fcReadHoldingRegisters ∨ request 1 = fcReadInputRegisters) :=
    not_isRead_of_isWrite hwrite
  have hwindow := window_iff_registersExist slave info request
    (src + if request 1 = fcWriteSingleRegister then 4 else 6)
  simp only [replyRegisters, parse_packet hrequest hnames, buildResponseBasis, setByte,
    if_neg hread]
  by_cases hexist : RegistersExist request
  · rw [if_pos hexist, if_pos (hwindow.mpr hexist)]
    have hheaded : Function.update (Function.update ram dst (request 0)) (dst + 1) (request 1) =
        headed ram request dst := rfl
    simp only [hheaded, handlePrepare_parsed hwrite]
    by_cases hok : (writeRegs (headed ram request dst) (requestReg request)
        (requestRegNo request).toNat 0 (src + if request 1 = fcWriteSingleRegister then 4 else 6)
        datum).1 = 0
    · simp only [hok, if_true, echoed]
      by_cases hsingle : request 1 = fcWriteSingleRegister
      · simp only [if_pos hsingle]
      · simp only [if_neg hsingle]
        rfl
    · simp only [if_neg hok]
      rfl
  · rw [if_neg hexist, if_neg fun h ↦ hexist (hwindow.mp h)]
    rfl

/-- The header repeats the first two bytes of the request. -/
theorem headed_self (request : Ram) : headed request request 0 = request := by
  simp [headed]

theorem headed_headed (ram request : Ram) (dst : ℤ) :
    headed (headed ram request dst) request dst = headed ram request dst := by
  have hlow : headed ram request dst dst = request 0 := by simp [headed]
  have hhigh : headed ram request dst (dst + 1) = request 1 := by simp [headed]
  rw [headed, ← hlow, Function.update_eq_self, ← hhigh, Function.update_eq_self]

/-- The bytes of the request that a write takes are still there when the header has been written. -/
def Intact (ram request : Ram) (dst src : ℤ) (len : ℕ) : Prop :=
  ∀ i : ℤ, 0 ≤ i → i < len → headed ram request dst (src + i) = request i

/-- The echo is copied from the request, wherever both lie. -/
theorem echoed_relocated {len : ℕ} (hintact : Intact ram request dst src len) (hlen : 6 ≤ len)
    (hlong : len < 2 ^ 32) :
    ∀ i, 0 ≤ i → i < (echoed request request 0 0 ((len : ℤ) - 2)).1 →
      (echoed ram request dst src ((len : ℤ) - 2)).2 (dst + i) =
        (echoed request request 0 0 ((len : ℤ) - 2)).2 i := by
  intro i hlow hhigh
  unfold echoed at hhigh ⊢
  by_cases hsingle : request 1 = fcWriteSingleRegister
  · rw [if_pos hsingle] at hhigh
    rw [if_pos hsingle, if_pos hsingle]
    have hsize : (sizeOfInt ((len : ℤ) - 2) : ℤ) = len - 2 := by
      rw [sizeOfInt]
      omega
    have hback : src + (dst + i - dst) = src + i := by ring
    have hshort : i < (len : ℤ) - 2 := hhigh
    simp only [headed_self, memcpy_self]
    rw [memcpy, if_pos ⟨by omega, by omega⟩, hback]
    exact hintact i hlow (by omega)
  · rw [if_neg hsingle] at hhigh
    rw [if_neg hsingle, if_neg hsingle]
    have hshort : i < 6 := hhigh
    have hback : src + 2 + (dst + i - (dst + 2)) = src + i := by ring
    simp only [headed_self, headed_headed, memcpy_self]
    by_cases hheader : i < 2
    · rw [memcpy, if_neg (by omega)]
      obtain rfl | rfl : i = 0 ∨ i = 1 := by omega
      all_goals simp [headed]
    · rw [memcpy, if_pos ⟨by omega, by push_cast; omega⟩, hback]
      exact hintact i hlow (by omega)

/-- The values of a write end where the bytes that it takes do. -/
theorem takenEnd_of_isWrite (hwrite : IsWrite request) :
    (if request 1 = fcWriteSingleRegister then 4 else 6 : ℤ) +
      2 * (requestRegNo request).toNat = takenEnd request := by
  unfold takenEnd
  rcases hwrite with hsingle | hmultiple
  · have hcount : (requestRegNo request).toNat = 1 := by
      rw [requestRegNo, if_pos hsingle]
      rfl
    have hother : request 1 ≠ fcWriteMultipleRegisters := by
      rw [hsingle]
      decide
    rw [if_pos hsingle, if_neg hother, hcount]
    rfl
  · have hother : request 1 ≠ fcWriteSingleRegister := by
      rw [hmultiple]
      decide
    rw [if_neg hother, if_pos hmultiple]
    push_cast
    rfl

/-- A write stores the values of the request, wherever it lies. -/
theorem writeRegs_headed {len : ℕ} (hwrite : IsWrite request)
    (hintact : Intact ram request dst src len) (htaken : takenEnd request ≤ len)
    (datum : ModelDatum) :
    writeRegs (headed ram request dst) (requestReg request) (requestRegNo request).toNat 0
        (src + if request 1 = fcWriteSingleRegister then 4 else 6) datum =
      writeRegs (headed request request 0) (requestReg request) (requestRegNo request).toNat 0
        (0 + if request 1 = fcWriteSingleRegister then 4 else 6) datum := by
  have hplace : (0 : ℤ) ≤ if request 1 = fcWriteSingleRegister then 4 else 6 := by
    split <;> decide
  rw [headed_self, zero_add]
  apply writeRegs_relocated
  intro j hlow hhigh
  rw [takenEnd_of_isWrite hwrite] at hhigh
  exact hintact j (hplace.trans hlow) (hhigh.trans_le (Int.ofNat_le.mpr htaken))

/-- A write whose request is intact behind the header of the response. -/
theorem relocates_write {len : ℕ} (hrequest : packet ram src = request) (hwrite : IsWrite request)
    (hintact : Intact ram request dst src len) (htaken : takenEnd request ≤ len)
    (hlong : len < 2 ^ 32) (slave : Byte) (info : ModbusRtuInfo) (datum : ModelDatum) :
    Relocates dst
      (replyRegisters handlePrepare ⟨ram, configured slave info, datum⟩ (request 0) (request 1) dst
        src (len - 2))
      (replyRegisters handlePrepare ⟨request, configured slave info, datum⟩ (request 0) (request 1)
        0 0 (len - 2)) := by
  have hsix : 6 ≤ takenEnd request := by
    unfold takenEnd
    split <;> omega
  rw [replyRegisters_write hrequest hwrite, replyRegisters_write (packet_self request) hwrite]
  simp only [writeRegs_headed hwrite hintact htaken]
  generalize writeRegs (headed request request 0) (requestReg request)
    (requestRegNo request).toNat 0 _ datum = stored
  by_cases hexist : RegistersExist request
  · rw [if_pos hexist, if_pos hexist]
    by_cases hok : stored.1 = 0
    · rw [if_pos hok, if_pos hok]
      refine ⟨?_, ?_, rfl, echoed_relocated hintact (hsix.trans htaken) hlong⟩
      · unfold echoed
        split
        · simp only
          omega
        · simp only
          omega
      · unfold echoed
        split <;> rfl
    · rw [if_neg hok, if_neg hok]
      apply relocates_responseException
      rfl
  · simp only [if_neg hexist]
    apply relocates_responseException
    rfl

/-- A text is put into the response wherever it is built. -/
theorem setBytes_relocated {moved canon : Exchange} {P : ℤ → Prop}
    (hsame : ∀ j, P j → moved.ram (dst + j) = canon.ram j) (addr : ℤ) (values : List Byte) :
    ∀ j, P j ∨ addr ≤ j ∧ j < addr + values.length →
      (moved.setBytes (dst + addr) values).ram (dst + j) = (canon.setBytes addr values).ram j := by
  induction values generalizing moved canon P addr with
  | nil =>
      intro j hj
      refine hsame j (hj.resolve_right fun hin ↦ ?_)
      simp at hin
      omega
  | cons value values ih =>
      intro j hj
      have hnext : dst + addr + 1 = dst + (addr + 1) := add_assoc ..
      unfold setBytes
      rw [hnext]
      refine ih (P := fun k ↦ P k ∨ k = addr) (fun k hk ↦ ?_) (addr + 1) j ?_
      · simp only [setByte, Function.update_apply, add_right_inj]
        split_ifs with heq
        · rfl
        · exact hsame k (hk.resolve_right heq)
      · rw [List.length_cons] at hj
        push_cast at hj
        rcases hj with hj | ⟨hlow, hhigh⟩
        · exact .inl (.inl hj)
        · rcases eq_or_lt_of_le hlow with rfl | hlater
          · exact .inl (.inr rfl)
          · exact .inr ⟨by omega, by omega⟩

theorem setBytes_datum (x : Exchange) (addr : ℤ) (values : List Byte) :
    (x.setBytes addr values).datum = x.datum := by
  induction values generalizing x addr with
  | nil => rfl
  | cons value values ih => exact ih _ _

/-- The answer to Report Slave ID up to its text, without its byte count. -/
def identified (x : Exchange) (slave function : Byte) (rsp : ℤ) : Exchange :=
  (((x.buildResponseBasis slave function rsp).2.setByte (rsp + (2 + 1)) reportSlaveId).setByte
    (rsp + (2 + 1 + 1)) 0xFF).setBytes (rsp + (2 + 1 + 2)) slaveIdText

/-- The slave id does not depend on the request behind its header. -/
theorem identified_relocated (moved canon : Exchange) (slave function : Byte) (dst : ℤ) :
    ∀ j, (0 ≤ j ∧ j < 5 ∧ j ≠ 2) ∨ 5 ≤ j ∧ j < 5 + (slaveIdText.length : ℤ) →
      (moved.identified slave function dst).ram (dst + j) =
        (canon.identified slave function 0).ram j := by
  unfold identified
  rw [zero_add (2 + 1 + 2)]
  apply setBytes_relocated
  rintro j ⟨hlow, hhigh, hcount⟩
  obtain rfl | rfl | rfl | rfl : j = 0 ∨ j = 1 ∨ j = 3 ∨ j = 4 := by omega
  all_goals simp [buildResponseBasis, setByte]

/-- The answer to Report Slave ID. -/
theorem relocates_slaveId {moved canon : Exchange} (hdatum : moved.datum = canon.datum)
    (slave function count : Byte) (dst : ℤ) :
    Relocates dst
      (2 + 1 + 2 + (slaveIdText.length : ℤ), (moved.identified slave function dst).setByte (dst + 2)
        count)
      (2 + 1 + 2 + (slaveIdText.length : ℤ), (canon.identified slave function 0).setByte (0 + 2)
        count) := by
  have hnonneg : 0 ≤ 2 + 1 + 2 + (slaveIdText.length : ℤ) := by omega
  refine ⟨hnonneg, rfl, ?_, fun i hlow hhigh ↦ ?_⟩
  · simpa [identified, setByte, setBytes_datum, buildResponseBasis] using hdatum
  · have hshort : i < 5 + (slaveIdText.length : ℤ) := hhigh
    simp only [setByte, Function.update_apply, add_right_inj, zero_add]
    split_ifs with hcount
    · rfl
    · exact identified_relocated moved canon slave function dst i (by omega)

/-- `modbus_reply` builds the response to a request at `src` as it builds it at 0, if what a write
takes from the request is intact behind the header. -/
theorem relocates_modbusReply {len : ℕ} (hrequest : packet ram src = request) (hlong : len < 2 ^ 32)
    (htaken : IsWrite request → takenEnd request ≤ len)
    (hintact : IsWrite request → Intact ram request dst src len) (slave : Byte)
    (info : ModbusRtuInfo) (datum : ModelDatum) :
    Relocates dst (modbusReply handlePrepare ⟨ram, configured slave info, datum⟩ dst src len)
      (modbusReply handlePrepare ⟨request, configured slave info, datum⟩ 0 0 len) := by
  have hslave : ram src = request 0 := by rw [← hrequest, packet, add_zero]
  have hfunction : ram (src + 1) = request 1 := congrFun hrequest 1
  have hfirst : request (0 + 1) = request 1 := rfl
  unfold modbusReply
  simp only [hslave, hfunction, hfirst]
  apply relocates_sendMsgPre
  by_cases hnames : namesRegisters (request 1) = true
  · rw [if_pos hnames, if_pos hnames]
    rcases (namesRegisters_iff request).mp hnames with hread | hwrite
    · exact relocates_read hrequest hread slave info datum dst (len - 2)
    · exact relocates_write hrequest hwrite (hintact hwrite) (htaken hwrite) hlong slave info datum
  rw [if_neg hnames, if_neg hnames]
  by_cases hslaveId : request 1 = fcReportSlaveId
  swap
  · rw [if_neg hslaveId, if_neg hslaveId]
    apply relocates_responseException
    rfl
  rw [if_pos hslaveId, if_pos hslaveId]
  have hdatum : (⟨ram, configured slave info, datum⟩ : Exchange).datum =
      (⟨request, configured slave info, datum⟩ : Exchange).datum := rfl
  exact relocates_slaveId hdatum (request 0) (request 1) _ dst

/-- The length of the response to a write, before its checksum. -/
theorem replyRegisters_write_length (hrequest : packet ram src = request)
    (hwrite : IsWrite request) (slave : Byte) (info : ModbusRtuInfo) (datum : ModelDatum)
    (dst reqLength : ℤ) :
    (replyRegisters handlePrepare ⟨ram, configured slave info, datum⟩ (request 0) (request 1) dst
        src reqLength).1 ∈ [3, 6, reqLength] := by
  rw [replyRegisters_write hrequest hwrite]
  simp only
  generalize writeRegs _ (requestReg request) (requestRegNo request).toNat 0 _ datum = stored
  by_cases hexist : RegistersExist request
  · rw [if_pos hexist]
    by_cases hok : stored.1 = 0
    · rw [if_pos hok]
      unfold echoed
      split <;> simp
    · rw [if_neg hok]
      exact List.mem_cons_self
  · rw [if_neg hexist]
    exact List.mem_cons_self

/-- The response to a write has its header at least. -/
theorem two_le_pack_write {len : BitVec 16} (hrequest : packet ram src = request)
    (hwrite : IsWrite request) (hlen : 2 ≤ len.toNat) (slave : Byte) (info : ModbusRtuInfo)
    (datum : ModelDatum) (dst : ℤ) :
    2 ≤ (pack handlePrepare ⟨ram, configured slave info, datum⟩ dst src len).1.toNat := by
  have hslave : ram src = request 0 := by rw [← hrequest, packet, add_zero]
  have hfunction : ram (src + 1) = request 1 := congrFun hrequest 1
  have hlength := replyRegisters_write_length hrequest hwrite slave info datum dst
    ((len.toNat : ℤ) - 2)
  simp only [List.mem_cons, List.not_mem_nil, or_false] at hlength
  have hlt := len.isLt
  simp only [pack, modbusReply, hslave, hfunction, namesRegisters_of_isWrite hwrite, if_true,
    sendMsgPre]
  rw [BitVec.toNat_ofInt]
  omega

/-- The response at `dst`, its length and the registers, as the request alone determines them. -/
theorem relocates_pack {len : BitVec 16} (hrequest : packet ram src = request)
    (htaken : IsWrite request → takenEnd request ≤ len.toNat)
    (hintact : IsWrite request → Intact ram request dst src len.toNat) (slave : Byte)
    (info : ModbusRtuInfo) (datum : ModelDatum) :
    let moved := pack handlePrepare ⟨ram, configured slave info, datum⟩ dst src len
    let canon := pack handlePrepare ⟨request, configured slave info, datum⟩ 0 0 len
    moved.1 = canon.1 ∧ moved.2.datum = canon.2.datum ∧
      ∀ i : ℕ, i < canon.1.toNat → moved.2.ram (dst + i) = canon.2.ram i := by
  have hlong : len.toNat < 2 ^ 32 := len.isLt.trans (by decide)
  have h := relocates_modbusReply hrequest hlong htaken hintact slave info datum
  refine ⟨congrArg (BitVec.ofInt 16) h.length, h.datum, fun i hi ↦ ?_⟩
  apply h.bytes i (Int.natCast_nonneg i)
  have hnonneg := h.nonneg
  have hi' : i < (BitVec.ofInt 16 (modbusReply handlePrepare
      ⟨request, configured slave info, datum⟩ 0 0 len.toNat).1).toNat := hi
  rw [BitVec.toNat_ofInt] at hi'
  omega

end Exchange

/-- The bytes a write takes lie in a well-formed request. -/
theorem takenEnd_le_of_wellFormed {request : Ram} {len : BitVec 16}
    (hwell : WellFormedRequest request len) (hwrite : IsWrite request) :
    takenEnd request + 2 ≤ len.toNat := by
  rw [WellFormedRequest, if_pos (namesRegisters_of_isWrite hwrite)] at hwell
  exact takenEnd_le_of_exactLayout hwell

/-- For every well-formed request and all registers, `pack` over the request gives the response, the
length and the registers that it gives with a destination that does not overlap the request. -/
theorem pack_inPlace_eq_separate (slave : Byte) (info : ModbusRtuInfo) (datum : ModelDatum)
    (ram : Ram) (dst src : ℤ) (len : BitVec 16) (hwell : WellFormedRequest (packet ram src) len)
    (hseparate : ∀ i j : ℕ, i < len.toNat →
      j < (Exchange.pack handlePrepare ⟨ram, configured slave info, datum⟩ dst src len).1.toNat →
      src + i ≠ dst + j) :
    let inPlace := Exchange.pack handlePrepare ⟨ram, configured slave info, datum⟩ src src len
    let separate := Exchange.pack handlePrepare ⟨ram, configured slave info, datum⟩ dst src len
    inPlace.1 = separate.1 ∧ inPlace.2.datum = separate.2.datum ∧
      ∀ i : ℕ, i < separate.1.toNat → inPlace.2.ram (src + i) = separate.2.ram (dst + i) := by
  intro inPlace separate
  have htaken : IsWrite (packet ram src) → takenEnd (packet ram src) ≤ len.toNat := fun hwrite ↦
    (Nat.le_add_right _ 2).trans (takenEnd_le_of_wellFormed hwell hwrite)
  have hover : IsWrite (packet ram src) →
      Exchange.Intact ram (packet ram src) src src len.toNat := by
    intro _ i _ _
    have hlow : packet ram src 0 = ram src := by rw [packet, add_zero]
    rw [Exchange.headed, hlow, Function.update_eq_self]
    exact congrFun (Function.update_eq_self (src + 1) ram) (src + i)
  have hapart : IsWrite (packet ram src) →
      Exchange.Intact ram (packet ram src) dst src len.toNat := by
    intro hwrite i hlow hhigh
    have hroom := Exchange.two_le_pack_write rfl hwrite ((Nat.le_add_left 2 _).trans
      (takenEnd_le_of_wellFormed hwell hwrite)) slave info datum dst
    lift i to ℕ using hlow
    have hfirst := hseparate i 0 (by omega) (by omega)
    have hsecond := hseparate i 1 (by omega) (by omega)
    rw [Exchange.headed, Function.update_of_ne (by simpa using hsecond),
      Function.update_of_ne (by simpa using hfirst)]
    rfl
  obtain ⟨hlength, hdatum, hbytes⟩ := Exchange.relocates_pack rfl htaken hover slave info datum
  obtain ⟨hlength', hdatum', hbytes'⟩ := Exchange.relocates_pack rfl htaken hapart slave info datum
  refine ⟨hlength.trans hlength'.symm, hdatum.trans hdatum'.symm, fun i hi ↦ ?_⟩
  have hi' := hi
  rw [show separate.1 = _ from hlength'] at hi'
  exact (hbytes i hi').trans (hbytes' i hi').symm

/-- A Write Multiple request for register 10, answered over the request and in a buffer behind
it. -/
theorem pack_inPlace_eq_separate_write :
    let frame := frameRam [1, 16, 0, 10, 0, 1, 2, 0, 5, 0, 0]
    let x : Exchange := ⟨frame, configured 1 ProtocolModbusRtu.construct.info, defaultDatum⟩
    (x.pack handlePrepare 300 0 11).1 = 8 ∧
      (x.pack handlePrepare 0 0 11).1 = (x.pack handlePrepare 300 0 11).1 ∧
      (x.pack handlePrepare 0 0 11).2.datum = (x.pack handlePrepare 300 0 11).2.datum := by
  intro frame x
  have hwell : WellFormedRequest (packet frame 0) 11 := by
    simp only [WellFormedRequest, ExactLayout]
    decide +kernel
  have hsame := pack_inPlace_eq_separate 1 ProtocolModbusRtu.construct.info defaultDatum frame 300 0
    11 hwell fun i j hi _ ↦ by
      have hi' : i < 11 := hi
      omega
  exact ⟨by decide +kernel, hsame.1, hsame.2.1⟩

end ProjectSensor.App
