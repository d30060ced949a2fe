import ProjectSensor.App.PackageHandler

/-!
# Responses

What `pack` answers to an accepted frame, for any handler: the registers a request names exist or
not, and only in the first case the handler is asked.  Every response is closed by its checksum in
the way `unpack` checks it.
-/

open ProjectSensor.Library ProjectSensor.Library.ByteMemory ProjectSensor.Api

namespace ProjectSensor.App

/-- The conditions of `unpack`, all of them. -/
theorem unpack_eq_zero_iff (rtu : ProtocolModbusRtu) (pbuf : Ram) (len : BitVec 16) :
    (unpack rtu pbuf len).value = 0 ↔ len.toNat ≤ maxMessageLength ∧
      (pbuf 0 = rtu.modbus.slave ∨ pbuf 0 = modbusBroadcastAddress) ∧
      (crc16 pbuf (len - 2)).value = be16 (pbuf (len.toNat - 2)) (pbuf (len.toNat - 1)) := by
  constructor
  · exact accepted_of_unpack
  · rintro ⟨hlen, hslave, hcrc⟩
    have hskip : ¬ (pbuf 0 ≠ rtu.modbus.slave ∧ pbuf 0 ≠ modbusBroadcastAddress) := by tauto
    rw [unpack, Traced.value_bind, if_neg (not_lt.mpr hlen), Traced.value_read, if_neg hskip]
    simp only [Traced.value_bind, Traced.value_read, hcrc, ne_eq, not_true_eq_false, if_false,
      Traced.value_pure]

/-! ### The registers a request names -/

/-- The request asks for registers to be written. -/
def IsWrite (ram : Ram) : Prop := ram 1 = fcWriteSingleRegister ∨ ram 1 = fcWriteMultipleRegisters

instance (ram : Ram) : Decidable (IsWrite ram) := inferInstanceAs (Decidable (_ ∨ _))

/-- The request asks for registers to be read. -/
def IsRead (ram : Ram) : Prop := ram 1 = fcReadHoldingRegisters ∨ ram 1 = fcReadInputRegisters

instance (ram : Ram) : Decidable (IsRead ram) := inferInstanceAs (Decidable (_ ∨ _))

/-- The first register and the number of registers, as `info` takes them from the frame. -/
def requestReg (ram : Ram) : BitVec 16 := be16 (ram 2) (ram 3)

def requestRegNo (ram : Ram) : BitVec 16 :=
  if ram 1 = fcWriteSingleRegister then 1 else be16 (ram 4) (ram 5)

/-- The protocol object as `application::init` configures it. -/
def configured (slave : Byte) (info : ModbusRtuInfo) : ProtocolModbusRtu where
  type := .modbusRtu
  modbus := ⟨slave, BitVec.ofNat 16 inputRegMaxNo, BitVec.ofNat 16 holdRegMaxNo⟩
  info := info

/-- The record `info` fills in for a request that names registers. -/
def requestInfo (info : ModbusRtuInfo) (ram : Ram) : ModbusRtuInfo :=
  { info with
    type := .modbusRtu
    function := ram 1
    reg := requestReg ram
    regNo := requestRegNo ram
    pparam := if ram 1 = fcWriteSingleRegister then 4 else 6 }

/-- The limit `modbus_reply` picks for a function. -/
def maxRegNo (function : Byte) : ℕ :=
  if function = fcReadInputRegisters then inputRegMaxNo else holdRegMaxNo

/-- The window of a request is inside the address space, as the code tests it. -/
def RegistersExist (ram : Ram) : Prop :=
  (requestReg ram).toNat + (requestRegNo ram).toNat < maxRegNo (ram 1)

instance (ram : Ram) : Decidable (RegistersExist ram) := inferInstanceAs (Decidable (_ < _))

theorem namesRegisters_iff (ram : Ram) :
    namesRegisters (ram 1) = true ↔ IsRead ram ∨ IsWrite ram := by
  simp only [namesRegisters, IsRead, IsWrite, Bool.or_eq_true, decide_eq_true_eq]
  tauto

theorem not_isRead_of_isWrite {ram : Ram} (hwrite : IsWrite ram) : ¬ IsRead ram := by
  unfold IsRead
  rcases hwrite with hfun | hfun <;> rw [hfun] <;> decide

theorem namesRegisters_of_isWrite {ram : Ram} (hwrite : IsWrite ram) :
    namesRegisters (ram 1) = true := (namesRegisters_iff ram).mpr (.inr hwrite)

namespace Exchange

theorem buildResponseBasis_self (x : Exchange) :
    x.buildResponseBasis (x.ram 0) (x.ram 1) 0 = (2, x) := by
  simp [buildResponseBasis, setByte]

@[simp]
theorem responseException_length (x : Exchange) (slave function : Byte) (code : Byte) :
    (x.responseException slave function code 0).1 = 3 := rfl

variable {ram : Ram} {slave : Byte} {info : ModbusRtuInfo} {datum : ModelDatum}

/-- What `info` reads from a request that names registers. -/
theorem parse_names (hnames : namesRegisters (ram 1) = true) :
    (configured slave info).parse ram 0 = configured slave (requestInfo info ram) := by
  by_cases hsingle : ram 1 = fcWriteSingleRegister
  · simp only [ProtocolModbusRtu.parse, configured, zero_add, hnames, if_true, requestInfo,
      requestReg, requestRegNo, if_pos hsingle]
    rfl
  · simp only [ProtocolModbusRtu.parse, configured, zero_add, hnames, if_true, requestInfo,
      requestReg, requestRegNo, if_neg hsingle]
    rfl

/-- What the handler is given; for a read, the byte count and the place behind it. -/
def prepared (slave : Byte) (info : ModbusRtuInfo) (datum : ModelDatum) (ram : Ram) : Exchange :=
  if IsRead ram then
    { ram := Function.update ram 2 ((requestRegNo ram <<< 1).setWidth 8)
      rtu := configured slave { requestInfo info ram with pparam := 3 }
      datum := datum }
  else ⟨ram, configured slave (requestInfo info ram), datum⟩

theorem prepared_write (slave : Byte) (info : ModbusRtuInfo) (datum : ModelDatum)
    (hwrite : IsWrite ram) :
    prepared slave info datum ram = ⟨ram, configured slave (requestInfo info ram), datum⟩ :=
  if_neg (not_isRead_of_isWrite hwrite)

theorem prepared_configured (slave : Byte) (info : ModbusRtuInfo) (datum : ModelDatum) (ram : Ram) :
    ∃ info', (prepared slave info datum ram).rtu = configured slave info' ∧
      info'.function = ram 1 := by
  unfold prepared
  split
  · exact ⟨_, rfl, rfl⟩
  · exact ⟨_, rfl, rfl⟩

/-- What becomes of the result of the handler. -/
def answered (ram : Ram) (reqLength : ℤ) (result : ℤ × Exchange) : ℤ × Exchange :=
  let (rt, x) := result
  if rt = 0 then
    if IsRead ram then (3 + x.rtu.info.paramLen.toNat, x)
    else if ram 1 = fcWriteSingleRegister then (reqLength, x)
    else (6, (x.buildResponseBasis (ram 0) (ram 1) 0).2)
  else x.responseException (ram 0) (ram 1) modbusExceptionIllegalDataAddress 0

/-- A request that names registers, answered in place, before its checksum. -/
theorem replyRegisters_eq (handle : Exchange → ℤ × Exchange) (slave : Byte) (info : ModbusRtuInfo)
    (datum : ModelDatum) (reqLength : ℤ) (hnames : namesRegisters (ram 1) = true) :
    replyRegisters handle ⟨ram, configured slave info, datum⟩ (ram 0) (ram 1) 0 0 reqLength =
      if RegistersExist ram then answered ram reqLength (handle (prepared slave info datum ram))
      else (prepared slave info datum ram).responseException (ram 0) (ram 1)
        modbusExceptionIllegalDataAddress 0 := by
  have hbasis : ∀ rtu datum', (⟨ram, rtu, datum'⟩ : Exchange).buildResponseBasis (ram 0) (ram 1) 0 =
      (2, ⟨ram, rtu, datum'⟩) := fun rtu datum' ↦ buildResponseBasis_self ⟨ram, rtu, datum'⟩
  have hwindow : (configured slave (requestInfo info ram)).info.reg.toNat +
      (configured slave (requestInfo info ram)).info.regNo.toNat <
      (if ram 1 = fcReadInputRegisters then
          (configured slave (requestInfo info ram)).modbus.inputRegMaxNo
        else (configured slave (requestInfo info ram)).modbus.holdRegMaxNo).toNat ↔
      RegistersExist ram := by
    unfold RegistersExist maxRegNo
    split <;> exact Iff.rfl
  by_cases hread : IsRead ram
  · have hread' : ram 1 = fcReadHoldingRegisters ∨ ram 1 = fcReadInputRegisters := hread
    simp only [replyRegisters, parse_names hnames, hbasis, if_pos hread', setByte, zero_add,
      prepared, answered, if_pos hread]
    by_cases hexist : RegistersExist ram
    · rw [if_pos hexist, if_pos (hwindow.mpr hexist)]
      rfl
    · rw [if_neg hexist, if_neg fun h ↦ hexist (hwindow.mp h)]
      rfl
  · have hread' : ¬ (ram 1 = fcReadHoldingRegisters ∨ ram 1 = fcReadInputRegisters) := hread
    simp only [replyRegisters, parse_names hnames, hbasis, if_neg hread', memcpy_self,
      prepared, answered, if_neg hread]
    by_cases hexist : RegistersExist ram
    · rw [if_pos hexist, if_pos (hwindow.mpr hexist)]
      rfl
    · rw [if_neg hexist, if_neg fun h ↦ hexist (hwindow.mp h)]

/-- The response to any request, before its checksum. -/
def replied (handle : Exchange → ℤ × Exchange) (slave : Byte) (info : ModbusRtuInfo)
    (datum : ModelDatum) (ram : Ram) (reqLength : ℤ) : ℤ × Exchange :=
  let x : Exchange := ⟨ram, configured slave info, datum⟩
  if namesRegisters (ram 1) then
    if RegistersExist ram then answered ram reqLength (handle (prepared slave info datum ram))
    else (prepared slave info datum ram).responseException (ram 0) (ram 1)
      modbusExceptionIllegalDataAddress 0
  else if ram 1 = fcReportSlaveId then
    (5 + slaveIdText.length,
      (((x.setByte 3 reportSlaveId).setByte 4 0xFF).setBytes 5 slaveIdText).setByte 2
        (BitVec.ofNat 8 (2 + slaveIdText.length)))
  else x.responseException (ram 0) (ram 1) modbusExceptionIllegalFunction 0

/-- A response is closed by its checksum. -/
theorem modbusReply_eq (handle : Exchange → ℤ × Exchange) (slave : Byte) (info : ModbusRtuInfo)
    (datum : ModelDatum) (ram : Ram) (reqLength : ℤ) :
    modbusReply handle ⟨ram, configured slave info, datum⟩ 0 0 reqLength =
      (replied handle slave info datum ram (reqLength - 2)).2.sendMsgPre 0
        (replied handle slave info datum ram (reqLength - 2)).1 := by
  unfold modbusReply replied
  simp only [zero_add]
  by_cases hnames : namesRegisters (ram 1) = true
  · simp only [hnames, if_true, replyRegisters_eq handle slave info datum (reqLength - 2) hnames]
  · simp only [if_neg hnames]
    by_cases hslaveId : ram 1 = fcReportSlaveId
    · have hbasis := buildResponseBasis_self ⟨ram, configured slave info, datum⟩
      simp only [hslaveId, if_true] at hbasis ⊢
      simp only [hbasis]
      rfl
    · simp only [if_neg hslaveId]

/-! ### The checksum of a response -/

theorem sendMsgPre_ram_of_ne (x : Exchange) {req length addr : ℤ} (hhigh : addr ≠ req + length)
    (hlow : addr ≠ req + length + 1) : (x.sendMsgPre req length).2.ram addr = x.ram addr := by
  simp [sendMsgPre, setByte, hhigh, hlow]

theorem sendMsgPre_ram_high (x : Exchange) (req length : ℤ) :
    (x.sendMsgPre req length).2.ram (req + length) =
      ((crc16 (fun i ↦ x.ram (req + i)) (BitVec.ofInt 16 length)).value >>> 8).setWidth 8 := by
  simp [sendMsgPre, setByte]

theorem sendMsgPre_ram_low (x : Exchange) (req length : ℤ) :
    (x.sendMsgPre req length).2.ram (req + length + 1) =
      (crc16 (fun i ↦ x.ram (req + i)) (BitVec.ofInt 16 length)).value.setWidth 8 := by
  simp [sendMsgPre, setByte]

/-- A frame that is closed by its checksum is accepted. -/
theorem unpack_sendMsgPre {x : Exchange} {length : ℕ}
    (hslave : x.ram 0 = slave ∨ x.ram 0 = modbusBroadcastAddress) (hpos : 0 < length)
    (hlength : length + 2 ≤ maxMessageLength) :
    (unpack (configured slave info) (x.sendMsgPre 0 length).2.ram
      (BitVec.ofInt 16 (length + 2))).value = 0 := by
  simp only [maxMessageLength] at hlength
  have hlen : (BitVec.ofInt 16 ((length : ℤ) + 2)).toNat = length + 2 := by
    rw [BitVec.toNat_ofInt]
    omega
  have hsub : BitVec.ofInt 16 ((length : ℤ) + 2) - 2 = BitVec.ofInt 16 length := by
    apply BitVec.eq_of_toNat_eq
    rw [BitVec.toNat_sub_of_le (BitVec.le_def.mpr (by rw [hlen]; exact Nat.le_add_left 2 length)),
      hlen, BitVec.toNat_ofInt]
    simp
    omega
  have hhigh : ((BitVec.ofInt 16 ((length : ℤ) + 2)).toNat : ℤ) - 2 = length := by omega
  have hlow : ((BitVec.ofInt 16 ((length : ℤ) + 2)).toNat : ℤ) - 1 = length + 1 := by omega
  have hcrc : (crc16 (x.sendMsgPre 0 length).2.ram (BitVec.ofInt 16 length)).value =
      (crc16 (fun i ↦ x.ram (0 + i)) (BitVec.ofInt 16 length)).value := by
    apply crc16_value_congr
    intro i hi hlt
    rw [BitVec.toNat_ofInt] at hlt
    rw [sendMsgPre_ram_of_ne _ (by omega) (by omega), zero_add]
  rw [unpack_eq_zero_iff, hlen, hsub]
  refine ⟨hlength, ?_, ?_⟩
  · rw [sendMsgPre_ram_of_ne _ (by omega) (by omega)]
    exact hslave
  · rw [← hlen, hhigh, hlow, hcrc, eq_comm, be16_eq_iff]
    have hhighByte := sendMsgPre_ram_high x 0 length
    have hlowByte := sendMsgPre_ram_low x 0 length
    rw [zero_add] at hhighByte hlowByte
    exact ⟨hhighByte, hlowByte⟩

/-- The echo of an accepted frame is the frame, of any length. -/
theorem sendMsgPre_echo {x : Exchange} {len : BitVec 16}
    (haccept : (unpack (configured slave info) x.ram len).value = 0) :
    x.sendMsgPre 0 ((len.toNat : ℤ) - 2) = ((len.toNat : ℤ), x) := by
  have hcrc := (accepted_of_unpack haccept).2.2
  have hlen : BitVec.ofInt 16 ((len.toNat : ℤ) - 2) = len - 2 := by
    apply BitVec.eq_of_toNat_eq
    rw [BitVec.toNat_ofInt, BitVec.toNat_sub]
    have htwo : (2 : BitVec 16).toNat = 2 := rfl
    rw [htwo]
    omega
  have hlast : (len.toNat : ℤ) - 2 + 1 = len.toNat - 1 := by ring
  simp only [sendMsgPre, setByte, hlen, hcrc, be16_high, be16_low, zero_add, hlast,
    Function.update_eq_self, sub_add_cancel]

end Exchange

end ProjectSensor.App
