import ProjectSensor.Api.Crc16
import ProjectSensor.App.Datum

/-!
# The Modbus RTU slave

`unpack` accepts a frame, `modbus_reply` builds the response in the memory both live in.  Pointers
are indices into that memory, lengths of type `int` are integers: a frame shorter than its checksum
gives a negative one.  The handler of the protocol is a parameter, as it is in the source.
-/

open ProjectSensor.Library ProjectSensor.Library.ByteMemory ProjectSensor.Api

namespace ProjectSensor.App

/-- Function codes. -/
def fcReadHoldingRegisters : Byte := 0x03
def fcReadInputRegisters : Byte := 0x04
def fcWriteSingleRegister : Byte := 0x06
def fcWriteMultipleRegisters : Byte := 0x10
def fcReportSlaveId : Byte := 0x11

def reportSlaveId : Byte := 180

def maxMessageLength : ℕ := 260

def modbusBroadcastAddress : Byte := 0

def modbusExceptionIllegalFunction : Byte := 1
def modbusExceptionIllegalDataAddress : Byte := 2

inductive ProtocolType where
  | rawMac
  | modbusRtu
  deriving DecidableEq

/-- `modbus_rtu_info`; `pparam` points into the memory of the exchange. -/
structure ModbusRtuInfo where
  type : ProtocolType
  reg : BitVec 16
  regNo : BitVec 16
  paramLen : BitVec 16
  pparam : ℤ
  function : Byte

structure Modbus where
  slave : Byte
  inputRegMaxNo : BitVec 16
  holdRegMaxNo : BitVec 16

structure ProtocolModbusRtu where
  type : ProtocolType
  modbus : Modbus
  info : ModbusRtuInfo

/-- The static object before and after its constructor. -/
def ProtocolModbusRtu.construct : ProtocolModbusRtu where
  type := .modbusRtu
  modbus := ⟨0, 0, 0⟩
  info := ⟨.rawMac, 0, 0, 0, 0, 0⟩

/-- `slave_set`, by way of `_modbus_set_slave`. -/
def ProtocolModbusRtu.slaveSet (rtu : ProtocolModbusRtu) (addr : Byte) : ℤ × ProtocolModbusRtu :=
  if addr.toNat ≤ 247 then (0, { rtu with modbus := { rtu.modbus with slave := addr } })
  else (-1, rtu)

def ProtocolModbusRtu.regMaxNoSet (rtu : ProtocolModbusRtu) (inputReg holdReg : ℕ) :
    ProtocolModbusRtu :=
  { rtu with modbus := { rtu.modbus with
      inputRegMaxNo := BitVec.ofNat 16 inputReg
      holdRegMaxNo := BitVec.ofNat 16 holdReg } }

/-- A halfword sent high byte first. -/
def be16 (high low : Byte) : BitVec 16 := high.setWidth 16 <<< 8 ||| low.setWidth 16

/-- `unpack`: 0 when the frame is accepted. -/
def unpack (rtu : ProtocolModbusRtu) (pbuf : Ram) (len : BitVec 16) : Traced ℤ := do
  let slave ← Traced.read pbuf 0
  if maxMessageLength < len.toNat then
    pure (-3)
  else if slave ≠ rtu.modbus.slave ∧ slave ≠ modbusBroadcastAddress then
    pure (-1)
  else
    let crcCalculated ← crc16 pbuf (len - 2)
    let high ← Traced.read pbuf (len.toNat - 2)
    let low ← Traced.read pbuf (len.toNat - 1)
    if crcCalculated ≠ be16 high low then pure (-2) else pure 0

theorem be16_high (high low : Byte) : (be16 high low >>> 8).setWidth 8 = high := by
  refine BitVec.eq_of_getLsbD_eq fun i hi ↦ ?_
  have hlow : low.getLsbD (8 + i) = false := BitVec.getLsbD_of_ge _ _ (by omega)
  simp only [be16, BitVec.getLsbD_setWidth, BitVec.getLsbD_ushiftRight, BitVec.getLsbD_or,
    BitVec.getLsbD_shiftLeft]
  grind

theorem be16_low (high low : Byte) : (be16 high low).setWidth 8 = low := by
  refine BitVec.eq_of_getLsbD_eq fun i hi ↦ ?_
  simp only [be16, BitVec.getLsbD_setWidth, BitVec.getLsbD_or, BitVec.getLsbD_shiftLeft]
  grind

/-- A halfword is given by its two bytes. -/
theorem be16_eq_iff (high low : Byte) (value : BitVec 16) :
    be16 high low = value ↔ high = (value >>> 8).setWidth 8 ∧ low = value.setWidth 8 := by
  constructor
  · rintro rfl
    exact ⟨(be16_high high low).symm, (be16_low high low).symm⟩
  · rintro ⟨rfl, rfl⟩
    refine BitVec.eq_of_getLsbD_eq fun i hi ↦ ?_
    simp only [be16, BitVec.getLsbD_setWidth, BitVec.getLsbD_or, BitVec.getLsbD_shiftLeft,
      BitVec.getLsbD_ushiftRight]
    grind

theorem be16_inj {high low high' low' : Byte} (heq : be16 high low = be16 high' low') :
    high = high' ∧ low = low' := by
  rw [be16_eq_iff, be16_high, be16_low] at heq
  exact heq

/-- What acceptance says about a frame. -/
theorem accepted_of_unpack {rtu : ProtocolModbusRtu} {pbuf : Ram} {len : BitVec 16}
    (haccept : (unpack rtu pbuf len).value = 0) :
    len.toNat ≤ maxMessageLength ∧
      (pbuf 0 = rtu.modbus.slave ∨ pbuf 0 = modbusBroadcastAddress) ∧
      (crc16 pbuf (len - 2)).value = be16 (pbuf (len.toNat - 2)) (pbuf (len.toNat - 1)) := by
  rw [unpack, Traced.value_bind] at haccept
  by_cases hlong : maxMessageLength < len.toNat
  · rw [if_pos hlong] at haccept
    exact absurd haccept (by decide)
  by_cases hslave : (Traced.read pbuf 0).value ≠ rtu.modbus.slave ∧
      (Traced.read pbuf 0).value ≠ modbusBroadcastAddress
  · rw [if_neg hlong, if_pos hslave] at haccept
    exact absurd haccept (by decide)
  rw [if_neg hlong, if_neg hslave, Traced.value_bind, Traced.value_bind, Traced.value_bind]
    at haccept
  by_cases hcrc : (crc16 pbuf (len - 2)).value ≠ be16 (Traced.read pbuf (len.toNat - 2)).value
      (Traced.read pbuf (len.toNat - 1)).value
  · rw [if_pos hcrc] at haccept
    exact absurd haccept (by decide)
  · rw [Traced.value_read] at hslave
    exact ⟨not_lt.mp hlong, by tauto, not_not.mp hcrc⟩

/-- The four functions that name registers. -/
def namesRegisters (function : Byte) : Bool :=
  function = fcReadHoldingRegisters || function = fcReadInputRegisters ||
    function = fcWriteSingleRegister || function = fcWriteMultipleRegisters

/-- `protocol_modbus_rtu::info` of the package at `package`. -/
def ProtocolModbusRtu.parse (rtu : ProtocolModbusRtu) (ram : Ram) (package : ℤ) :
    ProtocolModbusRtu :=
  let offset := package + 1
  let function := ram offset
  let info := { rtu.info with type := rtu.type, function := function }
  if namesRegisters function then
    let info := { info with reg := be16 (ram (offset + 1)) (ram (offset + 2)) }
    if function = fcWriteSingleRegister then
      { rtu with info := { info with regNo := 1, pparam := offset + 3 } }
    else
      { rtu with info := { info with
          regNo := be16 (ram (offset + 3)) (ram (offset + 4))
          pparam := offset + 5 } }
  else
    { rtu with info := { info with reg := -1, regNo := -1 } }

/-- What a request is answered from and into. -/
structure Exchange where
  ram : Ram
  rtu : ProtocolModbusRtu
  datum : ModelDatum

namespace Exchange

def setByte (x : Exchange) (addr : ℤ) (value : Byte) : Exchange :=
  { x with ram := Function.update x.ram addr value }

/-- `_modbus_rtu_build_response_basis`; its result is the length of the header. -/
def buildResponseBasis (x : Exchange) (slave function : Byte) (rsp : ℤ) : ℤ × Exchange :=
  (2, (x.setByte rsp slave).setByte (rsp + 1) function)

/-- `_modbus_rtu_send_msg_pre`: the checksum behind the first `length` bytes. -/
def sendMsgPre (x : Exchange) (req length : ℤ) : ℤ × Exchange :=
  let crc := (crc16 (fun i ↦ x.ram (req + i)) (BitVec.ofInt 16 length)).value
  let x := x.setByte (req + length) ((crc >>> 8).setWidth 8)
  let x := x.setByte (req + length + 1) (crc.setWidth 8)
  (length + 2, x)

def responseException (x : Exchange) (slave function exceptionCode : Byte) (rsp : ℤ) :
    ℤ × Exchange :=
  let (rspLength, x) := x.buildResponseBasis slave (function + 0x80) rsp
  (rspLength + 1, x.setByte (rsp + rspLength) exceptionCode)

/-- The text of the slave id, as bytes. -/
def slaveIdText : List Byte :=
  "LMBmodbus-1.0".toList.map fun c ↦ BitVec.ofNat 8 c.toNat

def setBytes (x : Exchange) (addr : ℤ) : List Byte → Exchange
  | [] => x
  | value :: values => (x.setByte addr value).setBytes (addr + 1) values

/-- The number of bytes `memcpy` is told to copy when the count is an `int`. -/
def sizeOfInt (length : ℤ) : ℕ := (length % 2 ^ 32).toNat

/-- The response to a request that names registers, before its checksum. -/
def replyRegisters (handle : Exchange → ℤ × Exchange) (x : Exchange) (slave function : Byte)
    (rsp req reqLength : ℤ) : ℤ × Exchange :=
  let x := { x with rtu := x.rtu.parse x.ram req }
  let (rspLength, x) := x.buildResponseBasis slave function rsp
  let readOperation := function = fcReadHoldingRegisters ∨ function = fcReadInputRegisters
  let (rspLength, x) :=
    if readOperation then
      let x := x.setByte (rsp + rspLength) ((x.rtu.info.regNo <<< 1).setWidth 8)
      (rspLength + 1, { x with rtu := { x.rtu with info :=
        { x.rtu.info with pparam := rsp + (rspLength + 1) } } })
    else (rspLength, x)
  let maxRegNo :=
    if function = fcReadInputRegisters then x.rtu.modbus.inputRegMaxNo
    else x.rtu.modbus.holdRegMaxNo
  if x.rtu.info.reg.toNat + x.rtu.info.regNo.toNat < maxRegNo.toNat then
    let (rt, x) := handle x
    if rt = 0 then
      if readOperation then (rspLength + x.rtu.info.paramLen.toNat, x)
      else if function = fcWriteSingleRegister then
        (reqLength, { x with ram := memcpy x.ram rsp req (sizeOfInt reqLength) })
      else
        let (rspLength, x) := x.buildResponseBasis slave function rsp
        (rspLength + 4, { x with ram := memcpy x.ram (rsp + rspLength) (req + rspLength) 4 })
    else x.responseException slave function modbusExceptionIllegalDataAddress rsp
  else x.responseException slave function modbusExceptionIllegalDataAddress rsp

/-- `modbus_reply`: the length of the response and the exchange after it. -/
def modbusReply (handle : Exchange → ℤ × Exchange) (x : Exchange) (rsp req reqLength : ℤ) :
    ℤ × Exchange :=
  let slave := x.ram req
  let function := x.ram (req + 1)
  let reqLength := reqLength - 2
  let (rspLength, x) :=
    if namesRegisters function then
      x.replyRegisters handle slave function rsp req reqLength
    else if function = fcReportSlaveId then
      let (rspLength, x) := x.buildResponseBasis slave function rsp
      let byteCountPos := rspLength
      let rspLength := rspLength + 1
      let x := x.setByte (rsp + rspLength) reportSlaveId
      let x := x.setByte (rsp + (rspLength + 1)) 0xFF
      let x := x.setBytes (rsp + (rspLength + 2)) slaveIdText
      let rspLength := rspLength + 2 + slaveIdText.length
      (rspLength, x.setByte (rsp + byteCountPos)
        (BitVec.ofInt 8 (rspLength - byteCountPos - 1)))
    else x.responseException slave function modbusExceptionIllegalFunction rsp
  x.sendMsgPre rsp rspLength

/-- `pack` of a frame of `len` bytes. -/
def pack (handle : Exchange → ℤ × Exchange) (x : Exchange) (dst src : ℤ) (len : BitVec 16) :
    BitVec 16 × Exchange :=
  let (length, x) := x.modbusReply handle dst src len.toNat
  (BitVec.ofInt 16 length, x)

end Exchange

end ProjectSensor.App
