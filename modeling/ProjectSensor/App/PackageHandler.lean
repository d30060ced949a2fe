import ProjectSensor.App.Modbus
import ProjectSensor.Service.Event

/-!
# `application::package_event_handler`

While the response is prepared the handler reads or writes the hold registers one after the other;
when it has been sent, it turns a write into an event that carries the window of registers.
-/

open ProjectSensor.Library ProjectSensor.Library.ByteMemory ProjectSensor.Service

namespace ProjectSensor.App

/-- `in16`. -/
def in16 (l h : Byte) : BitVec 32 := l.setWidth 32 ||| h.setWidth 32 <<< 8

/-- `reg + i`, cut down to a register index. -/
def regIndex (reg : BitVec 16) (i : ℕ) : ℕ := (reg.toNat + i) % 2 ^ 16

/-- The loop over the registers read, from the `i`-th on. -/
def readRegs (datum : ModelDatum) (type : RegType) (reg : BitVec 16) :
    ℕ → ℕ → ℤ → Ram → Ram
  | 0, _, _, ram => ram
  | left + 1, i, buffer, ram =>
      let value := datum.modbusRegGet type (regIndex reg i)
      let ram := Function.update ram (buffer + 1) (value.setWidth 8)
      let ram := Function.update ram buffer ((value.setWidth 16 >>> 8).setWidth 8)
      readRegs datum type reg left (i + 1) (buffer + 2) ram

/-- The loop over the registers written, from the `i`-th on; it stops at the first refusal. -/
def writeRegs (ram : Ram) (reg : BitVec 16) : ℕ → ℕ → ℤ → ModelDatum → ℤ × ModelDatum
  | 0, _, _, datum => (0, datum)
  | left + 1, i, buffer, datum =>
      let value := in16 (ram (buffer + 1)) (ram buffer)
      match datum.modbusRegSet .hold (regIndex reg i) value with
      | (some 0, datum) => writeRegs ram reg left (i + 1) (buffer + 2) datum
      | (rt, datum) => (rt.getD (-1), datum)

/-- `package_event_handler` in the phase `enum_PROTOCOL_PREPARE`. -/
def packageEventPrepare (x : Exchange) : ℤ × Exchange :=
  let info := x.rtu.info
  if info.type ≠ .modbusRtu then (-1, x)
  else if info.function = fcReadHoldingRegisters ∨ info.function = fcReadInputRegisters then
    let type := if info.function = fcReadHoldingRegisters then RegType.hold else RegType.input
    let ram := readRegs x.datum type info.reg info.regNo.toNat 0 info.pparam x.ram
    (0, { x with ram := ram, rtu := { x.rtu with info :=
      { info with paramLen := info.regNo * 2 } } })
  else if info.function = fcWriteSingleRegister ∨ info.function = fcWriteMultipleRegisters then
    let (rt, datum) := writeRegs x.ram info.reg info.regNo.toNat 0 info.pparam x.datum
    (rt, { x with datum := datum })
  else (0, x)

/-- `protocol_modbus_rtu::handle` in the phase `enum_PROTOCOL_PREPARE`. -/
def handlePrepare (x : Exchange) : ℤ × Exchange :=
  let (rt, x) := packageEventPrepare x
  (if rt = 0 then 0 else -1, x)

/-- The callbacks that events are posted with. -/
inductive EventHandler where
  | datumSave
  deriving DecidableEq

/-- The event that saves the window of registers; `param` is what its stack slot held. -/
def saveEvent (param : Mem) (reg regNo : BitVec 16) : Event EventHandler Unit :=
  let event := Event.construct param (some EventHandler.datumSave) (some ())
  { event with buffer := (event.buffer.appendInt16 reg).appendInt16 regNo }

/-- `package_event_handler` in the phase `enum_PROTOCOL_DONE`: the event it posts, if any. -/
def packageEventDone (info : ModbusRtuInfo) (param : Mem) : Option (Event EventHandler Unit) :=
  if info.type ≠ .modbusRtu then none
  else if info.function = fcWriteSingleRegister ∨ info.function = fcWriteMultipleRegisters then
    some (saveEvent param info.reg info.regNo)
  else none

end ProjectSensor.App
