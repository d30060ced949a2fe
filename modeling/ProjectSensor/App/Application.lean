import ProjectSensor.App.Commu
import ProjectSensor.App.DatumLoad
import ProjectSensor.App.RequestEffect
import ProjectSensor.Library.Transition
import ProjectSensor.Reactor.EventRun

/-!
# The application

The Modbus device in PendSV, the event loop that calls `datum_save`, and the EEPROM.  A call of
`datum_save` is taken apart into the transfers of its write and the two settings it applies at the
end: between any two of these steps, and between any two steps of the event loop, a frame may be
received and answered.
-/

open ProjectSensor.Library ProjectSensor.Library.ByteMemory ProjectSensor.Library.LinkedRing
open ProjectSensor.Service ProjectSensor.Bsp ProjectSensor.Reactor

namespace ProjectSensor.App

/-- `baud_array`. -/
def baudArray : List (BitVec 32) := [2400, 4800, 9600, 19200, 38400]

/-- `IN_RANGES(x, reg, reg + reg_no)`. -/
def InRanges (x : ℕ) (reg regNo : BitVec 16) : Prop :=
  reg.toNat ≤ x ∧ x ≤ reg.toNat + regNo.toNat

instance (x : ℕ) (reg regNo : BitVec 16) : Decidable (InRanges x reg regNo) :=
  inferInstanceAs (Decidable (_ ∧ _))

/-- How far a call of `datum_save` has come. -/
inductive SaveStage where
  | write (access : Access) (retryNumb : ℕ)
  | slaveSet
  | baudSet
  deriving DecidableEq

/-- A call of `datum_save` with its arguments. -/
structure Saving where
  reg : BitVec 16
  regNo : BitVec 16
  stage : SaveStage

/-- `baud` is what `uart_ios` was last given. -/
structure Application where
  device : DeviceCommu
  eeprom : Mem
  baud : Option (BitVec 32)
  loop : EventLoop EventHandler Unit
  saving : Option Saving

/-- The block of registers in the EEPROM, as `datum_save` writes it. -/
def wholeAccess : Access := ⟨storageInfoHold.storageAddr, 0, storageInfoHold.len⟩

inductive AppAction where
  | byte (c : Byte)
  | byteTimer
  | txDone
  | recvHandle (buf : Ram) (param : Mem)
  | handle (outcome : Outcome)

namespace Application

variable (app : Application)

def para : Mem := app.device.datum.para

def withUart (uart : Transceiver) : Application :=
  { app with device := { app.device with uart := uart } }

/-- `COMMU_IOC_BAUD` with the value of `ucCommBaud`; there is no telling which baud an index beyond
the array gives. -/
def ioctlBaud : Application :=
  { app.withUart app.device.uart.recvInit with baud := baudArray[(app.para ucCommBaudAt).toNat]? }

/-- `slave_set` with the value of `ucLinkAddr`. -/
def slaveSet : Application :=
  { app with device := app.device.slaveSet (app.para ucLinkAddrAt) }

/-- `application::init`: its result and the application, with the event loop that `run` makes. -/
def init (datum : ModelDatum) (eeprom : Mem) (outcomes : List Outcome) (links : Links EventNode)
    (param : Fin eventNr → Mem) : ℤ × Application :=
  let app : Application :=
    { device := ⟨(Transceiver.construct .halfDuplex).recvInit, .construct, datum.construct⟩
      eeprom := eeprom
      baud := none
      loop := EventLoop.construct links param
      saving := none }
  let app := app.ioctlBaud.slaveSet
  let rtu := app.device.rtu.regMaxNoSet inputRegMaxNo holdRegMaxNo
  let (rt, l) := Loading.datumLoad ⟨app.device.datum, app.eeprom, outcomes⟩
  (rt, { app with
    device := { app.device with rtu := rtu, datum := l.datum }
    eeprom := l.eeprom })

/-- `datum_save` returns. -/
def saveReturned : Application := { app with saving := none, loop := app.loop.handleStep }

/-- `datum_save` on its way to, or behind, the end of the write. -/
def saveWrite (reg regNo : BitVec 16) : Pass → Application
  | .underWay access retryNumb =>
      { app with saving := some ⟨reg, regNo, .write access retryNumb⟩ }
  | .returned size =>
      if size ≤ 0 ∨ size ≠ storageInfoHold.len then app.saveReturned
      else { app with saving := some ⟨reg, regNo, .slaveSet⟩ }

/-- `datum_save` is called with the event in slot `i`. -/
def datumSave (i : Fin eventNr) : Application :=
  let event := app.loop.manage.event i
  let (reg, buffer) := event.buffer.readInt16
  let (regNo, buffer) := buffer.readInt16
  let manage := { app.loop.manage with
    event := Function.update app.loop.manage.event i { event with buffer := buffer } }
  let app := { app with
    loop := { app.loop with manage := manage }
    device := { app.device with datum := app.device.datum.storageParamChksum } }
  app.saveWrite reg regNo (Pass.begin wholeAccess)

/-- `datum_save` goes one step further. -/
def saveStep (saving : Saving) (outcome : Outcome) : Application :=
  let { reg, regNo, stage } := saving
  match stage with
  | .write access retryNumb =>
      let m := Medium.transfer ⟨app.eeprom, app.para⟩ .write access outcome
      { app with eeprom := m.eeprom }.saveWrite reg regNo
        (Pass.turn wholeAccess outcome (.underWay access retryNumb))
  | .slaveSet =>
      let app := if InRanges 0 reg regNo then app.slaveSet else app
      { app with saving := some ⟨reg, regNo, .baudSet⟩ }
  | .baudSet =>
      let app := if InRanges 1 reg regNo then app.ioctlBaud else app
      app.saveReturned

/-- One step of the event loop, or of the handler it has called. -/
def handle (outcome : Outcome) : Application :=
  match app.loop.drain with
  | .test (.event i) =>
      match app.saving with
      | some saving => app.saveStep saving outcome
      | none =>
          match (app.loop.manage.event i).handler with
          | some .datumSave => app.datumSave i
          | none => { app with loop := app.loop.handleStep }
  | _ => { app with loop := app.loop.handleStep }

/-- `package_recv_handle` with the event it posts. -/
def recvHandle (buf : Ram) (param : Mem) : Application :=
  let received := app.device.packageRecvHandle buf param
  let app := { app with device := received.device }
  match received.posted with
  | none => app
  | some event => { app with loop := (app.loop.runInloop event).2 }

def step : AppAction → Application
  | .byte c => app.withUart (app.device.uart.push c).2
  | .byteTimer => app.withUart app.device.uart.byteTimerTimeout
  | .txDone => app.withUart app.device.uart.dmaUartTxIntHandler
  | .recvHandle buf param => app.recvHandle buf param
  | .handle outcome => app.handle outcome

/-- No event is queued or executing. -/
def Quiet : Prop := app.loop.queued = [] ∧ app.loop.uncalled = []

instance : Decidable app.Quiet := inferInstanceAs (Decidable (_ ∧ _))

end Application

end ProjectSensor.App
