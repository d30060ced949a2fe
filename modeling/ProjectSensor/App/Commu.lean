import ProjectSensor.App.PackageHandler
import ProjectSensor.Bsp.CpuUart

/-!
# `device_commu`

A frame goes from the queue of the transceiver through `unpack` to `pack`, the response goes out
and the receiver is armed again.  The frame lies in a local buffer whose other bytes are whatever
the stack held; so does the event that a write request posts.
-/

open ProjectSensor.Library ProjectSensor.Library.ByteMemory ProjectSensor.Service ProjectSensor.Bsp

namespace ProjectSensor.App

/-- The device with the protocol it speaks and the registers it serves. -/
structure DeviceCommu where
  uart : Transceiver
  rtu : ProtocolModbusRtu
  datum : ModelDatum

/-- What `process_command` hands to `unpack`. -/
structure HandedFrame where
  rtu : ProtocolModbusRtu
  pbuf : Ram
  len : BitVec 16

/-- What one call of `package_recv_handle` has done. -/
structure Received where
  toContinue : Bool
  handed : Option HandedFrame
  posted : Option (Event EventHandler Unit)
  device : DeviceCommu

namespace DeviceCommu

variable (d : DeviceCommu)

/-- `COMMU_IOC_RX_ENTER`. -/
def rxEnter : DeviceCommu := { d with uart := d.uart.recvInit }

/-- `slave_set` from the event loop. -/
def slaveSet (addr : Byte) : DeviceCommu := { d with rtu := (d.rtu.slaveSet addr).2 }

/-- `write` of the request at `pbuf`: the response is built in its place and sent. -/
def write (pbuf : Ram) (len : BitVec 16) : DeviceCommu :=
  if len = 0 then d
  else
    let (length, x) := Exchange.pack handlePrepare ⟨pbuf, d.rtu, d.datum⟩ 0 0 len
    let uart := if length = 0 then d.uart else d.uart.transmit
    rxEnter { uart := uart, rtu := x.rtu, datum := x.datum }

/-- `package_recv_handle` of a command; `buf` and `param` are what its stack held. -/
def packageRecvHandle (buf : Ram) (param : Mem) : Received :=
  match d.uart.fetch with
  | (none, uart) => ⟨false, none, none, { d with uart := uart }⟩
  | (some frame, uart) =>
      let d := { d with uart := uart }
      let handed : HandedFrame := ⟨d.rtu, put buf frame, BitVec.ofNat 16 frame.length⟩
      if (unpack handed.rtu handed.pbuf handed.len).value ≠ 0 then
        ⟨false, some handed, none, d.rxEnter⟩
      else
        let d := d.write handed.pbuf handed.len
        ⟨true, some handed, packageEventDone d.rtu.info param, d⟩

end DeviceCommu

end ProjectSensor.App
