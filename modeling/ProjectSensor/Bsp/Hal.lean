import ProjectSensor.Library.ByteMemory
import ProjectSensor.Library.Transition

/-!
# The device layer

A driver offers functions, any of which may be missing; a registered device is a flag word over
one.  Whether a device is initialised is one bit of that word (`DEVICE_FLAG_ACTIVATED`).  The init
function of the driver is called when the bit is clear, and opening writes the whole word anew.
-/

open ProjectSensor.Library ProjectSensor.Library.ByteMemory ProjectSensor.Library.Transition

namespace ProjectSensor.Bsp

/-- `DeviceStatus_TYPE`. -/
inductive DeviceStatusType where
  | enull
  | ok
  | enosys
  | ebusy
  | eopen
  | eparamInvalid
  | ecmdInvalid
  | eoflgInvalid
  | eexec
  | eagain
  | etimeout
  | enoexsited
  deriving DecidableEq

def deviceFlagStandalone : BitVec 16 := 0x008

def deviceFlagActivated : BitVec 16 := 0x010

def deviceOflagOpen : BitVec 16 := 0x008

/-- What the drivers work on: the memory with a record of the addresses written,
`s_DeviceErrorInfo`, and the rest. -/
structure World (σ : Type*) where
  ram : Ram
  writes : List ℤ
  errorInfo : DeviceStatusType
  rest : σ

/-- `DeviceAbstractInfo`, as far as it is used here. -/
structure DeviceAbstractInfo (σ : Type*) where
  flag : BitVec 16
  pfinit : Option (World σ → DeviceStatusType × World σ)
  pfopen : Option (World σ → BitVec 16 → DeviceStatusType × World σ)
  pfread : Option (World σ → BitVec 16 → ℤ → BitVec 16 → BitVec 16 × World σ)

variable {D σ : Type*}

namespace World

variable (w : World σ)

def apiDeviceErrorInfoSet (errorInfo : DeviceStatusType) : World σ :=
  { w with errorInfo := errorInfo }

/-- The error code is forgotten when it is read. -/
def apiDeviceErrorInfoGet : DeviceStatusType × World σ :=
  (w.errorInfo, { w with errorInfo := .ok })

/-- `memcpy`, with its addresses recorded. -/
def copy (dst src : ℤ) (len : ℕ) : World σ := { w with
  ram := memcpy w.ram dst src len
  writes := w.writes ++ (List.range len).map (dst + ·) }

/-- The addresses written since an earlier moment. -/
def writesSince (before : World σ) : List ℤ := w.writes.drop before.writes.length

end World

/-- `API_DeviceRead`; the results are `portSSIZE_TYPE`, and the error is -1. -/
def apiDeviceRead (pdev : Option (DeviceAbstractInfo σ)) (w : World σ) (pos : BitVec 16)
    (buffer : Option ℤ) (size : BitVec 16) : BitVec 16 × World σ :=
  match pdev, buffer with
  | some pdev, some buffer =>
      if size = 0 then (-1, w.apiDeviceErrorInfoSet .eparamInvalid)
      else
        match pdev.pfread with
        | some pfread => pfread w pos buffer size
        | none => (-1, w.apiDeviceErrorInfoSet .enosys)
  | _, _ => (-1, w.apiDeviceErrorInfoSet .eparamInvalid)

/-- The devices on `s_DeviceList` with the flag words of all devices, and how often each driver's
init function has been called. -/
structure Hal (D σ : Type*) where
  deviceList : List D
  openFlag : D → BitVec 16
  world : World σ
  initCalls : D → ℕ

/-- The calls that initialise or open a device. -/
inductive HalAction (D : Type*) where
  | initAll
  | init (pdev : Option D)
  | open (pdev : Option D) (oflag : BitVec 16)

namespace Hal

variable [DecidableEq D] (info : D → DeviceAbstractInfo σ) (h : Hal D σ)

/-- The devices after start-up, closed and not initialised. -/
def construct (deviceList : List D) (world : World σ) : Hal D σ where
  deviceList := deviceList
  openFlag := fun _ ↦ 0
  world := world
  initCalls := fun _ ↦ 0

def openFlagSet (pdev : D) (flag : BitVec 16) : Hal D σ :=
  { h with openFlag := Function.update h.openFlag pdev flag }

/-- A call of the init function; success sets the bit. -/
def callInit (pdev : D) (init : World σ → DeviceStatusType × World σ) :
    DeviceStatusType × Hal D σ :=
  let (rt, world) := init h.world
  let h := { h with
    world := world
    initCalls := Function.update h.initCalls pdev (h.initCalls pdev + 1) }
  if rt = .ok then (rt, h.openFlagSet pdev (h.openFlag pdev ||| deviceFlagActivated)) else (rt, h)

/-- The body that `API_DeviceInit` and the loop of `API_DeviceInitAll` share. -/
def deviceInit (pdev : D) : DeviceStatusType × Hal D σ :=
  match (info pdev).pfinit with
  | some init =>
      if h.openFlag pdev &&& deviceFlagActivated = 0 then h.callInit pdev init else (.ok, h)
  | none => (.ok, h)

def apiDeviceInitAll : DeviceStatusType × Hal D σ :=
  (.ok, h.deviceList.foldl (fun h pdev ↦ (h.deviceInit info pdev).2) h)

def apiDeviceInit : Option D → DeviceStatusType × Hal D σ
  | none => (.enull, h)
  | some pdev => h.deviceInit info pdev

/-- The first part of `API_DeviceOpen`: without an init function the bit is set all the same. -/
def openInit (pdev : D) : Hal D σ :=
  if h.openFlag pdev &&& deviceFlagActivated = 0 then
    match (info pdev).pfinit with
    | some init => (h.callInit pdev init).2
    | none => h.openFlagSet pdev (h.openFlag pdev ||| deviceFlagActivated)
  else h

/-- The call of the driver's open function. -/
def callOpen (pdev : D) (oflag : BitVec 16) : DeviceStatusType × Hal D σ :=
  match (info pdev).pfopen with
  | some pfopen =>
      let (rt, world) := pfopen h.world oflag
      (rt, { h with world := world })
  | none => (.enosys, h)

def apiDeviceOpen (pdev : Option D) (oflag : BitVec 16) : DeviceStatusType × Hal D σ :=
  match pdev with
  | none => (.enull, h)
  | some pdev =>
      let h := h.openInit info pdev
      if (info pdev).flag &&& deviceFlagStandalone ≠ 0 ∧ h.openFlag pdev &&& deviceOflagOpen ≠ 0
      then (.ebusy, h)
      else
        let (rt, h) := h.callOpen info pdev oflag
        -- the word is replaced, the bit of the initialised device with it
        if rt = .ok ∨ rt = .enosys then (rt, h.openFlagSet pdev (oflag ||| deviceOflagOpen))
        else (rt, h)

def step : HalAction D → Hal D σ
  | .initAll => (h.apiDeviceInitAll info).2
  | .init pdev => (h.apiDeviceInit info pdev).2
  | .open pdev oflag => (h.apiDeviceOpen info pdev oflag).2

end Hal

end ProjectSensor.Bsp
