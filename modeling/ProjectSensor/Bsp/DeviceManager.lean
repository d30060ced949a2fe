import Mathlib.Data.Fintype.Card
import ProjectSensor.Bsp.InitOnce
import ProjectSensor.Library.RingLoop
import ProjectSensor.Service.LinkedList

/-!
# The device manager

Drivers put their devices at the front of a circular list, and the application finds them there by
name.  Opening, closing and the two control commands of the manager itself change the flag word of
a device.  In every run the list holds the devices that are registered, the latest first, and a
device that is marked standalone is not opened twice without being closed in between.
-/

open ProjectSensor.Library ProjectSensor.Library.LinkedRing ProjectSensor.Library.Transition
open ProjectSensor.Service

namespace ProjectSensor.Bsp

/-- `DEVICE_NAME_MAX`. -/
def deviceNameMax : ℕ := 8

def deviceFlagNonblock : BitVec 16 := 0x040

/-- `DEVICE_OFLAG_CLOSE`. -/
def deviceOflagClose : BitVec 16 := 0x000

/-- `DEVICE_IOC_NONBLOCK` and `DEVICE_IOC_BLOCK`. -/
def deviceIocNonblock : BitVec 8 := 0

def deviceIocBlock : BitVec 8 := 1

/-- `strncmp` of the characters at two pointers. -/
def strncmp : ℕ → (ℕ → BitVec 8) → (ℕ → BitVec 8) → ℤ
  | 0, _, _ => 0
  | n + 1, s, t =>
      if s 0 ≠ t 0 then (s 0).toNat - (t 0).toNat
      else if s 0 = 0 then 0
      else strncmp n (fun i ↦ s (i + 1)) fun i ↦ t (i + 1)

/-- The first characters of a string, at most `n` of them. -/
def textUpTo (n : ℕ) (s : ℕ → BitVec 8) : List (BitVec 8) :=
  ((List.range n).map s).takeWhile (· ≠ 0)

theorem textUpTo_succ (n : ℕ) (s : ℕ → BitVec 8) :
    textUpTo (n + 1) s = if s 0 = 0 then [] else s 0 :: textUpTo n fun i ↦ s (i + 1) := by
  rw [textUpTo, List.range_succ_eq_map, List.map_cons, List.takeWhile_cons, List.map_map]
  by_cases hzero : s 0 = 0
  · simp [hzero]
  · simp only [ne_eq, hzero, not_false_eq_true, decide_true, if_true, if_false]
    rfl

/-- Two strings compare equal if their first characters are the same. -/
theorem strncmp_eq_zero_iff (n : ℕ) (s t : ℕ → BitVec 8) :
    strncmp n s t = 0 ↔ textUpTo n s = textUpTo n t := by
  induction n generalizing s t with
  | zero => exact iff_of_true rfl rfl
  | succ n ih =>
      rw [textUpTo_succ, textUpTo_succ, strncmp]
      by_cases hsame : s 0 = t 0
      · rw [if_neg (not_not.mpr hsame), hsame]
        by_cases hzero : t 0 = 0
        · rw [if_pos hzero, if_pos hzero, if_pos hzero]
          exact iff_of_true rfl rfl
        · rw [if_neg hzero, if_neg hzero, if_neg hzero, ih, List.cons.injEq]
          exact (and_iff_right rfl).symm
      · have hdifference : ((s 0).toNat : ℤ) - (t 0).toNat ≠ 0 := fun heq ↦
          hsame (BitVec.eq_of_toNat_eq (by omega))
        rw [if_pos hsame]
        refine iff_of_false hdifference fun heq ↦ hsame ?_
        by_cases hs : s 0 = 0 <;> by_cases ht : t 0 = 0
        · rw [hs, ht]
        · rw [if_pos hs, if_neg ht] at heq
          exact absurd heq (List.cons_ne_nil _ _).symm
        · rw [if_neg hs, if_pos ht] at heq
          exact absurd heq (List.cons_ne_nil _ _)
        · rw [if_neg hs, if_neg ht] at heq
          exact (List.cons.inj heq).1

/-- `DeviceAbstractInfo` with the functions of a driver that are used here. -/
structure DeviceDriver (σ : Type*) extends DeviceAbstractInfo σ where
  name : ℕ → BitVec 8
  pfclose : Option (World σ → DeviceStatusType × World σ)
  pfcontrol : Option (World σ → BitVec 8 → ℤ → DeviceStatusType × World σ)

inductive ManagerAction (D : Type*) where
  | register (pdev : Option D)
  | unregister (pdev : Option D)
  | initAll
  | init (pdev : Option D)
  | open (pdev : Option D) (oflag : BitVec 16)
  | close (pdev : Option D)
  | control (pdev : Option D) (cmd : BitVec 8) (args : ℤ)

variable {D σ : Type*} [DecidableEq D]

/-- The part of a driver that initialising and opening use. -/
def driverInfo (drivers : D → DeviceDriver σ) (pdev : D) : DeviceAbstractInfo σ :=
  (drivers pdev).toDeviceAbstractInfo

/-! ### Closing, and the manager on a plain list of devices -/

namespace Hal

variable (drivers : D → DeviceDriver σ) (h : Hal D σ)

/-- The call of the driver's close function. -/
def callClose (pdev : D) : DeviceStatusType × Hal D σ :=
  match (drivers pdev).pfclose with
  | some pfclose =>
      let (rt, world) := pfclose h.world
      (rt, { h with world := world })
  | none => (.enosys, h)

def apiDeviceClose : Option D → DeviceStatusType × Hal D σ
  | none => (.enull, h)
  | some pdev =>
      let (rt, h) := h.callClose drivers pdev
      if rt = .ok ∨ rt = .enosys then (rt, h.openFlagSet pdev deviceOflagClose) else (rt, h)

def apiDeviceControl (pdev : Option D) (cmd : BitVec 8) (args : ℤ) : DeviceStatusType × Hal D σ :=
  match pdev with
  | none => (.enull, h)
  | some pdev =>
      let flag := h.openFlag pdev
      if cmd = deviceIocBlock then (.ok, h.openFlagSet pdev (flag &&& ~~~deviceFlagNonblock))
      else if cmd = deviceIocNonblock then (.ok, h.openFlagSet pdev (flag ||| deviceFlagNonblock))
      else
        match (drivers pdev).pfcontrol with
        | some pfcontrol =>
            let (rt, world) := pfcontrol h.world cmd args
            (rt, { h with world := world })
        | none => (.enosys, h)

def withDevices (devices : List D) : Hal D σ := { h with deviceList := devices }

/-- The calls on a list of devices, the latest registered first. -/
def manage (h : Hal D σ) : ManagerAction D → Hal D σ
  | .register (some pdev) => h.withDevices (pdev :: h.deviceList)
  | .register none => h
  | .unregister (some pdev) => h.withDevices (h.deviceList.erase pdev)
  | .unregister none => h
  | .initAll => (h.apiDeviceInitAll (driverInfo drivers)).2
  | .init pdev => (h.apiDeviceInit (driverInfo drivers) pdev).2
  | .open pdev oflag => (h.apiDeviceOpen (driverInfo drivers) pdev oflag).2
  | .close pdev => (h.apiDeviceClose drivers pdev).2
  | .control pdev cmd args => (h.apiDeviceControl drivers pdev cmd args).2

/-- A device is registered when it is not on the list, and unregistered when it is. -/
def RegistryAllowed (h : Hal D σ) : ManagerAction D → Prop
  | .register pdev => ∀ device ∈ pdev, device ∉ h.deviceList
  | .unregister pdev => ∀ device ∈ pdev, device ∈ h.deviceList
  | _ => True

instance decidableRegistryAllowed (h : Hal D σ) : DecidablePred h.RegistryAllowed
  | .register pdev => inferInstanceAs (Decidable (∀ device ∈ pdev, device ∉ h.deviceList))
  | .unregister pdev => inferInstanceAs (Decidable (∀ device ∈ pdev, device ∈ h.deviceList))
  | .initAll | .init _ | .open _ _ | .close _ | .control _ _ _ => inferInstanceAs (Decidable True)

end Hal

/-! ### The manager on the linked list -/

/-- The head of `s_DeviceList`, and the node in each device. -/
inductive DeviceNode (D : Type*) where
  | deviceList
  | device (pdev : D)
  deriving DecidableEq

/-- The links of the devices, and their flag words.  The devices on the list are read off the links;
`hal.deviceList` is not used. -/
structure DeviceManager (D σ : Type*) where
  links : Links (DeviceNode D)
  hal : Hal D σ

namespace DeviceManager

variable (drivers : D → DeviceDriver σ) (m : DeviceManager D σ)

/-- After `API_DeviceManageInit`; the links of the devices hold anything. -/
def construct (links : Links (DeviceNode D)) (world : World σ) : DeviceManager D σ where
  links := listInit links .deviceList
  hal := .construct [] world

def apiDeviceRegister : Option D → Bool × DeviceManager D σ
  | none => (false, m)
  | some pdev => (true, { m with links := listInsertAfter m.links .deviceList (.device pdev) })

def apiDeviceUnregister : Option D → Bool × DeviceManager D σ
  | none => (false, m)
  | some pdev => (true, { m with links := listDel m.links (.device pdev) })

def initDevice (pdev : D) : DeviceManager D σ :=
  { m with hal := (m.hal.deviceInit (driverInfo drivers) pdev).2 }

/-- The body of the loop of `API_DeviceInitAll`; the head of the list is not in a device. -/
def initNode : DeviceNode D → DeviceManager D σ → Option (DeviceManager D σ)
  | .deviceList, _ => none
  | .device pdev, m => some (m.initDevice drivers pdev)

/-- `none` when the loop is still running after `fuel` turns. -/
def apiDeviceInitAll (fuel : ℕ) : Option (DeviceManager D σ) :=
  forEach DeviceManager.links .deviceList (initNode drivers) fuel m

/-- The loop of `API_DeviceFind`; `some none` is the null pointer. -/
def findFrom (name : ℕ → BitVec 8) : ℕ → DeviceNode D → Option (Option D)
  | 0, _ => none
  | _ + 1, .deviceList => some none
  | fuel + 1, .device pdev =>
      if strncmp deviceNameMax (drivers pdev).name name = 0 then some (some pdev)
      else findFrom name fuel (m.links.next (.device pdev))

def apiDeviceFind (fuel : ℕ) (name : ℕ → BitVec 8) : Option (Option D) :=
  m.findFrom drivers name fuel (m.links.next .deviceList)

variable [Fintype D]

/-- A call; the loop of `API_DeviceInitAll` makes a turn for each device and one for the head. -/
def step (m : DeviceManager D σ) : ManagerAction D → DeviceManager D σ
  | .register pdev => (m.apiDeviceRegister pdev).2
  | .unregister pdev => (m.apiDeviceUnregister pdev).2
  | .initAll => (m.apiDeviceInitAll drivers (Fintype.card D + 1)).getD m
  | .init pdev => { m with hal := (m.hal.apiDeviceInit (driverInfo drivers) pdev).2 }
  | .open pdev oflag => { m with hal := (m.hal.apiDeviceOpen (driverInfo drivers) pdev oflag).2 }
  | .close pdev => { m with hal := (m.hal.apiDeviceClose drivers pdev).2 }
  | .control pdev cmd args => { m with hal := (m.hal.apiDeviceControl drivers pdev cmd args).2 }

end DeviceManager

/-! ### The linked list and the plain one -/

namespace Hal

section

variable (info : D → DeviceAbstractInfo σ) (h : Hal D σ) (devices : List D)

/-- A result with other devices on the list. -/
def onDevices {α : Type*} (result : α × Hal D σ) : α × Hal D σ :=
  (result.1, result.2.withDevices devices)

theorem callInit_withDevices (pdev : D) (init : World σ → DeviceStatusType × World σ) :
    (h.withDevices devices).callInit pdev init = onDevices devices (h.callInit pdev init) := by
  simp only [callInit]
  rw [apply_ite (onDevices devices)]
  rfl

theorem deviceInit_withDevices (pdev : D) :
    (h.withDevices devices).deviceInit info pdev = onDevices devices (h.deviceInit info pdev) := by
  unfold deviceInit
  cases (info pdev).pfinit with
  | none => rfl
  | some init =>
      simp only [callInit_withDevices]
      rw [apply_ite (onDevices devices)]
      rfl

theorem apiDeviceInit_withDevices (pdev : Option D) :
    (h.withDevices devices).apiDeviceInit info pdev =
      onDevices devices (h.apiDeviceInit info pdev) := by
  cases pdev with
  | none => rfl
  | some pdev => exact deviceInit_withDevices info h devices pdev

theorem openInit_withDevices (pdev : D) :
    (h.withDevices devices).openInit info pdev = (h.openInit info pdev).withDevices devices := by
  unfold openInit
  cases (info pdev).pfinit with
  | none =>
      simp only
      rw [apply_ite (withDevices · devices)]
      rfl
  | some init =>
      simp only [callInit_withDevices]
      rw [apply_ite (withDevices · devices)]
      rfl

omit [DecidableEq D] in
theorem callOpen_withDevices (pdev : D) (oflag : BitVec 16) :
    (h.withDevices devices).callOpen info pdev oflag =
      onDevices devices (h.callOpen info pdev oflag) := by
  unfold callOpen
  cases (info pdev).pfopen <;> rfl

theorem apiDeviceOpen_withDevices (pdev : Option D) (oflag : BitVec 16) :
    (h.withDevices devices).apiDeviceOpen info pdev oflag =
      onDevices devices (h.apiDeviceOpen info pdev oflag) := by
  cases pdev with
  | none => rfl
  | some pdev =>
      simp only [apiDeviceOpen, openInit_withDevices, callOpen_withDevices]
      rw [apply_ite (onDevices devices), apply_ite (onDevices devices)]
      rfl

end

variable (drivers : D → DeviceDriver σ) (h : Hal D σ) (devices : List D)

omit [DecidableEq D] in
theorem callClose_withDevices (pdev : D) :
    (h.withDevices devices).callClose drivers pdev =
      onDevices devices (h.callClose drivers pdev) := by
  unfold callClose
  cases (drivers pdev).pfclose <;> rfl

theorem apiDeviceClose_withDevices (pdev : Option D) :
    (h.withDevices devices).apiDeviceClose drivers pdev =
      onDevices devices (h.apiDeviceClose drivers pdev) := by
  cases pdev with
  | none => rfl
  | some pdev =>
      simp only [apiDeviceClose, callClose_withDevices]
      rw [apply_ite (onDevices devices)]
      rfl

theorem apiDeviceControl_withDevices (pdev : Option D) (cmd : BitVec 8) (args : ℤ) :
    (h.withDevices devices).apiDeviceControl drivers pdev cmd args =
      onDevices devices (h.apiDeviceControl drivers pdev cmd args) := by
  cases pdev with
  | none => rfl
  | some pdev =>
      simp only [apiDeviceControl]
      rw [apply_ite (onDevices devices), apply_ite (onDevices devices)]
      cases (drivers pdev).pfcontrol <;> rfl

end Hal

namespace DeviceManager

open Hal

variable {drivers : D → DeviceDriver σ} {m : DeviceManager D σ} {h : Hal D σ} {devices : List D}
  {name : ℕ → BitVec 8} {fuel : ℕ}

/-- The links of the manager are those of the list of devices, and the rest is the same. -/
structure Follows (m : DeviceManager D σ) (h : Hal D σ) : Prop where
  ring : IsRing m.links .deviceList (h.deviceList.map .device)
  hal : m.hal = h.withDevices []

omit [DecidableEq D] in
theorem Follows.length_lt [Fintype D] (hfollows : m.Follows h) :
    h.deviceList.length < Fintype.card D + 1 :=
  Nat.lt_succ_of_le (List.Nodup.of_map _ hfollows.ring.nodes_nodup).length_le_card

theorem follows_construct (links : Links (DeviceNode D)) (world : World σ) :
    (construct links world).Follows (.construct [] world) where
  ring := IsRing.reset links .deviceList
  hal := rfl

omit [DecidableEq D] in
/-- A call that does not look at the list. -/
theorem Follows.call {α : Type*} (hfollows : m.Follows h) (call : Hal D σ → α × Hal D σ)
    (hcall : ∀ h devices, call (h.withDevices devices) = onDevices devices (call h)) :
    { m with hal := (call m.hal).2 }.Follows (call h).2 where
  ring := by
    have hsame : (call h).2.deviceList = h.deviceList :=
      congrArg (fun result ↦ result.2.deviceList) (hcall h h.deviceList)
    rw [hsame]
    exact hfollows.ring
  hal := by
    show (call m.hal).2 = (call h).2.withDevices []
    rw [hfollows.hal, hcall]
    rfl

theorem Follows.register (hfollows : m.Follows h) {pdev : D} (hfresh : pdev ∉ h.deviceList) :
    (m.apiDeviceRegister (some pdev)).2.Follows (h.withDevices (pdev :: h.deviceList)) where
  ring := by
    have hnode : DeviceNode.device pdev ∉ DeviceNode.deviceList :: h.deviceList.map .device := by
      simpa using hfresh
    exact hfollows.ring.insertAfter_head hnode
  hal := hfollows.hal

theorem Follows.unregister (hfollows : m.Follows h) {pdev : D} (hin : pdev ∈ h.deviceList) :
    (m.apiDeviceUnregister (some pdev)).2.Follows
      (h.withDevices (h.deviceList.erase pdev)) where
  ring := by
    obtain ⟨before, after, -, hsplit, herase⟩ := List.exists_erase_eq hin
    have hring := hfollows.ring
    rw [hsplit, List.map_append, List.map_cons] at hring
    show IsRing (listDel m.links (.device pdev)) .deviceList
      ((h.deviceList.erase pdev).map .device)
    rw [herase, List.map_append, listDel_eq]
    exact hring.unlink_node
  hal := hfollows.hal

theorem Follows.foldl_initDevice (hfollows : m.Follows h) :
    (devices.foldl (fun m pdev ↦ m.initDevice drivers pdev) m).Follows
      (devices.foldl (fun h pdev ↦ (h.deviceInit (driverInfo drivers) pdev).2) h) := by
  induction devices generalizing m h with
  | nil => exact hfollows
  | cons pdev devices ih =>
      exact ih (hfollows.call (·.deviceInit (driverInfo drivers) pdev) fun h devices ↦
        deviceInit_withDevices (driverInfo drivers) h devices pdev)

/-- The loop of `API_DeviceInitAll` goes over the devices on the list, each once. -/
theorem Follows.initAll (drivers : D → DeviceDriver σ) (hfollows : m.Follows h)
    (hfuel : h.deviceList.length < fuel) :
    ∃ after, m.apiDeviceInitAll drivers fuel = some after ∧
      after.Follows (h.apiDeviceInitAll (driverInfo drivers)).2 := by
  let afterNode : DeviceNode D → DeviceManager D σ → DeviceManager D σ := fun node m ↦
    (initNode drivers node m).getD m
  have hloop : m.apiDeviceInitAll drivers fuel =
      some ((h.deviceList.map DeviceNode.device).foldl (fun m node ↦ afterNode node m) m) := by
    apply hfollows.ring.forEach_eq
    case hbody =>
      intro node hnode m
      obtain ⟨pdev, -, rfl⟩ := List.mem_map.mp hnode
      rfl
    case hnext =>
      intro node hnode other _ m
      obtain ⟨pdev, -, rfl⟩ := List.mem_map.mp hnode
      rfl
    case hfuel => simpa using hfuel
  rw [List.foldl_map] at hloop
  exact ⟨_, hloop, hfollows.foldl_initDevice⟩

omit [DecidableEq D] in
/-- The search ends at the first device on the list with the name. -/
theorem findFrom_eq {pos : DeviceNode D}
    (htrail : Trail m.links pos (devices.map .device) .deviceList)
    (hfuel : devices.length < fuel) :
    m.findFrom drivers name fuel pos =
      some (devices.find? fun pdev ↦
        textUpTo deviceNameMax (drivers pdev).name = textUpTo deviceNameMax name) := by
  induction devices generalizing pos fuel with
  | nil =>
      obtain ⟨fuel, rfl⟩ := Nat.exists_eq_succ_of_ne_zero (Nat.ne_zero_of_lt hfuel)
      rw [show pos = .deviceList from htrail]
      rfl
  | cons pdev devices ih =>
      obtain ⟨fuel, rfl⟩ := Nat.exists_eq_succ_of_ne_zero (Nat.ne_zero_of_lt hfuel)
      rw [htrail.1, findFrom, List.find?_cons]
      by_cases hname : textUpTo deviceNameMax (drivers pdev).name = textUpTo deviceNameMax name
      · rw [if_pos ((strncmp_eq_zero_iff _ _ _).mpr hname)]
        simp only [hname, decide_true]
      · rw [if_neg (mt (strncmp_eq_zero_iff _ _ _).mp hname),
          ih htrail.2 (Nat.lt_of_succ_lt_succ hfuel)]
        simp only [hname, decide_false]

variable [Fintype D]

theorem Follows.step (hfollows : m.Follows h) {action : ManagerAction D}
    (hallowed : h.RegistryAllowed action) :
    (m.step drivers action).Follows (h.manage drivers action) := by
  cases action with
  | register pdev =>
      cases pdev with
      | none => exact hfollows
      | some pdev => exact hfollows.register (hallowed pdev rfl)
  | unregister pdev =>
      cases pdev with
      | none => exact hfollows
      | some pdev => exact hfollows.unregister (hallowed pdev rfl)
  | initAll =>
      obtain ⟨after, hloop, hafter⟩ := hfollows.initAll drivers hfollows.length_lt
      rw [DeviceManager.step, hloop]
      exact hafter
  | init pdev =>
      exact hfollows.call (·.apiDeviceInit (driverInfo drivers) pdev) fun h devices ↦
        apiDeviceInit_withDevices (driverInfo drivers) h devices pdev
  | «open» pdev oflag =>
      exact hfollows.call (·.apiDeviceOpen (driverInfo drivers) pdev oflag) fun h devices ↦
        apiDeviceOpen_withDevices (driverInfo drivers) h devices pdev oflag
  | close pdev =>
      exact hfollows.call (·.apiDeviceClose drivers pdev) fun h devices ↦
        apiDeviceClose_withDevices drivers h devices pdev
  | control pdev cmd args =>
      exact hfollows.call (·.apiDeviceControl drivers pdev cmd args) fun h devices ↦
        apiDeviceControl_withDevices drivers h devices pdev cmd args

/-- In a run the manager behaves as one on a plain list of devices, the latest registered first: a
device is found by the first characters of its name, and initialising all of them comes to its
end. -/
theorem follows_devices (drivers : D → DeviceDriver σ) (links : Links (DeviceNode D))
    (world : World σ) {actions : List (ManagerAction D)}
    (hallowed : AllSteps (Hal.manage drivers) RegistryAllowed (.construct [] world) actions) :
    let m := run (step drivers) (construct links world) actions
    let h := run (Hal.manage drivers) (.construct [] world) actions
    m.Follows h ∧ (m.apiDeviceInitAll drivers (Fintype.card D + 1)).isSome ∧
      ∀ name, m.apiDeviceFind drivers (Fintype.card D + 1) name =
        some (h.deviceList.find? fun pdev ↦
          textUpTo deviceNameMax (drivers pdev).name = textUpTo deviceNameMax name) := by
  intro m h
  have hfollows : m.Follows h :=
    run_simulates (fun _ _ _ hfollows hallowed ↦ hfollows.step hallowed)
      (follows_construct links world) hallowed
  obtain ⟨after, hloop, -⟩ := hfollows.initAll drivers hfollows.length_lt
  refine ⟨hfollows, Option.isSome_of_eq_some hloop, fun name ↦ ?_⟩
  exact findFrom_eq hfollows.ring.path.trail hfollows.length_lt

/-- A standalone pump behind a probe, the names differing in the ninth character. -/
def pumpAndProbe : Bool → DeviceDriver Unit
  | true =>
      { workingInfo () with
        name := fun i ↦ if i = 8 then 0 else 0x61
        flag := 0x00b
        pfclose := some fun world ↦ (.ok, world)
        pfcontrol := none }
  | false =>
      { workingInfo () with
        name := fun i ↦ if i = 9 then 0 else 0x61
        pfclose := none
        pfcontrol := none }

def pumpAndProbeWorld : World Unit where
  ram := fun _ ↦ 0
  writes := []
  errorInfo := .ok
  rest := ()

/-- Once the device registered last has left, the other one is found under its name. -/
theorem follows_devices_pumpAndProbe :
    let m := run (step pumpAndProbe)
      (construct { next := fun node ↦ node, prev := fun node ↦ node } pumpAndProbeWorld)
      [.register (some true), .register (some false), .initAll, .unregister (some false)]
    m.apiDeviceFind pumpAndProbe 3 (pumpAndProbe false).name = some (some true) :=
  (follows_devices pumpAndProbe { next := fun node ↦ node, prev := fun node ↦ node }
    pumpAndProbeWorld (by decide)).2.2 (pumpAndProbe false).name

end DeviceManager

/-! ### Standalone devices -/

/-- What opening and closing return when the flag word is written. -/
def Succeeds (rt : DeviceStatusType) : Prop := rt = .ok ∨ rt = .enosys

instance decidableSucceeds : DecidablePred Succeeds := fun rt ↦
  inferInstanceAs (Decidable (rt = .ok ∨ rt = .enosys))

namespace Hal

variable {drivers : D → DeviceDriver σ} {pdev : D}

/-- The bit `DEVICE_OFLAG_OPEN` of a device. -/
def openBit (h : Hal D σ) (pdev : D) : Bool := (h.openFlag pdev).getLsbD 3

omit [DecidableEq D] in
theorem openBit_eq_true_iff (h : Hal D σ) (pdev : D) :
    h.openBit pdev = true ↔ h.openFlag pdev &&& deviceOflagOpen ≠ 0 := by
  rw [show deviceOflagOpen = BitVec.twoPow 16 3 from rfl, BitVec.and_twoPow, openBit]
  cases (h.openFlag pdev).getLsbD 3 <;> decide

theorem openBit_openFlagSet (h : Hal D σ) (other : D) (flag : BitVec 16) :
    (h.openFlagSet other flag).openBit pdev =
      if pdev = other then flag.getLsbD 3 else h.openBit pdev := by
  simp only [openBit, openFlagSet, Function.update_apply, apply_ite (BitVec.getLsbD · 3)]

/-- A flag word that differs from the old one in other bits only. -/
theorem openBit_openFlagSet_of_eq (h : Hal D σ) {other : D} {flag : BitVec 16}
    (hflag : flag.getLsbD 3 = h.openBit other) :
    (h.openFlagSet other flag).openBit pdev = h.openBit pdev := by
  rw [openBit_openFlagSet]
  split
  · next heq => rw [heq, hflag]
  · rfl

theorem openBit_callInit (h : Hal D σ) (other : D)
    (init : World σ → DeviceStatusType × World σ) :
    (h.callInit other init).2.openBit pdev = h.openBit pdev := by
  simp only [callInit]
  split
  · rw [openBit_openFlagSet_of_eq]
    · rfl
    · simp [openBit, deviceFlagActivated]
  · rfl

theorem openBit_deviceInit (h : Hal D σ) (info : D → DeviceAbstractInfo σ) (other : D) :
    (h.deviceInit info other).2.openBit pdev = h.openBit pdev := by
  unfold deviceInit
  split
  · split
    · exact h.openBit_callInit other _
    · rfl
  · rfl

theorem openBit_openInit (h : Hal D σ) (info : D → DeviceAbstractInfo σ) (other : D) :
    (h.openInit info other).openBit pdev = h.openBit pdev := by
  unfold openInit
  split
  · split
    · exact h.openBit_callInit other _
    · exact h.openBit_openFlagSet_of_eq (by simp [openBit, deviceFlagActivated])
  · rfl

/-- Opening sets the bit if it succeeds. -/
theorem openBit_apiDeviceOpen (h : Hal D σ) (info : D → DeviceAbstractInfo σ) (other : Option D)
    (oflag : BitVec 16) :
    (h.apiDeviceOpen info other oflag).2.openBit pdev =
      if other = some pdev ∧ Succeeds (h.apiDeviceOpen info other oflag).1 then true
      else h.openBit pdev := by
  cases other with
  | none => simp [apiDeviceOpen]
  | some other =>
      have hcall : ((h.openInit info other).callOpen info other oflag).2.openBit pdev =
          h.openBit pdev := by
        rw [← h.openBit_openInit info other]
        unfold callOpen
        split <;> rfl
      simp only [apiDeviceOpen, Option.some.injEq]
      split
      · have hbusy : ¬ Succeeds .ebusy := by decide
        simp only [openBit_openInit, hbusy, and_false, if_false]
      split
      · next hok =>
        have hset : (oflag ||| deviceOflagOpen).getLsbD 3 = true := by simp [deviceOflagOpen]
        rw [openBit_openFlagSet, hset, hcall]
        exact if_congr ⟨fun heq ↦ ⟨heq.symm, hok⟩, fun hopened ↦ hopened.1.symm⟩ rfl rfl
      · next hfail =>
        rw [hcall]
        simp only [Succeeds, hfail, and_false, if_false]

/-- Closing clears the bit if it succeeds. -/
theorem openBit_apiDeviceClose (h : Hal D σ) (other : Option D) :
    (h.apiDeviceClose drivers other).2.openBit pdev =
      if other = some pdev ∧ Succeeds (h.apiDeviceClose drivers other).1 then false
      else h.openBit pdev := by
  cases other with
  | none => simp [apiDeviceClose]
  | some other =>
      have hcall : (h.callClose drivers other).2.openBit pdev = h.openBit pdev := by
        unfold callClose
        split <;> rfl
      simp only [apiDeviceClose, Option.some.injEq]
      split
      · next hok =>
        rw [openBit_openFlagSet, hcall]
        exact if_congr ⟨fun heq ↦ ⟨heq.symm, hok⟩, fun hclosed ↦ hclosed.1.symm⟩ rfl rfl
      · next hfail =>
        rw [hcall]
        simp only [Succeeds, hfail, and_false, if_false]

theorem openBit_apiDeviceControl (h : Hal D σ) (other : Option D) (cmd : BitVec 8) (args : ℤ) :
    (h.apiDeviceControl drivers other cmd args).2.openBit pdev = h.openBit pdev := by
  cases other with
  | none => rfl
  | some other =>
      simp only [apiDeviceControl]
      split
      · exact h.openBit_openFlagSet_of_eq (by simp [openBit, deviceFlagNonblock])
      split
      · exact h.openBit_openFlagSet_of_eq (by simp [openBit, deviceFlagNonblock])
      split <;> rfl

/-- A standalone device is refused while it is open, without a call of the driver's open
function. -/
theorem apiDeviceOpen_standalone (h : Hal D σ) (info : D → DeviceAbstractInfo σ)
    (hstandalone : (info pdev).flag &&& deviceFlagStandalone ≠ 0) (oflag : BitVec 16) :
    (h.openBit pdev = true →
        h.apiDeviceOpen info (some pdev) oflag = (.ebusy, h.openInit info pdev)) ∧
      (h.openBit pdev = false → (h.apiDeviceOpen info (some pdev) oflag).1 =
        ((h.openInit info pdev).callOpen info pdev oflag).1) := by
  have hiff := (h.openInit info pdev).openBit_eq_true_iff pdev
  rw [openBit_openInit] at hiff
  simp only [apiDeviceOpen]
  constructor
  · intro hopen
    exact if_pos ⟨hstandalone, hiff.mp hopen⟩
  · intro hclosed
    rw [if_neg fun hbusy ↦ Bool.false_ne_true (hclosed.symm.trans (hiff.mpr hbusy.2))]
    split <;> rfl

end Hal

namespace DeviceManager

variable [Fintype D] (drivers : D → DeviceDriver σ)

/-- A call, with a record of whether the last successful opening or closing of a device was an
opening. -/
def watch (pdev : D) (watched : Bool × DeviceManager D σ) (action : ManagerAction D) :
    Bool × DeviceManager D σ :=
  let (held, m) := watched
  let held := match action with
    | .open other oflag =>
        if other = some pdev ∧ Succeeds (m.hal.apiDeviceOpen (driverInfo drivers) other oflag).1
        then true else held
    | .close other =>
        if other = some pdev ∧ Succeeds (m.hal.apiDeviceClose drivers other).1 then false else held
    | _ => held
  (held, m.step drivers action)

/-- The bit says what the record says. -/
def Watched (pdev : D) (watched : Bool × DeviceManager D σ) : Prop :=
  watched.2.hal.openBit pdev = watched.1

variable {drivers} {pdev : D}

theorem Watched.step {watched : Bool × DeviceManager D σ} {action : ManagerAction D}
    (hwatched : Watched pdev watched) : Watched pdev (watch drivers pdev watched action) := by
  obtain ⟨held, m⟩ := watched
  have hbit : m.hal.openBit pdev = held := hwatched
  show (m.step drivers action).hal.openBit pdev = _
  cases action with
  | register other => cases other <;> exact hbit
  | unregister other => cases other <;> exact hbit
  | initAll =>
      -- whatever nodes the loop meets, a turn initialises a device
      show ((m.apiDeviceInitAll drivers (Fintype.card D + 1)).getD m).hal.openBit pdev = held
      cases hloop : m.apiDeviceInitAll drivers (Fintype.card D + 1) with
      | none => exact hbit
      | some after =>
          refine forEachFrom_keeps (fun m ↦ Watched pdev (held, m)) ?_ hloop hwatched
          intro node m after hafter hbit
          cases node with
          | deviceList => exact absurd hafter (Option.some_ne_none _).symm
          | device other =>
              rw [← Option.some.inj hafter]
              exact (m.hal.openBit_deviceInit _ other).trans hbit
  | init other =>
      cases other with
      | none => exact hbit
      | some other => exact (m.hal.openBit_deviceInit _ other).trans hbit
  | «open» other oflag =>
      exact (m.hal.openBit_apiDeviceOpen _ other oflag).trans (by rw [hbit]; rfl)
  | close other => exact (m.hal.openBit_apiDeviceClose other).trans (by rw [hbit]; rfl)
  | control other cmd args => exact (m.hal.openBit_apiDeviceControl other cmd args).trans hbit

/-- In every run a standalone device that was opened is refused until it is closed; then the result
is that of its driver. -/
theorem open_standalone (drivers : D → DeviceDriver σ) {pdev : D}
    (hstandalone : (drivers pdev).flag &&& deviceFlagStandalone ≠ 0)
    (links : Links (DeviceNode D)) (world : World σ) (actions : List (ManagerAction D))
    (oflag : BitVec 16) :
    let (held, m) := run (watch drivers pdev) (false, construct links world) actions
    (held = true → m.hal.apiDeviceOpen (driverInfo drivers) (some pdev) oflag =
        (.ebusy, m.hal.openInit (driverInfo drivers) pdev)) ∧
      (held = false → (m.hal.apiDeviceOpen (driverInfo drivers) (some pdev) oflag).1 =
        ((m.hal.openInit (driverInfo drivers) pdev).callOpen (driverInfo drivers) pdev
          oflag).1) := by
  have hclosed : Watched pdev (false, construct links world) := BitVec.getLsbD_zero
  have hwatched : Watched pdev (run (watch drivers pdev) (false, construct links world) actions) :=
    run_of_step (Watched pdev) (fun _ _ hwatched ↦ hwatched.step) hclosed
  generalize run (watch drivers pdev) (false, construct links world) actions = watched at hwatched ⊢
  obtain ⟨held, m⟩ := watched
  have hbit : m.hal.openBit pdev = held := hwatched
  rw [← hbit]
  exact m.hal.apiDeviceOpen_standalone (driverInfo drivers) hstandalone oflag

/-- Neither the control function nor initialising again lets the open pump be opened. -/
theorem open_standalone_pump :
    let m := run (step pumpAndProbe)
      (construct { next := fun node ↦ node, prev := fun node ↦ node } pumpAndProbeWorld)
      [.open (some true) 0x003, .control (some true) deviceIocNonblock 0, .initAll]
    (m.hal.apiDeviceOpen (driverInfo pumpAndProbe) (some true) 0x003).1 = .ebusy :=
  have hstandalone : (pumpAndProbe true).flag &&& deviceFlagStandalone ≠ 0 := by decide
  have hopen := open_standalone pumpAndProbe hstandalone
    { next := fun node ↦ node, prev := fun node ↦ node } pumpAndProbeWorld
    [.open (some true) 0x003, .control (some true) deviceIocNonblock 0, .initAll] 0x003
  congrArg Prod.fst (hopen.1 rfl)

end DeviceManager

end ProjectSensor.Bsp
