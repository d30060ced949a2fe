import ProjectSensor.Bsp.Hal

/-!
# Devices that answer

`device::read` asks the driver and counts the timeouts in a row in one byte; a device with more than
five of them is offline.  Whether a failed read was a timeout is told by the error code that the
driver has left, and reading the code clears it.
-/

open ProjectSensor.Library ProjectSensor.Library.ByteMemory ProjectSensor.Library.Transition
open ProjectSensor.Bsp

namespace ProjectSensor.App

inductive ProcPhase where
  | prepare
  | done
  deriving DecidableEq

inductive ProcCmdStat where
  | ok
  | err
  | capture
  deriving DecidableEq

/-- The fields of `device_buffer` for reading; `none` is `NULL`. -/
structure DeviceBuffer where
  pbufRecv : Option ℤ
  pbufRecvActual : Option ℤ
  bufRecvSize : BitVec 16
  recvActualSize : BitVec 16

/-- What `device::read` sees of a call of the driver. -/
inductive ReadResult where
  | success
  | timeout
  | otherError
  deriving DecidableEq

variable {σ : Type*}

/-- `device`: the driver, what the class makes of `CMD_READ` in `process_command`, the counter, and
a record of the results seen, the latest first. -/
structure Device (σ : Type*) where
  pdevice : Option (DeviceAbstractInfo σ)
  processCommand : ProcPhase → DeviceBuffer → World σ → ProcCmdStat × DeviceBuffer × World σ
  offlineCnt : BitVec 8
  results : List ReadResult

/-- `device::process_command`. -/
def deviceProcessCommand (_ : ProcPhase) (buffer : DeviceBuffer) (w : World σ) :
    ProcCmdStat × DeviceBuffer × World σ := (.ok, buffer, w)

namespace Device

variable (d : Device σ)

/-- A device before it is opened. -/
def construct
    (processCommand : ProcPhase → DeviceBuffer → World σ → ProcCmdStat × DeviceBuffer × World σ) :
    Device σ where
  pdevice := none
  processCommand := processCommand
  offlineCnt := 0
  results := []

def deviceStatGet : BitVec 8 := if 5 < d.offlineCnt.toNat then 0 else 1

/-- The counter after a result. -/
def count (cnt : BitVec 8) : ReadResult → BitVec 8
  | .timeout => cnt + 1
  | _ => 0

def note (result : ReadResult) : Device σ :=
  { d with offlineCnt := count d.offlineCnt result, results := result :: d.results }

/-- The end of `read` after the driver has answered: the class has its say, and what it left
elsewhere is copied to the caller's buffer. -/
def readDone (w : World σ) (buffer : ℤ) (t : DeviceBuffer) : BitVec 16 × World σ :=
  let (stat, t, w) := d.processCommand .done t w
  if stat = .err then (-1, w.apiDeviceErrorInfoSet .eparamInvalid)
  else
    match t.pbufRecvActual with
    | some src =>
        if buffer ≠ src then
          (t.recvActualSize, w.copy buffer src (t.recvActualSize.signExtend 32).toNat)
        else (t.recvActualSize, w)
    -- copying from `NULL` is undefined; no class leaves it there
    | none => (t.recvActualSize, w)

/-- The call of the driver, and the account of its result. -/
def readDriver (w : World σ) (pos : BitVec 16) (buffer : ℤ) (t : DeviceBuffer) :
    BitVec 16 × Device σ × World σ :=
  let (actualSize, w) := apiDeviceRead d.pdevice w pos t.pbufRecv t.bufRecvSize
  if actualSize = -1 then
    let (errorInfo, w) := w.apiDeviceErrorInfoGet
    (-1, d.note (if errorInfo = .etimeout then .timeout else .otherError), w)
  else
    let d := d.note .success
    let t := { t with pbufRecvActual := t.pbufRecv, recvActualSize := actualSize }
    let (rt, w) := d.readDone w buffer t
    (rt, d, w)

/-- `device::read`. -/
def read (w : World σ) (pos : BitVec 16) (buffer : Option ℤ) (size : BitVec 16) :
    BitVec 16 × Device σ × World σ :=
  match d.pdevice, buffer with
  | some _, some buffer =>
      if size = 0 then (0, d, w)
      else
        let t : DeviceBuffer :=
          { pbufRecv := some buffer, pbufRecvActual := none, bufRecvSize := size,
            recvActualSize := 0 }
        let (stat, t, w) := d.processCommand .prepare t w
        if stat = .err then (-1, d, w.apiDeviceErrorInfoSet .eparamInvalid)
        else if t.pbufRecv = none then (-1, d, w.apiDeviceErrorInfoSet .eparamInvalid)
        else d.readDriver w pos buffer t
  | _, _ => (-1, d, w.apiDeviceErrorInfoSet .eparamInvalid)

/-- How many of the latest results are timeouts in a row. -/
def timeoutsInRow : ℕ := (d.results.takeWhile (· = .timeout)).length

/-- What a read does to the device: nothing, or the account of one result. -/
theorem read_device (w : World σ) (pos : BitVec 16) (buffer : Option ℤ) (size : BitVec 16) :
    (d.read w pos buffer size).2.1 = d ∨
      ∃ result, (d.read w pos buffer size).2.1 = d.note result := by
  have hdriver : ∀ w buffer t, ∃ result, (d.readDriver w pos buffer t).2.1 = d.note result := by
    intro w buffer t
    unfold readDriver
    simp only
    split
    · exact ⟨_, rfl⟩
    · exact ⟨_, rfl⟩
  unfold read
  split
  · simp only
    split
    · exact .inl rfl
    split
    · exact .inl rfl
    split
    · exact .inl rfl
    · exact .inr (hdriver _ _ _)
  · exact .inl rfl

/-- The counter is the number of timeouts in a row, as far as one byte goes. -/
def Counts : Prop := d.offlineCnt = BitVec.ofNat 8 d.timeoutsInRow

variable {d}

theorem Counts.note (h : d.Counts) (result : ReadResult) : (d.note result).Counts := by
  unfold Counts at h ⊢
  cases result with
  | success => rfl
  | otherError => rfl
  | timeout =>
      have hrow : (d.note .timeout).timeoutsInRow = d.timeoutsInRow + 1 := by
        simp [Device.note, timeoutsInRow]
      rw [hrow, BitVec.ofNat_add, ← h]
      rfl

theorem Counts.read (h : d.Counts) (w : World σ) (pos : BitVec 16) (buffer : Option ℤ)
    (size : BitVec 16) : (d.read w pos buffer size).2.1.Counts := by
  rcases d.read_device w pos buffer size with hsame | ⟨result, hnote⟩
  · rw [hsame]
    exact h
  · rw [hnote]
    exact h.note result

theorem Counts.deviceStatGet_eq_zero_iff (h : d.Counts) :
    d.deviceStatGet = 0 ↔ 5 < d.timeoutsInRow % 256 := by
  have hmod : d.offlineCnt.toNat = d.timeoutsInRow % 256 := by
    rw [h, BitVec.toNat_ofNat]
  rw [deviceStatGet, hmod]
  split <;> simp_all

/-- The byte tells more than five timeouts in a row from five and fewer unless it has wrapped. -/
theorem Counts.offline_iff (h : d.Counts) :
    (d.deviceStatGet = 0 ↔ 5 < d.timeoutsInRow) ↔
      (d.timeoutsInRow ≤ 5 ∨ 5 < d.timeoutsInRow % 256) := by
  rw [h.deviceStatGet_eq_zero_iff]
  have hle := Nat.mod_le d.timeoutsInRow 256
  omega

/-! ### Devices that keep to the buffer -/

/-- A call with this buffer and size that keeps to it: it returns -1 or a count of at most `size`,
and writes at most `size` bytes at `buffer`. -/
structure KeepsWithin (w : World σ) (buffer : ℤ) (size : BitVec 16) (rt : BitVec 16)
    (w' : World σ) : Prop where
  result : rt = -1 ∨ 0 ≤ rt.toInt ∧ rt.toInt ≤ size.toNat
  appended : w'.writes = w.writes ++ w'.writesSince w
  inside : ∀ addr ∈ w'.writesSince w, buffer ≤ addr ∧ addr < buffer + size.toNat
  recorded : ∀ addr ∉ w'.writesSince w, w'.ram addr = w.ram addr

theorem keepsWithin_of_same {w w' : World σ} {rt : BitVec 16} (buffer : ℤ) {size : BitVec 16}
    (hresult : rt = -1 ∨ 0 ≤ rt.toInt ∧ rt.toInt ≤ size.toNat) (hram : w'.ram = w.ram)
    (hwrites : w'.writes = w.writes) : KeepsWithin w buffer size rt w' := by
  have hsince : w'.writesSince w = [] := by
    rw [World.writesSince, hwrites, List.drop_length]
  exact ⟨hresult, by rw [hsince, hwrites, List.append_nil], by simp [hsince], by simp [hram]⟩

theorem KeepsWithin.of_same {w w' w'' : World σ} {buffer : ℤ} {size rt : BitVec 16}
    (h : KeepsWithin w buffer size rt w') (hram : w''.ram = w'.ram)
    (hwrites : w''.writes = w'.writes) : KeepsWithin w buffer size rt w'' := by
  have hsince : w''.writesSince w = w'.writesSince w := by
    rw [World.writesSince, World.writesSince, hwrites]
  refine ⟨h.result, ?_, ?_, ?_⟩ <;> rw [hsince]
  · exact hwrites.trans h.appended
  · exact h.inside
  · rw [hram]
    exact h.recorded

/-- A device of the base class keeps to the buffer if its driver does. -/
theorem keepsWithin_read {info : DeviceAbstractInfo σ} (hdriver : d.pdevice = some info)
    (hclass : d.processCommand = deviceProcessCommand) (w : World σ) (pos : BitVec 16) (buffer : ℤ)
    (size : BitVec 16)
    (hread : ∀ pfread, info.pfread = some pfread →
      KeepsWithin w buffer size (pfread w pos buffer size).1 (pfread w pos buffer size).2) :
    KeepsWithin w buffer size (d.read w pos (some buffer) size).1
      (d.read w pos (some buffer) size).2.2 := by
  have hcall : KeepsWithin w buffer size (apiDeviceRead (some info) w pos (some buffer) size).1
      (apiDeviceRead (some info) w pos (some buffer) size).2 := by
    unfold apiDeviceRead
    simp only
    split
    · exact keepsWithin_of_same buffer (.inl rfl) rfl rfl
    split
    · exact hread _ ‹_›
    · exact keepsWithin_of_same buffer (.inl rfl) rfl rfl
  unfold read
  rw [hdriver]
  by_cases hempty : size = 0
  · simp only [hempty, if_true]
    exact keepsWithin_of_same buffer (.inr ⟨le_rfl, le_rfl⟩) rfl rfl
  · simp only [hempty, if_false, hclass, deviceProcessCommand, readDriver, hdriver, reduceCtorEq]
    by_cases hfail : (apiDeviceRead (some info) w pos (some buffer) size).1 = -1
    · rw [if_pos hfail]
      rw [hfail] at hcall
      exact hcall.of_same rfl rfl
    · rw [if_neg hfail]
      simpa [readDone, note, hclass, deviceProcessCommand] using hcall

end Device

/-- A device and the world it is read in. -/
structure DeviceInWorld (σ : Type*) where
  device : Device σ
  world : World σ

/-- Reads, and between them whatever others do; `open` and `close` leave the device with another
driver or with none. -/
inductive DeviceAction (σ : Type*) where
  | read (pos : BitVec 16) (buffer : Option ℤ) (size : BitVec 16)
  | elsewhere (pdevice : Option (DeviceAbstractInfo σ)) (world : World σ)

namespace DeviceInWorld

def step (s : DeviceInWorld σ) : DeviceAction σ → DeviceInWorld σ
  | .read pos buffer size =>
      let (_, device, world) := s.device.read s.world pos buffer size
      ⟨device, world⟩
  | .elsewhere pdevice world => ⟨{ s.device with pdevice := pdevice }, world⟩

theorem counts_step {s : DeviceInWorld σ} (h : s.device.Counts) (action : DeviceAction σ) :
    (s.step action).device.Counts := by
  cases action with
  | read pos buffer size => exact h.read s.world pos buffer size
  | elsewhere pdevice world => exact h

theorem counts_run {s : DeviceInWorld σ} (h : s.device.Counts) (actions : List (DeviceAction σ)) :
    (run step s actions).device.Counts :=
  run_of_step (fun s : DeviceInWorld σ ↦ s.device.Counts) (fun _ action h ↦ counts_step h action) h

theorem counts_construct
    {processCommand : ProcPhase → DeviceBuffer → World σ → ProcCmdStat × DeviceBuffer × World σ}
    {world : World σ} :
    (DeviceInWorld.mk (.construct processCommand) world).device.Counts := rfl

/-- After any reads a device is reported offline as it should be exactly if the timeouts in a row
have not wrapped to five or fewer. -/
theorem offline_iff_run
    (processCommand : ProcPhase → DeviceBuffer → World σ → ProcCmdStat × DeviceBuffer × World σ)
    (world : World σ) (actions : List (DeviceAction σ)) :
    ((run step ⟨.construct processCommand, world⟩ actions).device.deviceStatGet = 0 ↔
        5 < (run step ⟨.construct processCommand, world⟩ actions).device.timeoutsInRow) ↔
      (run step ⟨.construct processCommand, world⟩ actions).device.timeoutsInRow ≤ 5 ∨
        5 < (run step ⟨.construct processCommand, world⟩ actions).device.timeoutsInRow % 256 :=
  (counts_run counts_construct actions).offline_iff

/-- A driver that never gets an answer. -/
def silentInfo : DeviceAbstractInfo Unit where
  flag := 0
  pfinit := none
  pfopen := none
  pfread := some fun w _ _ _ ↦ (-1, w.apiDeviceErrorInfoSet .etimeout)

/-- A device that is opened on it and read again and again. -/
def silentReads (n : ℕ) : List (DeviceAction Unit) :=
  .elsewhere (some silentInfo) { ram := fun _ ↦ 0, writes := [], errorInfo := .ok, rest := () } ::
    List.replicate n (.read 0 (some 0) 1)

/-- Each read of a silent device is one more timeout. -/
theorem step_silent {s : DeviceInWorld Unit} (hdriver : s.device.pdevice = some silentInfo)
    (hclass : s.device.processCommand = deviceProcessCommand) :
    (s.step (.read 0 (some 0) 1)).device = s.device.note .timeout := by
  obtain ⟨⟨pdevice, command, offlineCnt, results⟩, world⟩ := s
  simp only at hdriver hclass
  subst hdriver hclass
  rfl

theorem timeoutsInRow_silent {s : DeviceInWorld Unit}
    (hdriver : s.device.pdevice = some silentInfo)
    (hclass : s.device.processCommand = deviceProcessCommand) (n : ℕ) :
    (run step s (List.replicate n (.read 0 (some 0) 1))).device.timeoutsInRow =
      s.device.timeoutsInRow + n := by
  induction n generalizing s with
  | zero => rfl
  | succ n ih =>
      have hnext := step_silent hdriver hclass
      have hrow : (s.device.note .timeout).timeoutsInRow = s.device.timeoutsInRow + 1 := by
        simp [Device.note, Device.timeoutsInRow]
      rw [List.replicate_succ, run_cons, ih (hnext ▸ hdriver) (hnext ▸ hclass), hnext, hrow]
      omega

/-- After 256 timeouts in a row the device is reported online. -/
theorem online_silent :
    (run step ⟨.construct deviceProcessCommand, ⟨fun _ ↦ 0, [], .ok, ()⟩⟩
        (silentReads 256)).device.timeoutsInRow = 256 ∧
      (run step ⟨.construct deviceProcessCommand, ⟨fun _ ↦ 0, [], .ok, ()⟩⟩
        (silentReads 256)).device.deviceStatGet = 1 := by
  have hcounts : (run step ⟨.construct deviceProcessCommand, ⟨fun _ ↦ 0, [], .ok, ()⟩⟩
      (silentReads 256)).device.Counts := counts_run counts_construct _
  have hrow : (run step ⟨.construct deviceProcessCommand, ⟨fun _ ↦ 0, [], .ok, ()⟩⟩
      (silentReads 256)).device.timeoutsInRow = 256 := by
    rw [silentReads, run_cons, timeoutsInRow_silent rfl rfl]
    rfl
  refine ⟨hrow, ?_⟩
  rw [Device.deviceStatGet, hcounts, hrow]
  rfl

end DeviceInWorld

end ProjectSensor.App
