import ProjectSensor.App.SaveRefinement

/-!
# Parameters stored and parameters in force

From the state `application::init` leaves, whatever is received while the event loop and its saves
go on: when no event is queued or executing, the EEPROM holds the block, and the slave address and
the baud in force are the ones in the block.  The first needs the posts to be kept; the second also
needs the image to have the default settings, as `init` applies its settings before it loads them.
-/

open ProjectSensor.Library ProjectSensor.Library.ByteMemory ProjectSensor.Library.LinkedRing
open ProjectSensor.Library.Transition ProjectSensor.Library.WriteBehind
open ProjectSensor.Service ProjectSensor.Bsp ProjectSensor.Reactor

namespace ProjectSensor.App

/-- When no event is queued or executing, the image of the registers in the EEPROM is the block. -/
def StoredWhenQuiet (app : Application) : Prop :=
  app.Quiet → ∀ info, storageInfoQuery .hold = some info →
    ∀ k < info.len, app.eeprom (info.storageAddr.toNat + k) = app.para k

/-- When no event is queued or executing, the settings in force are those of the block. -/
def InForceWhenQuiet (app : Application) : Prop :=
  app.Quiet → app.device.rtu.modbus.slave = app.para ucLinkAddrAt ∧
    ∃ baud, baudArray[(app.para ucCommBaudAt).toNat]? = some baud ∧ app.baud = some baud

/-- The image in the EEPROM has the settings of the defaults: address 1 and 9600 baud. -/
def DefaultSettings (eeprom : Mem) : Prop :=
  eeprom (storageInfoHold.storageAddr.toNat + ucLinkAddrAt) = 1 ∧
    eeprom (storageInfoHold.storageAddr.toNat + ucCommBaudAt) = 2

instance (eeprom : Mem) : Decidable (DefaultSettings eeprom) :=
  inferInstanceAs (Decidable (_ ∧ _))

/-- A refused post finds another save waiting. -/
def SaveWaiting (s : Saves) (_ : Window) : Prop := s.waiting ≠ []

/-- A refused post finds a save pending for each setting its window has. -/
def SettingPending (s : Saves) (window : Window) : Prop :=
  ∀ r < 2, InRanges r window.1 window.2 → s.Pending r

instance (s : Saves) (window : Window) : Decidable (SaveWaiting s window) :=
  inferInstanceAs (Decidable (_ ≠ _))

instance (s : Saves) (window : Window) : Decidable (SettingPending s window) :=
  inferInstanceAs (Decidable (∀ r < 2, InRanges r window.1 window.2 → s.Pending r))

section Init

variable (datum : ModelDatum) (eeprom : Mem) (links : Links EventNode) (param : Fin eventNr → Mem)

/-- What `init` leaves when the image is valid: the settings of the defaults in force, and the
image in the block. -/
def loaded : Application where
  device := ⟨(Transceiver.construct .halfDuplex).recvInit.recvInit,
    configured 1 ProtocolModbusRtu.construct.info,
    { datum.construct with para := storedPara eeprom datum.construct.para }⟩
  eeprom := eeprom
  baud := some 9600
  loop := EventLoop.construct links param
  saving := none

theorem init_of_valid {outcomes : List Outcome} (hfinished : ∀ o ∈ outcomes, o = .finished)
    (hvalid : ValidImage eeprom) :
    (Application.init datum eeprom outcomes links param).2 = loaded datum eeprom links param := by
  obtain ⟨rest, hload⟩ := (Loading.datumLoad_spec (l := ⟨datum.construct, eeprom, outcomes⟩)
    hfinished).2 hvalid
  have hlink : datum.construct.para ucLinkAddrAt = 1 := rfl
  have hcomm : datum.construct.para ucCommBaudAt = 2 := rfl
  simp only [Application.init, Application.ioctlBaud, Application.slaveSet,
    Application.withUart, DeviceCommu.slaveSet, Application.para, hload, hlink, hcomm]
  rfl

theorem init_eq_zero_iff {outcomes : List Outcome} (hfinished : ∀ o ∈ outcomes, o = .finished) :
    (Application.init datum eeprom outcomes links param).1 = 0 ↔ ValidImage eeprom :=
  (Loading.datumLoad_spec (l := ⟨datum.construct, eeprom, outcomes⟩) hfinished).1

theorem sound_loaded : Sound (loaded datum eeprom links param) [] [] where
  holds := EventLoop.holds_construct links param
  calling := fun hsome ↦ absurd hsome (by simp [loaded])
  handler := by simp [loaded, unstartedSlots, EventLoop.construct, Drain.uncalled]
  onBlock := fun _ _ _ _ heq ↦ absurd heq (by simp [loaded])
  rtu := ⟨1, _, rfl⟩

theorem saves_loaded : (loaded datum eeprom links param).saves =
    { para := storedPara eeprom datum.construct.para
      eeprom := eeprom
      slave := 1
      baud := some 9600
      waiting := []
      running := none } := by
  refine Saves.ext rfl rfl rfl rfl ?_ rfl
  rw [(sound_loaded datum eeprom links param).waiting_eq]
  rfl

/-- A byte of the block that was loaded is the byte of the image. -/
theorem para_loaded {k : ℕ} (hk : k < storageInfoHold.len) :
    (loaded datum eeprom links param).para k = eeprom (storageInfoHold.storageAddr.toNat + k) :=
  storedPara_apply eeprom datum.construct.para hk

end Init

variable {app : Application} {queue left : List (Fin eventNr)}

/-- When everything is saved, the image is the block. -/
theorem Sound.storedWhenQuiet (h : Sound app queue left) (hstored : app.saves.Stored) :
    StoredWhenQuiet app := by
  intro hquiet info hinfo k hk
  obtain ⟨hwaiting, hrunning⟩ := h.quiet hquiet
  obtain rfl := Option.some.inj (storageInfoQuery_hold.symm.trans hinfo)
  have hcopied : app.saves.copied = none := by rw [Saves.copied, hrunning]
  rw [Saves.Stored, hcopied] at hstored
  exact hstored.eq (not_not.mpr hwaiting) hk

/-- When everything is applied, the settings in force are those of the block. -/
theorem Sound.inForceWhenQuiet (h : Sound app queue left) (hforce : app.saves.InForce) :
    InForceWhenQuiet app := by
  intro hquiet
  obtain ⟨hwaiting, hrunning⟩ := h.quiet hquiet
  have hpending : ∀ r, ¬ app.saves.Pending r := by
    rintro r (⟨window, hmem, _⟩ | ⟨saving, hsaving, _⟩)
    · rw [hwaiting] at hmem
      exact List.not_mem_nil hmem
    · rw [hrunning] at hsaving
      exact Option.not_mem_none _ hsaving
  have hindex : (app.para ucCommBaudAt).toNat < baudArray.length :=
    Nat.lt_of_le_of_lt hforce.commBaud (by decide)
  refine ⟨hforce.slave.resolve_right (hpending 0), baudArray[(app.para ucCommBaudAt).toNat],
    List.getElem?_eq_getElem hindex, ?_⟩
  exact (hforce.baud.resolve_right (hpending 1)).trans (List.getElem?_eq_getElem hindex)

/-- From a successful `datum_load` on, in every run whose transfers all succeed and whose posts are
kept, the image in the EEPROM is the block whenever no event is queued or executing. -/
theorem storedWhenQuiet_run (datum : ModelDatum) (eeprom : Mem) (outcomes : List Outcome)
    (links : Links EventNode) (param : Fin eventNr → Mem) (actions : List AppAction)
    (hfinished : ∀ o ∈ outcomes, o = .finished)
    (hload : (Application.init datum eeprom outcomes links param).1 = 0)
    (hkept : AllSteps Application.step (PostKept SaveWaiting)
      (Application.init datum eeprom outcomes links param).2 actions) :
    AllStates Application.step StoredWhenQuiet
      (Application.init datum eeprom outcomes links param).2 actions := by
  have hvalid := (init_eq_zero_iff datum eeprom links param hfinished).mp hload
  rw [init_of_valid datum eeprom links param hfinished hvalid] at hkept ⊢
  have hstored : (loaded datum eeprom links param).saves.Stored := by
    rw [saves_loaded]
    exact follows_of_eq fun k hk ↦ (para_loaded datum eeprom links param hk).symm
  have hrun := (sound_loaded datum eeprom links param).run hstored
    (fun _ _ hbefore hsaves ↦ hbefore.step hsaves) hkept
  exact hrun.mono fun _ ⟨⟨_, _, hsound⟩, hsaved⟩ ↦ hsound.storedWhenQuiet hsaved

/-! ### Runs of one application -/

/-- Memory that holds nothing but the parameter block at its place in the EEPROM. -/
def imageOf (datum : ModelDatum) : Mem :=
  blit (fun _ ↦ 0) storageInfoHold.storageAddr.toNat datum.storageParamChksum.para 0
    storageInfoHold.len

/-- The factory defaults. -/
def defaults : ModelDatum := ModelDatum.construct ⟨fun _ ↦ 0, fun _ ↦ 0⟩

/-- A frame that is received and answered. -/
def request (frame : List Byte) : List AppAction :=
  frame.map .byte ++ [.byteTimer, .recvHandle (fun _ ↦ 0) fun _ ↦ 0, .txDone]

/-- Write 1 and write 2 to register 7. -/
def writeOne : List AppAction := request [1, 6, 0, 7, 0, 1, 0xF9, 0xCB]
def writeTwo : List AppAction := request [1, 6, 0, 7, 0, 2, 0xB9, 0xCA]

/-- Completed steps of the event loop; a drain of `n` saves takes `12 * n + 2`. -/
def steps (n : ℕ) : List AppAction := List.replicate n (.handle .finished)

theorem validImage_imageOf (datum : ModelDatum) : ValidImage (imageOf datum) := by
  have hsame : ∀ k < sizeofSensorPara,
      storedPara (imageOf datum) (fun _ ↦ 0) k = datum.storageParamChksum.para k := by
    intro k hk
    have hcopy := blit_add (fun _ ↦ 0) storageInfoHold.storageAddr.toNat
      datum.storageParamChksum.para 0 hk
    rw [storedPara_apply _ _ hk]
    rwa [Nat.zero_add] at hcopy
  exact (chksum_congr hsame).mpr (chksum_storageParamChksum datum)

/-- A write request comes between two pages of a save and is saved by the next drain. -/
theorem storedWhenQuiet_run_between_pages :
    AllStates Application.step StoredWhenQuiet
      (Application.init ⟨fun _ ↦ 0, fun _ ↦ 0⟩ (imageOf defaults) [] ⟨id, id⟩ fun _ _ ↦ 0).2
      (writeOne ++ steps 4 ++ writeTwo ++ steps 24) := by
  refine storedWhenQuiet_run _ _ _ _ _ _ (by simp)
    ((init_eq_zero_iff _ _ _ _ (by simp)).mpr (validImage_imageOf _)) ?_
  rw [init_of_valid _ _ _ _ (by simp) (validImage_imageOf _)]
  decide +kernel

/-- Six saves in one drain leave one slot of the pool; while it saves the seventh request, the
eighth one gets no slot, and the value 2 is not written to the page that has been written. -/
theorem storedWhenQuiet_fails_after_refused_post :
    (Application.init ⟨fun _ ↦ 0, fun _ ↦ 0⟩ (imageOf defaults) [] ⟨id, id⟩ fun _ _ ↦ 0).1 = 0 ∧
      ¬ AllStates Application.step StoredWhenQuiet
        (Application.init ⟨fun _ ↦ 0, fun _ ↦ 0⟩ (imageOf defaults) [] ⟨id, id⟩ fun _ _ ↦ 0).2
        ((List.replicate 6 writeOne).flatten ++ steps 74 ++ writeOne ++ steps 3 ++ writeTwo ++
          steps 11) := by
  refine ⟨(init_eq_zero_iff _ _ _ _ (by simp)).mpr (validImage_imageOf _), fun hstates ↦ ?_⟩
  rw [init_of_valid _ _ _ _ (by simp) (validImage_imageOf _)] at hstates
  have hlast := hstates.last (by decide +kernel) storageInfoHold storageInfoQuery_hold
    usWashPowerSetAt (by decide)
  revert hlast
  decide +kernel

/-- The first state has the settings of the block in force exactly when the image has those of the
defaults. -/
theorem inForceWhenQuiet_loaded_iff (datum : ModelDatum) (eeprom : Mem) (links : Links EventNode)
    (param : Fin eventNr → Mem) :
    InForceWhenQuiet (loaded datum eeprom links param) ↔ DefaultSettings eeprom := by
  have hquiet : (loaded datum eeprom links param).Quiet := by
    have hholds := (sound_loaded datum eeprom links param).holds
    exact ⟨hholds.queued_eq, hholds.uncalled_eq⟩
  have hlink := para_loaded datum eeprom links param (k := ucLinkAddrAt) (by decide)
  have hcomm := para_loaded datum eeprom links param (k := ucCommBaudAt) (by decide)
  have hbaud : ∀ index : Byte, baudArray[index.toNat]? = some 9600 ↔ index = 2 := by
    decide +kernel
  rw [InForceWhenQuiet, hlink, hcomm, DefaultSettings, ← hbaud]
  constructor
  · intro hforce
    obtain ⟨hslave, baud, hindex, hsome⟩ := hforce hquiet
    exact ⟨hslave.symm, hindex.trans hsome.symm⟩
  · rintro ⟨hslave, hindex⟩ _
    exact ⟨hslave.symm, 9600, hindex, rfl⟩

/-- From every valid image, the settings of the image are in force after `init` exactly when they
are those of the defaults; and then, in every run whose transfers all succeed and whose posts are
kept, the settings in force are those of the block whenever no event is queued or executing. -/
theorem inForceWhenQuiet_run (datum : ModelDatum) (eeprom : Mem) (outcomes : List Outcome)
    (links : Links EventNode) (param : Fin eventNr → Mem)
    (hfinished : ∀ o ∈ outcomes, o = .finished) (hvalid : ValidImage eeprom) :
    (InForceWhenQuiet (Application.init datum eeprom outcomes links param).2 ↔
      DefaultSettings eeprom) ∧
    (DefaultSettings eeprom → ∀ actions,
      AllSteps Application.step (PostKept SettingPending)
        (Application.init datum eeprom outcomes links param).2 actions →
      AllStates Application.step InForceWhenQuiet
        (Application.init datum eeprom outcomes links param).2 actions) := by
  rw [init_of_valid datum eeprom links param hfinished hvalid]
  refine ⟨inForceWhenQuiet_loaded_iff datum eeprom links param, fun hdefault actions hkept ↦ ?_⟩
  have hforce : (loaded datum eeprom links param).saves.InForce := by
    have hlink := (para_loaded datum eeprom links param (k := ucLinkAddrAt) (by decide)).trans
      hdefault.1
    have hcomm := (para_loaded datum eeprom links param (k := ucCommBaudAt) (by decide)).trans
      hdefault.2
    have hpara : (loaded datum eeprom links param).saves.para =
      (loaded datum eeprom links param).para := rfl
    refine ⟨?_, ?_, .inl ?_, .inl ?_⟩
    · rw [hpara, hlink]
      decide
    · rw [hpara, hcomm]
      decide
    · rw [hpara, hlink]
      rfl
    · rw [hpara, hcomm]
      rfl
  have hrun := (sound_loaded datum eeprom links param).run hforce
    (fun _ _ hbefore hsaves ↦ hbefore.step hsaves) hkept
  exact hrun.mono fun _ ⟨⟨_, _, hsound⟩, happlied⟩ ↦ hsound.inForceWhenQuiet happlied

/-- A request that changes the address is saved and applied. -/
theorem inForceWhenQuiet_run_new_address :
    AllStates Application.step InForceWhenQuiet
      (Application.init ⟨fun _ ↦ 0, fun _ ↦ 0⟩ (imageOf defaults) [] ⟨id, id⟩ fun _ _ ↦ 0).2
      (request [1, 6, 0, 0, 0, 5, 0x49, 0xC9] ++ steps 14) := by
  refine (inForceWhenQuiet_run _ _ _ _ _ (by simp) (validImage_imageOf _)).2 (by decide +kernel)
    _ ?_
  rw [init_of_valid _ _ _ _ (by simp) (validImage_imageOf _)]
  decide +kernel

/-- An image with the address 5: `init` leaves the slave address 1 in force. -/
theorem inForceWhenQuiet_fails_after_init :
    ValidImage (imageOf (defaults.holdRegSet 0 5).2) ∧
      ¬ AllStates Application.step InForceWhenQuiet
        (Application.init ⟨fun _ ↦ 0, fun _ ↦ 0⟩ (imageOf (defaults.holdRegSet 0 5).2) []
          ⟨id, id⟩ fun _ _ ↦ 0).2 [] := by
  have hvalid : ValidImage (imageOf (defaults.holdRegSet 0 5).2) := validImage_imageOf _
  refine ⟨hvalid, fun hstates ↦ ?_⟩
  have hfirst := hstates.first
  rw [init_of_valid _ _ _ _ (by simp) hvalid, inForceWhenQuiet_loaded_iff] at hfirst
  revert hfirst
  decide +kernel

end ProjectSensor.App
