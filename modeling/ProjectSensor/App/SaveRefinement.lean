import ProjectSensor.App.Saves

/-!
# The application refines its saves

`Application.saves` forgets the lists and the pool.  As long as no post gets a slot that is still
linked, each step of the application is a step of the saves (`Sound.step`).
-/

open ProjectSensor.Library ProjectSensor.Library.ByteMemory ProjectSensor.Library.Transition
open ProjectSensor.Service ProjectSensor.Bsp ProjectSensor.Reactor

namespace ProjectSensor.App

namespace Application

variable (app : Application)

/-- The nodes the drain under way has yet to start the save of. -/
def unstarted : List EventNode :=
  if app.saving.isSome then app.loop.uncalled.tail else app.loop.uncalled

def windows (nodes : List EventNode) : List Window :=
  nodes.filterMap fun
    | .event i => some (eventWindow (app.loop.manage.event i))
    | _ => none

def saves : Saves where
  para := app.para
  eeprom := app.eeprom
  slave := app.device.rtu.modbus.slave
  baud := app.baud
  waiting := app.windows (app.loop.queued ++ app.unstarted)
  running := app.saving

end Application

/-- A post that gets a slot gets one on neither list, one that gets none is within `mayRefuse`;
and no transfer fails. -/
def PostKept (mayRefuse : Saves → Window → Prop) (app : Application) : AppAction → Prop
  | .recvHandle buf param => ∀ event ∈ (app.device.packageRecvHandle buf param).posted,
      match app.loop.nextSlot with
      | some i => .event i ∉ app.loop.queued ∧ .event i ∉ app.loop.ahead
      | none => mayRefuse app.saves (eventWindow event)
  | .handle outcome => outcome = .finished
  | _ => True

instance (mayRefuse : Saves → Window → Prop) [∀ s window, Decidable (mayRefuse s window)]
    (app : Application) : ∀ action, Decidable (PostKept mayRefuse app action)
  | .byte _ | .byteTimer | .txDone => inferInstanceAs (Decidable True)
  | .recvHandle buf param =>
      have : ∀ event, Decidable (match app.loop.nextSlot with
          | some i => .event i ∉ app.loop.queued ∧ .event i ∉ app.loop.ahead
          | none => mayRefuse app.saves (eventWindow event)) := fun event ↦
        match app.loop.nextSlot with
        | some _ => inferInstanceAs (Decidable (_ ∧ _))
        | none => inferInstanceAs (Decidable (mayRefuse app.saves (eventWindow event)))
      inferInstanceAs (Decidable (∀ event ∈ (app.device.packageRecvHandle buf param).posted, _))
  | .handle outcome => inferInstanceAs (Decidable (outcome = .finished))

/-- The slots of the drain under way whose save has not started. -/
def unstartedSlots (saving : Option Saving) (drain : Drain) (left : List (Fin eventNr)) :
    List (Fin eventNr) :=
  if saving.isSome then (drain.uncalled left).tail else drain.uncalled left

/-- The invariant of the application: `queue` and `left` are on the two lists, a save runs only
inside a call, and the events waiting are saves. -/
structure Sound (app : Application) (queue left : List (Fin eventNr)) : Prop where
  holds : app.loop.Holds queue left
  calling : app.saving.isSome → ∃ i, app.loop.drain = .test (.event i)
  handler : ∀ i ∈ queue ++ unstartedSlots app.saving app.loop.drain left,
    (app.loop.manage.event i).handler = some .datumSave
  onBlock : ∀ reg regNo access retryNumb,
    app.saving = some ⟨reg, regNo, .write access retryNumb⟩ → OnBlock access
  rtu : ∃ slave info, app.device.rtu = configured slave info

variable {app app' : Application} {queue left : List (Fin eventNr)}

theorem Sound.waiting_eq (h : Sound app queue left) : app.saves.waiting =
    (queue ++ unstartedSlots app.saving app.loop.drain left).map
      fun i ↦ eventWindow (app.loop.manage.event i) := by
  have hunstarted : app.unstarted =
      (unstartedSlots app.saving app.loop.drain left).map .event := by
    rw [Application.unstarted, unstartedSlots, h.holds.uncalled_eq]
    split
    · exact List.map_tail.symm
    · rfl
  calc
    app.saves.waiting = app.windows (queue.map EventNode.event ++
        (unstartedSlots app.saving app.loop.drain left).map EventNode.event) := by
      rw [Application.saves, hunstarted, h.holds.queued_eq]
    _ = _ := by
      rw [Application.windows, ← List.map_append, List.filterMap_map]
      exact congrFun List.filterMap_eq_map _

/-- A quiet application has no save waiting or running. -/
theorem Sound.quiet (h : Sound app queue left) (hquiet : app.Quiet) :
    app.saves.waiting = [] ∧ app.saves.running = none := by
  obtain ⟨hqueued, huncalled⟩ := hquiet
  have hqueue : queue = [] := by simpa [h.holds.queued_eq] using hqueued
  have hleft : app.loop.drain.uncalled left = [] := by simpa [h.holds.uncalled_eq] using huncalled
  have hidle : app.saving = none := by
    by_contra hrunning
    obtain ⟨i, hdrain⟩ := h.calling (Option.isSome_iff_ne_none.mpr hrunning)
    have hstep := h.holds.handleStep
    rw [hdrain] at hstep hleft
    obtain ⟨rest, rfl, -⟩ := hstep
    exact absurd hleft (List.cons_ne_nil _ _)
  refine ⟨?_, hidle⟩
  rw [h.waiting_eq, hqueue, unstartedSlots, hidle, hleft]
  rfl

/-- A step that leaves the slots waiting, their events and the configuration alone. -/
theorem Sound.move {queue' left' : List (Fin eventNr)} (h : Sound app queue left)
    (app' : Application)
    (hholds : app'.loop.Holds queue' left')
    (hcalling : app'.saving.isSome → ∃ i, app'.loop.drain = .test (.event i))
    (hevent : app'.loop.manage.event = app.loop.manage.event)
    (hslots : queue' ++ unstartedSlots app'.saving app'.loop.drain left' =
      queue ++ unstartedSlots app.saving app.loop.drain left)
    (hblock : ∀ reg regNo access retryNumb,
      app'.saving = some ⟨reg, regNo, .write access retryNumb⟩ → OnBlock access)
    (hrtu : ∃ slave info, app'.device.rtu = configured slave info) :
    Sound app' queue' left' ∧ app'.saves.waiting = app.saves.waiting := by
  have hsound : Sound app' queue' left' := by
    refine ⟨hholds, hcalling, ?_, hblock, hrtu⟩
    rw [hslots, hevent]
    exact h.handler
  refine ⟨hsound, ?_⟩
  rw [hsound.waiting_eq, h.waiting_eq, hslots, hevent]

section Step

variable {mayRefuse : Saves → Window → Prop}

/-- The application after a step is sound, and the step is one of the saves. -/
def Simulated (mayRefuse : Saves → Window → Prop) (app app' : Application) : Prop :=
  (∃ queue left, Sound app' queue left) ∧ SavesStep mayRefuse app.saves app'.saves

theorem Sound.simulated (h : Sound app' queue left) {saves' : Saves}
    (hstep : SavesStep mayRefuse app.saves saves') (hsaves : app'.saves = saves') :
    Simulated mayRefuse app app' :=
  ⟨⟨queue, left, h⟩, hsaves ▸ hstep⟩

/-- A step of the event loop outside a call. -/
theorem Sound.loopStep (h : Sound app queue left) (hidle : app.saving = none)
    (houtside : ∀ i, app.loop.drain ≠ .test (.event i)) :
    Simulated mayRefuse app { app with loop := app.loop.handleStep } := by
  have hmove : ∀ queue' left', app.loop.handleStep.Holds queue' left' →
      app.loop.handleStep.manage.event = app.loop.manage.event →
      queue' ++ app.loop.handleStep.drain.uncalled left' = queue ++ app.loop.drain.uncalled left →
      Simulated mayRefuse app { app with loop := app.loop.handleStep } := by
    intro queue' left' hholds hevent hslots
    have hnone : ∀ drain slots, unstartedSlots app.saving drain slots = drain.uncalled slots :=
      fun drain slots ↦ by rw [unstartedSlots, hidle]; rfl
    obtain ⟨hsound, hwaiting⟩ := h.move { app with loop := app.loop.handleStep }
      hholds (fun hrunning ↦ absurd hidle (Option.isSome_iff_ne_none.mp hrunning)) hevent
      (by rw [hnone, hnone, hslots]) h.onBlock h.rtu
    exact hsound.simulated (.idle _) (Saves.ext rfl rfl rfl rfl hwaiting rfl)
  have hstep := h.holds.handleStep
  rcases hdrain : app.loop.drain with _ | pos | i | i | _
  · rw [hdrain] at hstep
    obtain ⟨rfl, hholds⟩ := hstep
    apply hmove _ _ hholds
    · rw [EventLoop.handleStep, hdrain]
      rfl
    · simp [EventLoop.handleStep, hdrain, EventLoop.splice, Drain.uncalled]
  · cases pos with
    | listHeadEvent =>
        rw [hdrain] at hstep
        obtain ⟨rfl, hholds⟩ := hstep
        apply hmove _ _ hholds
        · rw [EventLoop.handleStep, hdrain]
        · simp [EventLoop.handleStep, hdrain, Drain.uncalled]
    | listEvent =>
        rw [hdrain] at hstep
        exact hstep.elim
    | event i => exact absurd hdrain (houtside i)
  · rw [hdrain] at hstep
    obtain ⟨rest, rfl, hholds⟩ := hstep
    apply hmove _ _ hholds
    · rw [EventLoop.handleStep, hdrain]
      rfl
    · simp [EventLoop.handleStep, hdrain, Drain.uncalled]
  · rw [hdrain] at hstep
    obtain ⟨rest, rfl, hholds⟩ := hstep
    apply hmove _ _ hholds
    · rw [EventLoop.handleStep, hdrain]
    · simp [EventLoop.handleStep, hdrain, Drain.uncalled]
  · rw [hdrain] at hstep
    exact hstep.elim

/-- Where a call of `datum_save` is, the loop is in the call. -/
theorem Sound.in_call (h : Sound app queue left) {saving : Saving}
    (hrunning : app.saving = some saving) :
    ∃ i rest, app.loop.drain = .test (.event i) ∧ left = i :: rest := by
  obtain ⟨i, hdrain⟩ := h.calling (by rw [hrunning]; rfl)
  have hstep := h.holds.handleStep
  rw [hdrain] at hstep
  obtain ⟨rest, hleft, -⟩ := hstep
  exact ⟨i, rest, hdrain, hleft⟩

/-- A step of a save inside its call. -/
theorem Sound.saveMove (h : Sound app queue left) (app' : Application) {saving saving' : Saving}
    (hrunning : app.saving = some saving) (hloop : app'.loop = app.loop)
    (hrunning' : app'.saving = some saving')
    (hblock : ∀ access retryNumb, saving'.stage = .write access retryNumb → OnBlock access)
    (hrtu : ∃ slave info, app'.device.rtu = configured slave info) :
    Sound app' queue left ∧ app'.saves.waiting = app.saves.waiting := by
  apply h.move
  · rw [hloop]
    exact h.holds
  · intro _
    obtain ⟨i, rest, hdrain, -⟩ := h.in_call hrunning
    exact ⟨i, hloop ▸ hdrain⟩
  · rw [hloop]
  · rw [hloop, hrunning, hrunning']
    rfl
  · intro reg regNo access retryNumb heq
    rw [hrunning'] at heq
    obtain rfl := Option.some.inj heq
    exact hblock access retryNumb rfl
  · exact hrtu

/-- The end of a call. -/
theorem Sound.saveReturned (h : Sound app queue left) (app' : Application) {saving : Saving}
    (hrunning : app.saving = some saving) (hloop : app'.loop = app.loop)
    (hrtu : ∃ slave info, app'.device.rtu = configured slave info) :
    Sound app'.saveReturned queue left ∧ app'.saveReturned.saves.waiting = app.saves.waiting := by
  obtain ⟨i, rest, hdrain, rfl⟩ := h.in_call hrunning
  have hstep := h.holds.handleStep
  rw [hdrain] at hstep
  obtain ⟨-, -, hholds⟩ := hstep
  have hnext : app.loop.handleStep = { app.loop with drain := .called i } := by
    rw [EventLoop.handleStep, hdrain]
  apply h.move
  · rw [Application.saveReturned, hloop]
    exact hholds
  · intro hsome
    exact absurd hsome (by simp [Application.saveReturned])
  · rw [Application.saveReturned, hloop, hnext]
  · rw [Application.saveReturned, hloop, hnext, hrunning, hdrain]
    rfl
  · intro reg regNo access retryNumb heq
    exact absurd heq (by simp [Application.saveReturned])
  · exact hrtu

/-- One completed transfer of a save. -/
theorem saveStep_write {reg regNo : BitVec 16} {access : Access} {retryNumb : ℕ}
    (hblock : OnBlock access) :
    app.saveStep ⟨reg, regNo, .write access retryNumb⟩ .finished = { app with
      eeprom := blit app.eeprom access.subAddr.toNat app.para access.acessAddr access.accessBytes
      saving := some ⟨reg, regNo, stageAfter access retryNumb⟩ } := by
  have hfits : access.Fits := by
    have hsub := hblock.subAddr
    have hsum := hblock.numbBytes
    have hlen : storageInfoHold.len = 112 := rfl
    have haddr : storageInfoHold.storageAddr.toNat = 32 := rfl
    have hcapacity : capacity = 2048 := rfl
    unfold Access.Fits
    omega
  have htransfer : Medium.transfer ⟨app.eeprom, app.para⟩ .write access .finished =
      ⟨blit app.eeprom access.subAddr.toNat app.para access.acessAddr access.accessBytes,
        app.para⟩ :=
    Medium.transfer_eq ⟨app.eeprom, app.para⟩ .write access hfits hblock.more .finished
  simp only [Application.saveStep, htransfer]
  by_cases hdone : access.next.numbBytes = 0
  · have hsize : ((wholeAccess.numbBytes : ℤ) - access.next.numbBytes) = wholeAccess.numbBytes := by
      rw [hdone]
      rfl
    have hturn : Pass.turn wholeAccess .finished (.underWay access retryNumb) =
        .returned wholeAccess.numbBytes := by
      rw [Pass.turn, if_neg (by simp [hdone]), hsize]
      exact if_pos rfl
    rw [hturn, Application.saveWrite, if_neg (by decide), stageAfter, if_pos hdone]
  · have hturn : Pass.turn wholeAccess .finished (.underWay access retryNumb) =
        .underWay access.next retryNumb := if_pos ⟨rfl, hdone⟩
    rw [hturn, Application.saveWrite, stageAfter, if_neg hdone]

theorem OnBlock.next {access : Access} (hblock : OnBlock access)
    (hmore : access.next.numbBytes ≠ 0) : OnBlock access.next := by
  have hsub := hblock.subAddr
  have hsum := hblock.numbBytes
  have hle := access.accessBytes_le
  have hlen : storageInfoHold.len = 112 := rfl
  have haddr : storageInfoHold.storageAddr.toNat = 32 := rfl
  have hcapacity : capacity = 2048 := rfl
  have hnext := Access.next_subAddr (a := access) (by rw [Access.Fits]; omega)
  refine ⟨?_, ?_, hmore⟩
  · rw [hnext]
    simp only [Access.next]
    omega
  · simp only [Access.next]
    omega

theorem slaveSet_configured (slave addr : Byte) (info : ModbusRtuInfo) :
    ((configured slave info).slaveSet addr).2 =
      configured (if addr.toNat ≤ 247 then addr else slave) info := by
  unfold ProtocolModbusRtu.slaveSet
  split <;> rfl

/-- The next transfer of a running save. -/
theorem Sound.saveStep_write (h : Sound app queue left) {reg regNo : BitVec 16} {access : Access}
    {retryNumb : ℕ} (hrunning : app.saving = some ⟨reg, regNo, .write access retryNumb⟩) :
    Simulated mayRefuse app (app.saveStep ⟨reg, regNo, .write access retryNumb⟩ .finished) := by
  have hblock := h.onBlock reg regNo access retryNumb hrunning
  rw [App.saveStep_write hblock]
  have hnext : ∀ access' retryNumb', stageAfter access retryNumb = .write access' retryNumb' →
      OnBlock access' := by
    intro access' retryNumb' hstage
    unfold stageAfter at hstage
    by_cases hdone : access.next.numbBytes = 0
    · rw [if_pos hdone] at hstage
      exact SaveStage.noConfusion hstage
    · rw [if_neg hdone] at hstage
      obtain ⟨rfl, rfl⟩ := SaveStage.write.inj hstage
      exact hblock.next hdone
  obtain ⟨hsound, hwaiting⟩ := h.saveMove { app with
      eeprom := blit app.eeprom access.subAddr.toNat app.para access.acessAddr access.accessBytes
      saving := some ⟨reg, regNo, stageAfter access retryNumb⟩ } hrunning rfl rfl hnext h.rtu
  exact hsound.simulated (.page hrunning hblock) (Saves.ext rfl rfl rfl rfl hwaiting rfl)

/-- The end of the write: the slave address is applied, if the window has its register. -/
theorem Sound.saveStep_slaveSet (h : Sound app queue left) {reg regNo : BitVec 16}
    (hrunning : app.saving = some ⟨reg, regNo, .slaveSet⟩) :
    Simulated mayRefuse app (app.saveStep ⟨reg, regNo, .slaveSet⟩ .finished) := by
  obtain ⟨slave, info, hrtu⟩ := h.rtu
  unfold Application.saveStep
  by_cases hin : InRanges 0 reg regNo
  · simp only [if_pos hin]
    have hrtu' : app.slaveSet.device.rtu = configured (if (app.para ucLinkAddrAt).toNat ≤ 247
        then app.para ucLinkAddrAt else slave) info := by
      rw [Application.slaveSet, DeviceCommu.slaveSet, hrtu, slaveSet_configured]
    obtain ⟨hsound, hwaiting⟩ := h.saveMove
      { app.slaveSet with saving := some ⟨reg, regNo, .baudSet⟩ } hrunning rfl rfl
      (fun _ _ hstage ↦ SaveStage.noConfusion hstage) ⟨_, info, hrtu'⟩
    refine hsound.simulated (.slaveSet hrunning) (Saves.ext rfl rfl ?_ rfl hwaiting rfl)
    simp only [Application.saves, hrtu', hrtu, configured, hin, true_and]
  · simp only [if_neg hin]
    obtain ⟨hsound, hwaiting⟩ := h.saveMove
      { app with saving := some ⟨reg, regNo, .baudSet⟩ } hrunning rfl rfl
      (fun _ _ hstage ↦ SaveStage.noConfusion hstage) h.rtu
    exact hsound.simulated (.slaveSet hrunning)
      (Saves.ext rfl rfl (if_neg fun hboth ↦ hin hboth.1).symm rfl hwaiting rfl)

/-- The end of the call: the baud is applied, if the window has its register. -/
theorem Sound.saveStep_baudSet (h : Sound app queue left) {reg regNo : BitVec 16}
    (hrunning : app.saving = some ⟨reg, regNo, .baudSet⟩) :
    Simulated mayRefuse app (app.saveStep ⟨reg, regNo, .baudSet⟩ .finished) := by
  unfold Application.saveStep
  by_cases hin : InRanges 1 reg regNo
  · simp only [if_pos hin]
    obtain ⟨hsound, hwaiting⟩ := h.saveReturned app.ioctlBaud hrunning rfl h.rtu
    exact hsound.simulated (.baudSet hrunning)
      (Saves.ext rfl rfl rfl (if_pos hin).symm hwaiting rfl)
  · simp only [if_neg hin]
    obtain ⟨hsound, hwaiting⟩ := h.saveReturned app hrunning rfl h.rtu
    exact hsound.simulated (.baudSet hrunning)
      (Saves.ext rfl rfl rfl (if_neg hin).symm hwaiting rfl)

/-- A step of a running save. -/
theorem Sound.saveStep (h : Sound app queue left) {saving : Saving}
    (hrunning : app.saving = some saving) :
    Simulated mayRefuse app (app.saveStep saving .finished) := by
  obtain ⟨reg, regNo, stage⟩ := saving
  cases stage with
  | write access retryNumb => exact h.saveStep_write hrunning
  | slaveSet => exact h.saveStep_slaveSet hrunning
  | baudSet => exact h.saveStep_baudSet hrunning

/-- The application when `datum_save` has been called with the event in slot `i`. -/
def Application.saveStarted (app : Application) (i : Fin eventNr) : Application :=
  let event := app.loop.manage.event i
  { app with
    loop := { app.loop with manage := { app.loop.manage with
      event := Function.update app.loop.manage.event i
        { event with buffer := event.buffer.readInt16.2.readInt16.2 } } }
    device := { app.device with datum := app.device.datum.storageParamChksum }
    saving := some
      ⟨(eventWindow event).1, (eventWindow event).2, .write wholeAccess retryNumb⟩ }

theorem datumSave_eq (app : Application) (i : Fin eventNr) :
    app.datumSave i = app.saveStarted i := by
  have hbegin : Pass.begin wholeAccess = .underWay wholeAccess retryNumb := by
    rw [Pass.begin, if_neg (by decide), if_neg (by decide)]
  rw [Application.datumSave, hbegin]
  rfl

/-- A call of `datum_save` starts. -/
theorem Sound.datumSave (h : Sound app queue left) (hidle : app.saving = none) {i : Fin eventNr}
    (hdrain : app.loop.drain = .test (.event i)) :
    Simulated mayRefuse app (app.datumSave i) := by
  have hstep := h.holds.handleStep
  rw [hdrain] at hstep
  obtain ⟨rest, rfl, -⟩ := hstep
  have hslots : unstartedSlots app.saving app.loop.drain (i :: rest) = i :: rest := by
    rw [unstartedSlots, hidle, hdrain]
    rfl
  have hslots' : unstartedSlots (app.saveStarted i).saving (app.saveStarted i).loop.drain
      (i :: rest) = rest := by
    rw [Application.saveStarted, unstartedSlots, hdrain]
    rfl
  have hfresh : i ∉ queue ++ rest :=
    (List.nodup_cons.mp (List.nodup_middle.mp h.holds.nodup)).1
  have hkeep : ∀ j ∈ queue ++ rest,
      (app.saveStarted i).loop.manage.event j = app.loop.manage.event j :=
    fun j hj ↦ Function.update_of_ne (ne_of_mem_of_not_mem hj hfresh) _ _
  have hsound : Sound (app.saveStarted i) queue (i :: rest) := by
    refine ⟨⟨h.holds.ring, h.holds.trail, h.holds.nodup⟩, fun _ ↦ ⟨i, hdrain⟩, ?_, ?_, h.rtu⟩
    · rw [hslots']
      intro j hj
      rw [hkeep j hj]
      apply h.handler
      rw [hslots]
      exact ((List.sublist_cons_self i rest).append_left queue).subset hj
    · intro reg regNo access retryNumb heq
      obtain ⟨-, -, hstage⟩ := Saving.mk.inj (Option.some.inj heq)
      obtain ⟨rfl, -⟩ := SaveStage.write.inj hstage
      exact ⟨rfl, rfl, by decide⟩
  have hbefore : app.saves.waiting = queue.map (fun j ↦ eventWindow (app.loop.manage.event j)) ++
      eventWindow (app.loop.manage.event i) ::
        rest.map fun j ↦ eventWindow (app.loop.manage.event j) := by
    rw [h.waiting_eq, hslots, List.map_append, List.map_cons]
  have hafter : (app.saveStarted i).saves.waiting =
      queue.map (fun j ↦ eventWindow (app.loop.manage.event j)) ++
        rest.map fun j ↦ eventWindow (app.loop.manage.event j) := by
    rw [hsound.waiting_eq, hslots', ← List.map_append]
    exact List.map_congr_left fun j hj ↦ congrArg eventWindow (hkeep j hj)
  rw [datumSave_eq]
  exact hsound.simulated (.start app.device.datum.paramCrc hidle hbefore)
    (Saves.ext rfl rfl rfl rfl hafter rfl)

/-- One completed step of the event loop or of its handler. -/
theorem Sound.handle (h : Sound app queue left) :
    Simulated mayRefuse app (app.handle .finished) := by
  by_cases hcall : ∃ i, app.loop.drain = .test (.event i)
  · obtain ⟨i, hdrain⟩ := hcall
    cases hsaving : app.saving with
    | some saving =>
        have hhandle : app.handle .finished = app.saveStep saving .finished := by
          unfold Application.handle
          simp only [hdrain, hsaving]
        rw [hhandle]
        exact h.saveStep hsaving
    | none =>
        have hmem : i ∈ queue ++ unstartedSlots app.saving app.loop.drain left := by
          have hstep := h.holds.handleStep
          rw [hdrain] at hstep
          obtain ⟨rest, rfl, -⟩ := hstep
          rw [hsaving, hdrain]
          exact List.mem_append_right _ List.mem_cons_self
        have hhandle : app.handle .finished = app.datumSave i := by
          unfold Application.handle
          simp only [hdrain, hsaving, h.handler i hmem]
        rw [hhandle]
        exact h.datumSave hsaving hdrain
  · have houtside : ∀ i, app.loop.drain ≠ .test (.event i) := fun i hi ↦ hcall ⟨i, hi⟩
    have hidle : app.saving = none := by
      by_contra hrunning
      exact hcall (h.calling (Option.isSome_iff_ne_none.mpr hrunning))
    have hhandle : app.handle .finished = { app with loop := app.loop.handleStep } := by
      unfold Application.handle
      split
      · rename_i i hdrain
        exact absurd hdrain (houtside i)
      · rfl
    rw [hhandle]
    exact h.loopStep hidle houtside

theorem unstartedSlots_subset (saving : Option Saving) (drain : Drain)
    (left : List (Fin eventNr)) : unstartedSlots saving drain left ⊆ left := by
  unfold unstartedSlots
  split
  · exact ((List.tail_sublist _).trans (uncalled_sublist drain left)).subset
  · exact (uncalled_sublist drain left).subset

/-- A post into a slot on neither list. -/
theorem Sound.post (h : Sound app queue left) {event : Event EventHandler Unit} {i : Fin eventNr}
    (hevent : event.handler = some .datumSave) (hnext : app.loop.nextSlot = some i)
    (hqueue : i ∉ queue) (hleft : i ∉ left) {device : DeviceCommu}
    (hrtu : ∃ slave info, device.rtu = configured slave info)
    (hpost : app' = { app with device := device, loop := (app.loop.runInloop event).2 }) :
    Sound app' (i :: queue) left ∧
      app'.saves.waiting = eventWindow event :: app.saves.waiting := by
  have hholds := h.holds.runInloop event hnext hqueue hleft
  have hrun := EventLoop.runInloop_of_some event hnext
  have hloop : app'.loop = (app.loop.runInloop event).2 := by rw [hpost]
  have hsaving : app'.saving = app.saving := by rw [hpost]
  have hdrain : app'.loop.drain = app.loop.drain := by rw [hloop, hrun]
  have hkeep : ∀ j ∈ queue ++ unstartedSlots app.saving app.loop.drain left,
      app'.loop.manage.event j = app.loop.manage.event j := by
    intro j hj
    rw [hloop]
    apply EventLoop.event_runInloop_of_ne event hnext
    rintro rfl
    exact (List.mem_append.mp hj).elim hqueue fun hin ↦ hleft (unstartedSlots_subset _ _ _ hin)
  have hnew : app'.loop.manage.event i = event := by
    rw [hloop, EventLoop.event_runInloop_self event hnext]
  have hsound : Sound app' (i :: queue) left := by
    refine ⟨hloop ▸ hholds, ?_, ?_, ?_, ?_⟩
    · rw [hsaving, hdrain]
      exact h.calling
    · rw [hsaving, hdrain, List.cons_append]
      intro j hj
      rcases List.mem_cons.mp hj with rfl | hold
      · rw [hnew, hevent]
      · rw [hkeep j hold]
        exact h.handler j hold
    · rw [hsaving]
      exact h.onBlock
    · rw [hpost]
      exact hrtu
  refine ⟨hsound, ?_⟩
  calc
    app'.saves.waiting = eventWindow (app'.loop.manage.event i) ::
        (queue ++ unstartedSlots app.saving app.loop.drain left).map
          fun j ↦ eventWindow (app'.loop.manage.event j) := by
      rw [hsound.waiting_eq, hsaving, hdrain, List.cons_append, List.map_cons]
    _ = eventWindow event :: (queue ++ unstartedSlots app.saving app.loop.drain left).map
          fun j ↦ eventWindow (app.loop.manage.event j) := by
      rw [hnew]
      exact congrArg _ (List.map_congr_left fun j hj ↦ congrArg eventWindow (hkeep j hj))
    _ = eventWindow event :: app.saves.waiting := by rw [h.waiting_eq]

theorem Changes.refl (window : Window) (para : Mem) : Changes window para para :=
  ⟨fun _ _ _ ↦ rfl, id, id⟩

/-- A write request changes the registers of its window. -/
theorem changes_writeOutcome (ram : Ram) (para : Mem) :
    Changes (requestReg ram, requestRegNo ram) para (writeOutcome ram para).2 where
  outside := fun r hr hout ↦ by
    apply para_eq_of_cell_eq hr
    apply cell_writeOutcome_of_outside
    simp only [InRanges] at hout
    omega
  linkAddr := fun hlink ↦ bound_writeOutcome (show 0 < splitHoldRIndex1 by decide)
    (fun _ haccept ↦ le_max_of_not_refuses rfl haccept) hlink ram
  commBaud := fun hcomm ↦ bound_writeOutcome (show 1 < splitHoldRIndex1 by decide)
    (fun _ haccept ↦ le_max_of_not_refuses rfl haccept) hcomm ram

/-- What a call of `package_recv_handle` changes is in the window it posts. -/
theorem Effect.changes {d : DeviceCommu} {slave : Byte} {received : Received}
    (heffect : Effect d slave received) :
    match received.posted with
    | none => received.device.datum = d.datum
    | some event => Changes (eventWindow event) d.datum.para received.device.datum.para := by
  rcases heffect.change with hsame | ⟨ram, event, hposted, hwindow, hdatum⟩
  · cases received.posted with
    | none => exact hsame
    | some event =>
        simp only [hsame]
        exact .refl _ _
  · rw [hposted]
    simp only [hwindow, hdatum]
    exact changes_writeOutcome ram d.datum.para

/-- A frame that is received, answered and followed by its event. -/
theorem Sound.recvHandle (h : Sound app queue left) (buf : Ram) (param : Mem)
    (hkept : PostKept mayRefuse app (.recvHandle buf param)) :
    Simulated mayRefuse app (app.recvHandle buf param) := by
  obtain ⟨slave, info, hrtu⟩ := h.rtu
  have heffect := packageRecvHandle_effect hrtu buf param
  have hchanges := heffect.changes
  rw [PostKept] at hkept
  rw [Application.recvHandle]
  generalize app.device.packageRecvHandle buf param = received at heffect hchanges hkept ⊢
  obtain ⟨info', hrtu'⟩ := heffect.configured
  have hslave : received.device.rtu.modbus.slave = app.device.rtu.modbus.slave := by
    rw [hrtu, hrtu']
    rfl
  have hlocal : ∀ device : DeviceCommu, (∃ slave info, device.rtu = configured slave info) →
      Sound { app with device := device } queue left := fun device hdevice ↦
    ⟨h.holds, h.calling, h.handler, h.onBlock, hdevice⟩
  cases hposted : received.posted with
  | none =>
      rw [hposted] at hchanges
      exact (hlocal _ ⟨slave, info', hrtu'⟩).simulated (.idle _)
        (Saves.ext (congrArg ModelDatum.para hchanges) rfl hslave rfl rfl rfl)
  | some event =>
      have hevent := heffect.saves event hposted
      have hslot := hkept event hposted
      rw [hposted] at hchanges
      cases hnext : app.loop.nextSlot with
      | none =>
          rw [hnext] at hslot
          simp only [EventLoop.runInloop_of_none event hnext]
          exact (hlocal _ ⟨slave, info', hrtu'⟩).simulated (.refused hchanges hslot)
            (Saves.ext rfl rfl hslave rfl rfl rfl)
      | some i =>
          rw [hnext] at hslot
          have hqueue : i ∉ queue := by simpa [h.holds.queued_eq] using hslot.1
          have hleft : i ∉ left := by simpa [h.holds.ahead_eq] using hslot.2
          obtain ⟨hsound, hwaiting⟩ :=
            h.post hevent hnext hqueue hleft ⟨slave, info', hrtu'⟩ rfl
          exact hsound.simulated (.request hchanges) (Saves.ext rfl rfl hslave rfl hwaiting rfl)

/-- Each step whose posts are kept is a step of the saves. -/
theorem Sound.step (h : Sound app queue left) {action : AppAction}
    (hkept : PostKept mayRefuse app action) : Simulated mayRefuse app (app.step action) := by
  have huart : ∀ uart, Simulated mayRefuse app (app.withUart uart) := fun uart ↦
    ⟨⟨queue, left, h.holds, h.calling, h.handler, h.onBlock, h.rtu⟩, .idle _⟩
  cases action with
  | byte c => exact huart _
  | byteTimer => exact huart _
  | txDone => exact huart _
  | recvHandle buf param => exact h.recvHandle buf param hkept
  | handle outcome =>
      obtain rfl : outcome = .finished := hkept
      exact h.handle

/-- A property of the saves that each of their steps keeps holds in every run whose posts are
kept. -/
theorem Sound.run {P : Saves → Prop} {actions : List AppAction} (h : Sound app queue left)
    (hstart : P app.saves) (hstep : ∀ s s', P s → SavesStep mayRefuse s s' → P s')
    (hkept : AllSteps Application.step (PostKept mayRefuse) app actions) :
    AllStates Application.step (fun app ↦ (∃ queue left, Sound app queue left) ∧ P app.saves)
      app actions := by
  refine allStates_of_step ?_ ⟨⟨queue, left, h⟩, hstart⟩ hkept
  rintro app action ⟨⟨queue, left, hsound⟩, hbefore⟩ hallowed
  obtain ⟨hafter, hsaves⟩ := hsound.step hallowed
  exact ⟨hafter, hstep _ _ hbefore hsaves⟩

end Step

end ProjectSensor.App
