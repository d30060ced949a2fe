import ProjectSensor.App.FrameBounds
import ProjectSensor.App.Persistence
import ProjectSensor.App.ValidResponses

/-!
# The events that save

When a frame has been answered, the handler looks at the record of the last request that named
registers and posts a save if that was a write.  The record says nothing about the response, and
other functions leave it as it was.
-/

open ProjectSensor.Library ProjectSensor.Library.ByteMemory ProjectSensor.Library.LinkedRing
open ProjectSensor.Library.Transition
open ProjectSensor.Service ProjectSensor.Bsp ProjectSensor.Reactor

namespace ProjectSensor.App

/-- The frame is an accepted write request that gets the normal response. -/
def WriteAnswered (d : DeviceCommu) (handed : HandedFrame) : Prop :=
  (unpack handed.rtu handed.pbuf handed.len).value = 0 ∧ handed.len ≠ 0 ∧ IsWrite handed.pbuf ∧
    (Exchange.pack handlePrepare ⟨handed.pbuf, d.rtu, d.datum⟩ 0 0 handed.len).2.ram 1 =
      handed.pbuf 1

/-- A call of `package_recv_handle` posts a save exactly when the frame is a write request with the
normal response, and the save carries the window of that frame. -/
structure SavesAccepted (d : DeviceCommu) (received : Received) : Prop where
  onlyAccepted : ∀ event ∈ received.posted, ∃ handed ∈ received.handed, WriteAnswered d handed ∧
    event.handler = some .datumSave ∧
      eventWindow event = (requestReg handed.pbuf, requestRegNo handed.pbuf)
  allAccepted : ∀ handed ∈ received.handed, WriteAnswered d handed → received.posted.isSome

/-- The registers of a write request exist and take its values. -/
def Acceptable (ram : Ram) : Prop :=
  InWindow ram ∧ ∀ i, ∀ hi : i < (requestValues ram).length,
    refuses ((requestReg ram).toNat + i) (requestValues ram)[i] = false

/-- The record of the last request that named registers is that of a write. -/
def RecordsWrite (info : ModbusRtuInfo) : Prop :=
  info.type = .modbusRtu ∧
    (info.function = fcWriteSingleRegister ∨ info.function = fcWriteMultipleRegisters)

/-- An accepted frame is a write whose values are taken, a read, or the record is not that of a
write. -/
def RecordFits (handed : HandedFrame) : Prop :=
  (unpack handed.rtu handed.pbuf handed.len).value = 0 →
    if handed.len ≠ 0 ∧ namesRegisters (handed.pbuf 1) = true then
      IsWrite handed.pbuf → Acceptable handed.pbuf
    else ¬ RecordsWrite handed.rtu.info

theorem acceptable_iff (ram : Ram) (para : Mem) :
    Acceptable ram ↔ (writeOutcome ram para).1 = true := by
  unfold writeOutcome
  by_cases hwindow : InWindow ram
  · rw [if_pos hwindow]
    constructor
    · rintro ⟨-, haccept⟩
      by_contra hreject
      obtain ⟨j, hj, hrefuse, -⟩ := storeAll_rejected (Bool.eq_false_iff.mpr hreject)
      rw [haccept j hj] at hrefuse
      exact Bool.false_ne_true hrefuse
    · intro haccepted
      exact ⟨hwindow, fun i hi ↦ not_refuses_of_accepted haccepted hi⟩
  · rw [if_neg hwindow]
    exact iff_of_false (fun h ↦ hwindow h.1) Bool.false_ne_true

theorem packageEventDone_eq_none {info : ModbusRtuInfo} (hother : ¬ RecordsWrite info)
    (param : Mem) : packageEventDone info param = none := by
  unfold packageEventDone
  by_cases htype : info.type = .modbusRtu
  · rw [if_neg (not_not.mpr htype), if_neg fun h ↦ hother ⟨htype, h⟩]
  · rw [if_pos htype]

theorem packageEventDone_of_recordsWrite {info : ModbusRtuInfo} (h : RecordsWrite info)
    (param : Mem) : packageEventDone info param = some (saveEvent param info.reg info.regNo) := by
  unfold packageEventDone
  rw [if_neg (not_not.mpr h.1), if_pos h.2]

section Step

variable {d : DeviceCommu} {slave : Byte} {info : ModbusRtuInfo}

/-- A frame that names no registers leaves the record alone. -/
theorem write_rtu_of_other (hrtu : d.rtu = configured slave info) {pbuf : Ram} {len : BitVec 16}
    (hother : ¬ (len ≠ 0 ∧ namesRegisters (pbuf 1) = true)) : (d.write pbuf len).rtu = d.rtu := by
  unfold DeviceCommu.write
  by_cases hlen : len = 0
  · rw [if_pos hlen]
  · have hnames : ¬ namesRegisters (pbuf 1) = true := fun h ↦ hother ⟨hlen, h⟩
    have hreplied : ∀ reqLength, (Exchange.replied handlePrepare slave info d.datum pbuf
        reqLength).2.rtu = configured slave info := by
      intro reqLength
      unfold Exchange.replied
      rw [if_neg hnames]
      by_cases hslaveId : pbuf 1 = fcReportSlaveId
      · rw [if_pos hslaveId]
        simp only [Exchange.setByte_rtu, Exchange.setBytes_rtu]
      · rw [if_neg hslaveId]
        rfl
    rw [if_neg hlen, hrtu]
    simp only [Exchange.pack, Exchange.modbusReply_eq]
    exact hreplied _

/-- A read leaves the record of a read. -/
theorem write_function_of_read (hrtu : d.rtu = configured slave info) {pbuf : Ram}
    {len : BitVec 16} (hlen : len ≠ 0) (hread : IsRead pbuf) :
    (d.write pbuf len).rtu.info.function = pbuf 1 := by
  have hnames : namesRegisters (pbuf 1) = true := (namesRegisters_iff pbuf).mpr (.inl hread)
  have hreplied : ∀ reqLength, (Exchange.replied handlePrepare slave info d.datum pbuf
      reqLength).2.rtu.info.function = pbuf 1 := by
    intro reqLength
    unfold Exchange.replied
    rw [if_pos hnames]
    by_cases hexist : RegistersExist pbuf
    · rw [if_pos hexist, Exchange.handlePrepare_read slave info d.datum hread]
      simp only [Exchange.answered, if_true, if_pos hread]
      rfl
    · obtain ⟨info', hprepared, hfunction⟩ :=
        Exchange.prepared_configured slave info d.datum pbuf
      rw [if_neg hexist]
      exact (congrArg (fun rtu ↦ rtu.info.function) hprepared).trans hfunction
  unfold DeviceCommu.write
  rw [if_neg hlen, hrtu]
  simp only [Exchange.pack, Exchange.modbusReply_eq]
  exact hreplied _

/-- A write leaves its own record. -/
theorem write_rtu_of_write (hrtu : d.rtu = configured slave info) {pbuf : Ram} {len : BitVec 16}
    (hlen : len ≠ 0) (hwrite : IsWrite pbuf) :
    (d.write pbuf len).rtu = configured slave (requestInfo info pbuf) := by
  unfold DeviceCommu.write
  rw [if_neg hlen, hrtu]
  exact (Exchange.pack_write slave info d.datum len hwrite).1

/-- The response to a write request is the normal one exactly when its values are taken. -/
theorem writeAnswered_iff (hrtu : d.rtu = configured slave info) {handed : HandedFrame}
    (hhanded : handed.rtu = d.rtu)
    (haccept : (unpack handed.rtu handed.pbuf handed.len).value = 0) (hlen : handed.len ≠ 0)
    (hwrite : IsWrite handed.pbuf) : WriteAnswered d handed ↔ Acceptable handed.pbuf := by
  have hne : handed.pbuf 1 + 0x80 ≠ handed.pbuf 1 := by
    rcases hwrite with hfun | hfun <;> rw [hfun] <;> decide
  have hfunction : (Exchange.pack handlePrepare ⟨handed.pbuf, configured slave info, d.datum⟩ 0 0
      handed.len).2.ram 1 =
        if (writeOutcome handed.pbuf d.datum.para).1 then handed.pbuf 1
        else handed.pbuf 1 + 0x80 := by
    apply Exchange.pack_write_function hwrite
    rw [← hrtu, ← hhanded]
    exact haccept
  rw [WriteAnswered, acceptable_iff handed.pbuf d.datum.para, hrtu, hfunction]
  cases (writeOutcome handed.pbuf d.datum.para).1 with
  | true => exact iff_of_true ⟨haccept, hlen, hwrite, if_pos rfl⟩ rfl
  | false =>
      have hexception : (if false = true then handed.pbuf 1 else handed.pbuf 1 + 0x80) ≠
          handed.pbuf 1 := hne
      exact iff_of_false (fun h ↦ hexception h.2.2.2) Bool.false_ne_true

section Handed

variable {handed : HandedFrame} {received : Received}

/-- A call that posts nothing. -/
theorem savesAccepted_none_iff (hreceived : received.handed = some handed)
    (hposted : received.posted = none) : SavesAccepted d received ↔ ¬ WriteAnswered d handed := by
  constructor
  · intro hsaves hwritten
    have hsome := hsaves.allAccepted handed hreceived hwritten
    rw [hposted] at hsome
    exact Bool.false_ne_true hsome
  · intro hwritten
    constructor
    · intro event hevent
      rw [hposted] at hevent
      exact absurd hevent (Option.not_mem_none _)
    · intro handed' hhanded'
      rw [hreceived] at hhanded'
      obtain rfl := Option.some.inj hhanded'
      exact fun h ↦ absurd h hwritten

/-- A call that posts an event. -/
theorem savesAccepted_some_iff {event : Event EventHandler Unit}
    (hreceived : received.handed = some handed) (hposted : received.posted = some event) :
    SavesAccepted d received ↔ WriteAnswered d handed ∧ event.handler = some .datumSave ∧
      eventWindow event = (requestReg handed.pbuf, requestRegNo handed.pbuf) := by
  constructor
  · intro hsaves
    obtain ⟨handed', hhanded', hwritten⟩ := hsaves.onlyAccepted event hposted
    rw [hreceived] at hhanded'
    obtain rfl := Option.some.inj hhanded'
    exact hwritten
  · intro hwritten
    constructor
    · intro event' hevent'
      rw [hposted] at hevent'
      obtain rfl := Option.some.inj hevent'
      exact ⟨handed, hreceived, hwritten⟩
    · intro _ _ _
      rw [hposted]
      rfl

/-- What an accepted frame has posted is right exactly when the record fits it. -/
theorem savesAccepted_accepted_iff (hrtu : d.rtu = configured slave info) (uart : Transceiver)
    (param : Mem) (hhanded : handed.rtu = d.rtu)
    (haccept : (unpack handed.rtu handed.pbuf handed.len).value = 0)
    (hreceived : received.handed = some handed)
    (hposted : received.posted =
      packageEventDone ({ d with uart := uart }.write handed.pbuf handed.len).rtu.info param) :
    SavesAccepted d received ↔ RecordFits handed := by
  have hfits : RecordFits handed ↔
      if handed.len ≠ 0 ∧ namesRegisters (handed.pbuf 1) = true then
        IsWrite handed.pbuf → Acceptable handed.pbuf
      else ¬ RecordsWrite d.rtu.info := by
    rw [← hhanded]
    exact forall_prop_of_true haccept
  rw [hfits]
  by_cases hnames : handed.len ≠ 0 ∧ namesRegisters (handed.pbuf 1) = true
  · rw [if_pos hnames]
    by_cases hwrite : IsWrite handed.pbuf
    · -- the event of a write carries its own window
      have hanswered := writeAnswered_iff hrtu hhanded haccept hnames.1 hwrite
      have hrecord : RecordsWrite (requestInfo info handed.pbuf) := ⟨rfl, hwrite⟩
      rw [write_rtu_of_write (d := { d with uart := uart }) hrtu hnames.1 hwrite,
        configured, packageEventDone_of_recordsWrite hrecord] at hposted
      rw [savesAccepted_some_iff hreceived hposted, hanswered]
      constructor
      · intro h _
        exact h.1
      · intro haccepts
        exact ⟨haccepts hwrite, rfl, eventWindow_saveEvent _ _ _⟩
    · have hread : IsRead handed.pbuf :=
        ((namesRegisters_iff _).mp hnames.2).resolve_right hwrite
      have hfunction := write_function_of_read (d := { d with uart := uart }) hrtu hnames.1 hread
      have hnone : received.posted = none := by
        rw [hposted]
        apply packageEventDone_eq_none
        intro hrecord
        rw [RecordsWrite, hfunction] at hrecord
        exact hwrite hrecord.2
      rw [savesAccepted_none_iff hreceived hnone]
      exact iff_of_true (fun h ↦ hwrite h.2.2.1) fun h ↦ absurd h hwrite
  · -- the record is that of an earlier request
    have hanswered : ¬ WriteAnswered d handed :=
      fun h ↦ hnames ⟨h.2.1, namesRegisters_of_isWrite h.2.2.1⟩
    rw [if_neg hnames]
    rw [write_rtu_of_other (d := { d with uart := uart }) hrtu hnames] at hposted
    by_cases hrecord : RecordsWrite d.rtu.info
    · rw [packageEventDone_of_recordsWrite hrecord] at hposted
      rw [savesAccepted_some_iff hreceived hposted]
      exact iff_of_false (fun h ↦ hanswered h.1) (not_not.mpr hrecord)
    · rw [packageEventDone_eq_none hrecord] at hposted
      rw [savesAccepted_none_iff hreceived hposted]
      exact iff_of_true hanswered hrecord

end Handed

/-- A call that posts after an exception. -/
theorem not_savesAccepted_of_exception {received : Received} (hposted : received.posted.isSome)
    (hexception : ∀ handed ∈ received.handed,
      (Exchange.pack handlePrepare ⟨handed.pbuf, d.rtu, d.datum⟩ 0 0 handed.len).2.ram 1 ≠
        handed.pbuf 1) :
    ¬ SavesAccepted d received := by
  intro hsaves
  obtain ⟨event, hevent⟩ := Option.isSome_iff_exists.mp hposted
  obtain ⟨handed, hhanded, hwritten, -⟩ := hsaves.onlyAccepted event hevent
  exact hexception handed hhanded hwritten.2.2.2

/-- One call posts what it should exactly when the record fits the frame. -/
theorem savesAccepted_iff (hrtu : d.rtu = configured slave info) (buf : Ram) (param : Mem) :
    SavesAccepted d (d.packageRecvHandle buf param) ↔
      ∀ frame ∈ d.uart.fetch.1, RecordFits (handedOf d.rtu buf frame) := by
  unfold DeviceCommu.packageRecvHandle
  cases hfetch : d.uart.fetch with
  | mk fetched uart =>
      cases fetched with
      | none => exact iff_of_true ⟨by simp, by simp⟩ (by simp)
      | some frame =>
          simp only [Option.mem_def, Option.some.injEq, forall_eq']
          by_cases haccept : (unpack d.rtu (put buf frame) (BitVec.ofNat 16 frame.length)).value = 0
          · rw [if_neg (not_not.mpr haccept)]
            exact savesAccepted_accepted_iff hrtu uart param rfl haccept rfl rfl
          · rw [if_pos haccept, savesAccepted_none_iff rfl rfl]
            exact iff_of_true (fun h ↦ haccept h.1) fun h ↦ absurd h haccept

end Step

/-! ### Runs of the application -/

/-- The protocol is configured as `init` leaves it, whatever the slave address. -/
def Configured (app : Application) : Prop := ∃ slave info, app.device.rtu = configured slave info

theorem configured_init (datum : ModelDatum) (eeprom : Mem) (outcomes : List Outcome)
    (links : Links EventNode) (param : Fin eventNr → Mem) :
    Configured (Application.init datum eeprom outcomes links param).2 :=
  ⟨1, ProtocolModbusRtu.construct.info, rfl⟩

theorem configured_slaveSet {app : Application} (h : Configured app) : Configured app.slaveSet := by
  obtain ⟨slave, info, hrtu⟩ := h
  refine ⟨if (app.para ucLinkAddrAt).toNat ≤ 247 then app.para ucLinkAddrAt else slave, info, ?_⟩
  rw [Application.slaveSet, DeviceCommu.slaveSet, hrtu, slaveSet_configured]

theorem configured_saveWrite {app : Application} (h : Configured app) (reg regNo : BitVec 16)
    (pass : Pass) : Configured (app.saveWrite reg regNo pass) := by
  cases pass with
  | underWay access retryNumb => exact h
  | returned size =>
      unfold Application.saveWrite
      simp only
      split
      · exact h
      · exact h

theorem configured_saveStep {app : Application} (h : Configured app) (saving : Saving)
    (outcome : Outcome) : Configured (app.saveStep saving outcome) := by
  obtain ⟨reg, regNo, stage⟩ := saving
  unfold Application.saveStep
  cases stage with
  | write access retryNumb =>
      apply configured_saveWrite
      exact h
  | slaveSet =>
      simp only
      split
      · exact configured_slaveSet h
      · exact h
  | baudSet =>
      simp only
      split
      · exact h
      · exact h

theorem configured_handle {app : Application} (h : Configured app) (outcome : Outcome) :
    Configured (app.handle outcome) := by
  unfold Application.handle
  split
  · split
    · exact configured_saveStep h _ _
    · split
      · unfold Application.datumSave
        apply configured_saveWrite
        exact h
      · exact h
  · exact h

theorem configured_step {app : Application} (h : Configured app) (action : AppAction) :
    Configured (app.step action) := by
  cases action with
  | byte c => exact h
  | byteTimer => exact h
  | txDone => exact h
  | handle outcome => exact configured_handle h outcome
  | recvHandle buf param =>
      obtain ⟨slave, info, hrtu⟩ := h
      obtain ⟨info', hrtu'⟩ := (packageRecvHandle_effect hrtu buf param).configured
      refine ⟨slave, info', ?_⟩
      simp only [Application.step, Application.recvHandle]
      split
      · exact hrtu'
      · exact hrtu'

/-- A step posts saves for accepted writes and only for them. -/
def StepSavesAccepted (app : Application) : AppAction → Prop
  | .recvHandle buf param => SavesAccepted app.device (app.device.packageRecvHandle buf param)
  | _ => True

/-- The frame at the front of the queue, if one is about to be taken, fits the record. -/
def StepRecordFits (app : Application) : AppAction → Prop
  | .recvHandle buf _ =>
      ∀ frame ∈ app.device.uart.fetch.1, RecordFits (handedOf app.device.rtu buf frame)
  | _ => True

/-- In every run of the application, saves are posted for the accepted writes and only for them, if
and only if every accepted frame is a write whose values are taken, a read, or comes when the last
request that named registers was no write. -/
theorem savesAccepted_run_iff (datum : ModelDatum) (eeprom : Mem) (outcomes : List Outcome)
    (links : Links EventNode) (param : Fin eventNr → Mem) (actions : List AppAction) :
    AllSteps Application.step StepSavesAccepted
        (Application.init datum eeprom outcomes links param).2 actions ↔
      AllSteps Application.step StepRecordFits
        (Application.init datum eeprom outcomes links param).2 actions := by
  apply allSteps_congr Configured
  · intro app action h
    exact configured_step h action
  · intro app action h
    obtain ⟨slave, info, hrtu⟩ := h
    cases action with
    | recvHandle buf param => exact savesAccepted_iff hrtu buf param
    | _ => exact Iff.rfl
  · exact configured_init datum eeprom outcomes links param

/-- Baud 9 is refused with an exception, and a save is posted. -/
theorem savesAccepted_fails_for_refused_write :
    ¬ AllSteps Application.step StepSavesAccepted
      (Application.init ⟨fun _ ↦ 0, fun _ ↦ 0⟩ (imageOf defaults) [] ⟨id, id⟩ fun _ _ ↦ 0).2
      (request [1, 6, 0, 1, 0, 9, 0x18, 0x0C]) := by
  intro hsteps
  rw [init_of_valid _ _ _ _ (by simp) (validImage_imageOf _)] at hsteps
  have hcall := (AllSteps.append_right hsteps).2.1
  apply not_savesAccepted_of_exception _ _ hcall
  · decide +kernel
  · decide +kernel

end ProjectSensor.App
