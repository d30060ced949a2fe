import ProjectSensor.App.Commu
import ProjectSensor.App.RegisterWrite

/-!
# The effect of a request

Whatever frame is answered, the protocol stays configured as it is and only a write request changes
registers.  Every write request posts an event with its window, also when it was answered with an
exception.
-/

open ProjectSensor.Library ProjectSensor.Library.ByteMemory ProjectSensor.Service

namespace ProjectSensor.App

/-- The registers are untouched and the protocol is configured as before. -/
def Keeps (slave : Byte) (datum : ModelDatum) (x : Exchange) : Prop :=
  x.datum = datum ∧ ∃ info, x.rtu = configured slave info

namespace Keeps

variable {slave : Byte} {datum : ModelDatum} {x : Exchange}

theorem setByte (h : Keeps slave datum x) (addr : ℤ) (value : Byte) :
    Keeps slave datum (x.setByte addr value) := h

theorem setBytes (h : Keeps slave datum x) (addr : ℤ) (values : List Byte) :
    Keeps slave datum (x.setBytes addr values) := by
  induction values generalizing x addr with
  | nil => exact h
  | cons value values ih => exact ih (h.setByte addr value) (addr + 1)

theorem sendMsgPre (h : Keeps slave datum x) (req length : ℤ) :
    Keeps slave datum (x.sendMsgPre req length).2 := h

/-- The handler only writes registers when the function says so. -/
theorem handlePrepare (h : Keeps slave datum x)
    (hread : x.rtu.info.function ≠ fcWriteSingleRegister ∧
      x.rtu.info.function ≠ fcWriteMultipleRegisters) :
    Keeps slave datum (handlePrepare x).2 := by
  obtain ⟨hdatum, info, hrtu⟩ := h
  have hwrite : ¬ (x.rtu.info.function = fcWriteSingleRegister ∨
      x.rtu.info.function = fcWriteMultipleRegisters) := by tauto
  simp only [App.handlePrepare, packageEventPrepare, if_neg hwrite]
  split
  · exact ⟨hdatum, info, hrtu⟩
  split
  · exact ⟨hdatum, { x.rtu.info with paramLen := x.rtu.info.regNo * 2 }, by
      simp only [hrtu, configured]⟩
  · exact ⟨hdatum, info, hrtu⟩

/-- Both branches of a choice keep the registers. -/
theorem ite {slave : Byte} {datum : ModelDatum} {p : Prop} [Decidable p] {y z : ℤ × Exchange}
    (hy : Keeps slave datum y.2) (hz : Keeps slave datum z.2) :
    Keeps slave datum (if p then y else z).2 := by
  split
  · exact hy
  · exact hz

end Keeps

namespace Exchange

variable {ram : Ram} {slave : Byte} {info : ModbusRtuInfo} {datum : ModelDatum}

theorem keeps_prepared (slave : Byte) (info : ModbusRtuInfo) (datum : ModelDatum) (ram : Ram) :
    Keeps slave datum (prepared slave info datum ram) := by
  unfold prepared
  split
  · exact ⟨rfl, _, rfl⟩
  · exact ⟨rfl, _, rfl⟩

theorem keeps_answered {result : ℤ × Exchange} (h : Keeps slave datum result.2) (reqLength : ℤ) :
    Keeps slave datum (answered ram reqLength result).2 := by
  unfold answered
  apply Keeps.ite
  · apply Keeps.ite
    · exact h
    apply Keeps.ite
    · exact h
    · exact h
  · exact h

/-- A request that is no write request leaves the registers alone. -/
theorem keeps_pack (slave : Byte) (info : ModbusRtuInfo) (datum : ModelDatum) (len : BitVec 16)
    (hread : ¬ IsWrite ram) :
    Keeps slave datum (pack App.handlePrepare ⟨ram, configured slave info, datum⟩ 0 0 len).2 := by
  have hstart : Keeps slave datum ⟨ram, configured slave info, datum⟩ := ⟨rfl, info, rfl⟩
  have hprepared := keeps_prepared slave info datum ram
  obtain ⟨info', hrtu, hfunction⟩ := prepared_configured slave info datum ram
  have hhandle : Keeps slave datum (App.handlePrepare (prepared slave info datum ram)).2 := by
    apply hprepared.handlePrepare
    rw [hrtu, configured, hfunction]
    exact not_or.mp hread
  simp only [pack, modbusReply_eq]
  apply Keeps.sendMsgPre
  apply Keeps.ite
  · apply Keeps.ite
    · exact keeps_answered hhandle _
    · exact hprepared
  apply Keeps.ite
  · apply Keeps.setByte
    apply Keeps.setBytes
    exact hstart
  · exact hstart

end Exchange

/-- The window of registers an event carries, as `datum_save` reads it. -/
def eventWindow (event : Event EventHandler Unit) : BitVec 16 × BitVec 16 :=
  let (reg, buffer) := event.buffer.readInt16
  (reg, buffer.readInt16.1)

theorem eventWindow_saveEvent (param : Mem) (reg regNo : BitVec 16) :
    eventWindow (saveEvent param reg regNo) = (reg, regNo) := by
  have hfirst : load16 (store16 (store16 param 4 reg) 6 regNo) 4 = reg := by
    rw [load16_store16_of_disjoint _ _ (by omega), load16_store16_same]
  have hsecond : load16 (store16 (store16 param 4 reg) 6 regNo) 6 = regNo :=
    load16_store16_same _ _ _
  have hbuffer : (saveEvent param reg regNo).buffer =
      ⟨store16 (store16 param 4 reg) 6 regNo, eventDataSize, 4, 4, 8⟩ := by
    simp [saveEvent, Event.construct, Buffer.construct, Buffer.appendInt16, Buffer.writableBytes,
      sizeSub, eventDataSize]
  have hread : (saveEvent param reg regNo).buffer.readInt16 =
      (reg, ⟨store16 (store16 param 4 reg) 6 regNo, eventDataSize, 4, 6, 8⟩) := by
    rw [hbuffer, Buffer.readInt16, Buffer.peekInt16, hfirst]
    simp [Buffer.retrieve, Buffer.readableBytes, sizeSub]
  rw [eventWindow, hread]
  simp only [Buffer.readInt16, Buffer.peekInt16, hsecond]

/-- What one call of `package_recv_handle` does: every event it posts saves the registers, and the
registers change only when it posts the window of the write request it answers. -/
structure Effect (d : DeviceCommu) (slave : Byte) (received : Received) : Prop where
  configured : ∃ info, received.device.rtu = configured slave info
  saves : ∀ event ∈ received.posted, event.handler = some .datumSave
  change : received.device.datum = d.datum ∨ ∃ ram, ∃ event ∈ received.posted,
    eventWindow event = (requestReg ram, requestRegNo ram) ∧
      received.device.datum = { d.datum with para := (writeOutcome ram d.datum.para).2 }

theorem saves_packageEventDone (info : ModbusRtuInfo) (param : Mem) :
    ∀ event ∈ packageEventDone info param, event.handler = some .datumSave := by
  intro event hposted
  unfold packageEventDone at hposted
  split at hposted
  · exact absurd hposted (Option.not_mem_none _)
  split at hposted
  · obtain rfl := Option.some.inj hposted
    rfl
  · exact absurd hposted (Option.not_mem_none _)

/-- The protocol and the registers after a request was answered. -/
theorem write_effect {d : DeviceCommu} {slave : Byte} {info : ModbusRtuInfo}
    (hrtu : d.rtu = configured slave info) (pbuf : Ram) (len : BitVec 16) :
    (∃ info', (d.write pbuf len).rtu = configured slave info') ∧
      ((d.write pbuf len).datum = d.datum ∨ IsWrite pbuf ∧
        (d.write pbuf len).rtu = configured slave (requestInfo info pbuf) ∧
        (d.write pbuf len).datum =
          { d.datum with para := (writeOutcome pbuf d.datum.para).2 }) := by
  by_cases hlen : len = 0
  · rw [DeviceCommu.write, if_pos hlen]
    exact ⟨⟨info, hrtu⟩, .inl rfl⟩
  have hparts : (d.write pbuf len).rtu =
        (Exchange.pack handlePrepare ⟨pbuf, configured slave info, d.datum⟩ 0 0 len).2.rtu ∧
      (d.write pbuf len).datum =
        (Exchange.pack handlePrepare ⟨pbuf, configured slave info, d.datum⟩ 0 0 len).2.datum := by
    rw [DeviceCommu.write, if_neg hlen, hrtu]
    exact ⟨rfl, rfl⟩
  rw [hparts.1, hparts.2]
  by_cases hwrite : IsWrite pbuf
  · obtain ⟨hafter, hdatum⟩ := Exchange.pack_write slave info d.datum len hwrite
    exact ⟨⟨_, hafter⟩, .inr ⟨hwrite, hafter, hdatum⟩⟩
  · obtain ⟨hdatum, hafter⟩ := Exchange.keeps_pack slave info d.datum len hwrite
    exact ⟨hafter, .inl hdatum⟩

/-- The spec of `package_recv_handle`. -/
theorem packageRecvHandle_effect {d : DeviceCommu} {slave : Byte} {info : ModbusRtuInfo}
    (hrtu : d.rtu = configured slave info) (buf : Ram) (param : Mem) :
    Effect d slave (d.packageRecvHandle buf param) := by
  unfold DeviceCommu.packageRecvHandle
  rcases hfetch : d.uart.fetch with ⟨_ | frame, uart⟩
  · exact ⟨⟨info, hrtu⟩, by simp, .inl rfl⟩
  simp only
  split
  · exact ⟨⟨info, hrtu⟩, by simp, .inl rfl⟩
  have hanswer := write_effect (d := { d with uart := uart }) hrtu (put buf frame)
    (BitVec.ofNat 16 frame.length)
  obtain ⟨hconfigured, hsame | ⟨hwrite, hafter, hdatum⟩⟩ := hanswer
  · exact ⟨hconfigured, saves_packageEventDone _ _, .inl hsame⟩
  · refine ⟨hconfigured, saves_packageEventDone _ _, .inr ⟨put buf frame, saveEvent param
      (requestReg (put buf frame)) (requestRegNo (put buf frame)), ?_, ?_, hdatum⟩⟩
    · simp only [hafter, packageEventDone, App.configured, requestInfo, ne_eq, not_true_eq_false,
        if_false]
      exact if_pos hwrite
    · exact eventWindow_saveEvent _ _ _

/-! ### The registers a write request changes -/

/-- A register outside the window of the request keeps its content. -/
theorem cell_writeOutcome_of_outside {ram : Ram} (para : Mem) {other : ℕ}
    (hother : other < (requestReg ram).toNat ∨
      (requestReg ram).toNat + (requestRegNo ram).toNat ≤ other) :
    cell (writeOutcome ram para).2 other = cell para other := by
  unfold writeOutcome
  split
  · apply cell_storeAll_of_outside
    rwa [requestValues, payload_length]
  · rfl

/-- The content of a byte register is its byte. -/
theorem para_eq_of_cell_eq {para para' : Mem} {reg : ℕ} (hreg : reg < splitHoldRIndex1)
    (hcell : cell para' reg = cell para reg) :
    para' (ucLinkAddrAt + reg) = para (ucLinkAddrAt + reg) := by
  simp only [cell, hreg, if_true] at hcell
  apply BitVec.eq_of_toNat_eq
  have hnat := congrArg BitVec.toNat hcell
  simp only [BitVec.toNat_setWidth] at hnat
  omega

/-- An accepted value of a byte register is the byte that is stored. -/
theorem para_setCell_same {reg : ℕ} {value : BitVec 16} (para : Mem) (hreg : reg < splitHoldRIndex1)
    (haccept : refuses reg value = false) :
    (setCell para reg value (ucLinkAddrAt + reg)).toNat = value.toNat := by
  have hsame := cell_setCell_same para (hreg.trans (by decide)) haccept
  have hnat := congrArg BitVec.toNat hsame
  rw [cell, if_pos hreg, BitVec.toNat_setWidth] at hnat
  omega

section Bound

variable {reg bound : ℕ} (hreg : reg < splitHoldRIndex1)
  (hrange : ∀ value, refuses reg value = false → value.toNat ≤ bound)

include hreg hrange

/-- Stores keep a byte register in its range. -/
theorem bound_storeAll {para : Mem} (hpara : (para (ucLinkAddrAt + reg)).toNat ≤ bound) (first : ℕ)
    (values : List (BitVec 16)) :
    ((storeAll para first values).2 (ucLinkAddrAt + reg)).toNat ≤ bound := by
  induction values generalizing para first with
  | nil => exact hpara
  | cons value values ih =>
      unfold storeAll
      cases hrefuse : refuses first value with
      | true => exact hpara
      | false =>
          simp only [Bool.false_eq_true, if_false]
          apply ih
          by_cases hfirst : reg = first
          · subst hfirst
            rw [para_setCell_same para hreg hrefuse]
            exact hrange value hrefuse
          · rwa [para_eq_of_cell_eq hreg (cell_setCell_of_ne para value hfirst)]

theorem bound_writeOutcome {para : Mem} (hpara : (para (ucLinkAddrAt + reg)).toNat ≤ bound)
    (ram : Ram) : ((writeOutcome ram para).2 (ucLinkAddrAt + reg)).toNat ≤ bound := by
  unfold writeOutcome
  split
  · exact bound_storeAll hreg hrange hpara _ _
  · exact hpara

end Bound

/-- The range of a byte register, as `t_hold_reg_0_6` gives it. -/
theorem le_max_of_not_refuses {reg : ℕ} {range : ParamRange} {value : BitVec 16}
    (hrange : tHoldReg0To6[reg]? = some range) (haccept : refuses reg value = false) :
    value.toNat ≤ range.max.toNat := by
  simp only [refuses, hrange, Option.any_some, ParamRange.refuses, Bool.or_eq_false_iff,
    decide_eq_false_iff_not, BitVec.not_lt, BitVec.le_def, BitVec.toNat_setWidth] at haccept
  omega

end ProjectSensor.App
