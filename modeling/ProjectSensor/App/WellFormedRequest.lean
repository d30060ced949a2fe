import ProjectSensor.App.ValidResponses

/-!
# Well-formed requests

`modbus_reply` takes address, count and values at fixed offsets and never looks at the length of the
frame.  A request is executed whenever the registers it seems to name exist; whether the frame has
the layout of its function makes no difference.
-/

open ProjectSensor.Library ProjectSensor.Library.ByteMemory ProjectSensor.Api

namespace ProjectSensor.App

/-- The layout of the four functions that name registers. -/
def ExactLayout (ram : Ram) (len : BitVec 16) : Prop :=
  if ram 1 = fcWriteMultipleRegisters then
    len.toNat = 9 + 2 * (requestRegNo ram).toNat ∧ (ram 6).toNat = 2 * (requestRegNo ram).toNat
  else namesRegisters (ram 1) = true ∧ len.toNat = 8

/-- The end of the bytes that are taken as address, count or value. -/
def takenEnd (ram : Ram) : ℕ :=
  if ram 1 = fcWriteMultipleRegisters then 6 + 2 * (requestRegNo ram).toNat else 6

/-- The handler is asked: the answer depends on what it does. -/
def ConsultsHandler (slave : Byte) (info : ModbusRtuInfo) (datum : ModelDatum) (ram : Ram)
    (len : BitVec 16) : Prop :=
  ∃ handle handle', Exchange.pack handle ⟨ram, configured slave info, datum⟩ 0 0 len ≠
    Exchange.pack handle' ⟨ram, configured slave info, datum⟩ 0 0 len

/-- Only a well-formed request is executed. -/
structure ExecutesWellFormed (slave : Byte) (info : ModbusRtuInfo) (datum : ModelDatum) (ram : Ram)
    (len : BitVec 16) : Prop where
  normal : namesRegisters (ram 1) = true →
    (Exchange.pack handlePrepare ⟨ram, configured slave info, datum⟩ 0 0 len).2.ram 1 = ram 1 →
      ExactLayout ram len
  handler : ConsultsHandler slave info datum ram len → ExactLayout ram len
  beforeCrc : ConsultsHandler slave info datum ram len → takenEnd ram + 2 ≤ len.toNat

/-- In the layout of its function a request has its values before its checksum. -/
theorem takenEnd_le_of_exactLayout {ram : Ram} {len : BitVec 16} (hlayout : ExactLayout ram len) :
    takenEnd ram + 2 ≤ len.toNat := by
  unfold ExactLayout at hlayout
  unfold takenEnd
  by_cases hmultiple : ram 1 = fcWriteMultipleRegisters
  · rw [if_pos hmultiple] at hlayout ⊢
    omega
  · rw [if_neg hmultiple] at hlayout ⊢
    omega

section Consults

variable {slave : Byte} {info : ModbusRtuInfo} {datum : ModelDatum} {ram : Ram} {len : BitVec 16}

/-- A handler that refuses and leaves its mark. -/
def markingHandle (mark : ModelDatum) (x : Exchange) : ℤ × Exchange :=
  (-1, { x with datum := mark })

theorem pack_markingHandle (mark : ModelDatum) (hnames : namesRegisters (ram 1) = true)
    (hexist : RegistersExist ram) :
    (Exchange.pack (markingHandle mark) ⟨ram, configured slave info, datum⟩ 0 0 len).2.datum =
      mark := by
  simp only [Exchange.pack, Exchange.modbusReply_eq, Exchange.replied, hnames, if_true,
    if_pos hexist, markingHandle, Exchange.answered]
  rfl

/-- The handler is asked exactly when the registers exist. -/
theorem consultsHandler_iff :
    ConsultsHandler slave info datum ram len ↔
      namesRegisters (ram 1) = true ∧ RegistersExist ram := by
  constructor
  · rintro ⟨handle, handle', hne⟩
    by_contra hnot
    apply hne
    have hsame : Exchange.replied handle slave info datum ram ((len.toNat : ℤ) - 2) =
        Exchange.replied handle' slave info datum ram ((len.toNat : ℤ) - 2) := by
      unfold Exchange.replied
      by_cases hnames : namesRegisters (ram 1) = true
      · have hexist : ¬ RegistersExist ram := fun h ↦ hnot ⟨hnames, h⟩
        rw [if_neg hexist, if_neg hexist]
      · rw [if_neg hnames, if_neg hnames]
    simp only [Exchange.pack, Exchange.modbusReply_eq, hsame]
  · rintro ⟨hnames, hexist⟩
    refine ⟨markingHandle ⟨fun _ ↦ 0, fun _ ↦ 0⟩, markingHandle ⟨fun _ ↦ 1, fun _ ↦ 0⟩, ?_⟩
    intro heq
    have hdatum := congrArg (fun response : BitVec 16 × Exchange ↦ response.2.datum.para 0) heq
    simp only [pack_markingHandle _ hnames hexist] at hdatum
    exact absurd hdatum (by decide)

/-- Without the registers the response is an exception. -/
theorem pack_function_of_not_exist (hnames : namesRegisters (ram 1) = true)
    (hexist : ¬ RegistersExist ram) :
    (Exchange.pack handlePrepare ⟨ram, configured slave info, datum⟩ 0 0 len).2.ram 1 =
      ram 1 + 0x80 := by
  have hbody : Exchange.Body slave ram (ram 1 + 0x80)
      (Exchange.replied handlePrepare slave info datum ram ((len.toNat : ℤ) - 2)) := by
    obtain ⟨info', hrtu, -⟩ := Exchange.prepared_configured slave info datum ram
    unfold Exchange.replied
    rw [if_pos hnames, if_neg hexist]
    exact Exchange.body_responseException ⟨info', hrtu⟩ _ _
  rw [Exchange.pack_ram_of_body hbody 1 (by decide), hbody.function]

end Consults

/-- A frame, accepted or not, is executed only if it is well formed, if and only if, when it names
registers that exist, it has the layout of its function. -/
theorem executesWellFormed_iff (slave : Byte) (info : ModbusRtuInfo) (datum : ModelDatum)
    (ram : Ram) (len : BitVec 16) :
    ExecutesWellFormed slave info datum ram len ↔
      (namesRegisters (ram 1) = true → RegistersExist ram → ExactLayout ram len) := by
  constructor
  · intro hexecutes hnames hexist
    exact hexecutes.handler (consultsHandler_iff.mpr ⟨hnames, hexist⟩)
  · intro hlayout
    constructor
    case normal =>
      intro hnames hnormal
      apply hlayout hnames
      by_contra hexist
      rw [pack_function_of_not_exist hnames hexist] at hnormal
      have htoggle := (getLsbD_add_0x80 (ram 1)).1
      rw [hnormal] at htoggle
      simp at htoggle
    case handler =>
      intro hconsults
      obtain ⟨hnames, hexist⟩ := consultsHandler_iff.mp hconsults
      exact hlayout hnames hexist
    case beforeCrc =>
      intro hconsults
      obtain ⟨hnames, hexist⟩ := consultsHandler_iff.mp hconsults
      exact takenEnd_le_of_exactLayout (hlayout hnames hexist)

/-- A Write Single Register request without its value: the checksum is stored in register 10. -/
theorem executesWellFormed_fails_for_truncated :
    (unpack (configured 1 ProtocolModbusRtu.construct.info)
        (frameRam [1, 6, 0, 10, 0x61, 0xDE]) 6).value = 0 ∧
      cell (Exchange.pack handlePrepare ⟨frameRam [1, 6, 0, 10, 0x61, 0xDE],
        configured 1 ProtocolModbusRtu.construct.info, defaultDatum⟩ 0 0 6).2.datum.para 10 =
          0x61DE ∧
      ¬ ExecutesWellFormed 1 ProtocolModbusRtu.construct.info defaultDatum
        (frameRam [1, 6, 0, 10, 0x61, 0xDE]) 6 := by
  refine ⟨by decide +kernel, by decide +kernel, ?_⟩
  intro hexecutes
  have hlayout := hexecutes.normal (by decide) (by decide +kernel)
  exact absurd hlayout.2 (by decide)

end ProjectSensor.App
