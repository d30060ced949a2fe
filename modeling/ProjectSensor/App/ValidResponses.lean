import ProjectSensor.App.RegisterRead
import ProjectSensor.App.RejectedWrite

/-!
# Responses are frames

Every response is accepted by `unpack` under the address of the request and fits into the buffer of
the transceiver.  An exception adds 0x80 to the function, and in a byte that marks the exception
only for functions below 0x80.
-/

open ProjectSensor.Library ProjectSensor.Library.ByteMemory ProjectSensor.Api

namespace ProjectSensor.App

/-- `def_TRANSCEIVER_TX_BUF_SIZE`. -/
def transceiverTxBufSize : ℕ := 300

/-- The request gets the normal response: no path of `modbus_reply` to `response_exception` is
taken. -/
def Served (slave : Byte) (info : ModbusRtuInfo) (datum : ModelDatum) (ram : Ram) : Prop :=
  ram 1 = fcReportSlaveId ∨ namesRegisters (ram 1) = true ∧ RegistersExist ram ∧
    (handlePrepare (Exchange.prepared slave info datum ram)).1 = 0

/-- A response to the frame in `ram` that is a frame of its own; `served` says which kind it is. -/
structure ValidResponse (slave : Byte) (ram : Ram) (served : Prop) (length : BitVec 16)
    (x : Exchange) : Prop where
  slave_eq : x.rtu.modbus.slave = slave
  accepted : (unpack x.rtu x.ram length).value = 0
  address : x.ram 0 = ram 0
  fits : length.toNat ≤ transceiverTxBufSize
  normal : served → x.ram 1 = ram 1
  exception : ¬ served →
    (x.ram 1).getLsbD 7 = true ∧ ∀ i < 7, (x.ram 1).getLsbD i = (ram 1).getLsbD i

/-- Adding 0x80 to a byte toggles its highest bit. -/
theorem getLsbD_add_0x80 : ∀ function : Byte,
    (function + 0x80).getLsbD 7 = !function.getLsbD 7 ∧
      ∀ i < 7, (function + 0x80).getLsbD i = function.getLsbD i := by
  decide +kernel

namespace Exchange

variable {ram : Ram} {slave : Byte} {info : ModbusRtuInfo} {datum : ModelDatum}

/-- The part of a response before its checksum. -/
structure Body (slave : Byte) (ram : Ram) (function : Byte) (body : ℤ × Exchange) : Prop where
  configured : ∃ info, body.2.rtu = configured slave info
  length : ∃ n : ℕ, body.1 = n ∧ 2 ≤ n ∧ n + 2 ≤ maxMessageLength
  address : body.2.ram 0 = ram 0
  function : body.2.ram 1 = function

theorem body_responseException {x : Exchange} (hrtu : ∃ info, x.rtu = App.configured slave info)
    (function code : Byte) :
    Body slave ram (function + 0x80) (x.responseException (ram 0) function code 0) := by
  constructor
  case configured => exact hrtu
  case length => exact ⟨3, rfl, by decide, by decide⟩
  case address => simp [responseException, buildResponseBasis, setByte]
  case function => simp [responseException, buildResponseBasis, setByte]

theorem setBytes_ram_of_lt (x : Exchange) {addr : ℤ} (values : List Byte) {other : ℤ}
    (hlt : other < addr) : (x.setBytes addr values).ram other = x.ram other := by
  induction values generalizing x addr with
  | nil => rfl
  | cons value values ih =>
      unfold setBytes
      rw [ih _ (by omega)]
      exact Function.update_of_ne (by omega) ..

@[simp]
theorem setByte_rtu (x : Exchange) (addr : ℤ) (value : Byte) : (x.setByte addr value).rtu = x.rtu :=
  rfl

@[simp]
theorem setBytes_rtu (x : Exchange) (addr : ℤ) (values : List Byte) :
    (x.setBytes addr values).rtu = x.rtu := by
  induction values generalizing x addr with
  | nil => rfl
  | cons value values ih => exact ih _ _

theorem body_slaveId (info : ModbusRtuInfo) (datum : ModelDatum)
    (hfunction : ram 1 = fcReportSlaveId) (reqLength : ℤ) :
    Body slave ram (ram 1) (replied handlePrepare slave info datum ram reqLength) := by
  have hnames : ¬ namesRegisters (ram 1) = true := by rw [hfunction]; decide
  unfold replied
  rw [if_neg hnames, if_pos hfunction]
  constructor
  case configured => exact ⟨info, by simp only [setByte_rtu, setBytes_rtu]⟩
  case length => exact ⟨18, rfl, by decide, by decide⟩
  case address =>
    simp only [setByte]
    rw [Function.update_of_ne (by decide), setBytes_ram_of_lt _ _ (by decide)]
    simp
  case function =>
    simp only [setByte]
    rw [Function.update_of_ne (by decide), setBytes_ram_of_lt _ _ (by decide)]
    simp

theorem served_iff_of_read (hread : IsRead ram) :
    Served slave info datum ram ↔ RegistersExist ram := by
  have hnames : namesRegisters (ram 1) = true := (namesRegisters_iff ram).mpr (.inl hread)
  have hslaveId : ram 1 ≠ fcReportSlaveId := by
    intro heq
    rw [heq] at hnames
    exact absurd hnames (by decide)
  have hzero := congrArg Prod.fst (handlePrepare_read slave info datum hread)
  exact ⟨fun hserved ↦ (hserved.resolve_left hslaveId).2.1,
    fun hexist ↦ .inr ⟨hnames, hexist, hzero⟩⟩

theorem served_iff_of_write (hwrite : IsWrite ram) :
    Served slave info datum ram ↔ (writeOutcome ram datum.para).1 = true := by
  have hnames : namesRegisters (ram 1) = true := namesRegisters_of_isWrite hwrite
  have hslaveId : ram 1 ≠ fcReportSlaveId := by
    intro heq
    rw [heq] at hnames
    exact absurd hnames (by decide)
  have hexist := registersExist_iff_inWindow fun h ↦ not_isRead_of_isWrite hwrite (.inr h)
  constructor
  · intro hserved
    obtain ⟨-, hregs, hzero⟩ := hserved.resolve_left hslaveId
    rw [handlePrepare_write slave info datum hwrite hregs] at hzero
    cases haccepted : (writeOutcome ram datum.para).1 with
    | false => simp [haccepted] at hzero
    | true => rfl
  · intro haccepted
    have hwindow : InWindow ram := by
      by_contra hout
      rw [writeOutcome, if_neg hout] at haccepted
      exact Bool.false_ne_true haccepted
    refine .inr ⟨hnames, hexist.mpr hwindow, ?_⟩
    rw [handlePrepare_write slave info datum hwrite (hexist.mpr hwindow), haccepted]
    rfl

/-- Only functions below 0x80 are served. -/
theorem function_of_served (hserved : Served slave info datum ram) :
    (ram 1).getLsbD 7 = false := by
  rcases hserved with hfun | ⟨hnames, -⟩
  · rw [hfun]
    decide
  · rcases (namesRegisters_iff ram).mp hnames with (hfun | hfun) | (hfun | hfun) <;>
      rw [hfun] <;> decide

theorem body_read (info : ModbusRtuInfo) (datum : ModelDatum) (reqLength : ℤ) (hread : IsRead ram)
    (hexist : RegistersExist ram) :
    Body slave ram (ram 1) (replied handlePrepare slave info datum ram reqLength) := by
  have hcount := requestRegNo_lt hexist
  rw [replied_read slave info datum reqLength hread hexist]
  constructor
  case configured => exact ⟨_, rfl⟩
  case length => exact ⟨_, rfl, by omega, by simp only [maxMessageLength]; omega⟩
  case address => exact filled_ram_of_lt (by decide)
  case function => exact filled_ram_of_lt (by decide)

theorem body_writeMultiple (info : ModbusRtuInfo) (datum : ModelDatum) (reqLength : ℤ)
    (hwrite : IsWrite ram) (haccepted : (writeOutcome ram datum.para).1 = true)
    (hsingle : ram 1 ≠ fcWriteSingleRegister) :
    Body slave ram (ram 1) (replied handlePrepare slave info datum ram reqLength) := by
  rw [replied_write slave info datum reqLength hwrite, if_pos haccepted, if_neg hsingle]
  constructor
  case configured => exact ⟨_, rfl⟩
  case length => exact ⟨6, rfl, by decide, by decide⟩
  case address => rfl
  case function => rfl

/-- Every other request is answered with an exception. -/
theorem body_of_not_served (hserved : ¬ Served slave info datum ram) (reqLength : ℤ) :
    Body slave ram (ram 1 + 0x80) (replied handlePrepare slave info datum ram reqLength) := by
  by_cases hread : IsRead ram
  · have hexist : ¬ RegistersExist ram := fun h ↦ hserved ((served_iff_of_read hread).mpr h)
    obtain ⟨info', hrtu, -⟩ := prepared_configured slave info datum ram
    rw [replied, if_pos ((namesRegisters_iff ram).mpr (.inl hread)), if_neg hexist]
    exact body_responseException ⟨info', hrtu⟩ _ _
  · by_cases hwrite : IsWrite ram
    · have haccepted : ¬ (writeOutcome ram datum.para).1 = true :=
        fun h ↦ hserved ((served_iff_of_write hwrite).mpr h)
      rw [replied_write slave info datum reqLength hwrite, if_neg haccepted]
      exact body_responseException ⟨_, rfl⟩ _ _
    · have hnames : ¬ namesRegisters (ram 1) = true := by
        rw [namesRegisters_iff]
        exact not_or.mpr ⟨hread, hwrite⟩
      have hslaveId : ¬ ram 1 = fcReportSlaveId := fun h ↦ hserved (.inl h)
      rw [replied, if_neg hnames, if_neg hslaveId]
      exact body_responseException ⟨info, rfl⟩ _ _

/-- What is sent of a body. -/
theorem pack_ram_of_body {len : BitVec 16} {function : Byte}
    (hbody : Body slave ram function
      (replied handlePrepare slave info datum ram ((len.toNat : ℤ) - 2))) (addr : ℤ)
    (haddr : addr < 2) :
    (pack handlePrepare ⟨ram, App.configured slave info, datum⟩ 0 0 len).2.ram addr =
      (replied handlePrepare slave info datum ram ((len.toNat : ℤ) - 2)).2.ram addr := by
  obtain ⟨n, hlength, htwo, -⟩ := hbody.length
  simp only [pack, modbusReply_eq, hlength]
  exact sendMsgPre_ram_of_ne _ (by omega) (by omega)

theorem validResponse_of_body {len : BitVec 16} {function : Byte}
    (haccept : (unpack (App.configured slave info) ram len).value = 0)
    (hbody : Body slave ram function
      (replied handlePrepare slave info datum ram ((len.toNat : ℤ) - 2))) {served : Prop}
    (hnormal : served → function = ram 1)
    (hexception : ¬ served →
      function.getLsbD 7 = true ∧ ∀ i < 7, function.getLsbD i = (ram 1).getLsbD i) :
    ValidResponse slave ram served
      (pack handlePrepare ⟨ram, App.configured slave info, datum⟩ 0 0 len).1
      (pack handlePrepare ⟨ram, App.configured slave info, datum⟩ 0 0 len).2 := by
  have hslave := (accepted_of_unpack haccept).2.1
  have hfirst := (pack_ram_of_body hbody 0 (by decide)).trans hbody.address
  have hsecond := (pack_ram_of_body hbody 1 (by decide)).trans hbody.function
  obtain ⟨info', hrtu⟩ := hbody.configured
  obtain ⟨n, hlength, htwo, hshort⟩ := hbody.length
  constructor
  case slave_eq =>
    simp only [pack, modbusReply_eq, sendMsgPre, setByte, hrtu]
    rfl
  case accepted =>
    simp only [pack, modbusReply_eq, hlength]
    have hrtu' : ((replied handlePrepare slave info datum ram
        ((len.toNat : ℤ) - 2)).2.sendMsgPre 0 n).2.rtu = App.configured slave info' := hrtu
    rw [hrtu']
    apply unpack_sendMsgPre
    · rw [hbody.address]
      exact hslave
    · omega
    · exact hshort
  case address => exact hfirst
  case fits =>
    simp only [maxMessageLength] at hshort
    simp only [pack, modbusReply_eq, hlength, sendMsgPre, BitVec.toNat_ofInt, transceiverTxBufSize]
    omega
  case normal =>
    intro hserved
    rw [hsecond, hnormal hserved]
  case exception =>
    intro hserved
    rw [hsecond]
    exact hexception hserved

/-- A Write Single Register request that is accepted is sent back as it came. -/
theorem validResponse_of_echo {len : BitVec 16}
    (haccept : (unpack (App.configured slave info) ram len).value = 0)
    (hsingle : ram 1 = fcWriteSingleRegister)
    (haccepted : (writeOutcome ram datum.para).1 = true) {served : Prop} (hserved : served) :
    ValidResponse slave ram served
      (pack handlePrepare ⟨ram, App.configured slave info, datum⟩ 0 0 len).1
      (pack handlePrepare ⟨ram, App.configured slave info, datum⟩ 0 0 len).2 := by
  have hecho := sendMsgPre_echo (x := written slave info datum ram) haccept
  have hpack : pack handlePrepare ⟨ram, App.configured slave info, datum⟩ 0 0 len =
      (len, written slave info datum ram) := by
    simp only [pack, modbusReply_eq, replied_write _ _ _ _ (.inl hsingle : IsWrite ram),
      if_pos haccepted, if_pos hsingle, hecho, BitVec.ofInt_natCast, BitVec.ofNat_toNat,
      BitVec.setWidth_eq]
  rw [hpack]
  constructor
  case slave_eq => rfl
  case accepted => exact haccept
  case address => rfl
  case fits =>
    have hshort := (accepted_of_unpack haccept).1
    exact hshort.trans (by decide)
  case normal => exact fun _ ↦ rfl
  case exception => exact fun h ↦ absurd hserved h

theorem validResponse_of_served {len : BitVec 16}
    (haccept : (unpack (App.configured slave info) ram len).value = 0)
    (hserved : Served slave info datum ram) :
    ValidResponse slave ram (Served slave info datum ram)
      (pack handlePrepare ⟨ram, App.configured slave info, datum⟩ 0 0 len).1
      (pack handlePrepare ⟨ram, App.configured slave info, datum⟩ 0 0 len).2 := by
  by_cases hecho : ram 1 = fcWriteSingleRegister
  · exact validResponse_of_echo haccept hecho ((served_iff_of_write (.inl hecho)).mp hserved)
      hserved
  have hbody : Body slave ram (ram 1)
      (replied handlePrepare slave info datum ram ((len.toNat : ℤ) - 2)) := by
    rcases hserved with hslaveId | hregisters
    · exact body_slaveId info datum hslaveId _
    · rcases (namesRegisters_iff ram).mp hregisters.1 with hread | hwrite
      · exact body_read info datum _ hread hregisters.2.1
      · exact body_writeMultiple info datum _ hwrite
          ((served_iff_of_write hwrite).mp (.inr hregisters)) hecho
  exact validResponse_of_body haccept hbody (fun _ ↦ rfl) fun h ↦ absurd hserved h

end Exchange

/-- The response to an accepted frame is a frame that `unpack` accepts for the same address, fits
into the buffer and tells normal responses from exceptions by its function byte, if and only if
bit 7 of the function of the request is clear. -/
theorem validResponse_iff (slave : Byte) (info : ModbusRtuInfo) (datum : ModelDatum) (ram : Ram)
    (len : BitVec 16) (haccept : (unpack (configured slave info) ram len).value = 0) :
    ValidResponse slave ram (Served slave info datum ram)
        (Exchange.pack handlePrepare ⟨ram, configured slave info, datum⟩ 0 0 len).1
        (Exchange.pack handlePrepare ⟨ram, configured slave info, datum⟩ 0 0 len).2 ↔
      (ram 1).getLsbD 7 = false := by
  by_cases hserved : Served slave info datum ram
  · exact iff_of_true (Exchange.validResponse_of_served haccept hserved)
      (Exchange.function_of_served hserved)
  · have hbody := Exchange.body_of_not_served hserved ((len.toNat : ℤ) - 2)
    obtain ⟨hbit, hrest⟩ := getLsbD_add_0x80 (ram 1)
    constructor
    · intro hvalid
      have hmarked := (hvalid.exception hserved).1
      rw [Exchange.pack_ram_of_body hbody 1 (by decide), hbody.function, hbit] at hmarked
      simpa using hmarked
    · intro hlow
      refine Exchange.validResponse_of_body haccept hbody (fun h ↦ absurd h hserved) fun _ ↦ ?_
      exact ⟨by rw [hbit, hlow]; rfl, hrest⟩

/-- A read request is answered with a valid frame. -/
theorem validResponse_iff_read :
    ValidResponse 1 (frameRam [1, 3, 0, 0, 0, 1, 0x84, 0x0A])
      (Served 1 ProtocolModbusRtu.construct.info defaultDatum
        (frameRam [1, 3, 0, 0, 0, 1, 0x84, 0x0A]))
      (Exchange.pack handlePrepare ⟨frameRam [1, 3, 0, 0, 0, 1, 0x84, 0x0A],
        configured 1 ProtocolModbusRtu.construct.info, defaultDatum⟩ 0 0 8).1
      (Exchange.pack handlePrepare ⟨frameRam [1, 3, 0, 0, 0, 1, 0x84, 0x0A],
        configured 1 ProtocolModbusRtu.construct.info, defaultDatum⟩ 0 0 8).2 :=
  (validResponse_iff 1 ProtocolModbusRtu.construct.info defaultDatum
    (frameRam [1, 3, 0, 0, 0, 1, 0x84, 0x0A]) 8 (by decide +kernel)).mpr (by decide +kernel)

/-- The exception for function 0x83 comes with function 3. -/
theorem validResponse_fails_for_0x83 :
    (unpack (configured 1 ProtocolModbusRtu.construct.info)
        (frameRam [1, 0x83, 0x41, 0x81]) 4).value = 0 ∧
      ¬ ValidResponse 1 (frameRam [1, 0x83, 0x41, 0x81])
        (Served 1 ProtocolModbusRtu.construct.info defaultDatum (frameRam [1, 0x83, 0x41, 0x81]))
        (Exchange.pack handlePrepare ⟨frameRam [1, 0x83, 0x41, 0x81],
          configured 1 ProtocolModbusRtu.construct.info, defaultDatum⟩ 0 0 4).1
        (Exchange.pack handlePrepare ⟨frameRam [1, 0x83, 0x41, 0x81],
          configured 1 ProtocolModbusRtu.construct.info, defaultDatum⟩ 0 0 4).2 := by
  have hfunction : (Exchange.pack handlePrepare ⟨frameRam [1, 0x83, 0x41, 0x81],
      configured 1 ProtocolModbusRtu.construct.info, defaultDatum⟩ 0 0 4).2.ram 1 = 3 := by
    decide +kernel
  refine ⟨by decide +kernel, ?_⟩
  intro hvalid
  by_cases hserved : Served 1 ProtocolModbusRtu.construct.info defaultDatum
      (frameRam [1, 0x83, 0x41, 0x81])
  · have hnormal := hvalid.normal hserved
    rw [hfunction] at hnormal
    exact absurd hnormal (by decide)
  · have hexception := (hvalid.exception hserved).1
    rw [hfunction] at hexception
    exact absurd hexception (by decide)

end ProjectSensor.App
