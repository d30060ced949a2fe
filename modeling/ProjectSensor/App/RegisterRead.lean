import ProjectSensor.App.RequestEffect
import ProjectSensor.App.WriteMultiple

/-!
# Read requests

The handler puts the registers into the response, high byte first, behind the byte count.  A request
for hold registers is answered so when its window ends before the last register; a window that
reaches exactly to the end of the address space is answered with an exception.
-/

open ProjectSensor.Library ProjectSensor.Library.ByteMemory ProjectSensor.Api

namespace ProjectSensor.App

/-- The bytes of `count` registers from the `i`-th behind `reg` on. -/
def registerBytes (datum : ModelDatum) (type : RegType) (reg : BitVec 16) : ℕ → ℕ → List Byte
  | 0, _ => []
  | count + 1, i =>
      bigEndian ((datum.modbusRegGet type (regIndex reg i)).setWidth 16) ++
        registerBytes datum type reg count (i + 1)

section ReadRegs

variable (datum : ModelDatum) (type : RegType) (reg : BitVec 16)

theorem registerBytes_length (count i : ℕ) :
    (registerBytes datum type reg count i).length = 2 * count := by
  induction count generalizing i with
  | zero => rfl
  | succ count ih =>
      rw [registerBytes, List.length_append, ih, bigEndian]
      simp only [List.length_cons, List.length_nil]
      ring

/-- The loop over the registers leaves what lies before the buffer alone. -/
theorem readRegs_of_lt {count i : ℕ} {buffer addr : ℤ} {ram : Ram} (haddr : addr < buffer) :
    readRegs datum type reg count i buffer ram addr = ram addr := by
  induction count generalizing i buffer ram with
  | zero => rfl
  | succ count ih =>
      unfold readRegs
      rw [ih (by omega), Function.update_of_ne (by omega), Function.update_of_ne (by omega)]

theorem spells_readRegs (count i : ℕ) (buffer : ℤ) (ram : Ram) :
    Spells (readRegs datum type reg count i buffer ram) buffer
      (registerBytes datum type reg count i) := by
  induction count generalizing i buffer ram with
  | zero => trivial
  | succ count ih =>
      have hhigh : ∀ value : BitVec 32, (value.setWidth 16 >>> 8).setWidth 8 =
          highByte (value.setWidth 16) := fun _ ↦ rfl
      have hlow : ∀ value : BitVec 32, value.setWidth 8 = lowByte (value.setWidth 16) := by
        intro value
        apply BitVec.eq_of_getLsbD_eq
        intro k hk
        simp only [lowByte, BitVec.getLsbD_setWidth, hk, show k < 16 by omega, decide_true,
          Bool.true_and]
      have hnext : buffer + 2 = buffer + 1 + 1 := by ring
      unfold readRegs
      refine ⟨?_, ?_, ?_⟩
      · rw [readRegs_of_lt _ _ _ (by omega), Function.update_self, hhigh]
      · rw [readRegs_of_lt _ _ _ (by omega), Function.update_of_ne (by omega),
          Function.update_self, hlow]
      · rw [← hnext]
        exact ih (i + 1) (buffer + 2) _

end ReadRegs

theorem Spells.getElem {ram : Ram} {addr : ℤ} {bytes : List Byte} (hspells : Spells ram addr bytes)
    {i : ℕ} (hi : i < bytes.length) : ram (addr + i) = bytes[i] := by
  induction bytes generalizing addr i with
  | nil => simp at hi
  | cons byte bytes ih =>
      obtain ⟨hfirst, hrest⟩ := hspells
      cases i with
      | zero => simpa using hfirst
      | succ i =>
          have hnext := ih hrest (i := i) (by simpa using hi)
          rw [List.getElem_cons_succ, ← hnext]
          congr 1
          push_cast
          ring

theorem Spells.append {ram : Ram} {addr : ℤ} {bytes bytes' : List Byte}
    (hspells : Spells ram addr bytes) (hspells' : Spells ram (addr + bytes.length) bytes') :
    Spells ram addr (bytes ++ bytes') := by
  induction bytes generalizing addr with
  | nil => simpa using hspells'
  | cons byte bytes ih =>
      refine ⟨hspells.1, ih hspells.2 ?_⟩
      rw [List.length_cons] at hspells'
      convert hspells' using 1
      push_cast
      ring

theorem Spells.congr {ram ram' : Ram} {addr : ℤ} {bytes : List Byte}
    (hspells : Spells ram addr bytes)
    (hsame : ∀ i, addr ≤ i → i < addr + bytes.length → ram' i = ram i) :
    Spells ram' addr bytes := by
  induction bytes generalizing addr with
  | nil => trivial
  | cons byte bytes ih =>
      rw [List.length_cons] at hsame
      push_cast at hsame
      refine ⟨?_, ih hspells.2 fun i hlow hhigh ↦ hsame i (by omega) (by omega)⟩
      rw [hsame addr le_rfl (by omega)]
      exact hspells.1

/-- The registers a read function is about. -/
def readType (function : Byte) : RegType :=
  if function = fcReadHoldingRegisters then .hold else .input

namespace Exchange

variable {ram : Ram} {slave : Byte} {info : ModbusRtuInfo} {datum : ModelDatum}

/-- What a read request leaves, before its checksum: the registers behind the byte count. -/
def filled (slave : Byte) (info : ModbusRtuInfo) (datum : ModelDatum) (ram : Ram) : Exchange where
  ram := readRegs datum (readType (ram 1)) (requestReg ram) (requestRegNo ram).toNat 0 3
    (Function.update ram 2 ((requestRegNo ram <<< 1).setWidth 8))
  rtu := configured slave
    { requestInfo info ram with pparam := 3, paramLen := requestRegNo ram * 2 }
  datum := datum

/-- The handler fills in the registers. -/
theorem handlePrepare_read (slave : Byte) (info : ModbusRtuInfo) (datum : ModelDatum)
    (hread : IsRead ram) :
    handlePrepare (prepared slave info datum ram) = (0, filled slave info datum ram) := by
  have hread' : ram 1 = fcReadHoldingRegisters ∨ ram 1 = fcReadInputRegisters := hread
  rw [prepared, if_pos hread]
  simp only [handlePrepare, packageEventPrepare, configured, requestInfo, hread', ne_eq,
    not_true_eq_false, if_false, if_true]
  rfl

theorem requestRegNo_lt (hexist : RegistersExist ram) : (requestRegNo ram).toNat < 57 := by
  have hmax : maxRegNo (ram 1) ≤ 57 := by
    unfold maxRegNo
    split <;> decide
  unfold RegistersExist at hexist
  omega

/-- A read request answered in place, before its checksum. -/
theorem replied_read (slave : Byte) (info : ModbusRtuInfo) (datum : ModelDatum) (reqLength : ℤ)
    (hread : IsRead ram) (hexist : RegistersExist ram) :
    replied handlePrepare slave info datum ram reqLength =
      (((3 + 2 * (requestRegNo ram).toNat : ℕ) : ℤ), filled slave info datum ram) := by
  have hcount := requestRegNo_lt hexist
  have hdouble : (requestRegNo ram * 2).toNat = 2 * (requestRegNo ram).toNat := by
    rw [BitVec.toNat_mul]
    simp
    omega
  rw [replied, if_pos ((namesRegisters_iff ram).mpr (.inl hread)), if_pos hexist,
    handlePrepare_read slave info datum hread]
  simp only [answered, if_true, if_pos hread, filled, configured, hdouble]
  push_cast
  rfl

theorem filled_ram_of_lt {addr : ℤ} (haddr : addr < 2) :
    (filled slave info datum ram).ram addr = ram addr := by
  simp only [filled]
  rw [readRegs_of_lt _ _ _ (by omega), Function.update_of_ne (by omega)]

theorem spells_filled :
    Spells (filled slave info datum ram).ram 0
      ([ram 0, ram 1, BitVec.ofNat 8 (2 * (requestRegNo ram).toNat)] ++
        registerBytes datum (readType (ram 1)) (requestReg ram) (requestRegNo ram).toNat 0) := by
  have hcount : (requestRegNo ram <<< 1).setWidth 8 =
      BitVec.ofNat 8 (2 * (requestRegNo ram).toNat) := by
    apply BitVec.eq_of_toNat_eq
    simp only [BitVec.toNat_setWidth, BitVec.toNat_shiftLeft, BitVec.toNat_ofNat,
      Nat.shiftLeft_eq]
    omega
  apply Spells.append
  · refine ⟨filled_ram_of_lt (by decide), filled_ram_of_lt (by decide), ?_, trivial⟩
    simp only [filled]
    rw [readRegs_of_lt _ _ _ (by decide), ← hcount]
    exact Function.update_self ..
  · exact spells_readRegs datum _ _ _ 0 3 _

end Exchange

/-! ### The bytes of a response -/

/-- The bytes of a response. -/
def responseBytes (response : BitVec 16 × Exchange) : List Byte :=
  (List.range response.1.toNat).map fun (i : ℕ) ↦ response.2.ram i

/-- A message and its checksum. -/
def withCrc (body : List Byte) : List Byte :=
  body ++ bigEndian (crc16 (put (fun _ ↦ 0) body) (BitVec.ofNat 16 body.length)).value

theorem withCrc_length (body : List Byte) : (withCrc body).length = body.length + 2 := by
  rw [withCrc, List.length_append]
  rfl

/-- The response sent is the body with its checksum. -/
theorem responseBytes_pack {handle : Exchange → ℤ × Exchange} {slave : Byte} {info : ModbusRtuInfo}
    {datum : ModelDatum} {ram : Ram} {len : BitVec 16} {body : List Byte}
    (hlength : (Exchange.replied handle slave info datum ram ((len.toNat : ℤ) - 2)).1 = body.length)
    (hspells : Spells (Exchange.replied handle slave info datum ram ((len.toNat : ℤ) - 2)).2.ram 0
      body) (hshort : body.length + 2 < 2 ^ 16) :
    responseBytes (Exchange.pack handle ⟨ram, configured slave info, datum⟩ 0 0 len) =
      withCrc body := by
  generalize hreplied : Exchange.replied handle slave info datum ram ((len.toNat : ℤ) - 2) = reply
    at hlength hspells
  have hpack : Exchange.pack handle ⟨ram, configured slave info, datum⟩ 0 0 len =
      (BitVec.ofInt 16 (reply.2.sendMsgPre 0 body.length).1,
        (reply.2.sendMsgPre 0 body.length).2) := by
    simp only [Exchange.pack, Exchange.modbusReply_eq, hreplied, hlength]
  have hcount : (BitVec.ofInt 16 (reply.2.sendMsgPre 0 body.length).1).toNat =
      (withCrc body).length := by
    rw [withCrc_length, BitVec.toNat_ofInt]
    simp only [Exchange.sendMsgPre]
    omega
  have hlen : BitVec.ofInt 16 (body.length : ℤ) = BitVec.ofNat 16 body.length :=
    BitVec.ofInt_natCast 16 body.length
  have hcrc : (crc16 (fun i ↦ reply.2.ram (0 + i)) (BitVec.ofInt 16 body.length)).value =
      (crc16 (put (fun _ ↦ 0) body) (BitVec.ofNat 16 body.length)).value := by
    rw [hlen]
    apply crc16_value_congr
    intro i hlow hhigh
    rw [BitVec.toNat_ofNat, Nat.mod_eq_of_lt (by omega)] at hhigh
    obtain ⟨k, rfl⟩ := Int.eq_ofNat_of_zero_le hlow
    have hk : k < body.length := by omega
    rw [hspells.getElem hk]
    simp [put, hk]
  have hall : Spells (reply.2.sendMsgPre 0 body.length).2.ram 0 (withCrc body) := by
    apply Spells.append
    · apply hspells.congr
      intro i _ hhigh
      exact Exchange.sendMsgPre_ram_of_ne _ (by omega) (by omega)
    · refine ⟨?_, ?_, trivial⟩
      · rw [Exchange.sendMsgPre_ram_high, hcrc]
        rfl
      · rw [Exchange.sendMsgPre_ram_low, hcrc]
        rfl
  rw [hpack, responseBytes, hcount]
  apply List.ext_getElem
  · simp
  · intro i _ hi
    rw [List.getElem_map, List.getElem_range, ← hall.getElem hi, zero_add]

theorem Exchange.spells_responseException (x : Exchange) (slave function code : Byte) :
    Spells (x.responseException slave function code 0).2.ram 0 [slave, function + 0x80, code] := by
  simp [responseException, buildResponseBasis, setByte, Spells]

section Answers

variable {ram : Ram} (slave : Byte) (info : ModbusRtuInfo) (datum : ModelDatum) (len : BitVec 16)

/-- A read request whose registers exist is answered with them. -/
theorem responseBytes_read (hread : IsRead ram) (hexist : RegistersExist ram) :
    responseBytes (Exchange.pack handlePrepare ⟨ram, configured slave info, datum⟩ 0 0 len) =
      withCrc ([ram 0, ram 1, BitVec.ofNat 8 (2 * (requestRegNo ram).toNat)] ++
        registerBytes datum (readType (ram 1)) (requestReg ram) (requestRegNo ram).toNat 0) := by
  have hcount := Exchange.requestRegNo_lt hexist
  have hreplied := Exchange.replied_read slave info datum ((len.toNat : ℤ) - 2) hread hexist
  have hlength := registerBytes_length datum (readType (ram 1)) (requestReg ram)
    (requestRegNo ram).toNat 0
  apply responseBytes_pack
  · rw [hreplied, List.length_append, hlength]
    rfl
  · rw [hreplied]
    exact Exchange.spells_filled
  · rw [List.length_append, hlength]
    simp only [List.length_cons, List.length_nil]
    omega

/-- A request for registers that do not exist is answered with an exception. -/
theorem responseBytes_refused (hnames : IsRead ram ∨ IsWrite ram) (hexist : ¬ RegistersExist ram) :
    responseBytes (Exchange.pack handlePrepare ⟨ram, configured slave info, datum⟩ 0 0 len) =
      withCrc [ram 0, ram 1 + 0x80, modbusExceptionIllegalDataAddress] := by
  have hreplied : Exchange.replied handlePrepare slave info datum ram ((len.toNat : ℤ) - 2) =
      (Exchange.prepared slave info datum ram).responseException (ram 0) (ram 1)
        modbusExceptionIllegalDataAddress 0 := by
    rw [Exchange.replied, if_pos ((namesRegisters_iff ram).mpr hnames), if_neg hexist]
  apply responseBytes_pack
  · rw [hreplied]
    rfl
  · rw [hreplied]
    exact Exchange.spells_responseException ..
  · exact (by decide : 3 + 2 < 2 ^ 16)

end Answers

/-! ### Reading hold registers -/

/-- The request for `count` hold registers from `reg` on. -/
def readHoldFrame (slave : Byte) (reg count crc : BitVec 16) : List Byte :=
  [slave, fcReadHoldingRegisters] ++ bigEndian reg ++ bigEndian count ++ bigEndian crc

/-- What the request for `count` registers from `reg` on is to be answered with. -/
def holdReadResponse (datum : ModelDatum) (slave : Byte) (reg count : BitVec 16) : List Byte :=
  if reg.toNat + count.toNat ≤ holdRegMaxNo then
    withCrc ([slave, fcReadHoldingRegisters, BitVec.ofNat 8 (2 * count.toNat)] ++
      (List.range count.toNat).flatMap fun i ↦
        bigEndian ((datum.modbusRegGet .hold (reg.toNat + i)).setWidth 16))
  else withCrc [slave, 0x83, modbusExceptionIllegalDataAddress]

theorem registerBytes_eq_flatMap (datum : ModelDatum) (type : RegType) (reg : BitVec 16)
    {count i : ℕ} (hwindow : reg.toNat + i + count ≤ 2 ^ 16) :
    registerBytes datum type reg count i = (List.range count).flatMap fun j ↦
      bigEndian ((datum.modbusRegGet type (reg.toNat + (i + j))).setWidth 16) := by
  induction count generalizing i with
  | zero => rfl
  | succ count ih =>
      have hindex : regIndex reg i = reg.toNat + i := Nat.mod_eq_of_lt (by omega)
      have hnext : ∀ j, i + 1 + j = i + (j + 1) := by
        intro j
        ring
      rw [registerBytes, ih (by omega), List.range_succ_eq_map, List.flatMap_cons,
        List.flatMap_map, hindex]
      simp only [hnext, Nat.add_zero, Nat.succ_eq_add_one]

section ReadHold

variable {ram : Ram} {slave unit : Byte} {info : ModbusRtuInfo} {datum : ModelDatum}
  {reg count crc : BitVec 16}

/-- What the code takes from the request. -/
theorem request_of_readHoldFrame (ram : Ram) (unit : Byte) (reg count crc : BitVec 16) :
    put ram (readHoldFrame unit reg count crc) 0 = unit ∧
      put ram (readHoldFrame unit reg count crc) 1 = fcReadHoldingRegisters ∧
      requestReg (put ram (readHoldFrame unit reg count crc)) = reg ∧
      requestRegNo (put ram (readHoldFrame unit reg count crc)) = count := by
  have hspells := spells_put ram [] (readHoldFrame unit reg count crc)
  rw [List.nil_append] at hspells
  generalize put ram (readHoldFrame unit reg count crc) = ram' at hspells
  simp only [readHoldFrame, bigEndian, List.cons_append, List.nil_append, Spells] at hspells
  obtain ⟨hunit, hfun, hregHigh, hregLow, hnoHigh, hnoLow, -⟩ := hspells
  have hfun' : ram' 1 = fcReadHoldingRegisters := hfun
  have hsingle : ¬ ram' 1 = fcWriteSingleRegister := by rw [hfun']; decide
  refine ⟨hunit, hfun', (be16_eq_iff _ _ _).mpr ⟨hregHigh, hregLow⟩, ?_⟩
  rw [requestRegNo, if_neg hsingle]
  exact (be16_eq_iff _ _ _).mpr ⟨hnoHigh, hnoLow⟩

/-- The code answers with the registers as long as the window ends before the last one. -/
theorem responseBytes_readHold (slave unit : Byte) (info : ModbusRtuInfo) (datum : ModelDatum)
    (ram : Ram) (reg count crc : BitVec 16) (len : BitVec 16) :
    responseBytes (Exchange.pack handlePrepare
        ⟨put ram (readHoldFrame unit reg count crc), configured slave info, datum⟩ 0 0 len) =
      if reg.toNat + count.toNat < holdRegMaxNo then holdReadResponse datum unit reg count
      else withCrc [unit, 0x83, modbusExceptionIllegalDataAddress] := by
  obtain ⟨hunit, hfun, hreg, hregNo⟩ := request_of_readHoldFrame ram unit reg count crc
  generalize put ram (readHoldFrame unit reg count crc) = ram' at hunit hfun hreg hregNo
  have hread : IsRead ram' := .inl hfun
  have hmax : maxRegNo (ram' 1) = holdRegMaxNo := by rw [hfun]; rfl
  have hexist : RegistersExist ram' ↔ reg.toNat + count.toNat < holdRegMaxNo := by
    rw [RegistersExist, hreg, hregNo, hmax]
  by_cases hwindow : reg.toNat + count.toNat < holdRegMaxNo
  · have htype : readType (ram' 1) = .hold := by rw [hfun]; rfl
    have hfits : reg.toNat + 0 + count.toNat ≤ 2 ^ 16 := by
      simp only [holdRegMaxNo, splitHoldRIndex3] at hwindow
      omega
    have hbytes := registerBytes_eq_flatMap datum .hold reg hfits
    simp only [Nat.zero_add] at hbytes
    calc
      responseBytes (Exchange.pack handlePrepare ⟨ram', configured slave info, datum⟩ 0 0 len) =
          withCrc ([ram' 0, ram' 1, BitVec.ofNat 8 (2 * (requestRegNo ram').toNat)] ++
            registerBytes datum (readType (ram' 1)) (requestReg ram')
              (requestRegNo ram').toNat 0) :=
        responseBytes_read slave info datum len hread (hexist.mpr hwindow)
      _ = withCrc ([unit, fcReadHoldingRegisters, BitVec.ofNat 8 (2 * count.toNat)] ++
            registerBytes datum .hold reg count.toNat 0) := by
        rw [htype, hunit, hfun, hreg, hregNo]
      _ = holdReadResponse datum unit reg count := by
        rw [holdReadResponse, if_pos hwindow.le, hbytes]
      _ = _ := (if_pos hwindow).symm
  · have hrefused : ¬ RegistersExist ram' := fun h ↦ hwindow (hexist.mp h)
    rw [if_neg hwindow, responseBytes_refused slave info datum len (.inl hread) hrefused, hunit,
      hfun]
    rfl

/-- A well-formed request for `count` hold registers, at least one, is answered with their contents
when they exist and with an exception otherwise, and changes no register, if and only if the window
does not end exactly at the end of the address space. -/
theorem readHold_answers_iff (slave unit : Byte) (info : ModbusRtuInfo) (datum : ModelDatum)
    (ram : Ram) (reg count crc : BitVec 16) (hcount : 1 ≤ count.toNat) :
    (responseBytes (Exchange.pack handlePrepare
        ⟨put ram (readHoldFrame unit reg count crc), configured slave info, datum⟩ 0 0 8) =
          holdReadResponse datum unit reg count ∧
      (Exchange.pack handlePrepare
        ⟨put ram (readHoldFrame unit reg count crc), configured slave info, datum⟩ 0 0 8).2.datum =
          datum) ↔
    reg.toNat + count.toNat ≠ holdRegMaxNo := by
  have hread : ¬ IsWrite (put ram (readHoldFrame unit reg count crc)) := by
    intro hwrite
    apply not_isRead_of_isWrite hwrite
    exact .inl (request_of_readHoldFrame ram unit reg count crc).2.1
  have hdatum := (Exchange.keeps_pack slave info datum 8 hread).1
  rw [responseBytes_readHold slave unit info datum ram reg count crc 8, and_iff_left hdatum]
  rcases lt_trichotomy (reg.toNat + count.toNat) holdRegMaxNo with hlt | heq | hgt
  · rw [if_pos hlt]
    exact iff_of_true rfl hlt.ne
  · refine iff_of_false ?_ (not_not.mpr heq)
    intro hresponse
    have hlength := congrArg List.length hresponse
    rw [if_neg heq.not_lt, holdReadResponse, if_pos heq.le, withCrc_length, withCrc_length,
      List.length_append, List.length_flatMap] at hlength
    simp [bigEndian] at hlength
    omega
  · rw [if_neg hgt.not_gt, holdReadResponse, if_neg hgt.not_ge]
    exact iff_of_true rfl hgt.ne'

/-- A request for register 10. -/
theorem readHold_answers_iff_single :
    responseBytes (Exchange.pack handlePrepare
        ⟨put (fun _ ↦ 0) (readHoldFrame 1 10 1 0xA408),
          configured 1 ProtocolModbusRtu.construct.info, ⟨fun _ ↦ 0, fun _ ↦ 0⟩⟩ 0 0 8) =
      holdReadResponse ⟨fun _ ↦ 0, fun _ ↦ 0⟩ 1 10 1 :=
  ((readHold_answers_iff 1 1 ProtocolModbusRtu.construct.info ⟨fun _ ↦ 0, fun _ ↦ 0⟩
    (fun _ ↦ 0) 10 1 0xA408 (by decide)).mpr (by decide)).1

/-- The request for the last register is accepted and answered with an exception. -/
theorem readHold_refuses_last_register :
    (unpack (configured 1 ProtocolModbusRtu.construct.info)
        (put (fun _ ↦ 0) (readHoldFrame 1 56 1 0x05C7)) 8).value = 0 ∧
      responseBytes (Exchange.pack handlePrepare
          ⟨put (fun _ ↦ 0) (readHoldFrame 1 56 1 0x05C7),
            configured 1 ProtocolModbusRtu.construct.info, ⟨fun _ ↦ 0, fun _ ↦ 0⟩⟩ 0 0 8) ≠
        holdReadResponse ⟨fun _ ↦ 0, fun _ ↦ 0⟩ 1 56 1 := by
  constructor
  · decide +kernel
  · intro hresponse
    have hlength := congrArg List.length hresponse
    revert hlength
    decide +kernel

end ReadHold

end ProjectSensor.App
