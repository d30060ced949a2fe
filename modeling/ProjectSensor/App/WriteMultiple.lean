import ProjectSensor.App.RegisterWrite

/-!
# Write Multiple Registers

`info` sets the parameter pointer to the byte-count field and not to the payload behind it, so every
value the handler stores is made of a byte of the frame and the byte before it.  The registers are
the byte registers, where the first such value is always refused, or the others, where nothing is.
-/

open ProjectSensor.Library ProjectSensor.Library.ByteMemory ProjectSensor.Api

namespace ProjectSensor.App

def highByte (value : BitVec 16) : Byte := (value >>> 8).setWidth 8

def lowByte (value : BitVec 16) : Byte := value.setWidth 8

def bigEndian (value : BitVec 16) : List Byte := [highByte value, lowByte value]

/-- The frame that writes `values` from register `reg` on. -/
def writeMultipleFrame (slave : Byte) (reg : BitVec 16) (values : List (BitVec 16))
    (crc : BitVec 16) : List Byte :=
  [slave, fcWriteMultipleRegisters] ++ bigEndian reg ++
    bigEndian (BitVec.ofNat 16 values.length) ++ [BitVec.ofNat 8 (2 * values.length)] ++
    values.flatMap bigEndian ++ bigEndian crc

/-- The bytes of the memory from `addr` on. -/
def Spells (ram : Ram) : ℤ → List Byte → Prop
  | _, [] => True
  | addr, byte :: bytes => ram addr = byte ∧ Spells ram (addr + 1) bytes

theorem spells_put (ram : Ram) (before frame : List Byte) :
    Spells (put ram (before ++ frame)) before.length frame := by
  induction frame generalizing before with
  | nil => trivial
  | cons byte frame ih =>
      refine ⟨by simp [put], ?_⟩
      have hnext := ih (before ++ [byte])
      simpa using hnext

/-- The values made of each byte of a payload and the byte before it. -/
def shifted : Byte → List (BitVec 16) → List (BitVec 16)
  | _, [] => []
  | before, value :: values => be16 before (highByte value) :: shifted (lowByte value) values

theorem shifted_length (before : Byte) (values : List (BitVec 16)) :
    (shifted before values).length = values.length := by
  induction values generalizing before with
  | nil => rfl
  | cons value values ih => simp [shifted, ih]

/-- Reading one byte too early. -/
theorem payload_eq_shifted {ram : Ram} {addr : ℤ} {before : Byte} {values : List (BitVec 16)}
    {rest : List Byte} (hspells : Spells ram addr (before :: (values.flatMap bigEndian ++ rest))) :
    payload ram addr values.length = shifted before values := by
  induction values generalizing addr before with
  | nil => rfl
  | cons value values ih =>
      obtain ⟨hbefore, hhigh, hlow⟩ := hspells
      rw [List.length_cons, payload, shifted, hbefore, hhigh]
      refine congrArg _ (ih ?_)
      rwa [show addr + 2 = addr + 1 + 1 by ring]

/-- The shifted values are the values exactly when every byte is the one before it. -/
theorem shifted_eq_iff (before : Byte) (values : List (BitVec 16)) :
    shifted before values = values ↔ ∀ value ∈ values, value = be16 before before := by
  induction values with
  | nil => simp [shifted]
  | cons value values ih =>
      rw [shifted, List.cons.injEq, List.forall_mem_cons, ← ih, be16_eq_iff, eq_comm (a := value),
        be16_eq_iff]
      constructor
      · rintro ⟨⟨hhigh, hlow⟩, hrest⟩
        have hbyte : lowByte value = before := hlow.symm.trans hhigh.symm
        exact ⟨⟨hhigh, hbyte.symm⟩, hbyte ▸ hrest⟩
      · rintro ⟨⟨hhigh, hlow⟩, hrest⟩
        have hbyte : lowByte value = before := hlow.symm
        exact ⟨⟨hhigh, by rw [highByte, ← hhigh, hlow]⟩, hbyte.symm ▸ hrest⟩

/-- A value of less than a byte has no high byte. -/
theorem high_eq_zero_of_lt {high low : Byte} (hlt : (be16 high low).toNat < 256) : high = 0 := by
  rw [← be16_high high low]
  refine BitVec.eq_of_toNat_eq ?_
  rw [BitVec.toNat_setWidth, BitVec.toNat_ushiftRight, Nat.shiftRight_eq_div_pow,
    Nat.div_eq_of_lt hlt]
  rfl

section Frame

variable {ram : Ram} {slave : Byte} {reg : BitVec 16} {values : List (BitVec 16)}
  {crc : BitVec 16}

theorem writeMultipleFrame_length :
    (writeMultipleFrame slave reg values crc).length = 9 + 2 * values.length := by
  have hpayload : (values.flatMap bigEndian).length = 2 * values.length := by
    simp [List.length_flatMap, bigEndian, mul_comm]
  simp only [writeMultipleFrame, List.length_append, hpayload, bigEndian, List.length_cons,
    List.length_nil]
  omega

/-- What the code takes from the frame. -/
theorem request_of_writeMultipleFrame (ram : Ram) (slave : Byte) (reg : BitVec 16)
    (values : List (BitVec 16)) (crc : BitVec 16) (hcount : values.length < 2 ^ 16) :
    put ram (writeMultipleFrame slave reg values crc) 1 = fcWriteMultipleRegisters ∧
      requestReg (put ram (writeMultipleFrame slave reg values crc)) = reg ∧
      (requestRegNo (put ram (writeMultipleFrame slave reg values crc))).toNat = values.length ∧
      requestValues (put ram (writeMultipleFrame slave reg values crc)) =
        shifted (BitVec.ofNat 8 (2 * values.length)) values := by
  have hspells := spells_put ram [] (writeMultipleFrame slave reg values crc)
  rw [List.nil_append] at hspells
  generalize hput : put ram (writeMultipleFrame slave reg values crc) = ram' at hspells
  simp only [writeMultipleFrame, bigEndian, List.cons_append, List.nil_append, Spells] at hspells
  obtain ⟨-, hfun, hregHigh, hregLow, hnoHigh, hnoLow, hrest⟩ := hspells
  have hfun' : ram' 1 = fcWriteMultipleRegisters := hfun
  have hsingle : ¬ ram' 1 = fcWriteSingleRegister := by rw [hfun']; decide
  have hreg : requestReg ram' = reg := (be16_eq_iff _ _ _).mpr ⟨hregHigh, hregLow⟩
  have hregNo : requestRegNo ram' = BitVec.ofNat 16 values.length := by
    rw [requestRegNo, if_neg hsingle]
    exact (be16_eq_iff _ _ _).mpr ⟨hnoHigh, hnoLow⟩
  have hno : (requestRegNo ram').toNat = values.length := by
    rw [hregNo, BitVec.toNat_ofNat]
    exact Nat.mod_eq_of_lt hcount
  refine ⟨hfun', hreg, hno, ?_⟩
  rw [requestValues, if_neg hsingle, hno]
  exact payload_eq_shifted hrest

end Frame

/-- In the byte registers the first shifted value is out of range. -/
theorem storeAll_shifted_rejected (para : Mem) {reg : ℕ} {values : List (BitVec 16)} {count : Byte}
    (hne : values ≠ []) (hcount : count ≠ 0) (hreg : reg < splitHoldRIndex1) :
    (storeAll para reg (shifted count values)).1 = false := by
  obtain ⟨value, rest, rfl⟩ := List.exists_cons_of_ne_nil hne
  have hrefuse : refuses reg (be16 count (highByte value)) = true := by
    by_contra haccept
    exact hcount (high_eq_zero_of_lt (lt_of_not_refuses hreg (Bool.eq_false_iff.mpr haccept)))
  simp [shifted, storeAll, hrefuse]

theorem setWidth_inj {value value' : BitVec 16} :
    value.setWidth 32 = value'.setWidth 32 ↔ value = value' := by
  refine ⟨fun heq ↦ BitVec.eq_of_toNat_eq ?_, congrArg _⟩
  have hnat := congrArg BitVec.toNat heq
  simp only [BitVec.toNat_setWidth] at hnat
  omega

/-- Accepted values are the payload exactly when shifting does not change it. -/
theorem stores_iff_shifted_eq {para : Mem} {reg : ℕ} {values : List (BitVec 16)} {count : Byte}
    (haccepted : (storeAll para reg (shifted count values)).1 = true)
    (hwindow : reg + values.length ≤ splitHoldRIndex3) :
    ((∀ i, ∀ hi : i < values.length,
        (cell (storeAll para reg (shifted count values)).2 (reg + i)).setWidth 32 =
          values[i].setWidth 32) ∧
      ∀ other, other < reg ∨ reg + values.length ≤ other →
        (cell (storeAll para reg (shifted count values)).2 other).setWidth 32 =
          (cell para other).setWidth 32) ↔
    ∀ value ∈ values, value = be16 count count := by
  have hlength := shifted_length count values
  have hcells : ∀ i, ∀ hi : i < (shifted count values).length,
      cell (storeAll para reg (shifted count values)).2 (reg + i) = (shifted count values)[i] :=
    fun i hi ↦ cell_storeAll_of_accepted haccepted (by omega) hi
  rw [← shifted_eq_iff]
  constructor
  · rintro ⟨hstored, -⟩
    refine List.ext_getElem hlength fun i hi hi' ↦ ?_
    rw [← hcells i hi, setWidth_inj.mp (hstored i hi')]
  · intro hsame
    refine ⟨fun i hi ↦ ?_, fun other hother ↦ ?_⟩
    · rw [hcells i (by omega)]
      simp only [hsame]
    · rw [cell_storeAll_of_outside (by omega)]

/-- The frame at the start of the memory is answered in place. -/
def answer (slave : Byte) (info : ModbusRtuInfo) (datum : ModelDatum) (ram : Ram)
    (frame : List Byte) : Exchange :=
  (Exchange.pack handlePrepare ⟨put ram frame, configured slave info, datum⟩ 0 0
    (BitVec.ofNat 16 frame.length)).2

theorem answer_datum {slave : Byte} {info : ModbusRtuInfo} {datum : ModelDatum} {ram : Ram}
    {frame : List Byte} (hwrite : IsWrite (put ram frame)) :
    (answer slave info datum ram frame).datum =
      { datum with para := (writeOutcome (put ram frame) datum.para).2 } :=
  (Exchange.pack_write slave info datum _ hwrite).2

/-- The response to a write request is the normal one exactly when everything was accepted. -/
theorem answer_function {slave : Byte} {info : ModbusRtuInfo} (datum : ModelDatum) {ram : Ram}
    {frame : List Byte} (hwrite : IsWrite (put ram frame))
    (haccept : (unpack (configured slave info) (put ram frame)
      (BitVec.ofNat 16 frame.length)).value = 0) :
    (answer slave info datum ram frame).ram 1 = put ram frame 1 ↔
      (writeOutcome (put ram frame) datum.para).1 = true := by
  rw [answer, Exchange.pack_write_function hwrite haccept]
  cases (writeOutcome (put ram frame) datum.para).1 <;> simp

/-- The hold registers from `reg` on read back the values, all others what they read before. -/
def StoresExactly (before after : ModelDatum) (reg : ℕ) (values : List (BitVec 16)) : Prop :=
  (∀ i, ∀ hi : i < values.length,
    after.modbusRegGet .hold (reg + i) = values[i].setWidth 32) ∧
  ∀ other, other < reg ∨ reg + values.length ≤ other →
    after.modbusRegGet .hold other = before.modbusRegGet .hold other

/-- An accepted Write Multiple request, answered with the normal response, stores the payload and
nothing else if and only if its window starts in the byte registers or leaves the address space
(then there is no normal response), or every byte of the payload equals the byte count. -/
theorem writeMultiple_stores_iff (slave unit : Byte) (info : ModbusRtuInfo) (datum : ModelDatum)
    (ram : Ram) (reg : BitVec 16) (values : List (BitVec 16)) (crc : BitVec 16)
    (hne : values ≠ [])
    (hlen : (writeMultipleFrame unit reg values crc).length < 2 ^ 16)
    (haccept : (unpack (configured slave info)
      (put ram (writeMultipleFrame unit reg values crc))
      (BitVec.ofNat 16 (writeMultipleFrame unit reg values crc).length)).value = 0) :
    ((answer slave info datum ram (writeMultipleFrame unit reg values crc)).ram 1 =
        fcWriteMultipleRegisters →
      StoresExactly datum
        (answer slave info datum ram (writeMultipleFrame unit reg values crc)).datum
        reg.toNat values) ↔
    (reg.toNat < splitHoldRIndex1 ∨ holdRegMaxNo ≤ reg.toNat + values.length ∨
      ∀ value ∈ values, value =
        be16 (BitVec.ofNat 8 (2 * values.length)) (BitVec.ofNat 8 (2 * values.length))) := by
  rw [writeMultipleFrame_length] at hlen
  obtain ⟨hfun, hreg, hregNo, hvalues⟩ := request_of_writeMultipleFrame ram unit reg values crc
    (by omega)
  have hwrite : IsWrite (put ram (writeMultipleFrame unit reg values crc)) := .inr hfun
  have hmax := (accepted_of_unpack haccept).1
  rw [writeMultipleFrame_length, BitVec.toNat_ofNat, Nat.mod_eq_of_lt hlen] at hmax
  have hresponse := answer_function datum hwrite haccept
  have hpara : (answer slave info datum ram (writeMultipleFrame unit reg values crc)).datum.para =
      (writeOutcome (put ram (writeMultipleFrame unit reg values crc)) datum.para).2 := by
    rw [answer_datum hwrite]
  have hout : writeOutcome (put ram (writeMultipleFrame unit reg values crc)) datum.para =
      if reg.toNat + values.length < holdRegMaxNo then
        storeAll datum.para reg.toNat (shifted (BitVec.ofNat 8 (2 * values.length)) values)
      else (false, datum.para) := by
    simp only [writeOutcome, InWindow, hreg, hregNo, hvalues]
  rw [hfun] at hresponse
  simp only [hresponse, StoresExactly, ModelDatum.modbusRegGet, ModelDatum.holdRegGet_eq, hpara,
    hout]
  have hcount : BitVec.ofNat 8 (2 * values.length) ≠ 0 := fun hzero ↦ by
    have hpos := List.length_pos_iff.mpr hne
    have hnat : 2 * values.length % 2 ^ 8 = 0 := by simpa using congrArg BitVec.toNat hzero
    simp only [maxMessageLength] at hmax
    omega
  by_cases hwindow : reg.toNat + values.length < holdRegMaxNo
  · rw [if_pos hwindow]
    by_cases hlow : reg.toNat < splitHoldRIndex1
    · have hreject := storeAll_shifted_rejected datum.para hne hcount hlow
      simp [hreject, hlow]
    · have haccepted := storeAll_accepts datum.para
        (shifted (BitVec.ofNat 8 (2 * values.length)) values) (not_lt.mp hlow)
      simp only [haccepted, true_imp_iff, hlow, false_or, not_le.mpr hwindow]
      exact stores_iff_shifted_eq haccepted hwindow.le
  · simp [if_neg hwindow, not_lt.mp hwindow]

/-- One register, both bytes of the payload the byte count 2. -/
theorem writeMultiple_stores_iff_equal_bytes :
    StoresExactly ⟨fun _ ↦ 0, fun _ ↦ 0⟩
      (answer 1 ProtocolModbusRtu.construct.info ⟨fun _ ↦ 0, fun _ ↦ 0⟩ (fun _ ↦ 0)
        (writeMultipleFrame 1 10 [0x0202] 0x265B)).datum
      (BitVec.toNat (10 : BitVec 16)) [0x0202] := by
  refine (writeMultiple_stores_iff 1 1 ProtocolModbusRtu.construct.info ⟨fun _ ↦ 0, fun _ ↦ 0⟩
    (fun _ ↦ 0) 10 [0x0202] 0x265B ?_ ?_ ?_).mpr
    (.inr (.inr (List.forall_mem_singleton.mpr ?_))) ?_ <;>
    decide +kernel

/-- One value for register 7: the response is the normal one, and the register holds the byte count
and the high byte of the value. -/
theorem writeMultiple_stores_wrong_value :
    (unpack (configured 1 ProtocolModbusRtu.construct.info)
        (put (fun _ ↦ 0) (writeMultipleFrame 1 7 [0x1234] 0xAA90)) 11).value = 0 ∧
      (answer 1 ProtocolModbusRtu.construct.info ⟨fun _ ↦ 0, fun _ ↦ 0⟩ (fun _ ↦ 0)
        (writeMultipleFrame 1 7 [0x1234] 0xAA90)).ram 1 = fcWriteMultipleRegisters ∧
      ¬ StoresExactly ⟨fun _ ↦ 0, fun _ ↦ 0⟩
        (answer 1 ProtocolModbusRtu.construct.info ⟨fun _ ↦ 0, fun _ ↦ 0⟩ (fun _ ↦ 0)
          (writeMultipleFrame 1 7 [0x1234] 0xAA90)).datum
        (BitVec.toNat (7 : BitVec 16)) [0x1234] := by
  refine ⟨by decide +kernel, by decide +kernel, fun hstores ↦ ?_⟩
  have hfirst := hstores.1 0 (by decide)
  revert hfirst
  decide +kernel

end ProjectSensor.App
