import ProjectSensor.App.Responses

/-!
# Write requests

What a Write Single or Write Multiple request does, as `pack` is called: the response is built in
place over the request.  The registers are stored one after the other until one value is refused;
the response is the normal one exactly when the window is inside the address space and no value
was refused.
-/

open ProjectSensor.Library ProjectSensor.Library.ByteMemory ProjectSensor.Api

namespace ProjectSensor.App

theorem in16_eq (low high : Byte) : in16 low high = (be16 high low).setWidth 32 := by
  refine BitVec.eq_of_getLsbD_eq fun i hi ↦ ?_
  simp only [in16, be16, BitVec.getLsbD_or, BitVec.getLsbD_setWidth, BitVec.getLsbD_shiftLeft]
  have hhigh : ∀ k, 8 ≤ k → high.getLsbD k = false := fun k hk ↦ BitVec.getLsbD_of_ge _ _ hk
  grind

/-- The `count` halfwords at `buffer`, high byte first. -/
def payload (ram : Ram) : ℤ → ℕ → List (BitVec 16)
  | _, 0 => []
  | buffer, count + 1 => be16 (ram buffer) (ram (buffer + 1)) :: payload ram (buffer + 2) count

/-- Values stored into consecutive registers until one is refused; whether all were accepted, and
the block afterwards. -/
def storeAll : Mem → ℕ → List (BitVec 16) → Bool × Mem
  | para, _, [] => (true, para)
  | para, reg, value :: values =>
      if refuses reg value then (false, para)
      else storeAll (setCell para reg value) (reg + 1) values

theorem payload_length (ram : Ram) (buffer : ℤ) (count : ℕ) :
    (payload ram buffer count).length = count := by
  induction count generalizing buffer with
  | zero => rfl
  | succ count ih => simp [payload, ih]

/-- The loop of the handler stores the payload. -/
theorem writeRegs_eq (ram : Ram) (reg : BitVec 16) {left i : ℕ} (buffer : ℤ) (datum : ModelDatum)
    (hwindow : reg.toNat + i + left ≤ 2 ^ 16) :
    writeRegs ram reg left i buffer datum =
      let (accepted, para) := storeAll datum.para (reg.toNat + i) (payload ram buffer left)
      (if accepted then 0 else -1, { datum with para := para }) := by
  induction left generalizing i buffer datum with
  | zero => rfl
  | succ left ih =>
      have hindex : regIndex reg i = reg.toNat + i := Nat.mod_eq_of_lt (by omega)
      rw [writeRegs, in16_eq, ModelDatum.modbusRegSet_hold, hindex, payload, storeAll]
      cases hrefuse : refuses (reg.toNat + i) (be16 (ram buffer) (ram (buffer + 1))) with
      | true => rfl
      | false =>
          simp only [Bool.false_eq_true, if_false]
          exact ih (buffer + 2) _ (by omega)

section StoreAll

variable {para : Mem} {reg : ℕ} {values : List (BitVec 16)}

/-- Registers outside the window keep their content. -/
theorem cell_storeAll_of_outside {other : ℕ} (hother : other < reg ∨ reg + values.length ≤ other) :
    cell (storeAll para reg values).2 other = cell para other := by
  induction values generalizing para reg with
  | nil => rfl
  | cons value values ih =>
      unfold storeAll
      split
      · rfl
      · rw [List.length_cons] at hother
        rw [ih (by omega), cell_setCell_of_ne _ _ (by omega)]

/-- When every value is accepted, the window reads back the values. -/
theorem cell_storeAll_of_accepted (haccept : (storeAll para reg values).1 = true)
    (hwindow : reg + values.length ≤ splitHoldRIndex3) {i : ℕ} (hi : i < values.length) :
    cell (storeAll para reg values).2 (reg + i) = values[i] := by
  induction values generalizing para reg i with
  | nil => simp at hi
  | cons value values ih =>
      unfold storeAll at haccept ⊢
      rw [List.length_cons] at hwindow hi
      cases hrefuse : refuses reg value with
      | true => simp [hrefuse] at haccept
      | false =>
          simp only [hrefuse, Bool.false_eq_true, if_false] at haccept ⊢
          cases i with
          | zero =>
              rw [cell_storeAll_of_outside (.inl (by omega))]
              exact cell_setCell_same para (by omega) hrefuse
          | succ i =>
              have hrest := ih haccept (by omega) (i := i) (by omega)
              rw [show reg + (i + 1) = reg + 1 + i by omega, hrest]
              rfl

/-- Above the byte registers nothing is refused. -/
theorem storeAll_accepts (para : Mem) (values : List (BitVec 16))
    (hreg : splitHoldRIndex1 ≤ reg) : (storeAll para reg values).1 = true := by
  induction values generalizing para reg with
  | nil => rfl
  | cons value values ih =>
      rw [storeAll, refuses_of_le value hreg]
      exact ih _ (Nat.le_succ_of_le hreg)

/-- An accepted series has no refused value. -/
theorem not_refuses_of_accepted (haccept : (storeAll para reg values).1 = true) {i : ℕ}
    (hi : i < values.length) : refuses (reg + i) values[i] = false := by
  induction values generalizing para reg i with
  | nil => simp at hi
  | cons value values ih =>
      unfold storeAll at haccept
      cases hrefuse : refuses reg value with
      | true => simp [hrefuse] at haccept
      | false =>
          rw [hrefuse] at haccept
          cases i with
          | zero => exact hrefuse
          | succ i =>
              rw [List.getElem_cons_succ, show reg + (i + 1) = reg + 1 + i by omega]
              exact ih haccept (by simpa using hi)

end StoreAll

/-! ### The request and its response -/

/-- The values of a write request, as the handler takes them from the frame. -/
def requestValues (ram : Ram) : List (BitVec 16) :=
  payload ram (if ram 1 = fcWriteSingleRegister then 4 else 6) (requestRegNo ram).toNat

/-- The window of a write request is inside the address space, as the code tests it. -/
def InWindow (ram : Ram) : Prop :=
  (requestReg ram).toNat + (requestRegNo ram).toNat < holdRegMaxNo

instance (ram : Ram) : Decidable (InWindow ram) := inferInstanceAs (Decidable (_ < _))

theorem registersExist_iff_inWindow {ram : Ram} (hfun : ram 1 ≠ fcReadInputRegisters) :
    RegistersExist ram ↔ InWindow ram := by
  rw [RegistersExist, maxRegNo, if_neg hfun, InWindow]

/-- Whether a write request gets the normal response, and the block it leaves. -/
def writeOutcome (ram : Ram) (para : Mem) : Bool × Mem :=
  if InWindow ram then storeAll para (requestReg ram).toNat (requestValues ram) else (false, para)

namespace Exchange

variable {ram : Ram} {slave : Byte} {info : ModbusRtuInfo} {datum : ModelDatum}

/-- What a write request leaves, before its response. -/
def written (slave : Byte) (info : ModbusRtuInfo) (datum : ModelDatum) (ram : Ram) : Exchange :=
  ⟨ram, configured slave (requestInfo info ram),
    { datum with para := (writeOutcome ram datum.para).2 }⟩

/-- The handler stores the values of the request. -/
theorem handlePrepare_write (slave : Byte) (info : ModbusRtuInfo) (datum : ModelDatum)
    (hwrite : IsWrite ram) (hexist : RegistersExist ram) :
    handlePrepare (prepared slave info datum ram) =
      (if (writeOutcome ram datum.para).1 then 0 else -1, written slave info datum ram) := by
  have hread : ¬ (ram 1 = fcReadHoldingRegisters ∨ ram 1 = fcReadInputRegisters) :=
    not_isRead_of_isWrite hwrite
  have hwindow : InWindow ram := (registersExist_iff_inWindow fun h ↦ hread (.inr h)).mp hexist
  have hbound : (requestReg ram).toNat + 0 + (requestRegNo ram).toNat ≤ 2 ^ 16 := by
    have hlt := hwindow
    simp only [InWindow, holdRegMaxNo, splitHoldRIndex3] at hlt
    omega
  have hstore := writeRegs_eq ram (requestReg ram) (i := 0)
    (if ram 1 = fcWriteSingleRegister then 4 else 6) datum hbound
  simp only [IsWrite] at hwrite
  rw [prepared_write slave info datum hwrite]
  simp only [handlePrepare, packageEventPrepare, configured, requestInfo, hread, hwrite, ne_eq,
    not_true_eq_false, if_false, if_true, hstore]
  simp only [written, writeOutcome, hwindow, if_true, requestValues, Nat.add_zero]
  cases (storeAll datum.para (requestReg ram).toNat _).1 <;> rfl

/-- A write request answered in place, before its checksum. -/
theorem replied_write (slave : Byte) (info : ModbusRtuInfo) (datum : ModelDatum) (reqLength : ℤ)
    (hwrite : IsWrite ram) :
    replied handlePrepare slave info datum ram reqLength =
      if (writeOutcome ram datum.para).1 then
        (if ram 1 = fcWriteSingleRegister then reqLength else 6, written slave info datum ram)
      else (written slave info datum ram).responseException (ram 0) (ram 1)
        modbusExceptionIllegalDataAddress 0 := by
  have hread : ¬ IsRead ram := not_isRead_of_isWrite hwrite
  have hwindow := registersExist_iff_inWindow fun h ↦ hread (.inr h)
  rw [replied, if_pos (namesRegisters_of_isWrite hwrite)]
  by_cases hexist : RegistersExist ram
  · have hbasis := buildResponseBasis_self (written slave info datum ram)
    rw [if_pos hexist, handlePrepare_write slave info datum hwrite hexist]
    cases (writeOutcome ram datum.para).1 with
    | true =>
        by_cases hsingle : ram 1 = fcWriteSingleRegister
        · simp only [answered, if_true, if_neg hread, if_pos hsingle]
        · simp only [answered, if_true, if_neg hread, if_neg hsingle]
          exact congrArg (fun result ↦ ((6 : ℤ), result.2)) hbasis
    | false => rfl
  · have houtcome : writeOutcome ram datum.para = (false, datum.para) :=
      if_neg fun h ↦ hexist (hwindow.mpr h)
    rw [if_neg hexist, prepared_write slave info datum hwrite, written, houtcome]
    rfl

/-- What a write request leaves in the protocol and in the block, whatever the response. -/
theorem pack_write (slave : Byte) (info : ModbusRtuInfo) (datum : ModelDatum) (len : BitVec 16)
    (hwrite : IsWrite ram) :
    (pack handlePrepare ⟨ram, configured slave info, datum⟩ 0 0 len).2.rtu =
        configured slave (requestInfo info ram) ∧
      (pack handlePrepare ⟨ram, configured slave info, datum⟩ 0 0 len).2.datum =
        { datum with para := (writeOutcome ram datum.para).2 } := by
  simp only [pack, modbusReply_eq, replied_write _ _ _ _ hwrite]
  cases (writeOutcome ram datum.para).1 with
  | true => exact ⟨rfl, rfl⟩
  | false => exact ⟨rfl, rfl⟩

/-- The function byte of the response to a write request. -/
theorem pack_write_function {len : BitVec 16} (hwrite : IsWrite ram)
    (haccept : (unpack (configured slave info) ram len).value = 0) :
    (pack handlePrepare ⟨ram, configured slave info, datum⟩ 0 0 len).2.ram 1 =
      if (writeOutcome ram datum.para).1 then ram 1 else ram 1 + 0x80 := by
  simp only [pack, modbusReply_eq, replied_write _ _ _ _ hwrite]
  cases (writeOutcome ram datum.para).1 with
  | false =>
      simp only [Bool.false_eq_true, if_false]
      rw [sendMsgPre_ram_of_ne _ (by simp) (by simp)]
      simp [responseException, buildResponseBasis, setByte]
  | true =>
      simp only [if_true]
      by_cases hsingle : ram 1 = fcWriteSingleRegister
      · have hecho := sendMsgPre_echo (x := written slave info datum ram) haccept
        rw [if_pos hsingle, hecho]
        rfl
      · rw [if_neg hsingle, sendMsgPre_ram_of_ne _ (by omega) (by omega)]
        rfl

end Exchange

end ProjectSensor.App
