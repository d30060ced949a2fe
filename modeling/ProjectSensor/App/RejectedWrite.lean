import ProjectSensor.App.RegisterWrite

/-!
# Writes that are answered with an exception

A request whose window reaches too far is rejected before anything is stored.  A request with a
value out of range is rejected when that value is met, and the values before it stay stored.  So a
rejected write changes nothing exactly when the values before the first refused one are what the
registers hold already.
-/

open ProjectSensor.Library ProjectSensor.Library.ByteMemory ProjectSensor.Api

namespace ProjectSensor.App

/-- The whole parameter block is the same. -/
def SameBlock (para para' : Mem) : Prop := ∀ k < sizeofSensorPara, para' k = para k

/-- The values before the first refused one are the contents of their registers. -/
def PrefixUnchanged (para : Mem) (reg : ℕ) (values : List (BitVec 16)) : Prop :=
  ∀ j, ∀ hj : j < values.length, refuses (reg + j) values[j] = true →
    (∀ i, ∀ hi : i < j, refuses (reg + i) values[i] = false) →
      ∀ i, ∀ hi : i < j, values[i] = cell para (reg + i)

theorem SameBlock.cell_eq {para para' : Mem} (hsame : SameBlock para para') (reg : ℕ) :
    cell para' reg = cell para reg := by
  by_cases h1 : reg < splitHoldRIndex1
  · have hlt : ucLinkAddrAt + reg < sizeofSensorPara := by
      simp only [splitHoldRIndex1] at h1
      simp only [ucLinkAddrAt, sizeofSensorPara]
      omega
    simp only [cell, h1, if_true, hsame _ hlt]
  · by_cases h3 : reg < splitHoldRIndex3
    · have hfar := (halfAddr_lt (not_lt.mp h1) h3).2
      simp only [cell, h1, h3, if_true, if_false]
      exact load16_congr (hsame _ (by omega)) (hsame _ hfar)
    · simp [cell, h1, h3]

/-- Storing what the registers hold changes nothing. -/
theorem storeAll_own (para : Mem) (reg : ℕ) (values : List (BitVec 16))
    (hown : ∀ i, ∀ hi : i < values.length, values[i] = cell para (reg + i)) :
    (storeAll para reg values).2 = para := by
  induction values generalizing reg with
  | nil => rfl
  | cons value values ih =>
      have hvalue : value = cell para reg := hown 0 (by simp)
      rw [storeAll, hvalue, setCell_cell]
      split
      · rfl
      · refine ih _ fun i hi ↦ ?_
        have hnext := hown (i + 1) (by simpa using hi)
        rwa [List.getElem_cons_succ, show reg + (i + 1) = reg + 1 + i by omega] at hnext

/-- A rejected series of stores is the series up to the first refused value. -/
theorem storeAll_rejected {para : Mem} {reg : ℕ} {values : List (BitVec 16)}
    (hreject : (storeAll para reg values).1 = false) :
    ∃ j, ∃ hj : j < values.length, refuses (reg + j) values[j] = true ∧
      (∀ i, ∀ hi : i < j, refuses (reg + i) values[i] = false) ∧
      storeAll para reg (values.take j) = (true, (storeAll para reg values).2) := by
  induction values generalizing para reg with
  | nil => simp [storeAll] at hreject
  | cons value values ih =>
      cases hrefuse : refuses reg value with
      | true => exact ⟨0, by simp, hrefuse, by simp, by simp [storeAll, hrefuse]⟩
      | false =>
          rw [storeAll, hrefuse] at hreject
          obtain ⟨j, hj, hjrefuse, hbefore, htake⟩ := ih hreject
          refine ⟨j + 1, by simpa using hj, ?_, fun i hi ↦ ?_, ?_⟩
          · rwa [List.getElem_cons_succ, show reg + (j + 1) = reg + 1 + j by omega]
          · cases i with
            | zero => exact hrefuse
            | succ i =>
                rw [List.getElem_cons_succ, show reg + (i + 1) = reg + 1 + i by omega]
                exact hbefore i (by omega)
          · simp only [List.take_succ_cons, storeAll, hrefuse, Bool.false_eq_true, if_false]
            exact htake

/-- A rejected series of stores leaves the block alone exactly when it stores nothing new. -/
theorem sameBlock_storeAll_iff {para : Mem} {reg : ℕ} {values : List (BitVec 16)}
    (hreject : (storeAll para reg values).1 = false)
    (hwindow : reg + values.length ≤ splitHoldRIndex3) :
    SameBlock para (storeAll para reg values).2 ↔ PrefixUnchanged para reg values := by
  obtain ⟨j, hj, hrefuse, hbefore, htake⟩ := storeAll_rejected hreject
  have haccept : (storeAll para reg (values.take j)).1 = true := by rw [htake]
  have hend : (storeAll para reg values).2 = (storeAll para reg (values.take j)).2 := by rw [htake]
  have hlen : (values.take j).length = j := List.length_take_of_le hj.le
  constructor
  · intro hsame j' hj' hrefuse' hbefore' i hi
    have hfirst : j' = j := by
      rcases lt_trichotomy j' j with hlt | heq | hlt
      · simp [hbefore j' hlt] at hrefuse'
      · exact heq
      · simp [hbefore' j hlt] at hrefuse
    subst hfirst
    have hcell := cell_storeAll_of_accepted haccept (by omega) (i := i) (by omega)
    rw [← hend, hsame.cell_eq, List.getElem_take] at hcell
    exact hcell.symm
  · intro hprefix k _
    have hown := storeAll_own para reg (values.take j) fun i hi ↦ by
      rw [List.getElem_take]
      exact hprefix j hj hrefuse hbefore i (by omega)
    rw [hend, hown]

/-- A rejected Write Single or Write Multiple request leaves the parameter block as it was if and
only if, when its window is inside the address space, the values before the first refused one are
the contents of their registers. -/
theorem rejected_write_iff (slave : Byte) (info : ModbusRtuInfo) (datum : ModelDatum) (ram : Ram)
    (len : BitVec 16) (hwrite : IsWrite ram)
    (haccept : (unpack (configured slave info) ram len).value = 0) :
    ((Exchange.pack handlePrepare ⟨ram, configured slave info, datum⟩ 0 0 len).2.ram 1 =
        ram 1 + 0x80 →
      SameBlock datum.para
        (Exchange.pack handlePrepare ⟨ram, configured slave info, datum⟩ 0 0 len).2.datum.para) ↔
    (InWindow ram → PrefixUnchanged datum.para (requestReg ram).toNat (requestValues ram)) := by
  rw [(Exchange.pack_write slave info datum len hwrite).2,
    Exchange.pack_write_function hwrite haccept]
  have hne : ram 1 ≠ ram 1 + 0x80 := by
    rcases hwrite with heq | heq <;> rw [heq] <;> decide
  by_cases hwindow : InWindow ram
  · have hout : writeOutcome ram datum.para =
        storeAll datum.para (requestReg ram).toNat (requestValues ram) := by
      simp [writeOutcome, hwindow]
    have hbound : (requestReg ram).toNat + (requestValues ram).length ≤ splitHoldRIndex3 := by
      rw [requestValues, payload_length]
      exact Nat.le_of_lt hwindow
    rw [hout]
    cases haccepted : (storeAll datum.para (requestReg ram).toNat (requestValues ram)).1 with
    | true =>
        simp only [if_true, hne, false_imp_iff, hwindow, true_imp_iff, true_iff]
        intro j hj hrefuse
        simp [not_refuses_of_accepted haccepted hj] at hrefuse
    | false =>
        simp only [Bool.false_eq_true, if_false, true_imp_iff, hwindow]
        exact sameBlock_storeAll_iff haccepted hbound
  · have hout : writeOutcome ram datum.para = (false, datum.para) := by
      simp [writeOutcome, hwindow]
    simp only [hout, hwindow, false_imp_iff, iff_true]
    exact fun _ _ _ ↦ rfl

/-- The factory defaults, and a memory that holds nothing but one frame. -/
def defaultDatum : ModelDatum := (ModelDatum.mk (fun _ ↦ 0) fun _ ↦ 0).modbusHoldRegDefInit

def frameRam (frame : List Byte) : Ram := put (fun _ ↦ 0) frame

/-- A single write of a baud index that does not exist is rejected and changes nothing. -/
theorem rejected_write_iff_single :
    (Exchange.pack handlePrepare ⟨frameRam [1, 6, 0, 1, 0, 9, 0x18, 0x0C],
        configured 1 ProtocolModbusRtu.construct.info, defaultDatum⟩ 0 0 8).2.ram 1 = 0x86 ∧
      SameBlock defaultDatum.para
        (Exchange.pack handlePrepare ⟨frameRam [1, 6, 0, 1, 0, 9, 0x18, 0x0C],
          configured 1 ProtocolModbusRtu.construct.info, defaultDatum⟩ 0 0 8).2.datum.para :=
  ⟨by decide +kernel,
    (rejected_write_iff 1 ProtocolModbusRtu.construct.info defaultDatum
      (frameRam [1, 6, 0, 1, 0, 9, 0x18, 0x0C]) 8 (by decide +kernel) (by decide +kernel)).mpr
      (fun _ j hj _ _ i hi ↦ absurd (Nat.zero_lt_of_lt hi) (Nat.not_lt.mpr (Nat.le_of_lt_succ hj)))
      (by decide +kernel)⟩

/-- Registers 1 and 2 in one request, the value for register 2 out of range: the request is
rejected and register 1 keeps its new value. -/
theorem rejected_write_keeps_first_value :
    (unpack (configured 1 ProtocolModbusRtu.construct.info)
        (frameRam [1, 0x10, 0, 1, 0, 2, 0, 1, 0xFF, 0xFF, 0xD5, 0x72]) 12).value = 0 ∧
      ¬ ((Exchange.pack handlePrepare
          ⟨frameRam [1, 0x10, 0, 1, 0, 2, 0, 1, 0xFF, 0xFF, 0xD5, 0x72],
            configured 1 ProtocolModbusRtu.construct.info, defaultDatum⟩ 0 0 12).2.ram 1 = 0x90 →
        SameBlock defaultDatum.para
          (Exchange.pack handlePrepare
            ⟨frameRam [1, 0x10, 0, 1, 0, 2, 0, 1, 0xFF, 0xFF, 0xD5, 0x72],
              configured 1 ProtocolModbusRtu.construct.info, defaultDatum⟩ 0 0 12).2.datum.para) :=
  ⟨by decide +kernel, fun hclaim ↦
    absurd (hclaim (by decide +kernel) ucCommBaudAt (by decide)) (by decide +kernel)⟩

end ProjectSensor.App
