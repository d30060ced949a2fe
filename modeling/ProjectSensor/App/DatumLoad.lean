import ProjectSensor.Api.Crc16
import ProjectSensor.App.Datum
import ProjectSensor.Bsp.PageTransfers

/-!
# Loading the parameters

The block lies in the EEPROM behind the magic string, at the next page.  `datum_load` reads it,
falls back to the defaults when its checksum is wrong, writes them and reads once more.
-/

open ProjectSensor.Library ProjectSensor.Library.ByteMemory ProjectSensor.Api ProjectSensor.Bsp

namespace ProjectSensor.App

def magicSetup : String := "magic setup string"

/-- `ROUND_UP`. -/
def roundUp (x y : ℕ) : ℕ := (x + (y - 1)) / y * y

/-- `storage_info`; `m_pdata` is the block the type names. -/
structure StorageInfo where
  storageAddr : BitVec 16
  len : ℕ
  deriving DecidableEq

def storageInfoQuery : RegType → Option StorageInfo
  | .hold => some ⟨BitVec.ofNat 16 (roundUp magicSetup.length 16), sizeofSensorPara⟩
  | .magic => some ⟨0, magicSetup.length + 1⟩
  | .input => none

/-- Where the hold registers lie in the EEPROM. -/
def storageInfoHold : StorageInfo := ⟨32, sizeofSensorPara⟩

theorem storageInfoQuery_hold : storageInfoQuery .hold = some storageInfoHold := by decide +kernel

namespace ModelDatum

variable (datum : ModelDatum)

/-- The checksum of the bytes behind the checksum. -/
def paramCrc : BitVec 16 :=
  (crc16 (fun i ↦ datum.para (ucLinkAddrAt + i.toNat))
    (BitVec.ofNat 16 (sizeofSensorPara - ucLinkAddrAt))).value

def storageParamChksum : ModelDatum :=
  { datum with para := store16 datum.para chksumAt datum.paramCrc }

/-- `storage_param_verify`; a wrong checksum leaves the defaults. -/
def storageParamVerify : ℤ × ModelDatum :=
  if load16 datum.para chksumAt ≠ datum.paramCrc then (-1, datum.modbusHoldRegDefInit)
  else (0, datum)

/-- `model_datum::model_datum` on the memory of the object. -/
def construct : ModelDatum := (datum.holdRegSet 0 1).2.modbusHoldRegDefInit

end ModelDatum

inductive DatumLoadCtrl where
  | recover
  | none
  deriving DecidableEq

inductive DatumLoadStat where
  | success
  | retry
  | failed
  deriving DecidableEq

/-- The parameters, the EEPROM and the outcomes of the transfers to come. -/
structure Loading where
  datum : ModelDatum
  eeprom : Mem
  outcomes : List Outcome

namespace Loading

variable (l : Loading)

/-- `device_storage::read` or `device_storage::write` of the parameter block. -/
def access (ctrl : AccessCtrl) : ℤ × Loading :=
  let (size, m, outcomes) := drvAccess ctrl storageInfoHold.storageAddr storageInfoHold.len
    ⟨l.eeprom, l.datum.para⟩ l.outcomes
  (size, { datum := { l.datum with para := m.ram }, eeprom := m.eeprom, outcomes := outcomes })

/-- `application::_datum_load`. -/
def load (ctrl : DatumLoadCtrl) : DatumLoadStat × Loading :=
  let (ssize, l) := l.access .read
  if ssize ≤ 0 ∨ ssize ≠ storageInfoHold.len then (.failed, l)
  else
    let (rt, datum) := l.datum.storageParamVerify
    let l := { l with datum := datum }
    if rt = 0 then (.success, l)
    else
      let l := { l with datum := l.datum.storageParamChksum }
      if ctrl = .recover then
        let (ssize, l) := l.access .write
        if ssize ≤ 0 ∨ ssize ≠ storageInfoHold.len then (.failed, l) else (.retry, l)
      else (.failed, l)

/-- `application::datum_load`; what the second try finds does not change the result. -/
def datumLoad : ℤ × Loading :=
  let (stat, l) := l.load .recover
  if stat = .success then (0, l)
  else if stat = .retry then
    let (stat, l) := l.load .none
    (if stat ≠ .success then -1 else -1, l)
  else (-1, l)

end Loading

/-- The block the EEPROM holds for the hold registers, over what the memory held. -/
def storedPara (eeprom para : Mem) : Mem :=
  blit para 0 eeprom storageInfoHold.storageAddr.toNat storageInfoHold.len

/-- The EEPROM holds a block with a valid checksum. -/
def ValidImage (eeprom : Mem) : Prop :=
  let datum : ModelDatum := ⟨storedPara eeprom fun _ ↦ 0, fun _ ↦ 0⟩
  load16 datum.para chksumAt = datum.paramCrc

instance (eeprom : Mem) : Decidable (ValidImage eeprom) := inferInstanceAs (Decidable (_ = _))

theorem storedPara_apply (eeprom para : Mem) {k : ℕ} (hk : k < sizeofSensorPara) :
    storedPara eeprom para k = eeprom (storageInfoHold.storageAddr.toNat + k) :=
  blit_start para eeprom storageInfoHold.storageAddr.toNat hk

/-- The checksum is taken over the registers only. -/
theorem paramCrc_congr {datum datum' : ModelDatum}
    (hsame : ∀ k, ucLinkAddrAt ≤ k → k < sizeofSensorPara → datum.para k = datum'.para k) :
    datum.paramCrc = datum'.paramCrc := by
  refine crc16_value_congr fun i hlow hhigh ↦ hsame _ (Nat.le_add_right ..) ?_
  have hlen : (BitVec.ofNat 16 (sizeofSensorPara - ucLinkAddrAt)).toNat = 110 := rfl
  rw [hlen] at hhigh
  simp only [ucLinkAddrAt, sizeofSensorPara]
  omega

/-- Whether the checksum is right depends on the block alone. -/
theorem chksum_congr {datum datum' : ModelDatum}
    (hsame : ∀ k < sizeofSensorPara, datum.para k = datum'.para k) :
    load16 datum.para chksumAt = datum.paramCrc ↔
      load16 datum'.para chksumAt = datum'.paramCrc := by
  have hload : load16 datum.para chksumAt = load16 datum'.para chksumAt :=
    load16_congr (hsame _ (by decide)) (hsame _ (by decide))
  have hcrc : datum.paramCrc = datum'.paramCrc := paramCrc_congr fun k _ hk ↦ hsame k hk
  rw [hload, hcrc]

theorem para_storageParamChksum (datum : ModelDatum) {k : ℕ} (hk : ucLinkAddrAt ≤ k) :
    datum.storageParamChksum.para k = datum.para k := by
  have hbehind : chksumAt + 1 < k := hk
  have hstore := store16_apply datum.para chksumAt k datum.paramCrc
  rwa [if_neg (by omega), if_neg (by omega)] at hstore

/-- `storage_param_verify` accepts what `storage_param_chksum` leaves. -/
theorem chksum_storageParamChksum (datum : ModelDatum) :
    load16 datum.storageParamChksum.para chksumAt = datum.storageParamChksum.paramCrc := by
  have hcrc : datum.storageParamChksum.paramCrc = datum.paramCrc :=
    paramCrc_congr fun k hk _ ↦ para_storageParamChksum datum hk
  rw [hcrc]
  exact load16_store16_same datum.para chksumAt datum.paramCrc

/-- Whether the image is valid does not depend on what the memory held. -/
theorem validImage_iff (eeprom : Mem) (datum : ModelDatum) :
    ValidImage eeprom ↔ load16 (storedPara eeprom datum.para) chksumAt =
      ModelDatum.paramCrc { datum with para := storedPara eeprom datum.para } := by
  have hsame : ∀ k < sizeofSensorPara,
      storedPara eeprom (fun _ ↦ 0) k = storedPara eeprom datum.para k := by
    intro k hk
    rw [storedPara_apply eeprom _ hk, storedPara_apply eeprom _ hk]
  exact @chksum_congr ⟨storedPara eeprom fun _ ↦ 0, fun _ ↦ 0⟩
    { datum with para := storedPara eeprom datum.para } hsame

namespace Loading

variable {l : Loading}

/-- When all transfers are completed, the block read is the image. -/
theorem access_read (hfinished : ∀ o ∈ l.outcomes, o = .finished) :
    ∃ rest, l.access .read = ((storageInfoHold.len : ℤ), { l with
      datum := { l.datum with para := storedPara l.eeprom l.datum.para }, outcomes := rest }) := by
  obtain ⟨rest, -, hread⟩ := drvAccess_of_finished .read storageInfoHold.storageAddr
    storageInfoHold.len ⟨l.eeprom, l.datum.para⟩ (by decide) hfinished
  exact ⟨rest, by simp only [access, hread]; rfl⟩

theorem not_short : ¬ ((storageInfoHold.len : ℤ) ≤ 0 ∨
    (storageInfoHold.len : ℤ) ≠ storageInfoHold.len) := by decide

/-- Loading a valid image succeeds and takes over the image. -/
theorem load_of_valid (hvalid : ValidImage l.eeprom)
    (hfinished : ∀ o ∈ l.outcomes, o = .finished) (ctrl : DatumLoadCtrl) :
    ∃ rest, l.load ctrl = (.success, { l with
      datum := { l.datum with para := storedPara l.eeprom l.datum.para }, outcomes := rest }) := by
  obtain ⟨rest, hread⟩ := access_read hfinished
  have hverify : ModelDatum.storageParamVerify
      { l.datum with para := storedPara l.eeprom l.datum.para } =
        (0, { l.datum with para := storedPara l.eeprom l.datum.para }) :=
    if_neg (not_not.mpr ((validImage_iff l.eeprom l.datum).mp hvalid))
  exact ⟨rest, by simp only [load, hread, if_neg not_short, hverify, if_true]⟩

/-- Loading an image that is not valid does not succeed. -/
theorem load_of_invalid (hinvalid : ¬ ValidImage l.eeprom)
    (hfinished : ∀ o ∈ l.outcomes, o = .finished) (ctrl : DatumLoadCtrl) :
    (l.load ctrl).1 ≠ .success := by
  obtain ⟨rest, hread⟩ := access_read hfinished
  have hverify : (ModelDatum.storageParamVerify
      { l.datum with para := storedPara l.eeprom l.datum.para }).1 = -1 := by
    rw [ModelDatum.storageParamVerify,
      if_pos fun heq ↦ hinvalid ((validImage_iff l.eeprom l.datum).mpr heq)]
  have hne : ¬ (-1 : ℤ) = 0 := by decide
  simp only [load, hread, if_neg not_short, hverify, if_neg hne]
  split
  · split <;> exact DatumLoadStat.noConfusion
  · exact DatumLoadStat.noConfusion

/-- When all transfers are completed, `datum_load` succeeds on the valid images, and then the
block is the image. -/
theorem datumLoad_spec (hfinished : ∀ o ∈ l.outcomes, o = .finished) :
    (l.datumLoad.1 = 0 ↔ ValidImage l.eeprom) ∧ (ValidImage l.eeprom → ∃ rest,
      l.datumLoad = (0, { l with
        datum := { l.datum with para := storedPara l.eeprom l.datum.para }
        outcomes := rest })) := by
  have hsucceeds : ValidImage l.eeprom → ∃ rest, l.datumLoad = (0, { l with
      datum := { l.datum with para := storedPara l.eeprom l.datum.para }, outcomes := rest }) := by
    intro hvalid
    obtain ⟨rest, hload⟩ := load_of_valid hvalid hfinished .recover
    exact ⟨rest, by simp only [datumLoad, hload, if_true]⟩
  refine ⟨⟨fun hzero ↦ ?_, fun hvalid ↦ ?_⟩, hsucceeds⟩
  · by_contra hinvalid
    have hfails := load_of_invalid hinvalid hfinished .recover
    simp only [datumLoad, if_neg hfails] at hzero
    split at hzero
    · simp at hzero
    · exact absurd hzero (by simp)
  · obtain ⟨rest, hload⟩ := hsucceeds hvalid
    rw [hload]

end Loading

end ProjectSensor.App
