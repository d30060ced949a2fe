import ProjectSensor.App.Application

/-!
# What a load leaves

`_datum_load` reads into the block itself.  A wrong checksum brings the defaults back, but a read
that falls short does not, and a read whose last page fails is taken for a whole one: what has come
from the EEPROM by then stays over the defaults.
-/

open ProjectSensor.Library.ByteMemory ProjectSensor.Library.PieceTransfer ProjectSensor.Bsp

namespace ProjectSensor.App

/-- The block as `modbus_hold_reg_def_init` leaves it. -/
def factoryPara : Mem := (ModelDatum.modbusHoldRegDefInit ⟨fun _ ↦ 0, fun _ ↦ 0⟩).para

/-- The defaults with their checksum, which the recovery writes. -/
def factoryBlock : Mem := (ModelDatum.storageParamChksum ⟨factoryPara, fun _ ↦ 0⟩).para

/-- A byte of the block that belongs to a register: one behind the checksum. -/
def RegisterByte (k : ℕ) : Prop := ucLinkAddrAt ≤ k ∧ k < sizeofSensorPara

/-- A byte of the block as the EEPROM holds it. -/
def stored (eeprom : Mem) (k : ℕ) : Byte := eeprom (storageInfoHold.storageAddr.toNat + k)

/-- The checksum in the block is that of its registers. -/
def ChecksumHolds (para : Mem) : Prop :=
  load16 para chksumAt = ModelDatum.paramCrc ⟨para, fun _ ↦ 0⟩

instance (para : Mem) : Decidable (ChecksumHolds para) := inferInstanceAs (Decidable (_ = _))

/-- The attempts of an access to the block. -/
def blockTry (outcomes : List Outcome) : Attempt Outcome :=
  retried Outcome.failure wholeAccess.pages retryNumb outcomes

/-- The storage counts the whole block. -/
def WholeBlock (outcomes : List Outcome) : Prop :=
  (blockTry outcomes).begun = storageInfoHold.len

instance (outcomes : List Outcome) : Decidable (WholeBlock outcomes) :=
  inferInstanceAs (Decidable (_ = _))

namespace Loading

variable (l : Loading)

/-- The registers in RAM are the factory defaults. -/
def HoldsDefaults : Prop := ∀ k, RegisterByte k → l.datum.para k = factoryPara k

/-- The registers in RAM are those of the image, and its checksum is right. -/
def HoldsStored : Prop :=
  ValidImage l.eeprom ∧ ∀ k, RegisterByte k → l.datum.para k = stored l.eeprom k

/-- After a read of the block. -/
def afterRead : Loading where
  datum := { l.datum with
    para := blit l.datum.para 0 l.eeprom storageInfoHold.storageAddr.toNat
      (blockTry l.outcomes).moved }
  eeprom := l.eeprom
  outcomes := (blockTry l.outcomes).rest

/-- After a write of the block. -/
def afterWrite : Loading where
  datum := l.datum
  eeprom := blit l.eeprom storageInfoHold.storageAddr.toNat l.datum.para 0
    (blockTry l.outcomes).moved
  outcomes := (blockTry l.outcomes).rest

/-- The defaults with their checksum instead of what was read. -/
def restored : Loading := { l.afterRead with datum := { l.datum with para := factoryBlock } }

/-- What is read stays in the block: the read falls short, or the checksum is right. -/
def KeepsRead : Prop := WholeBlock l.outcomes → ChecksumHolds l.afterRead.datum.para

/-- The bytes moved do not differ from the defaults, or the image is valid and the bytes that were
not moved do not differ from the defaults. -/
def Unmixed : Prop :=
  (∀ k, RegisterByte k → k < (blockTry l.outcomes).moved → stored l.eeprom k = factoryPara k) ∨
    ValidImage l.eeprom ∧
      ∀ k, RegisterByte k → (blockTry l.outcomes).moved ≤ k → stored l.eeprom k = factoryPara k

/-- The first pass, and the second one where it is made, keeps nothing but what is unmixed. -/
def LoadsUnmixed : Prop :=
  (l.KeepsRead → l.Unmixed) ∧
    (¬ l.KeepsRead → WholeBlock l.restored.outcomes →
      l.restored.afterWrite.KeepsRead → l.restored.afterWrite.Unmixed)

variable {l}

/-! ### The accesses of a pass -/

theorem access_eq (ctrl : AccessCtrl) :
    l.access ctrl = (((blockTry l.outcomes).begun : ℤ),
      match ctrl with
      | .read => l.afterRead
      | .write => l.afterWrite) := by
  have haccepted : wholeAccess.Accepted := by decide
  have hretry := i2cAccessRetry_eq ctrl retryNumb ⟨l.eeprom, l.datum.para⟩ l.outcomes haccepted
  have hdrv : drvAccess ctrl storageInfoHold.storageAddr storageInfoHold.len
      ⟨l.eeprom, l.datum.para⟩ l.outcomes = i2cAccessRetry ctrl wholeAccess retryNumb
        ⟨l.eeprom, l.datum.para⟩ l.outcomes := rfl
  rw [access, hdrv, hretry]
  cases ctrl <;> rfl

theorem refused_iff (outcomes : List Outcome) :
    (((blockTry outcomes).begun : ℤ) ≤ 0 ∨
      ((blockTry outcomes).begun : ℤ) ≠ storageInfoHold.len) ↔ ¬ WholeBlock outcomes := by
  have hlen : storageInfoHold.len = 112 := rfl
  rw [WholeBlock]
  omega

/-! ### One pass -/

/-- A pass that keeps what it has read does nothing else. -/
theorem load_of_keepsRead (hkeeps : l.KeepsRead) (ctrl : DatumLoadCtrl) :
    ∃ stat, stat ≠ .retry ∧ l.load ctrl = (stat, l.afterRead) := by
  unfold load
  rw [access_eq]
  simp only [refused_iff]
  by_cases hwhole : WholeBlock l.outcomes
  · have hverify : l.afterRead.datum.storageParamVerify = (0, l.afterRead.datum) :=
      if_neg (not_not.mpr (hkeeps hwhole))
    refine ⟨.success, by decide, ?_⟩
    rw [if_neg (not_not.mpr hwhole), hverify, if_pos rfl]
  · exact ⟨.failed, by decide, if_pos hwhole⟩

theorem storageParamVerify_of_wrong (hkeeps : ¬ l.KeepsRead) :
    WholeBlock l.outcomes ∧ l.afterRead.datum.storageParamVerify =
      (-1, { l.datum with para := factoryPara }) := by
  rw [KeepsRead, Classical.not_imp] at hkeeps
  exact ⟨hkeeps.1, if_pos hkeeps.2⟩

/-- The second pass does not write. -/
theorem load_none_of_wrong (hkeeps : ¬ l.KeepsRead) : l.load .none = (.failed, l.restored) := by
  obtain ⟨hwhole, hverify⟩ := storageParamVerify_of_wrong hkeeps
  unfold load
  rw [access_eq]
  simp only [refused_iff]
  rw [if_neg (not_not.mpr hwhole), hverify]
  rfl

/-- The first pass writes the defaults. -/
theorem load_recover_of_wrong (hkeeps : ¬ l.KeepsRead) :
    l.load .recover =
      (if WholeBlock l.restored.outcomes then .retry else .failed, l.restored.afterWrite) := by
  obtain ⟨hwhole, hverify⟩ := storageParamVerify_of_wrong hkeeps
  have hne : ¬ (-1 : ℤ) = 0 := by decide
  have hwrite : l.load .recover =
      if (l.restored.access .write).1 ≤ 0 ∨ (l.restored.access .write).1 ≠ storageInfoHold.len then
        (.failed, (l.restored.access .write).2)
      else (.retry, (l.restored.access .write).2) := by
    unfold load
    rw [access_eq]
    simp only [refused_iff]
    rw [if_neg (not_not.mpr hwhole), hverify, if_neg hne, if_pos trivial]
    rfl
  rw [hwrite, access_eq]
  simp only [refused_iff]
  by_cases hwritten : WholeBlock l.restored.outcomes
  · rw [if_neg (not_not.mpr hwritten), if_pos hwritten]
  · rw [if_pos hwritten, if_neg hwritten]

/-! ### The whole load -/

theorem datumLoad_of_keepsRead (hkeeps : l.KeepsRead) : l.datumLoad.2 = l.afterRead := by
  obtain ⟨stat, hstat, hload⟩ := load_of_keepsRead hkeeps .recover
  unfold datumLoad
  rw [hload]
  simp only [if_neg hstat]
  split
  · rfl
  · rfl

/-- The second pass is made when the storage has counted the whole block that was written. -/
theorem datumLoad_of_wrong (hkeeps : ¬ l.KeepsRead) :
    l.datumLoad.2 =
      if WholeBlock l.restored.outcomes then (l.restored.afterWrite.load .none).2
      else l.restored.afterWrite := by
  unfold datumLoad
  rw [load_recover_of_wrong hkeeps]
  by_cases hwritten : WholeBlock l.restored.outcomes
  · simp only [if_pos hwritten, reduceCtorEq, if_false, if_true]
  · simp only [if_neg hwritten, reduceCtorEq, if_false]

/-! ### Good blocks -/

theorem factoryBlock_apply {k : ℕ} (hk : RegisterByte k) : factoryBlock k = factoryPara k :=
  para_storageParamChksum ⟨factoryPara, fun _ ↦ 0⟩ hk.1

theorem holdsDefaults_restored : l.restored.HoldsDefaults := fun _ hk ↦ factoryBlock_apply hk

theorem afterRead_of_moved {k : ℕ} (hmoved : k < (blockTry l.outcomes).moved) :
    l.afterRead.datum.para k = stored l.eeprom k :=
  blit_start l.datum.para l.eeprom storageInfoHold.storageAddr.toNat hmoved

theorem stored_afterWrite {k : ℕ} (hmoved : k < (blockTry l.outcomes).moved) :
    stored l.afterWrite.eeprom k = l.datum.para k := by
  have hcopy := blit_add l.eeprom storageInfoHold.storageAddr.toNat l.datum.para 0 hmoved
  rwa [Nat.zero_add] at hcopy

theorem afterRead_of_not_moved {k : ℕ} (hmoved : (blockTry l.outcomes).moved ≤ k) :
    l.afterRead.datum.para k = l.datum.para k := by
  have hout : 0 + (blockTry l.outcomes).moved ≤ k := by rwa [Nat.zero_add]
  exact blit_of_outside l.datum.para l.eeprom storageInfoHold.storageAddr.toNat (.inr hout)

/-- A read over the defaults leaves the image or the defaults exactly when it does not mix them. -/
theorem good_afterRead_iff (hdefaults : l.HoldsDefaults) :
    l.afterRead.HoldsStored ∨ l.afterRead.HoldsDefaults ↔ l.Unmixed := by
  have hmoved : ∀ k, RegisterByte k → k < (blockTry l.outcomes).moved →
      (l.afterRead.datum.para k = factoryPara k ↔ stored l.eeprom k = factoryPara k) := by
    intro k _ hlt
    rw [afterRead_of_moved hlt]
  have hkept : ∀ k, RegisterByte k → (blockTry l.outcomes).moved ≤ k →
      l.afterRead.datum.para k = factoryPara k := by
    intro k hk hle
    rw [afterRead_of_not_moved hle, hdefaults k hk]
  have hfactory : l.afterRead.HoldsDefaults ↔ ∀ k, RegisterByte k →
      k < (blockTry l.outcomes).moved → stored l.eeprom k = factoryPara k := by
    constructor
    · intro h k hk hlt
      exact (hmoved k hk hlt).mp (h k hk)
    · intro h k hk
      rcases Nat.lt_or_ge k (blockTry l.outcomes).moved with hlt | hle
      · exact (hmoved k hk hlt).mpr (h k hk hlt)
      · exact hkept k hk hle
  have hstored : l.afterRead.HoldsStored ↔ ValidImage l.eeprom ∧ ∀ k, RegisterByte k →
      (blockTry l.outcomes).moved ≤ k → stored l.eeprom k = factoryPara k := by
    apply and_congr Iff.rfl
    constructor
    · intro h k hk hle
      exact (h k hk).symm.trans (hkept k hk hle)
    · intro h k hk
      rcases Nat.lt_or_ge k (blockTry l.outcomes).moved with hlt | hle
      · exact afterRead_of_moved hlt
      · exact (hkept k hk hle).trans (h k hk hle).symm
  rw [hfactory, hstored, or_comm, Unmixed]

/-- A pass over the defaults leaves a good block exactly when it keeps nothing but what is
unmixed. -/
theorem good_load_none_iff (hdefaults : l.HoldsDefaults) :
    (l.load .none).2.HoldsStored ∨ (l.load .none).2.HoldsDefaults ↔ (l.KeepsRead → l.Unmixed) := by
  by_cases hkeeps : l.KeepsRead
  · obtain ⟨stat, -, hload⟩ := load_of_keepsRead hkeeps .none
    rw [hload]
    exact (good_afterRead_iff hdefaults).trans ⟨fun h _ ↦ h, fun h ↦ h hkeeps⟩
  · rw [load_none_of_wrong hkeeps]
    exact iff_of_true (.inr holdsDefaults_restored) fun h ↦ absurd h hkeeps

theorem good_datumLoad_iff (hdefaults : l.HoldsDefaults) :
    l.datumLoad.2.HoldsStored ∨ l.datumLoad.2.HoldsDefaults ↔ l.LoadsUnmixed := by
  rw [LoadsUnmixed]
  by_cases hkeeps : l.KeepsRead
  · rw [datumLoad_of_keepsRead hkeeps, good_afterRead_iff hdefaults]
    constructor
    · intro h
      exact ⟨fun _ ↦ h, fun hwrong ↦ absurd hkeeps hwrong⟩
    · intro h
      exact h.1 hkeeps
  · have hwrite : l.restored.afterWrite.HoldsDefaults := holdsDefaults_restored
    rw [datumLoad_of_wrong hkeeps]
    by_cases hwritten : WholeBlock l.restored.outcomes
    · rw [if_pos hwritten, good_load_none_iff hwrite]
      constructor
      · intro h
        exact ⟨fun h ↦ absurd h hkeeps, fun _ _ ↦ h⟩
      · intro h
        exact h.2 hkeeps hwritten
    · rw [if_neg hwritten]
      exact iff_of_true (.inr hwrite)
        ⟨fun h ↦ absurd h hkeeps, fun _ h ↦ absurd h hwritten⟩

/-! ### Loads without a failed transfer -/

theorem blockTry_of_finished {outcomes : List Outcome}
    (hfinished : ∀ o ∈ outcomes, o = .finished) :
    blockTry outcomes = ⟨storageInfoHold.len, storageInfoHold.len, storageInfoHold.len,
      outcomes.drop wholeAccess.pages.length⟩ := by
  have hcompletes := completes_of_finished wholeAccess.pages.length hfinished
  rw [blockTry, retried_of_completes retryNumb hcompletes, attempt_of_completes hcompletes,
    wholeAccess.sum_pages]
  rfl

theorem finished_rest {outcomes : List Outcome} (hfinished : ∀ o ∈ outcomes, o = .finished) :
    ∀ o ∈ (blockTry outcomes).rest, o = .finished := by
  intro o hmem
  rw [blockTry_of_finished hfinished] at hmem
  exact hfinished o (List.mem_of_mem_drop hmem)

/-- A pass that has read the whole block keeps a valid image or nothing. -/
theorem unmixed_of_finished (hfinished : ∀ o ∈ l.outcomes, o = .finished) (hkeeps : l.KeepsRead) :
    l.Unmixed := by
  have htry := blockTry_of_finished hfinished
  have hwhole : WholeBlock l.outcomes := by rw [WholeBlock, htry]
  have hmoved : (blockTry l.outcomes).moved = storageInfoHold.len := by rw [htry]
  have hread : l.afterRead.datum.para = storedPara l.eeprom l.datum.para := by
    rw [afterRead, hmoved]
    rfl
  have hchecksum := hkeeps hwhole
  rw [hread] at hchecksum
  refine .inr ⟨(validImage_iff l.eeprom l.datum).mpr hchecksum, ?_⟩
  intro k hk hle
  rw [hmoved] at hle
  exact absurd hk.2 (Nat.not_lt.mpr hle)

/-- When no transfer fails, every EEPROM leads to a valid image or the defaults. -/
theorem good_datumLoad_of_finished (hdefaults : l.HoldsDefaults)
    (hfinished : ∀ o ∈ l.outcomes, o = .finished) :
    l.datumLoad.2.HoldsStored ∨ l.datumLoad.2.HoldsDefaults := by
  have hread : ∀ o ∈ l.restored.outcomes, o = .finished := finished_rest hfinished
  have hwrite : ∀ o ∈ l.restored.afterWrite.outcomes, o = .finished := finished_rest hread
  rw [good_datumLoad_iff hdefaults]
  exact ⟨unmixed_of_finished hfinished, fun _ _ ↦ unmixed_of_finished hwrite⟩

/-! ### All loads -/

/-- When `datum_load` returns, the registers in RAM are those of a valid image or the factory
defaults exactly when no pass keeps a mixture. -/
theorem datumLoad_good_iff (datum : ModelDatum) (eeprom : Mem) (outcomes : List Outcome) :
    (datumLoad ⟨datum.construct, eeprom, outcomes⟩).2.HoldsStored ∨
        (datumLoad ⟨datum.construct, eeprom, outcomes⟩).2.HoldsDefaults ↔
      LoadsUnmixed ⟨datum.construct, eeprom, outcomes⟩ := by
  have hdefaults : HoldsDefaults ⟨datum.construct, eeprom, outcomes⟩ := fun _ _ ↦ rfl
  exact good_datumLoad_iff hdefaults

/-- All attempts read one page of an erased EEPROM and get no answer for the second one: the block
begins with the erased bytes and goes on with the defaults. -/
theorem datumLoad_mixes_short_read :
    ¬ ((datumLoad ⟨ModelDatum.construct ⟨fun _ ↦ 0, fun _ ↦ 0⟩, fun _ ↦ 0xff,
          (List.replicate 4 [.finished, .failed 0]).flatten⟩).2.HoldsStored ∨
      (datumLoad ⟨ModelDatum.construct ⟨fun _ ↦ 0, fun _ ↦ 0⟩, fun _ ↦ 0xff,
          (List.replicate 4 [.finished, .failed 0]).flatten⟩).2.HoldsDefaults) := by
  rintro (⟨hvalid, -⟩ | hdefaults)
  · revert hvalid
    decide +kernel
  · have hlink := hdefaults ucLinkAddrAt ⟨le_rfl, by decide⟩
    revert hlink
    decide +kernel

end Loading

end ProjectSensor.App
