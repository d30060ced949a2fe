import ProjectSensor.App.LoadResult

/-!
# What a load reports

`datum_load` makes a second pass after the defaults were written back, and throws its result away:
both branches behind it set -1.  The other way the report and the block disagree is that the storage
counts a last page that was not transferred.
-/

open ProjectSensor.Library.ByteMemory ProjectSensor.Library.PieceTransfer ProjectSensor.Bsp

namespace ProjectSensor.App.Loading

variable (l : Loading)

/-- The state in which the last read is made: the second pass is made after a `RETRY`. -/
def lastReading : Loading :=
  if (l.load .recover).1 = .retry then (l.load .recover).2 else l

/-- A read made now delivers the whole block, and its checksum verifies. -/
def Delivers : Prop :=
  (blockTry l.outcomes).moved = storageInfoHold.len ∧
    ChecksumHolds (l.access .read).2.datum.para

/-- `datum_load` returns 0 when the last read has delivered the block, and -1 otherwise. -/
def ReportsTruth : Prop :=
  (l.lastReading.Delivers → l.datumLoad.1 = 0) ∧
    (¬ l.lastReading.Delivers → l.datumLoad.1 = -1)

/-- The first read brings a wrong checksum, the defaults are written back, and the second read
delivers them. -/
def Recovers : Prop :=
  ¬ l.KeepsRead ∧ WholeBlock l.restored.outcomes ∧ l.restored.afterWrite.Delivers

/-- The storage counts a last page that was not transferred, and the checksum is right over what
the memory held there. -/
def CountsMissingPage : Prop :=
  WholeBlock l.outcomes ∧ ChecksumHolds l.afterRead.datum.para ∧
    (blockTry l.outcomes).moved ≠ storageInfoHold.len

variable {l}

theorem wholeBlock_of_moved {outcomes : List Outcome}
    (hmoved : (blockTry outcomes).moved = storageInfoHold.len) : WholeBlock outcomes := by
  apply retried_begun_of_moved
  exact hmoved

theorem delivers_iff : l.Delivers ↔
    (blockTry l.outcomes).moved = storageInfoHold.len ∧ ChecksumHolds l.afterRead.datum.para := by
  rw [Delivers, access_eq]

/-- A pass that keeps what it has read succeeds when it was counted whole. -/
theorem load_stat_of_keepsRead (hkeeps : l.KeepsRead) (ctrl : DatumLoadCtrl) :
    (l.load ctrl).1 = if WholeBlock l.outcomes then .success else .failed := by
  unfold load
  rw [access_eq]
  simp only [refused_iff]
  by_cases hwhole : WholeBlock l.outcomes
  · have hverify : l.afterRead.datum.storageParamVerify = (0, l.afterRead.datum) :=
      if_neg (not_not.mpr (hkeeps hwhole))
    rw [if_neg (not_not.mpr hwhole), hverify, if_pos rfl, if_pos hwhole]
  · rw [if_pos hwhole, if_neg hwhole]

/-- The result is 0 exactly when the first pass succeeds. -/
theorem datumLoad_result : l.datumLoad.1 = if (l.load .recover).1 = .success then 0 else -1 := by
  unfold datumLoad
  by_cases hsuccess : (l.load .recover).1 = .success
  · simp only [if_pos hsuccess]
  · simp only [if_neg hsuccess]
    split
    · split <;> rfl
    · rfl

theorem datumLoad_result_iff :
    l.datumLoad.1 = 0 ↔ WholeBlock l.outcomes ∧ ChecksumHolds l.afterRead.datum.para := by
  rw [datumLoad_result]
  by_cases hkeeps : l.KeepsRead
  · rw [load_stat_of_keepsRead hkeeps]
    by_cases hwhole : WholeBlock l.outcomes
    · rw [if_pos hwhole]
      exact iff_of_true rfl ⟨hwhole, hkeeps hwhole⟩
    · rw [if_neg hwhole]
      exact iff_of_false (by decide) fun h ↦ hwhole h.1
  · have hwrong : ¬ ChecksumHolds l.afterRead.datum.para := by
      rw [KeepsRead, Classical.not_imp] at hkeeps
      exact hkeeps.2
    have hstat : (l.load .recover).1 ≠ .success := by
      rw [load_recover_of_wrong hkeeps]
      by_cases hwritten : WholeBlock l.restored.outcomes
      · simp only [if_pos hwritten, ne_eq, reduceCtorEq, not_false_eq_true]
      · simp only [if_neg hwritten, ne_eq, reduceCtorEq, not_false_eq_true]
    rw [if_neg hstat]
    exact iff_of_false (by decide) fun h ↦ hwrong h.2

theorem reportsTruth_iff_eq : l.ReportsTruth ↔ (l.datumLoad.1 = 0 ↔ l.lastReading.Delivers) := by
  have hresult : l.datumLoad.1 = 0 ∨ l.datumLoad.1 = -1 := by
    rw [datumLoad_result]
    split
    · exact .inl rfl
    · exact .inr rfl
  rw [ReportsTruth]
  rcases hresult with hzero | hminus
  · simp [hzero]
  · simp [hminus]

/-- Without a second pass the last read is the first one. -/
theorem lastReading_of_keepsRead (hkeeps : l.KeepsRead) : l.lastReading = l := by
  obtain ⟨stat, hstat, hload⟩ := load_of_keepsRead hkeeps .recover
  rw [lastReading, hload]
  exact if_neg hstat

theorem lastReading_of_wrong (hkeeps : ¬ l.KeepsRead) :
    l.lastReading = if WholeBlock l.restored.outcomes then l.restored.afterWrite else l := by
  rw [lastReading, load_recover_of_wrong hkeeps]
  by_cases hwritten : WholeBlock l.restored.outcomes
  · simp only [if_pos hwritten, if_true]
  · simp only [if_neg hwritten, reduceCtorEq, if_false]

/-- `datum_load` reports the truth exactly when it neither recovers the EEPROM nor goes by a page
that was counted but not transferred. -/
theorem datumLoad_reports_iff (l : Loading) :
    l.ReportsTruth ↔ ¬ l.Recovers ∧ ¬ l.CountsMissingPage := by
  rw [reportsTruth_iff_eq, datumLoad_result_iff]
  by_cases hkeeps : l.KeepsRead
  · have hnot : ¬ l.Recovers := fun h ↦ h.1 hkeeps
    rw [lastReading_of_keepsRead hkeeps, delivers_iff]
    constructor
    · intro hreport
      exact ⟨hnot, fun hmissing ↦ hmissing.2.2 (hreport.mp ⟨hmissing.1, hmissing.2.1⟩).1⟩
    · rintro ⟨-, hmissing⟩
      constructor
      · rintro ⟨hwhole, hchecksum⟩
        exact ⟨by_contra fun hmoved ↦ hmissing ⟨hwhole, hchecksum, hmoved⟩, hchecksum⟩
      · rintro ⟨hmoved, hchecksum⟩
        exact ⟨wholeBlock_of_moved hmoved, hchecksum⟩
  · have hwrong : ¬ ChecksumHolds l.afterRead.datum.para := by
      rw [KeepsRead, Classical.not_imp] at hkeeps
      exact hkeeps.2
    have hmissing : ¬ l.CountsMissingPage := fun h ↦ hwrong h.2.1
    have hresult : ¬ (WholeBlock l.outcomes ∧ ChecksumHolds l.afterRead.datum.para) :=
      fun h ↦ hwrong h.2
    rw [lastReading_of_wrong hkeeps]
    by_cases hwritten : WholeBlock l.restored.outcomes
    · rw [if_pos hwritten]
      constructor
      · intro hreport
        exact ⟨fun h ↦ hresult (hreport.mpr h.2.2), hmissing⟩
      · rintro ⟨hrecovers, -⟩
        exact iff_of_false hresult fun h ↦ hrecovers ⟨hkeeps, hwritten, h⟩
    · rw [if_neg hwritten, delivers_iff]
      exact iff_of_true (iff_of_false hresult fun h ↦ hwrong h.2)
        ⟨fun h ↦ hwritten h.2.1, hmissing⟩

/-! ### An EEPROM that is recovered -/

/-- When no transfer fails, the second read delivers the defaults that were written back. -/
theorem recovers_of_finished (hfinished : ∀ o ∈ l.outcomes, o = .finished)
    (hkeeps : ¬ l.KeepsRead) : l.Recovers := by
  have hwrite := blockTry_of_finished (finished_rest hfinished)
  have hread := blockTry_of_finished (finished_rest (finished_rest hfinished))
  have hwritten : (blockTry l.restored.outcomes).moved = storageInfoHold.len :=
    congrArg Attempt.moved hwrite
  have hdelivered : (blockTry l.restored.afterWrite.outcomes).moved = storageInfoHold.len :=
    congrArg Attempt.moved hread
  have hblock : ∀ k < sizeofSensorPara,
      l.restored.afterWrite.afterRead.datum.para k = factoryBlock k := by
    intro k hk
    calc l.restored.afterWrite.afterRead.datum.para k
        = stored l.restored.afterWrite.eeprom k := afterRead_of_moved (hk.trans_eq hdelivered.symm)
      _ = factoryBlock k := stored_afterWrite (hk.trans_eq hwritten.symm)
  have hfactory : ChecksumHolds factoryBlock := chksum_storageParamChksum ⟨factoryPara, fun _ ↦ 0⟩
  have hchecksum : ChecksumHolds l.restored.afterWrite.afterRead.datum.para :=
    (@chksum_congr ⟨_, fun _ ↦ 0⟩ ⟨factoryBlock, fun _ ↦ 0⟩ hblock).mpr hfactory
  exact ⟨hkeeps, congrArg Attempt.begun hwrite, delivers_iff.mpr ⟨hdelivered, hchecksum⟩⟩

/-- No transfer fails: an erased EEPROM is recovered, the second read delivers the defaults with
their checksum, and `datum_load` returns -1. -/
theorem datumLoad_reports_failed_recovery :
    ¬ ReportsTruth ⟨ModelDatum.construct ⟨fun _ ↦ 0, fun _ ↦ 0⟩, fun _ ↦ 0xff, []⟩ := by
  have hkeeps : ¬ KeepsRead ⟨ModelDatum.construct ⟨fun _ ↦ 0, fun _ ↦ 0⟩, fun _ ↦ 0xff, []⟩ := by
    intro hkept
    have hchecksum := hkept (by decide +kernel)
    revert hchecksum
    decide +kernel
  have hrecovers := recovers_of_finished (by simp) hkeeps
  rw [reportsTruth_iff_eq, lastReading_of_wrong hkeeps, if_pos hrecovers.2.1, datumLoad_result_iff]
  intro hreport
  exact hkeeps fun _ ↦ (hreport.mpr hrecovers.2.2).2

end ProjectSensor.App.Loading
