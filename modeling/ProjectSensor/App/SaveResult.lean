import ProjectSensor.App.Application

/-!
# What a save reports

The loop of `_i2c_access` takes the bytes of a page off the bytes that are left before it transfers
the page, so a page that fails is counted.  Where it is the last one, the count is the requested
length, no attempt follows, and `datum_save` reports success.
-/

open ProjectSensor.Library.ByteMemory ProjectSensor.Library.PieceTransfer ProjectSensor.Bsp

namespace ProjectSensor.App

/-- `datum_save` up to the settings it applies, when nothing is received meanwhile. -/
def Loading.datumSave (l : Loading) : ℤ × Loading :=
  let l := { l with datum := l.datum.storageParamChksum }
  let (ssize, l) := l.access .write
  if ssize ≤ 0 ∨ ssize ≠ storageInfoHold.len then (-1, l) else (0, l)

section Honest

variable (ctrl : AccessCtrl) (whole : Access) (m : Medium) (outcomes : List Outcome)

/-- The first transfers, one for each page of the access, are completed. -/
def AllPages (outcomes : List Outcome) : Prop :=
  Completes Outcome.failure whole.pages.length outcomes

/-- Each page of the access but its last is transferred. -/
def AllButLastPage (outcomes : List Outcome) : Prop :=
  Completes Outcome.failure (whole.pages.length - 1) outcomes

instance (outcomes : List Outcome) : Decidable (AllPages whole outcomes) :=
  inferInstanceAs (Decidable (Completes _ _ _))

instance (outcomes : List Outcome) : Decidable (AllButLastPage whole outcomes) :=
  inferInstanceAs (Decidable (Completes _ _ _))

/-- The attempts of `_i2c_access_retry`, each with the outcomes that lie before it. -/
def attemptsMade : List (List Outcome) :=
  attempts Outcome.failure whole.pages retryNumb outcomes

/-- `_i2c_access` returns the bytes of the pages before the first one that fails, and -1 when the
access is refused. -/
def CountsTransferred : Prop :=
  (i2cAccess ctrl whole m outcomes).1 =
    if whole.Accepted then ((attempt Outcome.failure whole.pages outcomes).completed : ℤ) else -1

/-- `_i2c_access_retry` returns the requested length only after an attempt that has transferred
every page. -/
def RetryTruthful : Prop :=
  (i2cAccessRetry ctrl whole retryNumb m outcomes).1 = whole.numbBytes →
    ∃ made ∈ attemptsMade whole outcomes, AllPages whole made

/-- `datum_save` reports success only after an attempt that has written every page. -/
def SaveTruthful (l : Loading) : Prop :=
  l.datumSave.1 = 0 → ∃ made ∈ attemptsMade wholeAccess l.outcomes, AllPages wholeAccess made

/-- In each attempt the last page does not fail alone. -/
def LastPageSafe : Prop :=
  ∀ made ∈ attemptsMade whole outcomes, AllButLastPage whole made → AllPages whole made

theorem countsTransferred_iff :
    CountsTransferred ctrl whole m outcomes ↔ (whole.Accepted → AllPages whole outcomes) := by
  by_cases haccepted : whole.Accepted
  · calc
      CountsTransferred ctrl whole m outcomes ↔
          (attempt Outcome.failure whole.pages outcomes).completed =
            (attempt Outcome.failure whole.pages outcomes).begun := by
        rw [CountsTransferred, if_pos haccepted, i2cAccess_eq ctrl m outcomes haccepted,
          Nat.cast_inj, eq_comm]
      _ ↔ AllPages whole outcomes := completed_eq_begun_iff whole.pos_of_mem_pages outcomes
      _ ↔ (whole.Accepted → AllPages whole outcomes) := ⟨fun h _ ↦ h, fun h ↦ h haccepted⟩
  · rw [CountsTransferred, if_neg haccepted, i2cAccess_of_refused ctrl haccepted]
    exact iff_of_true rfl fun h ↦ absurd h haccepted

theorem retryTruthful_iff :
    RetryTruthful ctrl whole m outcomes ↔ (whole.Accepted → LastPageSafe whole outcomes) := by
  rw [RetryTruthful]
  by_cases haccepted : whole.Accepted
  · have htold := complete_of_begun_iff Outcome.failure whole.pos_of_mem_pages retryNumb outcomes
    rw [i2cAccessRetry_eq ctrl retryNumb m outcomes haccepted, Nat.cast_inj, ← whole.sum_pages]
    exact htold.trans ⟨fun h _ ↦ h, fun h ↦ h haccepted⟩
  · have hsize : (-1 : ℤ) ≠ whole.numbBytes := by omega
    rw [i2cAccessRetry_of_refused ctrl haccepted]
    exact iff_of_true (fun h ↦ absurd h hsize) fun h ↦ absurd h haccepted

end Honest

/-- `datum_save` reports success when its write returns the length of the block. -/
theorem datumSave_eq_zero_iff (l : Loading) :
    l.datumSave.1 = 0 ↔
      (Loading.access { l with datum := l.datum.storageParamChksum } .write).1 =
        storageInfoHold.len := by
  have hlen : storageInfoHold.len = 112 := rfl
  unfold Loading.datumSave
  simp only
  generalize (Loading.access { l with datum := l.datum.storageParamChksum } .write).1 = ssize
  by_cases hwhole : ssize = storageInfoHold.len
  · have hlong : ¬ (ssize ≤ 0 ∨ ssize ≠ storageInfoHold.len) := by omega
    rw [if_neg hlong]
    exact iff_of_true rfl hwhole
  · have hshort : ssize ≤ 0 ∨ ssize ≠ storageInfoHold.len := .inr hwhole
    rw [if_pos hshort]
    exact iff_of_false (by decide : ¬ (-1 : ℤ) = 0) hwhole

theorem datumSave_snd (l : Loading) :
    l.datumSave.2 =
      (Loading.access { l with datum := l.datum.storageParamChksum } .write).2 := by
  unfold Loading.datumSave
  simp only
  split
  · rfl
  · rfl

/-- The transfers that the application makes one at a time, when nothing comes between them, end
with the EEPROM and the verdict of `datumSave`. -/
theorem passes_datumSave (l : Loading) : ∃ n size,
    (Pass.next .write wholeAccess)^[n] (Pass.begin wholeAccess,
        ⟨l.eeprom, l.datum.storageParamChksum.para⟩, l.outcomes) =
      (.returned size, ⟨l.datumSave.2.eeprom, l.datumSave.2.datum.para⟩, l.datumSave.2.outcomes) ∧
    (l.datumSave.1 = 0 ↔ size = storageInfoHold.len) := by
  obtain ⟨n, hpasses⟩ := Pass.begin_eq .write wholeAccess
    ⟨l.eeprom, l.datum.storageParamChksum.para⟩ l.outcomes
  refine ⟨n, _, ?_, datumSave_eq_zero_iff l⟩
  rw [hpasses, datumSave_snd]
  rfl

theorem saveTruthful_iff (l : Loading) : SaveTruthful l ↔ LastPageSafe wholeAccess l.outcomes := by
  have haccepted : wholeAccess.Accepted := by decide
  have hretry := retryTruthful_iff .write wholeAccess ⟨l.eeprom, l.datum.storageParamChksum.para⟩
    l.outcomes
  calc
    SaveTruthful l ↔ RetryTruthful .write wholeAccess ⟨l.eeprom, l.datum.storageParamChksum.para⟩
        l.outcomes := by
      rw [SaveTruthful, datumSave_eq_zero_iff]
      exact Iff.rfl
    _ ↔ (wholeAccess.Accepted → LastPageSafe wholeAccess l.outcomes) := hretry
    _ ↔ LastPageSafe wholeAccess l.outcomes := ⟨fun h ↦ h haccepted, fun h _ ↦ h⟩

/-- What the storage reports is true exactly when the outcomes are as follows: the value of
`_i2c_access` when no page fails, the value of `_i2c_access_retry` and the result of `datum_save`
when in no attempt the last page is the one that fails. -/
theorem storage_reports_iff (ctrl : AccessCtrl) (whole : Access) (m : Medium)
    (outcomes : List Outcome) (l : Loading) :
    (CountsTransferred ctrl whole m outcomes ↔ (whole.Accepted → AllPages whole outcomes)) ∧
      (RetryTruthful ctrl whole m outcomes ↔ (whole.Accepted → LastPageSafe whole outcomes)) ∧
      (SaveTruthful l ↔ LastPageSafe wholeAccess l.outcomes) :=
  ⟨countsTransferred_iff ctrl whole m outcomes, retryTruthful_iff ctrl whole m outcomes,
    saveTruthful_iff l⟩

/-- Six pages of the block are written and the last one gets no answer. -/
def lastPageFails : Loading where
  datum := ⟨fun _ ↦ 0x55, fun _ ↦ 0⟩
  eeprom := fun _ ↦ 0xff
  outcomes := List.replicate 6 .finished ++ [.failed 0]

/-- The write is reported as complete, and the last page holds what it held. -/
theorem storage_reports_failed_page :
    ¬ CountsTransferred .write wholeAccess ⟨lastPageFails.eeprom, lastPageFails.datum.para⟩
        lastPageFails.outcomes ∧
      ¬ RetryTruthful .write wholeAccess ⟨lastPageFails.eeprom, lastPageFails.datum.para⟩
        lastPageFails.outcomes ∧
      ¬ SaveTruthful lastPageFails ∧ lastPageFails.datumSave.1 = 0 ∧
      ∀ k < 16, lastPageFails.datumSave.2.eeprom (32 + 96 + k) = 0xff ∧
        lastPageFails.datumSave.2.datum.para (96 + k) = 0x55 := by
  have hmade : ¬ ∃ made ∈ attemptsMade wholeAccess lastPageFails.outcomes,
      AllPages wholeAccess made := by
    decide +kernel
  have hsuccess : lastPageFails.datumSave.1 = 0 := by decide +kernel
  refine ⟨?_, ?_, fun h ↦ hmade (h hsuccess), hsuccess, ?_⟩
  · rw [CountsTransferred]
    decide +kernel
  · intro h
    exact hmade (h (by decide +kernel))
  · decide +kernel

end ProjectSensor.App
