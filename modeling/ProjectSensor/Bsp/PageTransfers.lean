import ProjectSensor.Bsp.Storage
import ProjectSensor.Library.PieceTransfer

/-!
# What an access comes to

An access in the part is an attempt at its pages: whatever the outcomes of the transfers, it copies
the bytes moved between the block and the part, and the code counts the bytes of the pages begun.
When all transfers are completed, the part is an array of bytes.
-/

open ProjectSensor.Library.ByteMemory ProjectSensor.Library.PieceTransfer

namespace ProjectSensor.Bsp

/-- How far a transfer came that was broken off. -/
def Outcome.failure : Outcome → Option ℕ
  | .finished => none
  | .failed bytes => some bytes

theorem Outcome.failure_eq_none_iff (outcome : Outcome) :
    outcome.failure = none ↔ outcome = .finished := by
  cases outcome <;> simp [failure]

theorem failure_headD (outcomes : List Outcome) :
    (outcomes.headD .finished).failure = outcomes.head?.bind Outcome.failure := by
  cases outcomes <;> rfl

theorem completes_of_finished (count : ℕ) {outcomes : List Outcome}
    (hfinished : ∀ o ∈ outcomes, o = .finished) : Completes Outcome.failure count outcomes := by
  intro outcome hmem
  rw [hfinished outcome (List.mem_of_mem_take hmem)]
  rfl

/-- An access with some bytes copied. -/
def Medium.copied (m : Medium) (ctrl : AccessCtrl) (a : Access) (count : ℕ) : Medium :=
  match ctrl with
  | .read => { m with ram := blit m.ram a.acessAddr m.eeprom a.subAddr.toNat count }
  | .write => { m with eeprom := blit m.eeprom a.subAddr.toNat m.ram a.acessAddr count }

namespace Access

/-- The bytes of the transfers of an access. -/
def pagesUpTo : ℕ → Access → List ℕ
  | 0, _ => []
  | fuel + 1, a => if a.numbBytes = 0 then [] else a.accessBytes :: pagesUpTo fuel a.next

/-- The pages of an access; no more than it has bytes. -/
def pages (a : Access) : List ℕ := a.pagesUpTo a.numbBytes

theorem next_numbBytes_le {a : Access} {fuel : ℕ} (hmore : a.numbBytes ≠ 0)
    (hfuel : a.numbBytes ≤ fuel + 1) : a.next.numbBytes ≤ fuel := by
  have hpos := a.accessBytes_spec.2.1 hmore
  simp only [next]
  omega

theorem sum_pagesUpTo {fuel : ℕ} {a : Access} (hfuel : a.numbBytes ≤ fuel) :
    (pagesUpTo fuel a).sum = a.numbBytes := by
  induction fuel generalizing a with
  | zero => exact (Nat.le_zero.mp hfuel).symm
  | succ fuel ih =>
      rw [pagesUpTo]
      by_cases hnone : a.numbBytes = 0
      · rw [if_pos hnone, hnone]
        rfl
      · have hle := a.accessBytes_le
        rw [if_neg hnone, List.sum_cons, ih (next_numbBytes_le hnone hfuel)]
        simp only [next]
        omega

theorem sum_pages (a : Access) : a.pages.sum = a.numbBytes := sum_pagesUpTo le_rfl

theorem pos_of_mem_pages (a : Access) : ∀ page ∈ a.pages, 0 < page := by
  have hpos : ∀ fuel (a : Access), ∀ page ∈ pagesUpTo fuel a, 0 < page := by
    intro fuel
    induction fuel with
    | zero => simp [pagesUpTo]
    | succ fuel ih =>
        intro a page hmem
        rw [pagesUpTo] at hmem
        by_cases hnone : a.numbBytes = 0
        · rw [if_pos hnone] at hmem
          exact absurd hmem List.not_mem_nil
        · rw [if_neg hnone] at hmem
          rcases List.mem_cons.mp hmem with rfl | hlater
          · exact a.accessBytes_spec.2.1 hnone
          · exact ih a.next page hlater
  exact hpos a.numbBytes a

/-- The access is not refused. -/
def Accepted (a : Access) : Prop := a.numbBytes ≠ 0 → a.invalid = false

instance (a : Access) : Decidable a.Accepted := inferInstanceAs (Decidable (_ → _))

theorem invalid_eq_false_iff (a : Access) :
    a.invalid = false ↔ a.subAddr.toNat < capacity ∧ a.Fits := by
  rw [invalid, Bool.or_eq_false_iff, decide_eq_false_iff_not, decide_eq_false_iff_not, Fits]
  omega

theorem Fits.accepted {a : Access} (hfits : a.Fits) : a.Accepted := by
  intro hmore
  rw [Fits] at hfits
  exact a.invalid_eq_false_iff.mpr ⟨by omega, hfits⟩

theorem Accepted.fits {a : Access} (h : a.Accepted) (hmore : a.numbBytes ≠ 0) : a.Fits :=
  (a.invalid_eq_false_iff.mp (h hmore)).2

end Access

namespace Medium

variable (m : Medium) (ctrl : AccessCtrl) (a : Access)

@[simp]
theorem copied_zero : m.copied ctrl a 0 = m := by
  cases ctrl <;> simp [copied]

theorem copied_copied (first second : ℕ) :
    (m.copied ctrl a first).copied ctrl a second = m.copied ctrl a (max first second) := by
  cases ctrl <;> simp [copied, blit_blit]

/-- The next page goes on where the transfer has ended. -/
theorem copied_next (hfits : a.Fits) (count : ℕ) :
    (m.copied ctrl a a.accessBytes).copied ctrl a.next count =
      m.copied ctrl a (a.accessBytes + count) := by
  have hsub := Access.next_subAddr hfits
  have hacess : a.next.acessAddr = a.acessAddr + a.accessBytes := rfl
  cases ctrl <;> simp only [copied, hsub, hacess, blit_append]

/-- A transfer copies the bytes of its page, or those before it was broken off. -/
theorem transfer_eq (hfits : a.Fits) (hmore : a.numbBytes ≠ 0) (outcome : Outcome) :
    m.transfer ctrl a outcome = m.copied ctrl a
      (outcome.failure.elim a.accessBytes fun bytes ↦ min bytes a.accessBytes) := by
  have hcell := cellOf_eq a.subAddr (by rw [Access.Fits] at hfits; omega)
  obtain ⟨hle, -, hpage⟩ := a.accessBytes_spec
  have hpart : a.subAddr.toNat + a.accessBytes ≤ capacity :=
    (Nat.add_le_add_left hle _).trans hfits
  have hcount : ∀ count ≤ a.accessBytes,
      (match ctrl with
        | .read => { m with ram := fetch m.ram m.eeprom a.subAddr.toNat a.acessAddr count }
        | .write => { m with
            eeprom := program m.eeprom m.ram a.subAddr.toNat a.acessAddr count }) =
        m.copied ctrl a count := by
    intro count hcount
    cases ctrl with
    | read => simp only [copied, fetch_eq_blit _ _ ((Nat.add_le_add_left hcount _).trans hpart)]
    | write =>
        simp only [copied, program_eq_blit _ _ ((Nat.add_le_add_left hcount _).trans hpage)]
  unfold transfer
  rw [Access.slaAddr, Access.wordAddr, hcell]
  cases outcome with
  | finished => exact hcount _ le_rfl
  | failed bytes => exact hcount _ (Nat.min_le_right _ _)

end Medium

section Access

variable (ctrl : AccessCtrl)

/-- The loop of `_i2c_access` is an attempt at the pages. -/
theorem i2cAccessLoop_eq {fuel : ℕ} {a : Access} (m : Medium) (outcomes : List Outcome)
    (hfits : a.Fits) (hfuel : a.numbBytes ≤ fuel) :
    (i2cAccessLoop ctrl fuel a m outcomes).1.numbBytes +
        (attempt Outcome.failure (a.pagesUpTo fuel) outcomes).begun = a.numbBytes ∧
      (i2cAccessLoop ctrl fuel a m outcomes).2 =
        (m.copied ctrl a (attempt Outcome.failure (a.pagesUpTo fuel) outcomes).moved,
          (attempt Outcome.failure (a.pagesUpTo fuel) outcomes).rest) := by
  induction fuel generalizing a m outcomes with
  | zero => simp [i2cAccessLoop, Access.pagesUpTo, attempt]
  | succ fuel ih =>
      rw [i2cAccessLoop, Access.pagesUpTo]
      by_cases hnone : a.numbBytes = 0
      · simp [hnone, attempt]
      have hle := a.accessBytes_le
      have htransfer := m.transfer_eq ctrl a hfits hnone (outcomes.headD .finished)
      rw [failure_headD] at htransfer
      rw [if_neg hnone, if_neg hnone, attempt]
      cases hfailure : outcomes.head?.bind Outcome.failure with
      | none =>
          have hfinished : outcomes.headD .finished = .finished := by
            rw [← Outcome.failure_eq_none_iff, failure_headD, hfailure]
          rw [hfailure, hfinished, Option.elim_none] at htransfer
          obtain ⟨hbegun, hcopied⟩ := ih (m.copied ctrl a a.accessBytes) outcomes.tail hfits.next
            (Access.next_numbBytes_le hnone hfuel)
          have hnext : a.next.numbBytes = a.numbBytes - a.accessBytes := rfl
          simp only [hfinished, if_true, htransfer]
          rw [hcopied, Medium.copied_next m ctrl a hfits]
          exact ⟨by omega, rfl⟩
      | some bytes =>
          have hfailed : ¬ outcomes.headD .finished = .finished := by
            rw [← Outcome.failure_eq_none_iff, failure_headD, hfailure]
            exact Option.some_ne_none bytes
          rw [hfailure] at htransfer
          simp only [htransfer, if_neg hfailed, Option.elim_some]
          exact ⟨Nat.sub_add_cancel hle, trivial⟩

theorem i2cAccess_eq {whole : Access} (m : Medium) (outcomes : List Outcome)
    (haccepted : whole.Accepted) :
    i2cAccess ctrl whole m outcomes =
      (((attempt Outcome.failure whole.pages outcomes).begun : ℤ),
        m.copied ctrl whole (attempt Outcome.failure whole.pages outcomes).moved,
        (attempt Outcome.failure whole.pages outcomes).rest) := by
  rw [i2cAccess]
  by_cases hnone : whole.numbBytes = 0
  · simp [hnone, Access.pages, Access.pagesUpTo, attempt]
  · obtain ⟨hbegun, hcopied⟩ := i2cAccessLoop_eq ctrl m outcomes (haccepted.fits hnone) le_rfl
    have hcount : (whole.numbBytes : ℤ) -
        (i2cAccessLoop ctrl whole.numbBytes whole m outcomes).1.numbBytes =
          (attempt Outcome.failure whole.pages outcomes).begun := by
      rw [Access.pages]
      omega
    simp only [if_neg hnone, haccepted hnone, hcopied, hcount]
    rfl

theorem i2cAccessRetry_eq {whole : Access} (again : ℕ) (m : Medium) (outcomes : List Outcome)
    (haccepted : whole.Accepted) :
    i2cAccessRetry ctrl whole again m outcomes =
      (((retried Outcome.failure whole.pages again outcomes).begun : ℤ),
        m.copied ctrl whole (retried Outcome.failure whole.pages again outcomes).moved,
        (retried Outcome.failure whole.pages again outcomes).rest) := by
  induction again generalizing m outcomes with
  | zero => rw [i2cAccessRetry, i2cAccess_eq ctrl m outcomes haccepted, retried]
  | succ again ih =>
      rw [i2cAccessRetry, i2cAccess_eq ctrl m outcomes haccepted, retried, whole.sum_pages]
      simp only [Nat.cast_inj]
      by_cases hall : (attempt Outcome.failure whole.pages outcomes).begun = whole.numbBytes
      · rw [if_pos hall, if_pos hall]
      · rw [if_neg hall, if_neg hall, ih]
        simp only [Medium.copied_copied]

/-- An access that is refused makes no transfer. -/
theorem i2cAccess_of_refused {whole : Access} (hrefused : ¬ whole.Accepted) (m : Medium)
    (outcomes : List Outcome) : i2cAccess ctrl whole m outcomes = (-1, m, outcomes) := by
  rw [Access.Accepted, Classical.not_imp] at hrefused
  rw [i2cAccess, if_neg hrefused.1, if_pos (Bool.of_not_eq_false hrefused.2)]

theorem i2cAccessRetry_of_refused {whole : Access} (hrefused : ¬ whole.Accepted) (again : ℕ)
    (m : Medium) (outcomes : List Outcome) :
    i2cAccessRetry ctrl whole again m outcomes = (-1, m, outcomes) := by
  have haccess := i2cAccess_of_refused ctrl hrefused m outcomes
  have hsize : (-1 : ℤ) ≠ whole.numbBytes := by omega
  induction again with
  | zero => rw [i2cAccessRetry, haccess]
  | succ again ih =>
      rw [i2cAccessRetry, haccess]
      simp only
      rw [if_neg hsize, ih]

/-- When all transfers are completed, an access in the part copies all its bytes. -/
theorem drvAccess_of_finished (pos : BitVec 16) (size : ℕ) (m : Medium) {outcomes : List Outcome}
    (hpart : pos.toNat + size ≤ capacity) (hfinished : ∀ o ∈ outcomes, o = .finished) :
    ∃ rest, (∀ o ∈ rest, o = .finished) ∧
      drvAccess ctrl pos size m outcomes =
        ((size : ℤ), m.copied ctrl ⟨pos, 0, size⟩ size, rest) := by
  have hcompletes := completes_of_finished (Access.pages ⟨pos, 0, size⟩).length hfinished
  have hfits : Access.Fits ⟨pos, 0, size⟩ := hpart
  refine ⟨outcomes.drop (Access.pages ⟨pos, 0, size⟩).length, ?_, ?_⟩
  · intro outcome hmem
    exact hfinished outcome (List.mem_of_mem_drop hmem)
  · rw [drvAccess, i2cAccessRetry_eq ctrl retryNumb m outcomes hfits.accepted,
      retried_of_completes retryNumb hcompletes, attempt_of_completes hcompletes,
      Access.sum_pages]

end Access

/-! ### The part as an array -/

/-- A write in the part sets the bytes of its range and no others, and a read of the range gives
them back; an access that leaves the part does nothing. -/
theorem drvAccess_refines_array (pos : BitVec 16) (size : ℕ) (m : Medium) (buffer : Mem)
    (outcomes : List Outcome) (hsize : 1 ≤ size) (hfinished : ∀ o ∈ outcomes, o = .finished) :
    (pos.toNat + size ≤ capacity → ∃ written rest,
      drvAccess .write pos size m outcomes = ((size : ℤ), ⟨written, m.ram⟩, rest) ∧
      (∀ k < size, written (pos.toNat + k) = m.ram k) ∧
      (∀ cell, cell < pos.toNat ∨ pos.toNat + size ≤ cell → written cell = m.eeprom cell) ∧
      ∃ read last,
        drvAccess .read pos size ⟨written, buffer⟩ rest = ((size : ℤ), ⟨written, read⟩, last) ∧
        (∀ k < size, read k = m.ram k) ∧ ∀ k, size ≤ k → read k = buffer k) ∧
    (capacity < pos.toNat + size → ∀ ctrl,
      drvAccess ctrl pos size m outcomes = (-1, m, outcomes)) := by
  constructor
  · intro hpart
    obtain ⟨rest, hrest, hwrite⟩ := drvAccess_of_finished .write pos size m hpart hfinished
    have hwritten : ∀ k < size,
        blit m.eeprom pos.toNat m.ram 0 size (pos.toNat + k) = m.ram k := by
      intro k hk
      have hcopy := blit_add m.eeprom pos.toNat m.ram 0 hk
      rwa [Nat.zero_add] at hcopy
    refine ⟨blit m.eeprom pos.toNat m.ram 0 size, rest, hwrite, hwritten, ?_, ?_⟩
    · intro cell hout
      exact blit_of_outside _ _ _ hout
    · obtain ⟨last, -, hread⟩ := drvAccess_of_finished .read pos size
        ⟨blit m.eeprom pos.toNat m.ram 0 size, buffer⟩ hpart hrest
      refine ⟨_, last, hread, ?_, ?_⟩
      · intro k hk
        have hcopy := blit_start buffer (blit m.eeprom pos.toNat m.ram 0 size) pos.toNat hk
        rwa [hwritten k hk] at hcopy
      · intro k hk
        have hout : 0 + size ≤ k := by rwa [Nat.zero_add]
        exact blit_of_outside _ _ _ (.inr hout)
  · intro hout ctrl
    apply i2cAccessRetry_of_refused
    intro haccepted
    have hfits := haccepted.fits (Nat.one_le_iff_ne_zero.mp hsize)
    exact absurd hfits (Nat.not_le.mpr hout)

/-- The parameter block, which starts in the third page and takes seven. -/
theorem drvAccess_refines_array_block :
    ∃ written rest, drvAccess .write 32 112 ⟨fun _ ↦ 0xff, fun k ↦ BitVec.ofNat 8 k⟩ [] =
        (112, ⟨written, fun k ↦ BitVec.ofNat 8 k⟩, rest) ∧
      (∀ k < 112, written (32 + k) = BitVec.ofNat 8 k) ∧
      (∀ cell, cell < 32 ∨ 32 + 112 ≤ cell → written cell = 0xff) ∧
      ∃ read last, drvAccess .read 32 112 ⟨written, fun _ ↦ 0⟩ rest =
          (112, ⟨written, read⟩, last) ∧
        (∀ k < 112, read k = BitVec.ofNat 8 k) ∧ ∀ k, 112 ≤ k → read k = 0 :=
  (drvAccess_refines_array 32 112 ⟨fun _ ↦ 0xff, fun k ↦ BitVec.ofNat 8 k⟩ (fun _ ↦ 0) []
    (by decide) (by simp)).1 (by decide)

end ProjectSensor.Bsp
