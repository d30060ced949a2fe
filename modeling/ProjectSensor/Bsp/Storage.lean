import Mathlib.Logic.Function.Iterate
import ProjectSensor.Library.ByteMemory

/-!
# The EEPROM behind the I2C bus

`_i2c_access` cuts an access into transfers that stay inside a page of the part; a transfer is
completed or broken off after some bytes.  An interrupted save takes it one transfer at a time, so
the loop is given twice: as the function that `device::read` and `device::write` call, and as the
turns a call goes through.
-/

open ProjectSensor.Library.ByteMemory

namespace ProjectSensor.Bsp

/-- `t_storage_geometry`, of the type `enum_X_PLUS_BYTE_SUBA`. -/
def devAddr : Byte := 0xa0
def bytesPerPage : ℕ := 16
def pagesPerDev : ℕ := 128

def capacity : ℕ := pagesPerDev * bytesPerPage

inductive AccessCtrl where
  | read
  | write
  deriving DecidableEq

/-- How a transfer ends: `cpu_iic_transfer` returns the number of bytes, or -1 after `bytes`. -/
inductive Outcome where
  | finished
  | failed (bytes : ℕ)
  deriving DecidableEq

/-- The part and the block of memory that is accessed. -/
structure Medium where
  eeprom : Mem
  ram : Mem

/-! ### The part -/

/-- The cell a device address and a word address select. -/
def cellOf (slaAddr subAddr : Byte) : ℕ := ((slaAddr >>> 1) &&& 7).toNat * 256 + subAddr.toNat

/-- A page write stays in its page. -/
def nextInPage (cell : ℕ) : ℕ := cell / bytesPerPage * bytesPerPage + (cell + 1) % bytesPerPage

/-- A sequential read goes on to the next cell. -/
def nextInPart (cell : ℕ) : ℕ := (cell + 1) % capacity

/-- The part takes `count` bytes of a page write that starts at `cell`. -/
def program (eeprom ram : Mem) : ℕ → ℕ → ℕ → Mem
  | _, _, 0 => eeprom
  | cell, addr, count + 1 =>
      program (store eeprom cell (ram addr)) ram (nextInPage cell) (addr + 1) count

/-- The part gives `count` bytes of a sequential read that starts at `cell`. -/
def fetch (ram eeprom : Mem) : ℕ → ℕ → ℕ → Mem
  | _, _, 0 => ram
  | cell, addr, count + 1 =>
      fetch (store ram addr (eeprom cell)) eeprom (nextInPart cell) (addr + 1) count

/-! ### The access -/

/-- The variables of the loop in `_i2c_access`; `acessAddr` is an index into the block.  Sizes are
`portSIZE_TYPE`, halfwords, so `subAddr + numbBytes` does not leave the 32 bits of the source. -/
structure Access where
  subAddr : BitVec 16
  acessAddr : ℕ
  numbBytes : ℕ
  deriving DecidableEq

namespace Access

variable (a : Access)

/-- The bytes of the next transfer. -/
def accessBytes : ℕ :=
  let offset := a.subAddr.toNat % bytesPerPage
  if bytesPerPage < offset + a.numbBytes then bytesPerPage - offset else a.numbBytes

def slaAddr : Byte := devAddr + ((a.subAddr >>> 7) &&& 0x0e).setWidth 8

def wordAddr : Byte := (a.subAddr &&& 0x0ff).setWidth 8

/-- The variables after a transfer, whatever its outcome. -/
def next : Access where
  subAddr := a.subAddr + BitVec.ofNat 16 a.accessBytes
  acessAddr := a.acessAddr + a.accessBytes
  numbBytes := a.numbBytes - a.accessBytes

/-- The check at the start of `_i2c_access`. -/
def invalid : Bool := capacity ≤ a.subAddr.toNat || capacity < a.subAddr.toNat + a.numbBytes

end Access

/-- `cpu_iic_transfer` of the next piece of an access. -/
def Medium.transfer (m : Medium) (ctrl : AccessCtrl) (a : Access) (outcome : Outcome) : Medium :=
  let cell := cellOf a.slaAddr a.wordAddr
  let count := match outcome with
    | .finished => a.accessBytes
    | .failed bytes => min bytes a.accessBytes
  match ctrl with
  | .read => { m with ram := fetch m.ram m.eeprom cell a.acessAddr count }
  | .write => { m with eeprom := program m.eeprom m.ram cell a.acessAddr count }

/-- The loop of `_i2c_access`, with the outcomes of the transfers to come; those that are not
listed are completed.  Each turn takes a byte at least, so `fuel` is the number of bytes. -/
def i2cAccessLoop (ctrl : AccessCtrl) :
    ℕ → Access → Medium → List Outcome → Access × Medium × List Outcome
  | 0, a, m, outcomes => (a, m, outcomes)
  | fuel + 1, a, m, outcomes =>
      if a.numbBytes = 0 then (a, m, outcomes)
      else
        let outcome := outcomes.headD .finished
        let m := m.transfer ctrl a outcome
        if outcome = .finished then i2cAccessLoop ctrl fuel a.next m outcomes.tail
        else (a.next, m, outcomes.tail)

/-- `_i2c_access`; the result counts the bytes of the transfer that failed. -/
def i2cAccess (ctrl : AccessCtrl) (whole : Access) (m : Medium) (outcomes : List Outcome) :
    ℤ × Medium × List Outcome :=
  if whole.numbBytes = 0 then (0, m, outcomes)
  else if whole.invalid then (-1, m, outcomes)
  else
    let (a, m, outcomes) := i2cAccessLoop ctrl whole.numbBytes whole m outcomes
    ((whole.numbBytes : ℤ) - a.numbBytes, m, outcomes)

/-- `_i2c_access_retry` with `retryNumb` attempts after this one. -/
def i2cAccessRetry (ctrl : AccessCtrl) (whole : Access) :
    ℕ → Medium → List Outcome → ℤ × Medium × List Outcome
  | 0, m, outcomes => i2cAccess ctrl whole m outcomes
  | retryNumb + 1, m, outcomes =>
      let (size, m, outcomes) := i2cAccess ctrl whole m outcomes
      if size = whole.numbBytes then (size, m, outcomes)
      else i2cAccessRetry ctrl whole retryNumb m outcomes

/-- `retry_numb`. -/
def retryNumb : ℕ := 3

/-- `_drv_devread` and `_drv_devwrite` of the block from its first byte on. -/
def drvAccess (ctrl : AccessCtrl) (pos : BitVec 16) (size : ℕ) (m : Medium)
    (outcomes : List Outcome) : ℤ × Medium × List Outcome :=
  i2cAccessRetry ctrl ⟨pos, 0, size⟩ retryNumb m outcomes

/-- The three high bits of an address select the block, the low byte the cell in it. -/
theorem cellOf_eq (subAddr : BitVec 16) (hlt : subAddr.toNat < capacity) :
    cellOf (devAddr + ((subAddr >>> 7) &&& 0x0e).setWidth 8) ((subAddr &&& 0x0ff).setWidth 8) =
      subAddr.toNat := by
  have hblock : ∀ half < 16, (((devAddr + BitVec.ofNat 8 (half &&& 0x0e)) >>> 1) &&& 7).toNat =
      half / 2 := by decide
  have hhigh : ((subAddr >>> 7) &&& 0x0e).setWidth 8 =
      BitVec.ofNat 8 (subAddr.toNat / 128 &&& 0x0e) := by
    apply BitVec.eq_of_toNat_eq
    simp [Nat.shiftRight_eq_div_pow]
  have hlow : ((subAddr &&& 0x0ff).setWidth 8).toNat = subAddr.toNat % 256 := by
    have hmask : subAddr.toNat % 256 &&& 0xff = subAddr.toNat % 256 % 256 :=
      Nat.and_two_pow_sub_one_eq_mod (subAddr.toNat % 256) 8
    simp [hmask]
  have hlt : subAddr.toNat < 2048 := hlt
  rw [cellOf, hhigh, hlow, hblock _ (by omega)]
  omega

/-- A page write that ends in its page copies the bytes. -/
theorem program_eq_blit (eeprom ram : Mem) {cell addr count : ℕ}
    (hpage : cell % bytesPerPage + count ≤ bytesPerPage) :
    program eeprom ram cell addr count = blit eeprom cell ram addr count := by
  induction count generalizing eeprom cell addr with
  | zero => rw [program, blit_zero]
  | succ count ih =>
      rw [program, store_eq_blit]
      rcases Nat.eq_zero_or_pos count with rfl | hmore
      · rw [program]
      · simp only [bytesPerPage] at hpage ih ⊢
        have hnext : nextInPage cell = cell + 1 := by
          simp only [nextInPage, bytesPerPage]
          omega
        rw [hnext, ih _ (by omega), blit_append, Nat.add_comm 1]

/-- A read that ends in the part copies the bytes. -/
theorem fetch_eq_blit (ram eeprom : Mem) {cell addr count : ℕ} (hpart : cell + count ≤ capacity) :
    fetch ram eeprom cell addr count = blit ram addr eeprom cell count := by
  induction count generalizing ram cell addr with
  | zero => rw [fetch, blit_zero]
  | succ count ih =>
      rw [fetch, store_eq_blit]
      rcases Nat.eq_zero_or_pos count with rfl | hmore
      · rw [fetch]
      · have hnext : nextInPart cell = cell + 1 := Nat.mod_eq_of_lt (by omega)
        rw [hnext, ih _ (by omega), blit_append, Nat.add_comm 1]

namespace Access

variable {a : Access}

/-- The access lies in the part. -/
def Fits (a : Access) : Prop := a.subAddr.toNat + a.numbBytes ≤ capacity

/-- A transfer takes a byte at least, no more than are left, and stays in its page. -/
theorem accessBytes_spec (a : Access) :
    a.accessBytes ≤ a.numbBytes ∧ (a.numbBytes ≠ 0 → 0 < a.accessBytes) ∧
      a.subAddr.toNat % bytesPerPage + a.accessBytes ≤ bytesPerPage := by
  have hoffset : a.subAddr.toNat % bytesPerPage < bytesPerPage := Nat.mod_lt _ (by decide)
  unfold accessBytes
  by_cases hcross : bytesPerPage < a.subAddr.toNat % bytesPerPage + a.numbBytes
  · rw [if_pos hcross]
    omega
  · rw [if_neg hcross]
    omega

theorem accessBytes_le (a : Access) : a.accessBytes ≤ a.numbBytes := a.accessBytes_spec.1

theorem next_subAddr (hfits : a.Fits) :
    a.next.subAddr.toNat = a.subAddr.toNat + a.accessBytes := by
  have hle := a.accessBytes_le
  simp only [Fits, capacity, pagesPerDev, bytesPerPage] at hfits
  rw [next, BitVec.toNat_add, BitVec.toNat_ofNat]
  omega

theorem Fits.next (hfits : a.Fits) : a.next.Fits := by
  have hle := a.accessBytes_le
  have hsub := next_subAddr hfits
  simp only [Fits, Access.next] at hfits hsub ⊢
  omega

end Access

/-! ### One transfer at a time -/

/-- A call of `_i2c_access_retry` between two transfers, or its result. -/
inductive Pass where
  | underWay (access : Access) (retryNumb : ℕ)
  | returned (size : ℤ)

namespace Pass

/-- `_i2c_access` has returned. -/
def attempted (whole : Access) (retryNumb : ℕ) (size : ℤ) : Pass :=
  if size = whole.numbBytes then .returned size
  else match retryNumb with
    | 0 => .returned size
    | retryNumb + 1 => .underWay whole retryNumb

/-- The call up to its first transfer. -/
def begin (whole : Access) : Pass :=
  if whole.numbBytes = 0 then .returned 0
  else if whole.invalid then .returned (-1)
  else .underWay whole retryNumb

/-- The call after one more transfer. -/
def turn (whole : Access) (outcome : Outcome) : Pass → Pass
  | .underWay a retryNumb =>
      if outcome = .finished ∧ a.next.numbBytes ≠ 0 then .underWay a.next retryNumb
      else attempted whole retryNumb ((whole.numbBytes : ℤ) - a.next.numbBytes)
  | .returned size => .returned size

/-- The next transfer of a call that is not interrupted. -/
def next (ctrl : AccessCtrl) (whole : Access) :
    Pass × Medium × List Outcome → Pass × Medium × List Outcome
  | (.underWay a retryNumb, m, outcomes) =>
      (turn whole (outcomes.headD .finished) (.underWay a retryNumb),
        m.transfer ctrl a (outcomes.headD .finished), outcomes.tail)
  | (.returned size, m, outcomes) => (.returned size, m, outcomes)

section Uninterrupted

variable (ctrl : AccessCtrl) (whole : Access)

/-- The transfers of one attempt are the loop of `_i2c_access`. -/
theorem attempt_eq {fuel : ℕ} {a : Access} (retryNumb : ℕ) (m : Medium) (outcomes : List Outcome)
    (hmore : a.numbBytes ≠ 0) (hfuel : a.numbBytes ≤ fuel) :
    ∃ n, (next ctrl whole)^[n] (.underWay a retryNumb, m, outcomes) =
      (attempted whole retryNumb ((whole.numbBytes : ℤ) -
          (i2cAccessLoop ctrl fuel a m outcomes).1.numbBytes),
        (i2cAccessLoop ctrl fuel a m outcomes).2) := by
  induction fuel generalizing a m outcomes with
  | zero => exact absurd (Nat.le_zero.mp hfuel) hmore
  | succ fuel ih =>
      rw [i2cAccessLoop, if_neg hmore]
      by_cases houtcome : outcomes.headD .finished = .finished
      · have hpos := a.accessBytes_spec.2.1 hmore
        have hless : a.next.numbBytes ≤ fuel := by
          simp only [Access.next]
          omega
        simp only [houtcome, if_true]
        by_cases hdone : a.next.numbBytes = 0
        · have hend : ∀ fuel m outcomes, i2cAccessLoop ctrl fuel a.next m outcomes =
              (a.next, m, outcomes) := fun fuel m outcomes ↦ by
            cases fuel with
            | zero => rfl
            | succ fuel => rw [i2cAccessLoop, if_pos hdone]
          refine ⟨1, ?_⟩
          simp only [Function.iterate_one, next, houtcome, turn, hend, hdone, ne_eq,
            not_true_eq_false, and_false, if_false]
        · obtain ⟨n, hn⟩ := ih (m.transfer ctrl a .finished) outcomes.tail hdone hless
          refine ⟨n + 1, ?_⟩
          rw [Function.iterate_succ_apply, ← hn]
          simp only [next, houtcome, turn, ne_eq, hdone, not_false_eq_true, and_self, if_true]
      · refine ⟨1, ?_⟩
        simp only [Function.iterate_one, next, turn, houtcome, false_and, if_false]

/-- An uninterrupted call goes through the transfers of `_i2c_access_retry` and returns its
result. -/
theorem begin_eq (m : Medium) (outcomes : List Outcome) :
    ∃ n, (next ctrl whole)^[n] (begin whole, m, outcomes) =
      (.returned (i2cAccessRetry ctrl whole retryNumb m outcomes).1,
        (i2cAccessRetry ctrl whole retryNumb m outcomes).2) := by
  by_cases hnone : whole.numbBytes = 0
  · refine ⟨0, ?_⟩
    simp [begin, i2cAccessRetry, retryNumb, i2cAccess, hnone]
  by_cases hinvalid : whole.invalid
  · have hminus : (-1 : ℤ) ≠ whole.numbBytes := by omega
    refine ⟨0, ?_⟩
    simp [begin, i2cAccessRetry, retryNumb, i2cAccess, hnone, hinvalid, hminus]
  have hretry : ∀ retryNumb m outcomes,
      ∃ n, (next ctrl whole)^[n] (.underWay whole retryNumb, m, outcomes) =
        (.returned (i2cAccessRetry ctrl whole retryNumb m outcomes).1,
          (i2cAccessRetry ctrl whole retryNumb m outcomes).2) := by
    intro retryNumb
    induction retryNumb with
    | zero =>
        intro m outcomes
        obtain ⟨n, hn⟩ := attempt_eq ctrl whole 0 m outcomes hnone le_rfl
        refine ⟨n, ?_⟩
        rw [hn, i2cAccessRetry, i2cAccess, if_neg hnone, if_neg hinvalid, attempted]
        split <;> rfl
    | succ retryNumb ih =>
        intro m outcomes
        obtain ⟨n, hn⟩ := attempt_eq ctrl whole (retryNumb + 1) m outcomes hnone le_rfl
        rw [i2cAccessRetry, i2cAccess, if_neg hnone, if_neg hinvalid]
        simp only
        split
        · rename_i hwhole
          exact ⟨n, by rw [hn, attempted, if_pos hwhole]⟩
        · rename_i hshort
          obtain ⟨k, hk⟩ := ih (i2cAccessLoop ctrl whole.numbBytes whole m outcomes).2.1
            (i2cAccessLoop ctrl whole.numbBytes whole m outcomes).2.2
          refine ⟨k + n, ?_⟩
          rw [Function.iterate_add_apply, hn, ← hk]
          simp only [attempted, if_neg hshort]
  rw [begin, if_neg hnone, if_neg hinvalid]
  exact hretry retryNumb m outcomes

end Uninterrupted

end Pass

end ProjectSensor.Bsp
