import Mathlib.Data.BitVec
import Mathlib.Logic.Function.Iterate

/-!
# Serial registers of a cyclic code

A register of `w` bits takes the bits of a message in at its low end: a shift feeds the bit that
leaves back through the polynomial.  Shifting is linear, and it is injective when the highest
coefficient of the polynomial is set.  An error confined to `w` consecutive bits therefore always
leaves a trace in the register (`remainder_ne_of_burst`), whatever the message.
-/

namespace ProjectSensor.Library.CyclicCode

variable {w : ℕ}

/-- One bit at the low end of a register. -/
def bit (w : ℕ) (b : Bool) : BitVec w := (BitVec.ofBool b).setWidth w

theorem getLsbD_bit (b : Bool) (i : ℕ) :
    (bit w b).getLsbD i = (decide (i < w) && decide (i = 0) && b) := by
  unfold bit
  rw [BitVec.getLsbD_setWidth, BitVec.getLsbD_ofBool]
  cases decide (i < w) <;> simp

@[simp]
theorem bit_false : bit w false = 0#w := by
  apply BitVec.eq_of_getLsbD_eq
  intro i _
  simp [getLsbD_bit]

theorem bit_xor (a b : Bool) : bit w (a ^^ b) = bit w a ^^^ bit w b := by
  apply BitVec.eq_of_getLsbD_eq
  intro i _
  rw [BitVec.getLsbD_xor]
  simp only [getLsbD_bit]
  cases decide (i < w) <;> cases decide (i = 0) <;> simp

/-! ### The shift -/

section Shift

variable (poly : BitVec w)

/-- A shift by one place; the bit that leaves is fed back through the polynomial. -/
def shift (reg : BitVec w) : BitVec w :=
  if reg.getLsbD 0 then (reg >>> 1) ^^^ poly else reg >>> 1

theorem getLsbD_shift (reg : BitVec w) (i : ℕ) :
    (shift poly reg).getLsbD i = (reg.getLsbD (1 + i) ^^ (reg.getLsbD 0 && poly.getLsbD i)) := by
  unfold shift
  cases reg.getLsbD 0 <;> simp

theorem shift_xor (a b : BitVec w) : shift poly (a ^^^ b) = shift poly a ^^^ shift poly b := by
  apply BitVec.eq_of_getLsbD_eq
  intro i _
  simp only [getLsbD_shift, BitVec.getLsbD_xor]
  cases a.getLsbD 0 <;> cases b.getLsbD 0 <;> cases poly.getLsbD i <;> simp

@[simp]
theorem shift_zero : shift poly 0#w = 0#w := by simp [shift]

/-- A register whose low bit is clear is only moved. -/
theorem shift_of_even {reg : BitVec w} (heven : reg.getLsbD 0 = false) :
    shift poly reg = reg >>> 1 := by
  rw [shift, heven]
  rfl

theorem iterate_shift_xor (k : ℕ) (a b : BitVec w) :
    (shift poly)^[k] (a ^^^ b) = (shift poly)^[k] a ^^^ (shift poly)^[k] b := by
  induction k generalizing a b with
  | zero => rfl
  | succ k ih => rw [Function.iterate_succ_apply, shift_xor, ih]; rfl

@[simp]
theorem iterate_shift_zero (k : ℕ) : (shift poly)^[k] 0#w = 0#w :=
  Function.iterate_fixed (shift_zero poly) k

/-- The first shifts of a register whose low bits are clear only move it. -/
theorem iterate_shift_of_low_clear {k : ℕ} {reg : BitVec w}
    (hclear : ∀ i < k, reg.getLsbD i = false) : (shift poly)^[k] reg = reg >>> k := by
  induction k with
  | zero => simp
  | succ k ih =>
      have heven : (reg >>> k).getLsbD 0 = false := by
        rw [BitVec.getLsbD_ushiftRight]
        exact hclear k (Nat.lt_succ_self k)
      calc
        (shift poly)^[k + 1] reg = shift poly ((shift poly)^[k] reg) :=
          Function.iterate_succ_apply' ..
        _ = shift poly (reg >>> k) := by rw [ih fun i hi ↦ hclear i (Nat.lt_succ_of_lt hi)]
        _ = reg >>> (k + 1) := by rw [shift_of_even poly heven, BitVec.shiftRight_add]

/-- With the highest coefficient set, the bit that is fed back shows at the high end. -/
theorem eq_zero_of_shift_eq_zero (hpoly : poly.msb = true) {reg : BitVec w}
    (hzero : shift poly reg = 0#w) : reg = 0#w := by
  have hbits : ∀ i, (reg.getLsbD (1 + i) ^^ (reg.getLsbD 0 && poly.getLsbD i)) = false := by
    intro i
    rw [← getLsbD_shift, hzero, BitVec.getLsbD_zero]
  have hpos : 0 < w := by
    apply Nat.pos_of_ne_zero
    intro hw
    subst hw
    simp [BitVec.msb_eq_getLsbD_last] at hpoly
  have hlow : reg.getLsbD 0 = false := by
    have htop := hbits (w - 1)
    rw [BitVec.msb_eq_getLsbD_last] at hpoly
    rwa [hpoly, BitVec.getLsbD_of_ge reg _ (by omega), Bool.false_xor, Bool.and_true] at htop
  apply BitVec.eq_of_getLsbD_eq
  intro i _
  rw [BitVec.getLsbD_zero]
  cases i with
  | zero => exact hlow
  | succ i =>
      have hi := hbits i
      rwa [hlow, Bool.false_and, Bool.xor_false, Nat.add_comm] at hi

theorem eq_zero_of_iterate_shift_eq_zero (hpoly : poly.msb = true) {k : ℕ} {reg : BitVec w}
    (hzero : (shift poly)^[k] reg = 0#w) : reg = 0#w := by
  induction k generalizing reg with
  | zero => exact hzero
  | succ k ih => exact eq_zero_of_shift_eq_zero poly hpoly (ih hzero)

end Shift

/-! ### Messages -/

section Remainder

variable (poly : BitVec w)

/-- The register behind the first `count` bits of a message. -/
def remainder (reg : BitVec w) (message : ℕ → Bool) : ℕ → BitVec w
  | 0 => reg
  | count + 1 => shift poly (remainder reg message count ^^^ bit w (message count))

theorem remainder_append (reg : BitVec w) (message : ℕ → Bool) (first second : ℕ) :
    remainder poly reg message (first + second) =
      remainder poly (remainder poly reg message first) (fun i ↦ message (first + i)) second := by
  induction second with
  | zero => rfl
  | succ second ih => rw [← Nat.add_assoc, remainder, remainder, ih]

/-- The register is linear in its start and the message together. -/
theorem remainder_xor (reg reg' : BitVec w) (message message' : ℕ → Bool) (count : ℕ) :
    remainder poly (reg ^^^ reg') (fun i ↦ message i ^^ message' i) count =
      remainder poly reg message count ^^^ remainder poly reg' message' count := by
  induction count with
  | zero => rfl
  | succ count ih =>
      calc
        remainder poly (reg ^^^ reg') (fun i ↦ message i ^^ message' i) (count + 1) =
            shift poly
              ((remainder poly reg message count ^^^ remainder poly reg' message' count) ^^^
                (bit w (message count) ^^^ bit w (message' count))) := by
          rw [remainder, ih, bit_xor]
        _ = shift poly ((remainder poly reg message count ^^^ bit w (message count)) ^^^
              (remainder poly reg' message' count ^^^ bit w (message' count))) := by
          congr 1
          ac_rfl
        _ = remainder poly reg message (count + 1) ^^^
              remainder poly reg' message' (count + 1) := shift_xor ..

/-- Zeros only shift the register. -/
theorem remainder_zeros (reg : BitVec w) {message : ℕ → Bool} {count : ℕ}
    (hzeros : ∀ i < count, message i = false) :
    remainder poly reg message count = (shift poly)^[count] reg := by
  induction count with
  | zero => rfl
  | succ count ih =>
      calc
        remainder poly reg message (count + 1) = shift poly (remainder poly reg message count) := by
          rw [remainder, hzeros count (Nat.lt_succ_self count), bit_false, BitVec.xor_zero]
        _ = shift poly ((shift poly)^[count] reg) := by
          rw [ih fun i hi ↦ hzeros i (Nat.lt_succ_of_lt hi)]
        _ = (shift poly)^[count + 1] reg := (Function.iterate_succ_apply' ..).symm

/-- The first `count` bits of a message as a register, the first bit lowest. -/
def block (w : ℕ) (message : ℕ → Bool) : ℕ → BitVec w
  | 0 => 0#w
  | count + 1 => block w message count ^^^ (bit w (message count) <<< count)

theorem getLsbD_block (message : ℕ → Bool) (count : ℕ) {i : ℕ} (hi : i < w) :
    (block w message count).getLsbD i = (decide (i < count) && message i) := by
  induction count with
  | zero => simp [block]
  | succ count ih =>
      rw [block, BitVec.getLsbD_xor, ih, BitVec.getLsbD_shiftLeft, getLsbD_bit]
      rcases lt_trichotomy i count with hlt | heq | hgt
      · simp [hlt, Nat.lt_succ_of_lt hlt]
      · simp [heq, heq ▸ hi, (Nat.zero_le i).trans_lt hi]
      · have hne : i - count ≠ 0 := by omega
        simp [hne, not_lt.mpr hgt.le, show ¬ i < count + 1 by omega]

/-- Up to `w` bits may as well be added to the register before it is shifted. -/
theorem remainder_eq_iterate (reg : BitVec w) (message : ℕ → Bool) {count : ℕ}
    (hcount : count ≤ w) :
    remainder poly reg message count = (shift poly)^[count] (reg ^^^ block w message count) := by
  induction count with
  | zero => simp [remainder, block]
  | succ count ih =>
      have hbit : (shift poly)^[count] (bit w (message count) <<< count) =
          bit w (message count) := by
        rw [iterate_shift_of_low_clear poly]
        · apply BitVec.eq_of_getLsbD_eq
          intro i hi
          rw [BitVec.getLsbD_ushiftRight, BitVec.getLsbD_shiftLeft]
          simp only [getLsbD_bit]
          by_cases hzero : i = 0
          · simp [hzero, Nat.lt_of_succ_le hcount]
          · simp [hzero]
        · intro i hi
          simp [hi]
      calc
        remainder poly reg message (count + 1) =
            shift poly (remainder poly reg message count ^^^ bit w (message count)) := rfl
        _ = shift poly ((shift poly)^[count] (reg ^^^ block w message count) ^^^
              (shift poly)^[count] (bit w (message count) <<< count)) := by
          rw [ih (Nat.le_of_succ_le hcount), hbit]
        _ = shift poly ((shift poly)^[count] (reg ^^^ block w message (count + 1))) := by
          rw [← iterate_shift_xor, BitVec.xor_assoc, block]
        _ = (shift poly)^[count + 1] (reg ^^^ block w message (count + 1)) :=
          (Function.iterate_succ_apply' ..).symm

/-- An error that lies in `w` consecutive bits leaves a trace in the register. -/
theorem remainder_ne_zero_of_burst (hpoly : poly.msb = true) {error : ℕ → Bool} {count : ℕ}
    (first : ℕ) (hsome : ∃ i < count, error i = true)
    (hwindow : ∀ i < count, error i = true → first ≤ i ∧ i < first + w) :
    remainder poly 0#w error count ≠ 0#w := by
  intro hzero
  obtain ⟨i, hi, herror⟩ := hsome
  obtain ⟨hlow, hhigh⟩ := hwindow i hi herror
  obtain ⟨length, hlength, hsplit⟩ : ∃ length, length ≤ w ∧ i < first + length ∧
      first + length ≤ count ∧ ∀ j < count, first + length ≤ j → error j = false := by
    refine ⟨min w (count - first), min_le_left _ _, by omega, by omega, ?_⟩
    intro j hj hpast
    by_contra htrue
    have hin := hwindow j hj (Bool.eq_true_of_not_eq_false htrue)
    omega
  obtain ⟨hinside, hfits, hpast⟩ := hsplit
  have hbefore : remainder poly 0#w error first = 0#w := by
    rw [remainder_zeros, iterate_shift_zero]
    intro j hj
    by_contra htrue
    have hin := hwindow j (by omega) (Bool.eq_true_of_not_eq_false htrue)
    omega
  have hburst : remainder poly 0#w error (first + length) =
      (shift poly)^[length] (block w (fun j ↦ error (first + j)) length) := by
    rw [remainder_append, hbefore, remainder_eq_iterate poly _ _ hlength, BitVec.zero_xor]
  have hafter : remainder poly 0#w error count =
      (shift poly)^[count - (first + length)] (remainder poly 0#w error (first + length)) := by
    conv_lhs => rw [← Nat.add_sub_cancel' hfits, remainder_append]
    apply remainder_zeros
    intro j hj
    exact hpast _ (by omega) (by omega)
  have hblock : block w (fun j ↦ error (first + j)) length = 0#w := by
    apply eq_zero_of_iterate_shift_eq_zero poly hpoly (k := length)
    rw [← hburst]
    apply eq_zero_of_iterate_shift_eq_zero poly hpoly (k := count - (first + length))
    rw [← hafter, hzero]
  have hclear :=
    getLsbD_block (w := w) (fun j ↦ error (first + j)) length (i := i - first) (by omega)
  rw [hblock, BitVec.getLsbD_zero, Nat.add_sub_cancel' hlow, herror,
    decide_eq_true (by omega : i - first < length)] at hclear
  exact Bool.false_ne_true hclear

/-- Two messages that differ, but only in `w` consecutive bits, leave different registers. -/
theorem remainder_ne_of_burst (hpoly : poly.msb = true) (reg : BitVec w)
    {message message' : ℕ → Bool} {count first : ℕ} (hsome : ∃ i < count, message i ≠ message' i)
    (hwindow : ∀ i < count, message i ≠ message' i → first ≤ i ∧ i < first + w) :
    remainder poly reg message count ≠ remainder poly reg message' count := by
  have hdiff : ∀ i, (message i ^^ message' i) = true ↔ message i ≠ message' i := by
    intro i
    cases message i <;> cases message' i <;> decide
  intro hsame
  have hzero : remainder poly 0#w (fun i ↦ message i ^^ message' i) count = 0#w := by
    calc
      remainder poly 0#w (fun i ↦ message i ^^ message' i) count =
          remainder poly (reg ^^^ reg) (fun i ↦ message i ^^ message' i) count := by
        rw [BitVec.xor_self]
      _ = remainder poly reg message count ^^^ remainder poly reg message' count :=
        remainder_xor poly reg reg message message' count
      _ = 0#w := by rw [hsame, BitVec.xor_self]
  apply remainder_ne_zero_of_burst poly hpoly first _ _ hzero
  · obtain ⟨i, hi, hne⟩ := hsome
    exact ⟨i, hi, (hdiff i).mpr hne⟩
  · intro i hi herror
    exact hwindow i hi ((hdiff i).mp herror)

end Remainder

end ProjectSensor.Library.CyclicCode
