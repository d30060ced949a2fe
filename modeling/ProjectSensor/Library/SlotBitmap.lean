import Mathlib.Data.List.FinRange
import Mathlib.Data.BitVec

/-!
# Slots accounted for in a bitmap

A pool of at most sixteen slots keeps one bit for each slot, set while the slot is taken.  A slot
is found by scanning the bits upwards from bit zero.
-/

namespace ProjectSensor.Library.SlotBitmap

/-- `1UL << i`, cut down to the width of the bitmap. -/
def bit (i : ℕ) : BitVec 16 := (1#32 <<< i).setWidth 16

def taken (bitmap : BitVec 16) (i : ℕ) : Bool := bitmap &&& bit i ≠ 0#16

def take (bitmap : BitVec 16) (i : ℕ) : BitVec 16 := bitmap ||| bit i

def release (bitmap : BitVec 16) (i : ℕ) : BitVec 16 := bitmap &&& ~~~(bit i)

/-- The first slot whose bit is clear. -/
def firstFree (bitmap : BitVec 16) (size : ℕ) : Option (Fin size) :=
  (List.finRange size).find? fun i ↦ !taken bitmap i

theorem getLsbD_bit {i : ℕ} (hi : i < 16) (j : ℕ) : (bit i).getLsbD j = decide (j = i) := by
  simp only [bit, BitVec.getLsbD_setWidth, BitVec.getLsbD_shiftLeft, BitVec.getLsbD_one]
  by_cases hji : j = i
  · subst hji
    simp [hi, show j < 32 by omega]
  · simp only [hji, decide_false]
    by_cases hlt : j < i
    · simp [hlt]
    · simp [show ¬ j - i = 0 by omega]

theorem taken_eq_getLsbD (bitmap : BitVec 16) {i : ℕ} (hi : i < 16) :
    taken bitmap i = bitmap.getLsbD i := by
  unfold taken
  cases hbit : bitmap.getLsbD i with
  | true =>
      have hand : (bitmap &&& bit i).getLsbD i = true := by simp [getLsbD_bit hi, hbit]
      refine decide_eq_true fun hzero ↦ ?_
      simp [hzero] at hand
  | false =>
      refine decide_eq_false (not_not.mpr (BitVec.eq_of_getLsbD_eq fun j hj ↦ ?_))
      rw [BitVec.getLsbD_and, getLsbD_bit hi, BitVec.getLsbD_zero]
      by_cases hji : j = i <;> simp [hji, hbit]

theorem taken_take (bitmap : BitVec 16) {i j : ℕ} (hi : i < 16) (hj : j < 16) :
    taken (take bitmap i) j = (decide (j = i) || taken bitmap j) := by
  calc
    taken (take bitmap i) j = (bitmap ||| bit i).getLsbD j := taken_eq_getLsbD _ hj
    _ = (decide (j = i) || bitmap.getLsbD j) := by
      rw [BitVec.getLsbD_or, getLsbD_bit hi, Bool.or_comm]
    _ = (decide (j = i) || taken bitmap j) := by rw [taken_eq_getLsbD _ hj]

theorem taken_release (bitmap : BitVec 16) {i j : ℕ} (hi : i < 16) (hj : j < 16) :
    taken (release bitmap i) j = (!decide (j = i) && taken bitmap j) := by
  calc
    taken (release bitmap i) j = (bitmap &&& ~~~bit i).getLsbD j := taken_eq_getLsbD _ hj
    _ = (!decide (j = i) && bitmap.getLsbD j) := by
      rw [BitVec.getLsbD_and, BitVec.getLsbD_not, getLsbD_bit hi, Bool.and_comm]
      simp [hj]
    _ = (!decide (j = i) && taken bitmap j) := by rw [taken_eq_getLsbD _ hj]

@[simp]
theorem taken_zero (i : ℕ) : taken 0#16 i = false := by
  simp [taken]

theorem firstFree_eq_some {bitmap : BitVec 16} {size : ℕ} {i : Fin size}
    (hfree : firstFree bitmap size = some i) : taken bitmap i = false := by
  simpa using List.find?_some hfree

theorem firstFree_eq_zero {bitmap : BitVec 16} {size : ℕ} (hfree : taken bitmap 0 = false) :
    firstFree bitmap (size + 1) = some 0 := by
  simp [firstFree, List.finRange_succ, hfree]

end ProjectSensor.Library.SlotBitmap
