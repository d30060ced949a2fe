import Mathlib.Data.BitVec

/-!
# Deadlines on a clock that wraps around

On a clock of `w` bits a deadline `due` is `left now due` ticks away.  As long as the deadlines
that are compared are less than half the range of the clock away, the sign of a wrapped difference
tells their order (`sub_lt_iff_left_le`) and whether one has arrived (`sub_lt_iff_left_eq_zero`),
wherever the clock stands.  Where a deadline may have passed, `ahead now due` counts on below zero,
and the same comparisons tell as much of deadlines on either side of the present.
-/

namespace ProjectSensor.Library.WrappedTime

variable {w : ℕ}

/-- The ticks from `now` until the clock shows `due`. -/
def left (now due : BitVec w) : ℕ := (due - now).toNat

@[simp]
theorem left_self (now : BitVec w) : left now now = 0 := by
  simp [left]

@[simp]
theorem left_add (now n : BitVec w) : left now (now + n) = n.toNat := by
  rw [left, add_sub_cancel_left]

theorem left_eq_zero_iff (now due : BitVec w) : left now due = 0 ↔ due = now := by
  rw [left, ← BitVec.toNat_zero, BitVec.toNat_inj]
  exact sub_eq_zero

/-- The difference of two numbers that are small on the scale of the clock. -/
theorem toNat_sub_lt_iff {half : ℕ} (hhalf : 2 * half ≤ 2 ^ w) {x y : BitVec w}
    (hx : x.toNat < half) (hy : y.toNat < half) : (x - y).toNat < half ↔ y.toNat ≤ x.toNat := by
  rcases le_or_gt y.toNat x.toNat with hle | hlt
  · rw [BitVec.toNat_sub_of_le (BitVec.le_def.mpr hle)]
    exact iff_of_true (by omega) hle
  · rw [BitVec.toNat_sub_of_lt (BitVec.lt_def.mpr hlt)]
    exact iff_of_false (by omega) (by omega)

/-- Comparing two deadlines by their wrapped difference. -/
theorem sub_lt_iff_left_le {half : ℕ} (hhalf : 2 * half ≤ 2 ^ w) {now due due' : BitVec w}
    (hdue : left now due < half) (hdue' : left now due' < half) :
    (due - due').toNat < half ↔ left now due' ≤ left now due := by
  rw [← sub_sub_sub_cancel_right due due' now]
  exact toNat_sub_lt_iff hhalf hdue hdue'

/-- Testing by the wrapped difference whether a deadline has arrived. -/
theorem sub_lt_iff_left_eq_zero {half : ℕ} (hhalf : 2 * half ≤ 2 ^ w) {now due : BitVec w}
    (hdue : left now due < half) : (now - due).toNat < half ↔ left now due = 0 := by
  have hnow : left now now < half := by
    rw [left_self]
    omega
  rw [sub_lt_iff_left_le hhalf hnow hdue, left_self, Nat.le_zero]

/-- The clock advances by one. -/
theorem left_succ {now due : BitVec w} (hpos : 0 < left now due) :
    left (now + 1) due = left now due - 1 := by
  have hw : 0 < w := by
    rcases Nat.eq_zero_or_pos w with rfl | hw
    · have hlt : left now due < 2 ^ 0 := (due - now).isLt
      omega
    · exact hw
  have hone : (1 : BitVec w).toNat = 1 := by
    simpa using Nat.mod_eq_of_lt (Nat.one_lt_two_pow hw.ne')
  rw [left, sub_add_eq_sub_sub, BitVec.toNat_sub_of_le, hone, left]
  rw [BitVec.le_def, hone]
  exact hpos

/-- The ticks from `now` until the clock shows `due`, counted down below zero once it has shown
it. -/
def ahead (now due : BitVec w) : ℤ := (due - now).toInt

@[simp]
theorem ahead_self (now : BitVec w) : ahead now now = 0 := by
  simp [ahead]

theorem ahead_add {now n : BitVec w} (hsmall : 2 * n.toNat < 2 ^ w) :
    ahead now (now + n) = n.toNat := by
  rw [ahead, add_sub_cancel_left, BitVec.toInt_eq_toNat_cond, if_pos hsmall]

/-- A wrapped difference is the difference of the signed values up to the range of the clock. -/
theorem toNat_sub_eq_emod (x y : BitVec w) :
    ((x - y).toNat : ℤ) = (x.toInt - y.toInt) % (2 ^ w : ℕ) := by
  rw [← Int.bmod_emod, ← BitVec.toInt_sub, BitVec.toInt_eq_toNat_bmod, Int.bmod_emod,
    Int.emod_eq_of_lt (Int.natCast_nonneg _) (by exact_mod_cast (x - y).isLt)]

/-- Comparing two deadlines that lie on either side of `now` by their wrapped difference. -/
theorem sub_lt_iff_ahead_le {half : ℕ} (hhalf : half ≤ 2 ^ w) {now due due' : BitVec w}
    (hlater : ahead now due - ahead now due' < half)
    (hearlier : ahead now due' - ahead now due ≤ (2 ^ w : ℕ) - half) :
    (due - due').toNat < half ↔ ahead now due' ≤ ahead now due := by
  have hvalue : ((due - due').toNat : ℤ) = (ahead now due - ahead now due') % (2 ^ w : ℕ) := by
    rw [← sub_sub_sub_cancel_right due due' now]
    exact toNat_sub_eq_emod ..
  generalize 2 ^ w = range at hhalf hearlier hvalue
  rcases le_or_gt (ahead now due') (ahead now due) with hle | hlt
  · rw [Int.emod_eq_of_lt (by omega) (by omega)] at hvalue
    exact iff_of_true (by omega) hle
  · rw [← Int.add_emod_right, Int.emod_eq_of_lt (by omega) (by omega)] at hvalue
    exact iff_of_false (by omega) (by omega)

/-- Testing by the wrapped difference whether a deadline has arrived or lies behind. -/
theorem sub_lt_iff_ahead_nonpos {half : ℕ} (hhalf : half ≤ 2 ^ w) {now due : BitVec w}
    (hlater : -ahead now due < half) (hearlier : ahead now due ≤ (2 ^ w : ℕ) - half) :
    (now - due).toNat < half ↔ ahead now due ≤ 0 := by
  have hiff : (now - due).toNat < half ↔ ahead now due ≤ ahead now now :=
    sub_lt_iff_ahead_le hhalf (by simpa using hlater) (by simpa using hearlier)
  rwa [ahead_self] at hiff

/-- The clock advances by one. -/
theorem ahead_succ {now due : BitVec w} (hw : 1 < w) (hlow : -(2 ^ (w - 1) : ℕ) < ahead now due) :
    ahead (now + 1) due = ahead now due - 1 := by
  have hone : (1 : BitVec w).toInt = 1 := by simp [hw]
  rw [ahead, sub_add_eq_sub_sub, BitVec.toInt_sub, hone]
  have hhigh := BitVec.toInt_lt (x := due - now)
  rw [← ahead] at hhigh ⊢
  have hpow : 2 ^ w = 2 * 2 ^ (w - 1) := by
    rw [← pow_succ', Nat.sub_add_cancel (by omega)]
  rw [hpow]
  push_cast at hlow hhigh
  apply Int.bmod_eq_of_le <;> push_cast <;> omega

end ProjectSensor.Library.WrappedTime
