import Mathlib.Data.Int.Order.Basic
import Mathlib.Order.Monotone.Basic

/-!
# A timetable kept by a countdown

Something is called again and again: it waits for a time that counts down, is called at any moment
after the time is up, and when the call returns the next time is set.  It is late while the time is
up and it has not been called, and while it runs.  If the times are those between the entries of a
timetable, the calls keep to the timetable but for the ticks it was late: `Waiting` and `Running`
say so of the calls made, the ticks elapsed and those it was late, and are kept by each event.
-/

namespace ProjectSensor.Library.Timetable

variable {due : ℕ → ℕ} {calls elapsed late : ℕ} {left : ℤ}

/-- Between two calls, with the ticks that are left until the next one. -/
structure Waiting (due : ℕ → ℕ) (calls : ℕ) (left : ℤ) (elapsed late : ℕ) : Prop where
  next : (due calls + late : ℤ) = elapsed + max left 0
  past : ∀ n < calls, due n + late ≤ elapsed

/-- The call with the number `calls` runs. -/
structure Running (due : ℕ → ℕ) (calls elapsed late : ℕ) : Prop where
  now : due calls + late = elapsed

namespace Waiting

theorem tick (h : Waiting due calls left elapsed late) :
    Waiting due calls (left - 1) (elapsed + 1) (if left ≤ 0 then late + 1 else late) := by
  obtain ⟨hnext, hpast⟩ := h
  by_cases hup : left ≤ 0
  · rw [if_pos hup]
    refine ⟨?_, fun n hn ↦ ?_⟩
    · rw [max_eq_right hup] at hnext
      rw [max_eq_right (by omega)]
      push_cast
      omega
    · have hbefore := hpast n hn
      omega
  · rw [if_neg hup]
    refine ⟨?_, fun n hn ↦ Nat.le_succ_of_le (hpast n hn)⟩
    rw [max_eq_left (by omega)] at hnext ⊢
    push_cast
    omega

theorem call (h : Waiting due calls left elapsed late) (hup : left ≤ 0) :
    Running due calls elapsed late where
  now := by
    have hnext := h.next
    rw [max_eq_right hup] at hnext
    omega

/-- Whatever was due before the present tick has been called. -/
theorem lt_of_due (h : Waiting due calls left elapsed late) (hmono : Monotone due) {n : ℕ}
    (hn : due n + late < elapsed) : n < calls := by
  by_contra hnot
  have hle := hmono (Nat.not_lt.mp hnot)
  have hnext := h.next
  have hzero := le_max_right left 0
  omega

end Waiting

namespace Running

theorem tick (h : Running due calls elapsed late) : Running due calls (elapsed + 1) (late + 1) :=
  ⟨congrArg Nat.succ h.now⟩

/-- The call returns and sets the time until the next entry. -/
theorem rearm (h : Running due calls elapsed late) (hmono : Monotone due)
    (hleft : due (calls + 1) = due calls + left) :
    Waiting due (calls + 1) left elapsed late where
  next := by
    have hnow := h.now
    have hle : due calls ≤ due (calls + 1) := hmono (Nat.le_succ calls)
    rw [max_eq_left (by omega)]
    omega
  past n hn := by
    have hle := hmono (Nat.lt_succ_iff.mp hn)
    have hnow := h.now
    omega

/-- Only what was due has been called. -/
theorem due_of_lt (h : Running due calls elapsed late) (hmono : Monotone due) {n : ℕ}
    (hn : n < calls + 1) : due n + late ≤ elapsed := by
  have hle := hmono (Nat.lt_succ_iff.mp hn)
  have hnow := h.now
  omega

/-- Whatever was due before the present tick has been called. -/
theorem lt_of_due (h : Running due calls elapsed late) (hmono : Monotone due) {n : ℕ}
    (hn : due n + late < elapsed) : n < calls + 1 := by
  by_contra hnot
  have hle := hmono (Nat.le_of_succ_le (Nat.not_lt.mp hnot))
  have hnow := h.now
  omega

end Running

end ProjectSensor.Library.Timetable
