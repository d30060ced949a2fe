import Mathlib.Data.Nat.Notation
import Mathlib.Data.Nat.Basic

/-!
# Write-behind copies

A block of cells changes at any time; its copy in a store is brought up to date later, piece by
piece from the first cell on, while the block may change again.  `Follows` says that every cell is
up to date, or that a whole copy is still to start, or that the copy under way has yet to come to
the cell.  It survives any change that asks for a copy (`change`), the start of a copy (`start`),
each piece (`copy`) and the end (`finish`); with nothing to do, the store is the block.
-/

namespace ProjectSensor.Library.WriteBehind

variable {α : Type*} {size : ℕ} {block store : ℕ → α} {waiting : Prop} {copied : Option ℕ}

/-- `copied` is the number of cells the copy under way has done. -/
def Follows (size : ℕ) (block store : ℕ → α) (waiting : Prop) (copied : Option ℕ) : Prop :=
  ∀ j < size, store j = block j ∨ waiting ∨ ∃ pos, copied = some pos ∧ pos ≤ j

theorem follows_of_eq (heq : ∀ j < size, store j = block j) :
    Follows size block store waiting copied := fun j hj ↦ .inl (heq j hj)

/-- A change of the block that leaves a copy waiting. -/
theorem change (hwaiting : waiting) : Follows size block store waiting copied :=
  fun _ _ ↦ .inr (.inl hwaiting)

/-- A copy starts from the first cell. -/
theorem start : Follows size block store waiting (some 0) :=
  fun j _ ↦ .inr (.inr ⟨0, rfl, Nat.zero_le j⟩)

/-- A piece of the copy is done. -/
theorem Follows.copy {store' : ℕ → α} {pos len : ℕ}
    (h : Follows size block store waiting (some pos))
    (hpiece : ∀ j, pos ≤ j → j < pos + len → store' j = block j)
    (hother : ∀ j, j < pos ∨ pos + len ≤ j → store' j = store j) :
    Follows size block store' waiting (some (pos + len)) := by
  intro j hj
  rcases Nat.lt_or_ge j pos with hbefore | hfrom
  · rw [hother j (.inl hbefore)]
    refine (h j hj).imp_right (Or.imp_right ?_)
    rintro ⟨_, heq, hle⟩
    obtain rfl := Option.some.inj heq
    exact absurd hle (Nat.not_le.mpr hbefore)
  · rcases Nat.lt_or_ge j (pos + len) with hin | hafter
    · exact .inl (hpiece j hfrom hin)
    · exact .inr (.inr ⟨_, rfl, hafter⟩)

/-- The copy under way is through. -/
theorem Follows.finish {pos : ℕ} (h : Follows size block store waiting (some pos))
    (hdone : size ≤ pos) : Follows size block store waiting none := by
  intro j hj
  refine (h j hj).imp_right (Or.imp_right ?_)
  rintro ⟨_, heq, hle⟩
  obtain rfl := Option.some.inj heq
  exact absurd (Nat.le_trans hdone hle) (Nat.not_le.mpr hj)

/-- With nothing waiting and nothing under way the store is up to date. -/
theorem Follows.eq (h : Follows size block store waiting none) (hidle : ¬ waiting) {j : ℕ}
    (hj : j < size) : store j = block j := by
  rcases h j hj with heq | hwaiting | ⟨pos, hnone, _⟩
  · exact heq
  · exact absurd hwaiting hidle
  · exact absurd hnone (Option.some_ne_none pos).symm

end ProjectSensor.Library.WriteBehind
