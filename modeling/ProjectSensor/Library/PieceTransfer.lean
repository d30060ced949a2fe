import Mathlib.Algebra.BigOperators.Group.List.Basic
import Mathlib.Algebra.GroupWithZero.Nat
import Mathlib.Data.List.Basic

/-!
# Transfers in pieces

Data goes over a channel in pieces; each piece is completed or breaks off after some units, and the
attempt ends with the first one that breaks off.  The outcomes of the pieces come in a list; those
that are not listed are completed.  An attempt that has not begun its last piece is repeated from
the start.  What is left open is the type of the outcomes; `failure` tells how far a piece came.
-/

namespace ProjectSensor.Library.PieceTransfer

variable {Outcome : Type*} (failure : Outcome → Option ℕ)

/-- What an attempt comes to: the units of the pieces completed, the units moved, the units of the
pieces begun, and the outcomes it has left. -/
structure Attempt (Outcome : Type*) where
  completed : ℕ
  moved : ℕ
  begun : ℕ
  rest : List Outcome

/-- One attempt at the pieces. -/
def attempt : List ℕ → List Outcome → Attempt Outcome
  | [], outcomes => ⟨0, 0, 0, outcomes⟩
  | piece :: pieces, outcomes =>
      match outcomes.head?.bind failure with
      | none =>
          let later := attempt pieces outcomes.tail
          ⟨piece + later.completed, piece + later.moved, piece + later.begun, later.rest⟩
      | some units => ⟨0, min units piece, piece, outcomes.tail⟩

/-- The first `count` outcomes are completed pieces. -/
def Completes (count : ℕ) (outcomes : List Outcome) : Prop :=
  ∀ outcome ∈ outcomes.take count, failure outcome = none

instance (count : ℕ) (outcomes : List Outcome) : Decidable (Completes failure count outcomes) :=
  inferInstanceAs (Decidable (∀ _ ∈ _, _))

/-- Up to `again` more attempts, while the last piece has not been begun; a unit is moved when some
attempt has moved it. -/
def retried (pieces : List ℕ) : ℕ → List Outcome → Attempt Outcome
  | 0, outcomes => attempt failure pieces outcomes
  | again + 1, outcomes =>
      let first := attempt failure pieces outcomes
      if first.begun = pieces.sum then first
      else
        let later := retried pieces again first.rest
        { later with moved := max first.moved later.moved }

/-- The attempts that are made, each with the outcomes that lie before it. -/
def attempts (pieces : List ℕ) : ℕ → List Outcome → List (List Outcome)
  | 0, outcomes => [outcomes]
  | again + 1, outcomes =>
      if Completes failure (pieces.length - 1) outcomes then [outcomes]
      else outcomes :: attempts pieces again (attempt failure pieces outcomes).rest

variable {failure}

@[simp]
theorem completes_zero (outcomes : List Outcome) : Completes failure 0 outcomes := by
  intro outcome hmem
  exact absurd hmem (by simp)

theorem completes_succ {count : ℕ} {outcomes : List Outcome} :
    Completes failure (count + 1) outcomes ↔
      outcomes.head?.bind failure = none ∧ Completes failure count outcomes.tail := by
  cases outcomes with
  | nil => simp [Completes]
  | cons outcome outcomes => simp [Completes]

theorem Completes.mono {few many : ℕ} {outcomes : List Outcome}
    (h : Completes failure many outcomes) (hle : few ≤ many) :
    Completes failure few outcomes := by
  intro outcome hmem
  exact h outcome (List.take_subset_take_left outcomes hle hmem)

/-- An attempt whose pieces are all completed moves everything. -/
theorem attempt_of_completes {pieces : List ℕ} {outcomes : List Outcome}
    (h : Completes failure pieces.length outcomes) :
    attempt failure pieces outcomes =
      ⟨pieces.sum, pieces.sum, pieces.sum, outcomes.drop pieces.length⟩ := by
  induction pieces generalizing outcomes with
  | nil => simp [attempt]
  | cons piece pieces ih =>
      obtain ⟨hfirst, hrest⟩ := completes_succ.mp h
      rw [attempt, hfirst]
      simp only [ih hrest, List.sum_cons, List.length_cons, List.drop_tail]

/-- The pieces begun are the pieces completed exactly when none breaks off. -/
theorem completed_eq_begun_iff {pieces : List ℕ} (hpos : ∀ piece ∈ pieces, 0 < piece)
    (outcomes : List Outcome) :
    (attempt failure pieces outcomes).completed = (attempt failure pieces outcomes).begun ↔
      Completes failure pieces.length outcomes := by
  induction pieces generalizing outcomes with
  | nil => simp [attempt]
  | cons piece pieces ih =>
      have hpiece := hpos piece List.mem_cons_self
      rw [List.length_cons, completes_succ, attempt]
      cases hfailure : outcomes.head?.bind failure with
      | none =>
          simp only [true_and, Nat.add_left_cancel_iff]
          exact ih (fun piece hmem ↦ hpos piece (List.mem_cons_of_mem _ hmem)) outcomes.tail
      | some units =>
          simp only [reduceCtorEq, false_and, iff_false]
          omega

variable (failure) in
/-- All pieces are begun exactly when all but the last are completed. -/
theorem begun_eq_sum_iff {pieces : List ℕ} (hpos : ∀ piece ∈ pieces, 0 < piece)
    (outcomes : List Outcome) :
    (attempt failure pieces outcomes).begun = pieces.sum ↔
      Completes failure (pieces.length - 1) outcomes := by
  induction pieces generalizing outcomes with
  | nil => simp [attempt]
  | cons piece pieces ih =>
      have hlater : ∀ piece ∈ pieces, 0 < piece :=
        fun piece hmem ↦ hpos piece (List.mem_cons_of_mem _ hmem)
      rw [List.length_cons, Nat.add_sub_cancel, List.sum_cons, attempt]
      cases pieces with
      | nil =>
          cases outcomes.head?.bind failure with
          | none => simp [attempt]
          | some units => simp
      | cons second pieces =>
          rw [List.length_cons, completes_succ]
          cases outcomes.head?.bind failure with
          | none =>
              simp only [true_and, Nat.add_left_cancel_iff]
              exact ih hlater outcomes.tail
          | some units =>
              have hsecond := hlater second List.mem_cons_self
              simp only [reduceCtorEq, false_and, iff_false, List.sum_cons]
              omega

section Retry

variable {pieces : List ℕ}

/-- When the first attempt completes everything, there is no other. -/
theorem retried_of_completes {outcomes : List Outcome} (again : ℕ)
    (h : Completes failure pieces.length outcomes) :
    retried failure pieces again outcomes = attempt failure pieces outcomes := by
  cases again with
  | zero => rfl
  | succ again =>
      have hbegun : (attempt failure pieces outcomes).begun = pieces.sum := by
        rw [attempt_of_completes h]
      rw [retried, if_pos hbegun]

/-- An attempt moves no more than the pieces it has begun. -/
theorem attempt_moved_le (failure : Outcome → Option ℕ) (pieces : List ℕ)
    (outcomes : List Outcome) :
    (attempt failure pieces outcomes).moved ≤ (attempt failure pieces outcomes).begun ∧
      (attempt failure pieces outcomes).begun ≤ pieces.sum := by
  induction pieces generalizing outcomes with
  | nil => exact ⟨Nat.le_refl _, Nat.le_refl _⟩
  | cons piece pieces ih =>
      have hlater := ih outcomes.tail
      rw [attempt, List.sum_cons]
      cases outcomes.head?.bind failure with
      | none => exact ⟨Nat.add_le_add_left hlater.1 piece, Nat.add_le_add_left hlater.2 piece⟩
      | some units => exact ⟨Nat.min_le_right units piece, Nat.le_add_right piece _⟩

/-- What has moved everything has begun the last piece. -/
theorem retried_begun_of_moved (again : ℕ) {outcomes : List Outcome}
    (hmoved : (retried failure pieces again outcomes).moved = pieces.sum) :
    (retried failure pieces again outcomes).begun = pieces.sum := by
  induction again generalizing outcomes with
  | zero =>
      have hle := attempt_moved_le failure pieces outcomes
      rw [retried] at hmoved ⊢
      omega
  | succ again ih =>
      have hle := attempt_moved_le failure pieces outcomes
      rw [retried] at hmoved ⊢
      by_cases hfirst : (attempt failure pieces outcomes).begun = pieces.sum
      · rw [if_pos hfirst]
        exact hfirst
      · rw [if_neg hfirst] at hmoved ⊢
        have hsome : max (attempt failure pieces outcomes).moved
            (retried failure pieces again (attempt failure pieces outcomes).rest).moved =
              pieces.sum := hmoved
        apply ih
        omega

/-- The last piece is begun in the end exactly when some attempt completes all pieces before it. -/
theorem retried_begun_iff (hpos : ∀ piece ∈ pieces, 0 < piece) (again : ℕ)
    (outcomes : List Outcome) :
    (retried failure pieces again outcomes).begun = pieces.sum ↔
      ∃ made ∈ attempts failure pieces again outcomes,
        Completes failure (pieces.length - 1) made := by
  induction again generalizing outcomes with
  | zero => simp [retried, attempts, begun_eq_sum_iff failure hpos]
  | succ again ih =>
      have hbegun := begun_eq_sum_iff failure hpos outcomes
      rw [retried, attempts]
      by_cases hcompletes : Completes failure (pieces.length - 1) outcomes
      · rw [if_pos (hbegun.mpr hcompletes), if_pos hcompletes]
        simp [hbegun]
      · rw [if_neg fun h ↦ hcompletes (hbegun.mp h), if_neg hcompletes]
        simp [ih, hcompletes]

variable (failure) in
/-- That the last piece has been begun tells that some attempt has completed everything, exactly
when no attempt breaks off in the last piece. -/
theorem complete_of_begun_iff (hpos : ∀ piece ∈ pieces, 0 < piece) (again : ℕ)
    (outcomes : List Outcome) :
    ((retried failure pieces again outcomes).begun = pieces.sum →
        ∃ made ∈ attempts failure pieces again outcomes,
          Completes failure pieces.length made) ↔
      ∀ made ∈ attempts failure pieces again outcomes,
        Completes failure (pieces.length - 1) made → Completes failure pieces.length made := by
  rw [retried_begun_iff hpos]
  induction again generalizing outcomes with
  | zero => simp [attempts]
  | succ again ih =>
      rw [attempts]
      by_cases hcompletes : Completes failure (pieces.length - 1) outcomes
      · simp [hcompletes]
      · have hshort : ¬ Completes failure pieces.length outcomes :=
          fun h ↦ hcompletes (h.mono (Nat.sub_le _ _))
        rw [if_neg hcompletes]
        simp only [List.mem_cons, exists_eq_or_imp, forall_eq_or_imp, hcompletes, hshort,
          false_or, false_imp_iff, true_and]
        exact ih _

end Retry

end ProjectSensor.Library.PieceTransfer
