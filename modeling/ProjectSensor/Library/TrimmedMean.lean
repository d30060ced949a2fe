import Mathlib.Algebra.Order.BigOperators.Group.List
import Mathlib.Algebra.Order.Group.Defs
import Mathlib.Algebra.Order.Group.Unbundled.Basic

/-!
# Trimmed sums

A value and those behind it, less one largest and one smallest of them.  The sum of what is left
is at least as many times the smallest value.
-/

namespace ProjectSensor.Library.TrimmedMean

variable {K : Type*} [LinearOrder K]

def largest (value : K) (values : List K) : K := values.foldl max value

def smallest (value : K) (values : List K) : K := values.foldl min value

theorem largest_mem (value : K) (values : List K) : largest value values ∈ value :: values := by
  induction values generalizing value with
  | nil => exact List.mem_cons_self
  | cons next values ih =>
      have hmem := ih (max value next)
      change largest (max value next) values ∈ value :: next :: values
      rcases List.mem_cons.mp hmem with heq | htail
      · rw [heq]
        rcases max_choice value next with hleft | hright
        · rw [hleft]
          exact List.mem_cons_self
        · rw [hright]
          exact List.mem_cons_of_mem _ List.mem_cons_self
      · exact List.mem_cons_of_mem _ (List.mem_cons_of_mem _ htail)

theorem le_largest {value x : K} {values : List K} (hx : x ∈ value :: values) :
    x ≤ largest value values := by
  induction values generalizing value x with
  | nil => exact (List.mem_singleton.mp hx).le
  | cons next values ih =>
      change x ≤ largest (max value next) values
      rcases List.mem_cons.mp hx with rfl | hrest
      · exact (le_max_left x next).trans (ih List.mem_cons_self)
      rcases List.mem_cons.mp hrest with rfl | htail
      · exact (le_max_right value x).trans (ih List.mem_cons_self)
      · exact ih (List.mem_cons_of_mem _ htail)

/-- In the opposite order the smallest value is the largest. -/
theorem toDual_smallest (value : K) (values : List K) :
    OrderDual.toDual (smallest value values) =
      largest (OrderDual.toDual value) (values.map OrderDual.toDual) := by
  induction values generalizing value with
  | nil => rfl
  | cons next values ih => exact ih (min value next)

theorem smallest_mem (value : K) (values : List K) : smallest value values ∈ value :: values := by
  have hmem := largest_mem (OrderDual.toDual value) (values.map OrderDual.toDual)
  rw [← toDual_smallest, ← List.map_cons] at hmem
  obtain ⟨x, hx, heq⟩ := List.mem_map.mp hmem
  rwa [OrderDual.toDual_inj.mp heq] at hx

theorem smallest_le {value x : K} {values : List K} (hx : x ∈ value :: values) :
    smallest value values ≤ x := by
  have hle := le_largest (List.mem_map_of_mem (f := OrderDual.toDual) hx)
  rw [← toDual_smallest] at hle
  exact hle

section Sum

variable [AddCommGroup K] [IsOrderedAddMonoid K]

/-- The sum of all values but one largest and one smallest. -/
def trimmedSum (value : K) (values : List K) : K :=
  (value :: values).sum - largest value values - smallest value values

/-- Without one of the values, the others are still bounded by any bound of all. -/
theorem le_sum_sub {x bound : K} {values : List K} (hx : x ∈ values)
    (hbound : ∀ y ∈ values, bound ≤ y) : (values.length - 1) • bound ≤ values.sum - x := by
  have herase : (values.erase x).sum = values.sum - x := by
    rw [← List.sum_erase hx, add_sub_cancel_left]
  rw [← herase, ← List.length_erase_of_mem hx]
  apply List.card_nsmul_le_sum
  intro y hy
  exact hbound y (List.mem_of_mem_erase hy)

theorem le_trimmedSum (value next : K) (values : List K) :
    values.length • smallest value (next :: values) ≤ trimmedSum value (next :: values) := by
  have hbound : ∀ y ∈ value :: next :: values, smallest value (next :: values) ≤ y :=
    fun y hy ↦ smallest_le hy
  have hall := le_sum_sub (largest_mem value (next :: values)) hbound
  rw [List.length_cons, List.length_cons, Nat.add_sub_cancel, succ_nsmul] at hall
  rw [trimmedSum]
  exact le_sub_iff_add_le.mpr hall

end Sum

end ProjectSensor.Library.TrimmedMean
