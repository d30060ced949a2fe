import Mathlib.LinearAlgebra.AffineSpace.AffineMap
import Mathlib.Order.Monotone.Union
import Mathlib.Tactic.FieldSimp
import Mathlib.Tactic.FunProp
import Mathlib.Topology.Algebra.Order.Field
import Mathlib.Topology.Order.OrderClosed

/-!
# Piecewise linear curves

A curve through given points is made of straight pieces that are glued where they meet.  Gluing two
functions that agree at the seam keeps them continuous and strictly increasing.
-/

namespace ProjectSensor.Library.PiecewiseLinear

variable {K : Type*}

/-! ### Straight pieces -/

section Line

variable [Field K]

/-- The straight line through two points, at any `x` between or outside them. -/
def interpolate (x₀ y₀ x₁ y₁ x : K) : K := AffineMap.lineMap y₀ y₁ ((x - x₀) / (x₁ - x₀))

theorem interpolate_eq (x₀ y₀ x₁ y₁ x : K) :
    interpolate x₀ y₀ x₁ y₁ x = y₀ + (x - x₀) * (y₁ - y₀) / (x₁ - x₀) := by
  rw [interpolate, AffineMap.lineMap_apply, vsub_eq_sub, vadd_eq_add, smul_eq_mul]
  ring

@[simp]
theorem interpolate_left (x₀ y₀ x₁ y₁ : K) : interpolate x₀ y₀ x₁ y₁ x₀ = y₀ := by
  simp [interpolate]

theorem interpolate_right {x₀ x₁ : K} (y₀ y₁ : K) (hne : x₀ ≠ x₁) :
    interpolate x₀ y₀ x₁ y₁ x₁ = y₁ := by
  rw [interpolate, div_self (sub_ne_zero.mpr hne.symm), AffineMap.lineMap_apply_one]

theorem strictMono_interpolate [LinearOrder K] [IsStrictOrderedRing K] {x₀ y₀ x₁ y₁ : K}
    (hx : x₀ < x₁) (hy : y₀ < y₁) : StrictMono (interpolate x₀ y₀ x₁ y₁) := by
  intro x x' hlt
  have hstep : (x - x₀) * (y₁ - y₀) < (x' - x₀) * (y₁ - y₀) :=
    mul_lt_mul_of_pos_right (sub_lt_sub_right hlt x₀) (sub_pos.mpr hy)
  have hquot := div_lt_div_of_pos_right hstep (sub_pos.mpr hx)
  simpa only [interpolate_eq, add_lt_add_iff_left] using hquot

theorem continuous_interpolate [LinearOrder K] [IsStrictOrderedRing K] [TopologicalSpace K]
    [OrderTopology K] (x₀ y₀ x₁ y₁ : K) : Continuous (interpolate x₀ y₀ x₁ y₁) := by
  have hline : interpolate x₀ y₀ x₁ y₁ = fun x ↦ y₀ + (x - x₀) * (y₁ - y₀) / (x₁ - x₀) := by
    funext x
    exact interpolate_eq x₀ y₀ x₁ y₁ x
  rw [hline]
  fun_prop

end Line

/-! ### Seams -/

section Seam

variable [LinearOrder K] {seam : K} {f g : K → K}

/-- `f` below the seam and `g` from it on. -/
def glue (seam : K) (f g : K → K) (x : K) : K := if x < seam then f x else g x

theorem glue_of_lt {x : K} (hlt : x < seam) : glue seam f g x = f x := if_pos hlt

theorem glue_of_le {x : K} (hle : seam ≤ x) : glue seam f g x = g x := if_neg (not_lt.mpr hle)

theorem strictMono_glue (hagree : f seam = g seam) (hf : StrictMono f) (hg : StrictMono g) :
    StrictMono (glue seam f g) := by
  have hbelow : ∀ x ≤ seam, glue seam f g x = f x := by
    intro x hx
    rcases hx.lt_or_eq with hlt | rfl
    · exact glue_of_lt hlt
    · rw [glue_of_le le_rfl, hagree]
  apply StrictMonoOn.Iic_union_Ici (a := seam)
  · intro x hx y hy hxy
    rw [hbelow x hx, hbelow y hy]
    exact hf hxy
  · intro x hx y hy hxy
    rw [glue_of_le hx, glue_of_le hy]
    exact hg hxy

theorem continuous_glue [TopologicalSpace K] [OrderTopology K] (hagree : f seam = g seam)
    (hf : Continuous f) (hg : Continuous g) : Continuous (glue seam f g) := by
  have hswap : glue seam f g = fun x ↦ if seam ≤ x then g x else f x := by
    funext x
    rw [glue, ← ite_not]
    exact if_congr not_lt rfl rfl
  rw [hswap]
  apply Continuous.if_le hg hf continuous_const continuous_id
  intro x hx
  subst hx
  exact hagree.symm

end Seam

end ProjectSensor.Library.PiecewiseLinear
