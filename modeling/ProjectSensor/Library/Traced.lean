import Mathlib.Data.Int.Notation

/-!
# Computations that record what they read

A traced computation is its value together with the indices it has read, in order.  Whether a
parser stays inside its input is then a statement about the trace.
-/

namespace ProjectSensor.Library

structure Traced (α : Type) where
  value : α
  reads : List ℤ

namespace Traced

variable {α β : Type}

instance : Monad Traced where
  pure value := ⟨value, []⟩
  bind x f := ⟨(f x.value).value, x.reads ++ (f x.value).reads⟩

/-- One read of `source` at `index`. -/
def read (source : ℤ → α) (index : ℤ) : Traced α := ⟨source index, [index]⟩

@[simp]
theorem value_pure (a : α) : (pure a : Traced α).value = a := rfl

@[simp]
theorem reads_pure (a : α) : (pure a : Traced α).reads = [] := rfl

@[simp]
theorem value_bind (x : Traced α) (f : α → Traced β) : (x >>= f).value = (f x.value).value := rfl

@[simp]
theorem reads_bind (x : Traced α) (f : α → Traced β) :
    (x >>= f).reads = x.reads ++ (f x.value).reads := rfl

@[simp]
theorem value_read (source : ℤ → α) (index : ℤ) : (read source index).value = source index := rfl

@[simp]
theorem reads_read (source : ℤ → α) (index : ℤ) : (read source index).reads = [index] := rfl

end Traced

end ProjectSensor.Library
