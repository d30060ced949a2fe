import Mathlib.Data.Nat.Digits.Lemmas

/-!
# Numerals

A number written in a base with one symbol for each digit, the leading digit first, 0 as one digit.
The symbols are any that tell their digits, and reading a numeral back gives the number.
-/

namespace ProjectSensor.Library.Numeral

variable {α : Type*} (symbol : ℕ → α) (digit : α → ℕ) (base n : ℕ)

/-- The digits, the last one first; 0 has one digit. -/
def digitList : List ℕ := if n = 0 then [0] else Nat.digits base n

/-- The symbols of the digits, the leading one first. -/
def numeral : List α := ((digitList base n).map symbol).reverse

/-- The number that a row of symbols stands for. -/
def value (text : List α) : ℕ := text.foldl (fun sum a ↦ sum * base + digit a) 0

variable {symbol digit base n}

theorem digitList_of_div_eq_zero (hbase : 1 < base) (hdiv : n / base = 0) :
    digitList base n = [n % base] := by
  unfold digitList
  split
  case isTrue hzero => rw [hzero, Nat.zero_mod]
  case isFalse hne => rw [Nat.digits_def' hbase (Nat.pos_of_ne_zero hne), hdiv, Nat.digits_zero]

/-- The last digit, and the digits of the rest. -/
theorem digitList_of_div_ne_zero (hbase : 1 < base) (hdiv : n / base ≠ 0) :
    digitList base n = n % base :: digitList base (n / base) := by
  have hne : n ≠ 0 := fun hzero ↦ hdiv (by rw [hzero, Nat.zero_div])
  rw [digitList, if_neg hne, digitList, if_neg hdiv, Nat.digits_def' hbase (Nat.pos_of_ne_zero hne)]

theorem digitList_lt (hbase : 1 < base) : ∀ d ∈ digitList base n, d < base := by
  intro d hd
  unfold digitList at hd
  split at hd
  · rw [List.mem_singleton.mp hd]
    omega
  · exact Nat.digits_lt_base hbase hd

theorem length_digitList_pos (hbase : 1 < base) : 0 < (digitList base n).length := by
  by_cases hdiv : n / base = 0
  · rw [digitList_of_div_eq_zero hbase hdiv, List.length_singleton]
    exact Nat.zero_lt_one
  · rw [digitList_of_div_ne_zero hbase hdiv, List.length_cons]
    exact Nat.succ_pos _

@[simp]
theorem length_numeral : (numeral symbol base n).length = (digitList base n).length := by
  rw [numeral, List.length_reverse, List.length_map]

theorem ofDigits_digitList : Nat.ofDigits base (digitList base n) = n := by
  unfold digitList
  split
  case isTrue hzero => rw [Nat.ofDigits_singleton, hzero]
  case isFalse => exact Nat.ofDigits_digits base n

/-- Reading the symbols of digits gives the number of the digits. -/
theorem value_map_reverse (digits : List ℕ) (hsymbol : ∀ d ∈ digits, digit (symbol d) = d) :
    value digit base (digits.map symbol).reverse = Nat.ofDigits base digits := by
  induction digits with
  | nil => rfl
  | cons d digits ih =>
      have hrest := ih fun d' hd' ↦ hsymbol d' (List.mem_cons_of_mem _ hd')
      unfold value at hrest ⊢
      rw [List.map_cons, List.reverse_cons, List.foldl_append, hrest, List.foldl_cons,
        List.foldl_nil, hsymbol d List.mem_cons_self, Nat.ofDigits_cons]
      ring

/-- The numeral read back is the number. -/
theorem value_numeral (hbase : 1 < base) (hsymbol : ∀ d < base, digit (symbol d) = d) :
    value digit base (numeral symbol base n) = n := by
  have hdigits : ∀ d ∈ digitList base n, digit (symbol d) = d :=
    fun d hd ↦ hsymbol d (digitList_lt hbase d hd)
  rw [numeral, value_map_reverse _ hdigits, ofDigits_digitList]

/-- A number below a power of the base has no more digits than the power. -/
theorem div_lt_pow {fuel : ℕ} (hlt : n < base ^ (fuel + 1)) : n / base < base ^ fuel := by
  rw [pow_succ] at hlt
  exact Nat.div_lt_of_lt_mul (by rwa [mul_comm] at hlt)

end ProjectSensor.Library.Numeral
