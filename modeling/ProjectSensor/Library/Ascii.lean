import Mathlib.Tactic.Ring
import ProjectSensor.Library.ByteMemory
import ProjectSensor.Library.Numeral

/-!
# ASCII text

Characters are bytes, as in `ctype.h` with the locale "C".  A row of digits has a value; a number
below a power of ten is printed with that many digits, zeros in front.
-/

namespace ProjectSensor.Library.Ascii

open ProjectSensor.Library.ByteMemory ProjectSensor.Library.Numeral

def ascii (c : Char) : Byte := BitVec.ofNat 8 c.toNat

def text (s : List Char) : List Byte := s.map ascii

/-- `isspace`. -/
def isspace (c : Byte) : Bool := c = 0x20 || (0x09 ≤ c && c ≤ 0x0d)

/-- `isdigit`. -/
def isdigit (c : Byte) : Bool := 0x30 ≤ c && c ≤ 0x39

/-- `isalpha`. -/
def isalpha (c : Byte) : Bool := (0x41 ≤ c && c ≤ 0x5a) || (0x61 ≤ c && c ≤ 0x7a)

/-- `tolower`. -/
def tolower (c : Byte) : Byte := if 0x41 ≤ c ∧ c ≤ 0x5a then c + 0x20 else c

/-- The digit a character stands for. -/
def digitValue (c : Byte) : ℕ := c.toNat - 0x30

/-- The character of a digit. -/
def digitChar (d : ℕ) : Byte := BitVec.ofNat 8 (0x30 + d)

/-- The text does not begin with a character of the kind. -/
def StartsNot (kind : Byte → Bool) (s : List Byte) : Prop := ∀ c ∈ s.head?, kind c = false

instance (kind : Byte → Bool) (s : List Byte) : Decidable (StartsNot kind s) :=
  inferInstanceAs (Decidable (∀ c ∈ s.head?, kind c = false))

theorem digit_facts : ∀ d < 10, isdigit (digitChar d) = true ∧ digitValue (digitChar d) = d ∧
    isspace (digitChar d) = false ∧ isalpha (digitChar d) = false ∧ digitChar d ≠ 0 := by decide

theorem isdigit_digitChar {d : ℕ} (hd : d < 10) : isdigit (digitChar d) = true :=
  (digit_facts d hd).1

theorem digitValue_digitChar {d : ℕ} (hd : d < 10) : digitValue (digitChar d) = d :=
  (digit_facts d hd).2.1

theorem startsNot_nil (kind : Byte → Bool) : StartsNot kind [] := fun c hc ↦ by simp at hc

@[simp]
theorem startsNot_cons (kind : Byte → Bool) (c : Byte) (s : List Byte) :
    StartsNot kind (c :: s) ↔ kind c = false := by
  simp [StartsNot]

theorem StartsNot.append {kind : Byte → Bool} {s : List Byte} (hs : StartsNot kind s) (hne : s ≠ [])
    (s' : List Byte) : StartsNot kind (s ++ s') := by
  cases s with
  | nil => exact absurd rfl hne
  | cons c s => exact (startsNot_cons kind c (s ++ s')).mpr ((startsNot_cons kind c s).mp hs)

/-- Nothing is dropped from a text that does not begin with the kind. -/
theorem dropWhile_of_startsNot {kind : Byte → Bool} {s : List Byte} (hs : StartsNot kind s) :
    s.dropWhile kind = s := by
  cases s with
  | nil => rfl
  | cons c s => rw [List.dropWhile_cons, (startsNot_cons kind c s).mp hs, if_neg Bool.false_ne_true]

/-! ### Rows of digits -/

/-- The number that a row of digits stands for, behind the digits of `sum`. -/
def valueFrom (sum : ℕ) (s : List Byte) : ℕ := s.foldl (fun sum c ↦ sum * 10 + digitValue c) sum

@[simp]
theorem valueFrom_nil (sum : ℕ) : valueFrom sum [] = sum := rfl

@[simp]
theorem valueFrom_cons (sum : ℕ) (c : Byte) (s : List Byte) :
    valueFrom sum (c :: s) = valueFrom (sum * 10 + digitValue c) s := by
  rw [valueFrom, valueFrom, List.foldl_cons]

theorem valueFrom_append (sum : ℕ) (s s' : List Byte) :
    valueFrom sum (s ++ s') = valueFrom (valueFrom sum s) s' :=
  List.foldl_append ..

/-- More digits never make the number smaller. -/
theorem mul_pow_le_valueFrom (sum : ℕ) (s : List Byte) : sum * 10 ^ s.length ≤ valueFrom sum s := by
  induction s generalizing sum with
  | nil => rw [List.length_nil, pow_zero, mul_one, valueFrom_nil]
  | cons c s ih =>
      calc sum * 10 ^ (c :: s).length = sum * 10 * 10 ^ s.length := by
            rw [List.length_cons, pow_succ]
            ring
        _ ≤ (sum * 10 + digitValue c) * 10 ^ s.length :=
            Nat.mul_le_mul_right _ (Nat.le_add_right ..)
        _ ≤ valueFrom sum (c :: s) := ih _

/-- A number with `width` digits, zeros in front. -/
def padded : ℕ → ℕ → List Byte
  | 0, _ => []
  | width + 1, n => padded width (n / 10) ++ [digitChar (n % 10)]

@[simp]
theorem length_padded (width n : ℕ) : (padded width n).length = width := by
  induction width generalizing n with
  | zero => rfl
  | succ width ih => rw [padded, List.length_append, ih, List.length_singleton]

theorem isdigit_of_mem_padded {width n : ℕ} {c : Byte} (hc : c ∈ padded width n) :
    isdigit c = true := by
  induction width generalizing n with
  | zero => exact absurd hc List.not_mem_nil
  | succ width ih =>
      rw [padded, List.mem_append, List.mem_singleton] at hc
      rcases hc with hc | rfl
      · exact ih hc
      · exact isdigit_digitChar (Nat.mod_lt _ (by decide))

/-- Digits are no blanks. -/
theorem startsNot_isspace_padded (width n : ℕ) (s : List Byte) :
    StartsNot isspace (padded (width + 1) n ++ s) := by
  have hspace : ∀ c : Byte, isdigit c = true → isspace c = false := by decide
  have hne : padded (width + 1) n ≠ [] := by
    rw [padded]
    exact List.append_ne_nil_of_right_ne_nil _ (List.cons_ne_nil _ _)
  refine StartsNot.append (fun c hc ↦ ?_) hne s
  exact hspace c (isdigit_of_mem_padded (List.mem_of_mem_head? hc))

/-- The digits read back are the number. -/
theorem valueFrom_padded {width n : ℕ} (hn : n < 10 ^ width) :
    valueFrom 0 (padded width n) = n := by
  induction width generalizing n with
  | zero => exact (Nat.lt_one_iff.mp hn).symm
  | succ width ih =>
      have hrest : n / 10 < 10 ^ width := div_lt_pow hn
      rw [padded, valueFrom_append, ih hrest, valueFrom_cons, valueFrom_nil,
        digitValue_digitChar (Nat.mod_lt _ (by decide))]
      omega

end ProjectSensor.Library.Ascii
