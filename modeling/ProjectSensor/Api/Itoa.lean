import ProjectSensor.Library.ByteMemory
import ProjectSensor.Library.Numeral

/-!
# `utils_itoa`

The digits are written last one first, behind the sign of a negative decimal, and then exchanged in
place.  For a number without a sign the exchange reverses them.  With a sign its two halves disagree
by one place, so that the digits come out in order only where they are all the same.
-/

open ProjectSensor.Library ProjectSensor.Library.ByteMemory ProjectSensor.Library.Numeral

namespace ProjectSensor.Api

/-- `index`. -/
def itoaIndex : List Byte :=
  ['0', '1', '2', '3', '4', '5', '6', '7', '8', '9', 'A', 'B', 'C', 'D', 'E', 'F', 'G', 'H', 'I',
    'J', 'K', 'L', 'M', 'N', 'O', 'P', 'Q', 'R', 'S', 'T', 'U', 'V', 'W', 'X', 'Y', 'Z'].map
    fun c ↦ BitVec.ofNat 8 c.toNat

def digitSymbol (d : ℕ) : Byte := itoaIndex.getD d 0

/-- The character of the minus sign. -/
def minus : Byte := 0x2d

/-- The loop that writes the digits from index `i` on; the number has at most `fuel` of them. -/
def itoaDigits (radix : ℕ) : ℕ → ℕ → Mem → ℕ → Mem × ℕ
  | 0, _, str, i => (str, i)
  | fuel + 1, unum, str, i =>
      let str := store str i (digitSymbol (unum % radix))
      if unum / radix = 0 then (str, i + 1) else itoaDigits radix fuel (unum / radix) str (i + 1)

/-- One turn of the loop that exchanges the digits. -/
def itoaSwap (i k : ℕ) (str : Mem) (j : ℕ) : Mem :=
  let temp := str j
  let str := store str j (str (i - 1 + k - j))
  store str (i - j - 1) temp

/-- `utils_itoa`; 32 bits have at most 32 digits. -/
def utilsItoa (num : BitVec 32) (str : Mem) (radix : ℕ) : Mem :=
  let (unum, str, i) :=
    if radix = 10 ∧ num.toInt < 0 then (-num, store str 0 minus, 1) else (num, str, 0)
  let (str, i) := itoaDigits radix 32 unum.toNat str i
  let str := store str i 0
  let k := if str 0 = minus then 1 else 0
  (List.range' k ((i - k - 1) / 2 + 1 - k)).foldl (itoaSwap i k) str

/-! ### What it should print -/

/-- The digit a symbol stands for. -/
def digitOf (c : Byte) : ℕ := itoaIndex.idxOf c

/-- Decimals have a sign, in the other radices the number is taken modulo `2^32`. -/
def representation (radix : ℕ) (num : BitVec 32) : List Byte :=
  if radix = 10 ∧ num.toInt < 0 then minus :: numeral digitSymbol 10 num.toInt.natAbs
  else numeral digitSymbol radix num.toNat

/-- The number a text is read as. -/
def readBack (radix : ℕ) : List Byte → ℤ
  | [] => 0
  | c :: text => if c = minus then -value digitOf radix text else value digitOf radix (c :: text)

/-- The memory holds the text as a string. -/
def HoldsText (str : Mem) (text : List Byte) : Prop :=
  bytes str 0 text.length = text ∧ str text.length = 0

theorem digitOf_digitSymbol : ∀ d < 36, digitOf (digitSymbol d) = d := by decide

theorem digitSymbol_ne_minus : ∀ d < 36, digitSymbol d ≠ minus := by decide

variable {radix : ℕ} {num : BitVec 32}

theorem digitList_lt_36 (htwo : 2 ≤ radix) (hmax : radix ≤ 36) {n d : ℕ}
    (hd : d ∈ digitList radix n) : d < 36 :=
  (digitList_lt (by omega) d hd).trans_le hmax

/-- A numeral begins with a digit and not with a sign. -/
theorem readBack_numeral (htwo : 2 ≤ radix) (hmax : radix ≤ 36) (n : ℕ) :
    readBack radix (numeral digitSymbol radix n) = n := by
  have hvalue : value digitOf radix (numeral digitSymbol radix n) = n :=
    value_numeral (by omega) fun d hd ↦ digitOf_digitSymbol d (by omega)
  cases htext : numeral digitSymbol radix n with
  | nil =>
      have hlength := congrArg List.length htext
      rw [length_numeral, List.length_nil] at hlength
      exact absurd hlength (length_digitList_pos (by omega)).ne'
  | cons c text =>
      have hmem : c ∈ numeral digitSymbol radix n := htext ▸ List.mem_cons_self
      obtain ⟨d, hd, rfl⟩ := List.mem_map.mp (List.mem_reverse.mp hmem)
      rw [readBack, if_neg (digitSymbol_ne_minus d (digitList_lt_36 htwo hmax hd)), ← htext, hvalue]

/-- The text that should be printed reads back as the number. -/
theorem readBack_representation (htwo : 2 ≤ radix) (hmax : radix ≤ 36) (num : BitVec 32) :
    readBack radix (representation radix num) =
      if radix = 10 then num.toInt else (num.toNat : ℤ) := by
  unfold representation
  by_cases hten : radix = 10
  · subst hten
    by_cases hneg : num.toInt < 0
    · have hvalue : value digitOf 10 (numeral digitSymbol 10 num.toInt.natAbs) =
          num.toInt.natAbs := value_numeral (by omega) fun d hd ↦ digitOf_digitSymbol d (by omega)
      rw [if_pos ⟨rfl, hneg⟩, if_pos rfl, readBack, if_pos rfl, hvalue]
      omega
    · rw [if_neg fun h ↦ hneg h.2, if_pos rfl, readBack_numeral htwo hmax]
      rw [BitVec.toInt_eq_toNat_cond] at hneg ⊢
      split at hneg <;> omega
  · rw [if_neg fun h ↦ hten h.1, if_neg hten, readBack_numeral htwo hmax]

/-! ### The digits -/

/-- The symbols of the digits, the last one first. -/
def digitAt (radix n p : ℕ) : Byte := ((digitList radix n).map digitSymbol).getD p 0

/-- The loop writes the digits from `i` on and leaves the places before. -/
theorem itoaDigits_spec (hradix : 1 < radix) {fuel unum : ℕ} (hfuel : 0 < fuel)
    (hlt : unum < radix ^ fuel) (str : Mem) (i : ℕ) :
    (itoaDigits radix fuel unum str i).2 = i + (digitList radix unum).length ∧
      (∀ p < (digitList radix unum).length,
        (itoaDigits radix fuel unum str i).1 (i + p) = digitAt radix unum p) ∧
      ∀ a < i, (itoaDigits radix fuel unum str i).1 a = str a := by
  induction fuel generalizing unum str i with
  | zero => exact absurd hfuel (lt_irrefl 0)
  | succ fuel ih =>
      rw [itoaDigits]
      by_cases hdiv : unum / radix = 0
      · simp only [hdiv, if_true, digitAt, digitList_of_div_eq_zero hradix hdiv,
          List.length_singleton]
        refine ⟨trivial, fun p hp ↦ ?_, fun a ha ↦ store_of_ne _ _ (by omega)⟩
        rw [Nat.lt_one_iff.mp hp]
        exact store_same ..
      · have hrest := div_lt_pow hlt
        have hmore : 0 < fuel := by
          rcases Nat.eq_zero_or_pos fuel with rfl | hpos
          · exact absurd (Nat.lt_one_iff.mp hrest) hdiv
          · exact hpos
        obtain ⟨hlast, hdigits, hbefore⟩ :=
          ih hmore hrest (store str i (digitSymbol (unum % radix))) (i + 1)
        simp only [hdiv, if_false, digitAt, digitList_of_div_ne_zero hradix hdiv, List.length_cons]
        refine ⟨by omega, fun p hp ↦ ?_, fun a ha ↦ ?_⟩
        · cases p with
          | zero => exact (hbefore i (Nat.lt_succ_self i)).trans (store_same ..)
          | succ p =>
              rw [show i + (p + 1) = i + 1 + p by omega, hdigits p (by omega)]
              rfl
        · rw [hbefore a (by omega), store_of_ne _ _ (by omega)]

/-! ### The exchange -/

theorem foldl_range'_succ {β : Type*} (f : β → ℕ → β) (b : β) (start count : ℕ) :
    (List.range' start (count + 1)).foldl f b =
      f ((List.range' start count).foldl f b) (start + count) := by
  rw [List.range'_1_concat, List.foldl_append, List.foldl_cons, List.foldl_nil]

/-- Without a sign `count` turns exchange `count` places from both ends. -/
theorem foldl_itoaSwap_zero (str : Mem) {len count : ℕ} (hcount : count ≤ (len - 1) / 2 + 1)
    (hlen : 0 < len) (a : ℕ) : (List.range' 0 count).foldl (itoaSwap len 0) str a =
      if a < len ∧ (a < count ∨ len ≤ a + count) then str (len - 1 - a) else str a := by
  induction count generalizing a with
  | zero => rw [if_neg (by omega)]; rfl
  | succ count ih =>
      have hleft := ih (by omega) count
      have hright := ih (by omega) (len - 1 - count)
      rw [if_neg (by omega)] at hleft
      rw [if_neg (by omega)] at hright
      rw [foldl_range'_succ, itoaSwap]
      simp only [store_apply, Nat.zero_add, Nat.add_zero, hleft, hright, ih (by omega) a]
      split_ifs <;> first | omega | (congr 1; omega) | rfl

/-- With a sign in front of `len` digits the halves of each turn disagree by one place. -/
theorem foldl_itoaSwap_one (str : Mem) {len count : ℕ} (hcount : count ≤ (len - 1) / 2) (a : ℕ) :
    (List.range' 1 count).foldl (itoaSwap (len + 1) 1) str a =
      if a = 1 ∧ 0 < count then str len
      else if 2 ≤ a ∧ a ≤ count then str (a - 1)
      else if a < len ∧ len ≤ a + count then str (len - a)
      else str a := by
  induction count generalizing a with
  | zero =>
      rw [if_neg (by omega), if_neg (by omega), if_neg (by omega)]
      rfl
  | succ count ih =>
      have hleft : (List.range' 1 count).foldl (itoaSwap (len + 1) 1) str (1 + count) =
          str (1 + count) := by
        rw [ih (by omega), if_neg (by omega), if_neg (by omega), if_neg (by omega)]
      have hright : (List.range' 1 count).foldl (itoaSwap (len + 1) 1) str (len - count) =
          if count = 0 then str len else str count := by
        rw [ih (by omega), if_neg (by omega), if_neg (by omega)]
        split_ifs <;> first | omega | (congr 1; omega)
      have hplace : len + 1 - 1 + 1 - (1 + count) = len - count := by omega
      have hother : len + 1 - (1 + count) - 1 = len - count - 1 := by omega
      rw [foldl_range'_succ, itoaSwap]
      simp only [store_apply, hplace, hother, hleft, hright, ih (by omega) a]
      split_ifs <;> first | omega | (congr 1; omega) | rfl

/-- If the exchange behind a sign reverses the digits, each of its turns finds two equal ones. -/
theorem all_equal_of_reversed {str : Mem} {len : ℕ}
    (hreversed : ∀ p < len,
      (List.range' 1 ((len - 1) / 2)).foldl (itoaSwap (len + 1) 1) str (1 + p) =
        str (1 + (len - 1 - p))) : ∀ p < len, str (1 + p) = str 1 := by
  simp only [foldl_itoaSwap_one str le_rfl] at hreversed
  -- the right half of each turn: neighbouring digits are equal up to the middle
  have hlow : ∀ q ≤ (len - 1) / 2, str (1 + q) = str 1 := by
    intro q
    induction q with
    | zero => exact fun _ ↦ rfl
    | succ q ih =>
        intro hq
        have hturn := hreversed (len - (q + 1) - 1) (by omega)
        rw [if_neg (by omega), if_neg (by omega), if_pos (by omega)] at hturn
        rw [show len - (1 + (len - (q + 1) - 1)) = 1 + q by omega,
          show 1 + (len - 1 - (len - (q + 1) - 1)) = 1 + (q + 1) by omega] at hturn
        exact hturn.symm.trans (ih (by omega))
  intro p hp
  rcases Nat.lt_or_ge ((len - 1) / 2) p with hhigh | hle
  · have hturn := hreversed (len - 1 - p) (by omega)
    rw [show 1 + (len - 1 - (len - 1 - p)) = 1 + p by omega] at hturn
    rcases Nat.eq_zero_or_pos (len - 1 - p) with hlast | hinner
    · -- the last digit is never written, and should be the first
      have hfirst := hreversed (len - 1) (by omega)
      rw [if_neg (by omega), if_neg (by omega), if_neg (by omega)] at hfirst
      rw [show 1 + p = 1 + (len - 1) by omega, hfirst]
      exact hlow _ (by omega)
    · by_cases hmiddle : len - 1 - p < (len - 1) / 2
      · rw [if_neg (by omega), if_pos (by omega),
          show 1 + (len - 1 - p) - 1 = 1 + (len - 1 - p - 1) by omega] at hturn
        exact hturn.symm.trans (hlow _ (by omega))
      · rw [if_neg (by omega), if_neg (by omega), if_neg (by omega)] at hturn
        exact hturn.symm.trans (hlow _ (by omega))
  · exact hlow p hle

/-- The exchange behind a sign reverses the digits exactly if it makes no difference. -/
theorem reverses_iff_all_equal (str : Mem) (len : ℕ) :
    (∀ p < len, (List.range' 1 ((len - 1) / 2)).foldl (itoaSwap (len + 1) 1) str (1 + p) =
        str (1 + (len - 1 - p))) ↔
      ∀ p < len, str (1 + p) = str 1 := by
  refine ⟨all_equal_of_reversed, fun hequal p hp ↦ ?_⟩
  have hplace : ∀ a, 1 ≤ a → a ≤ len → str a = str 1 := by
    intro a hlow hhigh
    rw [show a = 1 + (a - 1) by omega]
    exact hequal _ (by omega)
  rw [foldl_itoaSwap_one str le_rfl, hplace (1 + (len - 1 - p)) (by omega) (by omega)]
  split_ifs <;> exact hplace _ (by omega) (by omega)

/-! ### The text -/

theorem digitAt_eq {n p : ℕ} (hp : p < (digitList radix n).length) :
    digitAt radix n p = digitSymbol (digitList radix n)[p] := by
  simp [digitAt, hp]

theorem getElem_numeral {n a : ℕ} (ha : a < (numeral digitSymbol radix n).length) :
    (numeral digitSymbol radix n)[a] = digitAt radix n ((digitList radix n).length - 1 - a) := by
  have hlength := ha
  rw [length_numeral] at hlength
  rw [digitAt_eq (by omega)]
  simp [numeral]

/-- The digits of a numeral, read from a place of the memory on. -/
theorem bytes_eq_numeral_iff (str : Mem) (addr radix n : ℕ) :
    bytes str addr (digitList radix n).length = numeral digitSymbol radix n ↔
      ∀ p < (digitList radix n).length,
        str (addr + p) = digitAt radix n ((digitList radix n).length - 1 - p) := by
  constructor
  · intro hbytes p hp
    have hnumeral : p < (numeral digitSymbol radix n).length := by rwa [length_numeral]
    rw [← getElem_numeral hnumeral]
    simp only [← hbytes, bytes, List.getElem_map, List.getElem_range]
  · intro hplaces
    apply List.ext_getElem
    · rw [length_bytes, length_numeral]
    · intro p hp hp'
      rw [length_bytes] at hp
      rw [getElem_numeral]
      simpa [bytes] using hplaces p hp

/-- All decimal digits are the last one. -/
def Repdigit (n : ℕ) : Prop := ∀ d ∈ Nat.digits 10 n, d = n % 10

instance decidableRepdigit (n : ℕ) : Decidable (Repdigit n) :=
  inferInstanceAs (Decidable (∀ d ∈ Nat.digits 10 n, d = n % 10))

theorem digitAt_all_equal_iff {n : ℕ} (hpos : n ≠ 0) :
    (∀ p < (digitList 10 n).length, digitAt 10 n p = digitAt 10 n 0) ↔ Repdigit n := by
  have hdigits : digitList 10 n = Nat.digits 10 n := if_neg hpos
  have hlen := length_digitList_pos (n := n) (show 1 < 10 by decide)
  have hfirst : (digitList 10 n)[0] = n % 10 := by
    simp only [hdigits, Nat.digits_def' (show 1 < 10 by decide) (Nat.pos_of_ne_zero hpos),
      List.getElem_cons_zero]
  have hinj : ∀ p (hp : p < (digitList 10 n).length),
      digitAt 10 n p = digitAt 10 n 0 ↔ (digitList 10 n)[p] = n % 10 := by
    intro p hp
    rw [digitAt_eq hp, digitAt_eq hlen, hfirst]
    refine ⟨fun hsame ↦ ?_, fun hsame ↦ by rw [hsame]⟩
    have hdigit : (digitList 10 n)[p] < 36 :=
      digitList_lt_36 (by decide) (by decide) (List.getElem_mem hp)
    rw [← digitOf_digitSymbol _ hdigit, hsame, digitOf_digitSymbol _ (by omega)]
  unfold Repdigit
  rw [← hdigits]
  constructor
  · intro hall d hd
    obtain ⟨p, hp, rfl⟩ := List.getElem_of_mem hd
    exact (hinj p hp).mp (hall p hp)
  · intro hall p hp
    exact (hinj p hp).mpr (hall _ (List.getElem_mem hp))

/-- The string is the number in the radix, and reads back as the number. -/
def PrintsRight (str : Mem) (num : BitVec 32) (radix : ℕ) : Prop :=
  HoldsText str (representation radix num) ∧
    readBack radix (representation radix num) =
      if radix = 10 then num.toInt else (num.toNat : ℤ)

/-- Without a sign the string is always right. -/
theorem holdsText_utilsItoa (htwo : 2 ≤ radix) (hmax : radix ≤ 36) (str : Mem)
    (hsign : ¬ (radix = 10 ∧ num.toInt < 0)) :
    HoldsText (utilsItoa num str radix) (representation radix num) := by
  have hlen := length_digitList_pos (n := num.toNat) (show 1 < radix by omega)
  have hfuel : num.toNat < radix ^ 32 :=
    num.isLt.trans_le (Nat.pow_le_pow_left htwo 32)
  obtain ⟨hlast, hdigits, -⟩ :=
    itoaDigits_spec (show 1 < radix by omega) (show 0 < 32 by decide) hfuel str 0
  rw [Nat.zero_add] at hlast
  have hplaces : ∀ p < (digitList radix num.toNat).length,
      store (itoaDigits radix 32 num.toNat str 0).1 (digitList radix num.toNat).length 0 p =
        digitAt radix num.toNat p := by
    intro p hp
    rw [store_of_ne _ _ (by omega), ← hdigits p hp, Nat.zero_add]
  have hfirst : digitAt radix num.toNat 0 ≠ minus := by
    rw [digitAt_eq hlen]
    exact digitSymbol_ne_minus _ (digitList_lt_36 htwo hmax (List.getElem_mem hlen))
  rw [utilsItoa, representation, if_neg hsign, if_neg hsign]
  simp only [hlast, hplaces 0 hlen, hfirst, if_false]
  constructor
  · rw [length_numeral, bytes_eq_numeral_iff]
    intro p hp
    rw [Nat.zero_add, Nat.sub_zero, Nat.sub_zero, foldl_itoaSwap_zero _ le_rfl hlen,
      if_pos (by omega)]
    exact hplaces _ (by omega)
  · rw [length_numeral, Nat.sub_zero, Nat.sub_zero, foldl_itoaSwap_zero _ le_rfl hlen,
      if_neg (by omega), store_same]

theorem toNat_neg_of_neg (hneg : num.toInt < 0) : (-num).toNat = num.toInt.natAbs := by
  rw [BitVec.toInt_eq_toNat_cond] at hneg ⊢
  rw [BitVec.toNat_neg]
  split at hneg <;> omega

theorem holdsText_signed_iff {str : Mem} {n : ℕ} (hminus : str 0 = minus)
    (hnul : str ((digitList 10 n).length + 1) = 0) :
    HoldsText str (minus :: numeral digitSymbol 10 n) ↔
      bytes str 1 (digitList 10 n).length = numeral digitSymbol 10 n := by
  rw [HoldsText, List.length_cons, length_numeral, Nat.add_comm _ 1, ← bytes_append,
    Nat.zero_add, Nat.add_comm 1]
  simp [bytes, hminus, hnul]

/-- The exchange behind a sign leaves the numeral exactly if the digits are all the same. -/
theorem exchanged_eq_numeral_iff {str : Mem} {n : ℕ} (hpos : n ≠ 0)
    (hplaces : ∀ p < (digitList 10 n).length, str (1 + p) = digitAt 10 n p) :
    bytes ((List.range' 1 (((digitList 10 n).length - 1) / 2)).foldl
        (itoaSwap ((digitList 10 n).length + 1) 1) str) 1 (digitList 10 n).length =
      numeral digitSymbol 10 n ↔ Repdigit n := by
  have hlen := length_digitList_pos (n := n) (show 1 < 10 by decide)
  generalize hfinal : (List.range' 1 (((digitList 10 n).length - 1) / 2)).foldl
    (itoaSwap ((digitList 10 n).length + 1) 1) str = final
  calc bytes final 1 (digitList 10 n).length = numeral digitSymbol 10 n
      ↔ ∀ p < (digitList 10 n).length,
          final (1 + p) = digitAt 10 n ((digitList 10 n).length - 1 - p) :=
        bytes_eq_numeral_iff ..
    _ ↔ ∀ p < (digitList 10 n).length,
          final (1 + p) = str (1 + ((digitList 10 n).length - 1 - p)) := by
        refine forall₂_congr fun p hp ↦ ?_
        rw [hplaces _ (by omega)]
    _ ↔ ∀ p < (digitList 10 n).length, str (1 + p) = str 1 := by
        rw [← hfinal]
        exact reverses_iff_all_equal str _
    _ ↔ ∀ p < (digitList 10 n).length, digitAt 10 n p = digitAt 10 n 0 := by
        refine forall₂_congr fun p hp ↦ ?_
        have hfirst := hplaces 0 hlen
        rw [Nat.add_zero] at hfirst
        rw [hplaces p hp, hfirst]
    _ ↔ Repdigit n := digitAt_all_equal_iff hpos

/-- Behind a sign it is right exactly if the digits are all the same. -/
theorem holdsText_utilsItoa_neg_iff (str : Mem) (hneg : num.toInt < 0) :
    HoldsText (utilsItoa num str 10) (representation 10 num) ↔ Repdigit num.toInt.natAbs := by
  generalize hn : num.toInt.natAbs = n
  have hfuel : n < 10 ^ 32 := by
    have hlt := (-num).isLt
    rw [toNat_neg_of_neg hneg, hn] at hlt
    omega
  obtain ⟨hlast, hdigits, hbefore⟩ :=
    itoaDigits_spec (show 1 < 10 by decide) (show 0 < 32 by decide) hfuel (store str 0 minus) 1
  rw [Nat.add_comm] at hlast
  rw [utilsItoa, representation, if_pos ⟨rfl, hneg⟩, if_pos ⟨rfl, hneg⟩]
  simp only [toNat_neg_of_neg hneg, hn, hlast]
  generalize hdone : store (itoaDigits 10 32 n (store str 0 minus) 1).1
    ((digitList 10 n).length + 1) 0 = done
  have hminus : done 0 = minus := by
    rw [← hdone, store_of_ne _ _ (by omega), hbefore 0 (by omega), store_same]
  have hplaces : ∀ p < (digitList 10 n).length, done (1 + p) = digitAt 10 n p := by
    intro p hp
    rw [← hdone, store_of_ne _ _ (by omega), hdigits p hp]
  have hend : done ((digitList 10 n).length + 1) = 0 := by
    rw [← hdone, store_same]
  rw [if_pos hminus, show ((digitList 10 n).length + 1 - 1 - 1) / 2 + 1 - 1 =
    ((digitList 10 n).length - 1) / 2 by omega]
  have hfinal := foldl_itoaSwap_one done (le_refl (((digitList 10 n).length - 1) / 2))
  rw [holdsText_signed_iff, exchanged_eq_numeral_iff (by omega) hplaces]
  -- sign and terminator stay outside the exchange
  · rw [hfinal, if_neg (by omega), if_neg (by omega), if_neg (by omega), hminus]
  · rw [hfinal, if_neg (by omega), if_neg (by omega), if_neg (by omega), hend]

/-- A number is printed right exactly if it has no sign or all its decimal digits are the same. -/
theorem utilsItoa_printsRight_iff (num : BitVec 32) (str : Mem) {radix : ℕ} (htwo : 2 ≤ radix)
    (hmax : radix ≤ 36) :
    PrintsRight (utilsItoa num str radix) num radix ↔
      radix ≠ 10 ∨ 0 ≤ num.toInt ∨ Repdigit num.toInt.natAbs := by
  have hread := readBack_representation htwo hmax num
  rw [PrintsRight, and_iff_left hread]
  by_cases hsign : radix = 10 ∧ num.toInt < 0
  · obtain ⟨rfl, hneg⟩ := hsign
    rw [holdsText_utilsItoa_neg_iff str hneg]
    simp [hneg.not_ge]
  · refine iff_of_true (holdsText_utilsItoa htwo hmax str hsign) ?_
    rw [not_and_or, not_lt] at hsign
    exact hsign.imp_right .inl

/-- -77 is printed right. -/
theorem printsRight_repdigit :
    PrintsRight (utilsItoa (-77) (fun _ ↦ 0) 10) (-77) 10 := by
  have hdigits : Repdigit (-77 : BitVec 32).toInt.natAbs := by decide
  exact (utilsItoa_printsRight_iff (-77) _ (by decide) (by decide)).mpr (.inr (.inr hdigits))

/-- -12 is printed as -21. -/
theorem not_printsRight_twelve :
    ¬ PrintsRight (utilsItoa (-12) (fun _ ↦ 0) 10) (-12) 10 ∧
      bytes (utilsItoa (-12) (fun _ ↦ 0) 10) 0 4 = [minus, 0x32, 0x31, 0] := by
  have htext : bytes (utilsItoa (-12) (fun _ ↦ 0) 10) 0 4 = [minus, 0x32, 0x31, 0] := by
    decide
  refine ⟨fun hright ↦ ?_, htext⟩
  have hshould : bytes (utilsItoa (-12) (fun _ ↦ 0) 10) 0 3 = [minus, 0x31, 0x32] := hright.1.1
  rw [← bytes_append _ 0 3 1] at htext
  rw [hshould] at htext
  exact absurd htext (by simp [minus])

end ProjectSensor.Api
