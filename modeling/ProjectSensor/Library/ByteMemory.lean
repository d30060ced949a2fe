import Mathlib.Data.BitVec
import Mathlib.Logic.Function.Basic

/-!
# Byte-addressed memory

A block of memory is a function from offsets to bytes.  Halfwords and words are little endian, as
on the target.
-/

namespace ProjectSensor.Library.ByteMemory

abbrev Byte := BitVec 8

/-- A block of memory, byte by byte. -/
abbrev Mem := ℕ → Byte

def store (mem : Mem) (addr : ℕ) (value : Byte) : Mem := Function.update mem addr value

def load16 (mem : Mem) (addr : ℕ) : BitVec 16 :=
  (mem (addr + 1)).setWidth 16 <<< 8 ||| (mem addr).setWidth 16

def store16 (mem : Mem) (addr : ℕ) (value : BitVec 16) : Mem :=
  store (store mem addr (value.setWidth 8)) (addr + 1) ((value >>> 8).setWidth 8)

def load32 (mem : Mem) (addr : ℕ) : BitVec 32 :=
  (load16 mem (addr + 2)).setWidth 32 <<< 16 ||| (load16 mem addr).setWidth 32

def store32 (mem : Mem) (addr : ℕ) (value : BitVec 32) : Mem :=
  store16 (store16 mem addr (value.setWidth 16)) (addr + 2) ((value >>> 16).setWidth 16)

/-- Memory seen from a pointer: negative indices lie before it. -/
abbrev Ram := ℤ → Byte

/-- `memcpy` of `len` bytes between two places of one memory. -/
def memcpy (ram : Ram) (dst src : ℤ) (len : ℕ) : Ram := fun addr ↦
  if dst ≤ addr ∧ addr < dst + len then ram (src + (addr - dst)) else ram addr

/-- The memory with the bytes of `frame` from index 0 on. -/
def put (ram : Ram) (frame : List Byte) : Ram := fun addr ↦
  if h : 0 ≤ addr ∧ addr.toNat < frame.length then frame[addr.toNat] else ram addr

@[simp]
theorem memcpy_self (ram : Ram) (addr : ℤ) (len : ℕ) : memcpy ram addr addr len = ram := by
  ext1 other
  simp [memcpy]

@[simp]
theorem store_same (mem : Mem) (addr : ℕ) (value : Byte) : store mem addr value addr = value :=
  Function.update_self ..

theorem store_of_ne (mem : Mem) {addr other : ℕ} (value : Byte) (hne : other ≠ addr) :
    store mem addr value other = mem other :=
  Function.update_of_ne hne ..

theorem store_apply (mem : Mem) (addr other : ℕ) (value : Byte) :
    store mem addr value other = if other = addr then value else mem other :=
  Function.update_apply ..

/-- The block `dst` with `len` bytes of `src` copied to `dstAddr`. -/
def blit (dst : Mem) (dstAddr : ℕ) (src : Mem) (srcAddr len : ℕ) : Mem := fun addr ↦
  if dstAddr ≤ addr ∧ addr < dstAddr + len then src (srcAddr + (addr - dstAddr)) else dst addr

@[simp]
theorem blit_zero (dst : Mem) (dstAddr : ℕ) (src : Mem) (srcAddr : ℕ) :
    blit dst dstAddr src srcAddr 0 = dst := by
  funext addr
  rw [blit, if_neg (by omega)]

theorem blit_of_mem (dst : Mem) {dstAddr addr len : ℕ} (src : Mem) (srcAddr : ℕ)
    (hlow : dstAddr ≤ addr) (hhigh : addr < dstAddr + len) :
    blit dst dstAddr src srcAddr len addr = src (srcAddr + (addr - dstAddr)) :=
  if_pos ⟨hlow, hhigh⟩

theorem blit_add (dst : Mem) (dstAddr : ℕ) (src : Mem) (srcAddr : ℕ) {len k : ℕ} (hk : k < len) :
    blit dst dstAddr src srcAddr len (dstAddr + k) = src (srcAddr + k) := by
  rw [blit_of_mem _ _ _ (Nat.le_add_right ..) (Nat.add_lt_add_left hk _), Nat.add_sub_cancel_left]

/-- A copy to the start of a block. -/
theorem blit_start (dst : Mem) (src : Mem) (srcAddr : ℕ) {len k : ℕ} (hk : k < len) :
    blit dst 0 src srcAddr len k = src (srcAddr + k) := by
  have hcopy := blit_add dst 0 src srcAddr hk
  rwa [Nat.zero_add] at hcopy

theorem blit_of_outside (dst : Mem) {dstAddr addr len : ℕ} (src : Mem) (srcAddr : ℕ)
    (hout : addr < dstAddr ∨ dstAddr + len ≤ addr) :
    blit dst dstAddr src srcAddr len addr = dst addr :=
  if_neg (by omega)

/-- Two copies of consecutive pieces are one copy. -/
theorem blit_append (dst : Mem) (dstAddr : ℕ) (src : Mem) (srcAddr first second : ℕ) :
    blit (blit dst dstAddr src srcAddr first) (dstAddr + first) src (srcAddr + first) second =
      blit dst dstAddr src srcAddr (first + second) := by
  funext addr
  by_cases hsecond : dstAddr + first ≤ addr ∧ addr < dstAddr + first + second
  · rw [blit_of_mem _ _ _ hsecond.1 hsecond.2, blit_of_mem _ _ _ (by omega) (by omega)]
    congr 1
    omega
  · by_cases hfirst : dstAddr ≤ addr ∧ addr < dstAddr + first
    · rw [blit_of_outside _ _ _ (by omega), blit_of_mem _ _ _ hfirst.1 hfirst.2,
        blit_of_mem _ _ _ hfirst.1 (by omega)]
    · rw [blit_of_outside _ _ _ (by omega), blit_of_outside _ _ _ (by omega),
        blit_of_outside _ _ _ (by omega)]

/-- Copying a piece again, longer or shorter. -/
theorem blit_blit (dst : Mem) (dstAddr : ℕ) (src : Mem) (srcAddr first second : ℕ) :
    blit (blit dst dstAddr src srcAddr first) dstAddr src srcAddr second =
      blit dst dstAddr src srcAddr (max first second) := by
  funext addr
  by_cases hsecond : dstAddr ≤ addr ∧ addr < dstAddr + second
  · rw [blit_of_mem _ _ _ hsecond.1 hsecond.2, blit_of_mem _ _ _ hsecond.1 (by omega)]
  · rw [blit_of_outside _ _ _ (by omega)]
    by_cases hfirst : dstAddr ≤ addr ∧ addr < dstAddr + first
    · rw [blit_of_mem _ _ _ hfirst.1 hfirst.2, blit_of_mem _ _ _ hfirst.1 (by omega)]
    · rw [blit_of_outside _ _ _ (by omega), blit_of_outside _ _ _ (by omega)]

theorem store_eq_blit (dst : Mem) (dstAddr : ℕ) (src : Mem) (srcAddr : ℕ) :
    store dst dstAddr (src srcAddr) = blit dst dstAddr src srcAddr 1 := by
  funext addr
  by_cases heq : addr = dstAddr
  · rw [heq, store_same, blit_of_mem _ _ _ le_rfl (by omega), Nat.sub_self, Nat.add_zero]
  · rw [store_of_ne _ _ heq, blit_of_outside _ _ _ (by omega)]

/-- The `len` bytes from `addr` on. -/
def bytes (mem : Mem) (addr len : ℕ) : List Byte := (List.range len).map fun i ↦ mem (addr + i)

@[simp]
theorem length_bytes (mem : Mem) (addr len : ℕ) : (bytes mem addr len).length = len := by
  rw [bytes, List.length_map, List.length_range]

theorem take_bytes (mem : Mem) (addr len count : ℕ) :
    (bytes mem addr len).take count = bytes mem addr (min count len) := by
  rw [bytes, bytes, ← List.map_take, List.take_range]

theorem bytes_congr {mem mem' : Mem} {addr addr' len : ℕ}
    (hsame : ∀ i < len, mem (addr + i) = mem' (addr' + i)) :
    bytes mem addr len = bytes mem' addr' len := by
  apply List.map_congr_left
  intro i hi
  exact hsame i (List.mem_range.mp hi)

/-- What was copied reads as it did where it came from. -/
theorem bytes_blit (dst : Mem) (dstAddr : ℕ) (src : Mem) (srcAddr len : ℕ) :
    bytes (blit dst dstAddr src srcAddr len) dstAddr len = bytes src srcAddr len := by
  apply bytes_congr
  intro i hi
  exact blit_add dst dstAddr src srcAddr hi

/-- A byte stored behind the others is read behind them. -/
theorem bytes_store (mem : Mem) (addr len : ℕ) (value : Byte) :
    bytes (store mem (addr + len) value) addr (len + 1) = bytes mem addr len ++ [value] := by
  have hbefore : bytes (store mem (addr + len) value) addr len = bytes mem addr len := by
    apply bytes_congr
    intro i hi
    exact store_of_ne _ _ (by omega)
  rw [← hbefore, bytes, bytes, List.range_succ, List.map_append, List.map_singleton, store_same]

/-- Bytes side by side. -/
theorem bytes_append (mem : Mem) (addr first second : ℕ) :
    bytes mem addr first ++ bytes mem (addr + first) second = bytes mem addr (first + second) := by
  have hshift : bytes mem (addr + first) second =
      (List.range second).map fun i ↦ mem (addr + (first + i)) := by
    rw [bytes]
    exact List.map_congr_left fun i _ ↦ by rw [Nat.add_assoc]
  rw [hshift, bytes, bytes, List.range_add, List.map_append, List.map_map]
  rfl

theorem drop_bytes (mem : Mem) (addr : ℕ) {len count : ℕ} (hle : count ≤ len) :
    (bytes mem addr len).drop count = bytes mem (addr + count) (len - count) := by
  rw [← Nat.add_sub_of_le hle, ← bytes_append, Nat.add_sub_cancel_left]
  exact List.drop_left' (length_bytes ..)

/-- Bytes copied behind the others are read behind them. -/
theorem bytes_blit_behind (dst : Mem) (addr len : ℕ) (src : Mem) (srcAddr count : ℕ) :
    bytes (blit dst (addr + len) src srcAddr count) addr (len + count) =
      bytes dst addr len ++ bytes src srcAddr count := by
  have hbefore : bytes (blit dst (addr + len) src srcAddr count) addr len = bytes dst addr len := by
    apply bytes_congr
    intro i hi
    exact blit_of_outside _ _ _ (by omega)
  rw [← bytes_append, hbefore, bytes_blit]

/-- Bytes copied before the others are read before them. -/
theorem bytes_blit_before (dst : Mem) (addr : ℕ) (src : Mem) (srcAddr count len : ℕ) :
    bytes (blit dst addr src srcAddr count) addr (count + len) =
      bytes src srcAddr count ++ bytes dst (addr + count) len := by
  have hbehind : bytes (blit dst addr src srcAddr count) (addr + count) len =
      bytes dst (addr + count) len := by
    apply bytes_congr
    intro i _
    exact blit_of_outside _ _ _ (by omega)
  rw [← bytes_append, hbehind, bytes_blit]

/-- The bytes at a place tell each byte there. -/
theorem apply_eq_of_bytes_eq {mem mem' : Mem} {addr addr' len : ℕ}
    (hsame : bytes mem addr len = bytes mem' addr' len) {i : ℕ} (hi : i < len) :
    mem (addr + i) = mem' (addr' + i) :=
  List.map_inj_left.mp hsame i (List.mem_range.mpr hi)

theorem store16_apply (mem : Mem) (addr other : ℕ) (value : BitVec 16) :
    store16 mem addr value other = if other = addr + 1 then (value >>> 8).setWidth 8
      else if other = addr then value.setWidth 8 else mem other := by
  simp only [store16, store_apply]

/-- The halfword stored is the halfword read back. -/
theorem load16_store16_same (mem : Mem) (addr : ℕ) (value : BitVec 16) :
    load16 (store16 mem addr value) addr = value := by
  simp only [load16, store16_apply, if_true, Nat.left_eq_add, one_ne_zero, if_false]
  refine BitVec.eq_of_getLsbD_eq fun i hi ↦ ?_
  simp only [BitVec.getLsbD_or, BitVec.getLsbD_shiftLeft, BitVec.getLsbD_setWidth,
    BitVec.getLsbD_ushiftRight]
  grind

theorem load16_congr {mem mem' : Mem} {addr : ℕ} (hlow : mem' addr = mem addr)
    (hhigh : mem' (addr + 1) = mem (addr + 1)) : load16 mem' addr = load16 mem addr := by
  rw [load16, load16, hlow, hhigh]

theorem load16_eq_of_bytes_eq {mem mem' : Mem} {addr addr' : ℕ}
    (hsame : bytes mem addr 2 = bytes mem' addr' 2) : load16 mem addr = load16 mem' addr' := by
  have hlow := apply_eq_of_bytes_eq hsame (i := 0) (by omega)
  have hhigh := apply_eq_of_bytes_eq hsame (i := 1) (by omega)
  rw [Nat.add_zero, Nat.add_zero] at hlow
  rw [load16, load16, hlow, hhigh]

theorem load16_store16_of_disjoint (mem : Mem) {addr other : ℕ} (value : BitVec 16)
    (hdisjoint : other + 1 < addr ∨ addr + 1 < other) :
    load16 (store16 mem addr value) other = load16 mem other := by
  refine load16_congr ?_ ?_ <;> rw [store16_apply] <;> grind

/-- Storing what is there changes nothing. -/
theorem store16_load16 (mem : Mem) (addr : ℕ) : store16 mem addr (load16 mem addr) = mem := by
  funext other
  rw [store16_apply, load16]
  split_ifs with hhigh hlow
  · subst hhigh
    refine BitVec.eq_of_getLsbD_eq fun i hi ↦ ?_
    simp only [BitVec.getLsbD_or, BitVec.getLsbD_shiftLeft, BitVec.getLsbD_setWidth,
      BitVec.getLsbD_ushiftRight]
    grind
  · subst hlow
    refine BitVec.eq_of_getLsbD_eq fun i hi ↦ ?_
    simp only [BitVec.getLsbD_or, BitVec.getLsbD_shiftLeft, BitVec.getLsbD_setWidth]
    grind
  · rfl

theorem getLsbD_lowMask : ∀ i < 32, (0xffff#32).getLsbD i = decide (i < 16) := by decide

theorem getLsbD_highMask : ∀ i < 32, (0xffff0000#32).getLsbD i = decide (16 ≤ i) := by decide

/-- A word from its two halfwords. -/
def word (high low : BitVec 16) : BitVec 32 := high.setWidth 32 <<< 16 ||| low.setWidth 32

theorem getLsbD_word (high low : BitVec 16) {i : ℕ} (hi : i < 32) :
    (word high low).getLsbD i = if i < 16 then low.getLsbD i else high.getLsbD (i - 16) := by
  simp only [word, BitVec.getLsbD_or, BitVec.getLsbD_shiftLeft, BitVec.getLsbD_setWidth]
  grind

theorem load32_eq_word (mem : Mem) (addr : ℕ) :
    load32 mem addr = word (load16 mem (addr + 2)) (load16 mem addr) := rfl

theorem word_high (high low : BitVec 16) : word high low >>> 16 = high.setWidth 32 := by
  refine BitVec.eq_of_getLsbD_eq fun i hi ↦ ?_
  rw [BitVec.getLsbD_ushiftRight, BitVec.getLsbD_setWidth]
  by_cases hlt : 16 + i < 32
  · rw [getLsbD_word _ _ hlt]
    grind
  · rw [BitVec.getLsbD_of_ge _ _ (by omega)]
    simp only [BitVec.getLsbD_of_ge high i (by omega), Bool.and_false]

theorem word_low (high low : BitVec 16) : word high low &&& 0xffff#32 = low.setWidth 32 := by
  refine BitVec.eq_of_getLsbD_eq fun i hi ↦ ?_
  rw [BitVec.getLsbD_and, getLsbD_word _ _ hi, getLsbD_lowMask i hi, BitVec.getLsbD_setWidth]
  grind

theorem word_setWidth (high low : BitVec 16) : (word high low).setWidth 16 = low := by
  refine BitVec.eq_of_getLsbD_eq fun i hi ↦ ?_
  rw [BitVec.getLsbD_setWidth, getLsbD_word _ _ (by omega)]
  simp [hi]

theorem word_replace_high (high low value : BitVec 16) :
    word high low &&& 0xffff#32 ||| (value.setWidth 32 &&& 0xffff#32) <<< 16 = word value low := by
  refine BitVec.eq_of_getLsbD_eq fun i hi ↦ ?_
  simp only [BitVec.getLsbD_or, BitVec.getLsbD_and, BitVec.getLsbD_shiftLeft,
    BitVec.getLsbD_setWidth, getLsbD_word _ _ hi, getLsbD_lowMask i hi,
    getLsbD_lowMask (i - 16) (by omega)]
  grind

theorem word_replace_low (high low value : BitVec 16) :
    word high low &&& 0xffff0000#32 ||| value.setWidth 32 &&& 0xffff#32 = word high value := by
  refine BitVec.eq_of_getLsbD_eq fun i hi ↦ ?_
  simp only [BitVec.getLsbD_or, BitVec.getLsbD_and, BitVec.getLsbD_setWidth,
    getLsbD_word _ _ hi, getLsbD_lowMask i hi, getLsbD_highMask i hi]
  grind

theorem store32_word (mem : Mem) (addr : ℕ) (high low : BitVec 16) :
    store32 mem addr (word high low) = store16 (store16 mem addr low) (addr + 2) high := by
  have hhigh : (word high low >>> 16).setWidth 16 = high := by
    rw [word_high]
    simp
  rw [store32, word_setWidth, hhigh]

/-- A word is made of its halves. -/
theorem word_halves (value : BitVec 32) :
    word ((value >>> 16).setWidth 16) (value.setWidth 16) = value := by
  refine BitVec.eq_of_getLsbD_eq fun i hi ↦ ?_
  rw [getLsbD_word _ _ hi]
  simp only [BitVec.getLsbD_setWidth, BitVec.getLsbD_ushiftRight]
  grind

/-- The word stored is the word read back. -/
theorem load32_store32_same (mem : Mem) (addr : ℕ) (value : BitVec 32) :
    load32 (store32 mem addr value) addr = value := by
  rw [load32_eq_word, store32, load16_store16_same,
    load16_store16_of_disjoint _ _ (by omega), load16_store16_same, word_halves]

theorem load32_eq_of_bytes_eq {mem mem' : Mem} {addr addr' : ℕ}
    (hsame : bytes mem addr 4 = bytes mem' addr' 4) : load32 mem addr = load32 mem' addr' := by
  rw [← bytes_append mem addr 2 2, ← bytes_append mem' addr' 2 2] at hsame
  obtain ⟨hlow, hhigh⟩ := List.append_inj hsame (by rw [length_bytes, length_bytes])
  rw [load32, load32, load16_eq_of_bytes_eq hlow, load16_eq_of_bytes_eq hhigh]

/-- Replacing the high half of a word stores one halfword. -/
theorem store32_word_high (mem : Mem) (addr : ℕ) (value : BitVec 16) :
    store32 mem addr (word value (load16 mem addr)) = store16 mem (addr + 2) value := by
  rw [store32_word, store16_load16]

/-- Replacing the low half of a word stores one halfword. -/
theorem store32_word_low (mem : Mem) (addr : ℕ) (value : BitVec 16) :
    store32 mem addr (word (load16 mem (addr + 2)) value) = store16 mem addr value := by
  have hsame : load16 mem (addr + 2) = load16 (store16 mem addr value) (addr + 2) :=
    (load16_store16_of_disjoint mem value (by omega)).symm
  rw [store32_word, hsame, store16_load16]

end ProjectSensor.Library.ByteMemory
