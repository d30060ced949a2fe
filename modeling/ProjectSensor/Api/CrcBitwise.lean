import ProjectSensor.Api.CrcRegister

/-!
# The bit-by-bit `crc16`

The implementation that the source keeps in its other branch shifts one bit at a time.  It returns
the register itself, whose low byte is `crc_hi` of the table-driven one: the two results differ in
the order of their bytes.
-/

open ProjectSensor.Library ProjectSensor.Library.ByteMemory ProjectSensor.Library.CyclicCode

namespace ProjectSensor.Api

/-- The inner loop over `j`. -/
def bitwiseBits (wCRC : BitVec 16) : ℕ → BitVec 16
  | 0 => wCRC
  | left + 1 =>
      bitwiseBits (if wCRC &&& 0x0001 ≠ 0 then (wCRC >>> 1) ^^^ 0xA001 else wCRC >>> 1) left

/-- The outer loop over the `left` bytes from `index` on. -/
def bitwiseBytes (buf : Ram) (wCRC : BitVec 16) : ℤ → ℕ → BitVec 16
  | _, 0 => wCRC
  | index, left + 1 =>
      bitwiseBytes buf (bitwiseBits (wCRC ^^^ (buf index).setWidth 16) 8) (index + 1) left

/-- The bit-by-bit `crc16`, its counter as wide as its length. -/
def crc16Bitwise (buf : Ram) (len : BitVec 16) : BitVec 16 :=
  bitwiseBytes buf 0xFFFF 0 len.toNat

/-- The two bytes of a halfword exchanged. -/
def swapBytes (value : BitVec 16) : BitVec 16 := value <<< 8 ||| value >>> 8

theorem swapBytes_crcRegister (crcHi crcLo : Byte) :
    swapBytes (crcRegister crcHi crcLo) = crcHi ++ crcLo := by
  apply BitVec.eq_of_getLsbD_eq
  intro i hi
  simp only [swapBytes, BitVec.getLsbD_or, BitVec.getLsbD_shiftLeft, BitVec.getLsbD_ushiftRight,
    BitVec.getLsbD_append, getLsbD_crcRegister]
  by_cases hlow : i < 8
  · simp [hlow]
  · simp [hlow, hi, show i - 8 < 8 by omega, BitVec.getLsbD_of_ge crcLo i (not_lt.mp hlow)]

theorem lowBit_ne_zero_iff (wCRC : BitVec 16) :
    wCRC &&& 0x0001 ≠ 0 ↔ wCRC.getLsbD 0 = true := by
  have hone : wCRC &&& 1#16 = (BitVec.ofBool (wCRC.getLsbD 0)).setWidth 16 :=
    BitVec.and_one_eq_setWidth_ofBool_getLsbD
  rw [show (0x0001 : BitVec 16) = 1#16 from rfl, hone]
  cases wCRC.getLsbD 0 <;> decide

/-- The inner loop is a series of shifts of the register. -/
theorem bitwiseBits_eq_iterate (wCRC : BitVec 16) (left : ℕ) :
    bitwiseBits wCRC left = (shift crcPoly)^[left] wCRC := by
  induction left generalizing wCRC with
  | zero => rfl
  | succ left ih =>
      have hbit : (if wCRC &&& 0x0001 ≠ 0 then (wCRC >>> 1) ^^^ 0xA001 else wCRC >>> 1) =
          shift crcPoly wCRC :=
        if_congr (lowBit_ne_zero_iff wCRC) rfl rfl
      rw [bitwiseBits, hbit, ih, Function.iterate_succ_apply]

/-- Both loops keep the same register. -/
theorem bitwiseBytes_eq_crc16Loop (buf : Ram) (crcHi crcLo : Byte) (index : ℤ) (left : ℕ) :
    bitwiseBytes buf (crcRegister crcHi crcLo) index left =
      crcRegister (crc16Loop buf crcHi crcLo index left).value.1
        (crc16Loop buf crcHi crcLo index left).value.2 := by
  induction left generalizing crcHi crcLo index with
  | zero => rfl
  | succ left ih =>
      calc
        bitwiseBytes buf (crcRegister crcHi crcLo) index (left + 1) =
            bitwiseBytes buf (crcRegister (crcLo ^^^ tableCrcHi.getD (crcHi ^^^ buf index).toNat 0)
              (tableCrcLo.getD (crcHi ^^^ buf index).toNat 0)) (index + 1) left := by
          rw [bitwiseBytes, bitwiseBits_eq_iterate, crcRegister_step]
        _ = _ := by
          rw [ih, crc16Loop, Traced.value_bind, Traced.value_read]

/-- The table-driven checksum is the bit-by-bit one with its bytes exchanged: of a buffer of any
length, and so of every length that the two functions take. -/
theorem crc16_eq_swapBytes_bitwise (buf : Ram) (count : ℕ) :
    (crc16Loop buf 0xFF 0xFF 0 count).value.1 ++ (crc16Loop buf 0xFF 0xFF 0 count).value.2 =
        swapBytes (bitwiseBytes buf 0xFFFF 0 count) ∧
      ∀ len : BitVec 16, (crc16 buf len).value = swapBytes (crc16Bitwise buf len) := by
  have hloop (left : ℕ) :
      (crc16Loop buf 0xFF 0xFF 0 left).value.1 ++ (crc16Loop buf 0xFF 0xFF 0 left).value.2 =
        swapBytes (bitwiseBytes buf 0xFFFF 0 left) := by
    have hregister : bitwiseBytes buf 0xFFFF 0 left = _ :=
      bitwiseBytes_eq_crc16Loop buf 0xFF 0xFF 0 left
    rw [hregister, swapBytes_crcRegister]
  constructor
  · exact hloop count
  · intro len
    rw [crc16, Traced.value_bind]
    exact hloop len.toNat

/-- The checksum of `"123456789"`. -/
example : crc16Bitwise (fun i ↦ BitVec.ofInt 8 (0x31 + i)) 9 = 0x4B37 := by decide +kernel

end ProjectSensor.Api
