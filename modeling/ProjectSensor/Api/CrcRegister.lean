import ProjectSensor.Api.Crc16
import ProjectSensor.Library.CyclicCode

/-!
# `crc16` as a serial register

The two halves of the checksum are one register, `crc_hi` its low byte, and an entry of the tables
is eight shifts of its index.  A byte of the buffer thus enters the register bit by bit, the lowest
bit first, and a buffer that ends in its checksum is one that brings the register to zero.
-/

open ProjectSensor.Library ProjectSensor.Library.ByteMemory ProjectSensor.Library.CyclicCode

namespace ProjectSensor.Api

/-- The polynomial behind the tables, the highest coefficient lowest. -/
def crcPoly : BitVec 16 := 0xA001

def crcRegister (crcHi crcLo : Byte) : BitVec 16 := crcLo ++ crcHi

/-- The bits from `index` on in serial order. -/
def serialBits (buf : Ram) (index : ℤ) (i : ℕ) : Bool :=
  (buf (index + (i / 8 : ℕ))).getLsbD (i % 8)

theorem serialBits_add (buf : Ram) (index : ℤ) (bytes i : ℕ) :
    serialBits buf index (8 * bytes + i) = serialBits buf (index + bytes) i := by
  have hdiv : (8 * bytes + i) / 8 = bytes + i / 8 := by omega
  unfold serialBits
  rw [hdiv, Nat.mul_add_mod, Nat.cast_add, add_assoc]

/-- The entries of the tables are eight shifts of their index. -/
theorem table_eq_iterate : ∀ i < 256, crcRegister (tableCrcHi.getD i 0) (tableCrcLo.getD i 0) =
    (shift crcPoly)^[8] (BitVec.ofNat 16 i) := by decide +kernel

theorem getLsbD_crcRegister (crcHi crcLo : Byte) (i : ℕ) :
    (crcRegister crcHi crcLo).getLsbD i =
      if i < 8 then crcHi.getLsbD i else crcLo.getLsbD (i - 8) := by
  unfold crcRegister
  rw [BitVec.getLsbD_append]

theorem crcRegister_inj {crcHi crcLo crcHi' crcLo' : Byte}
    (heq : crcRegister crcHi crcLo = crcRegister crcHi' crcLo') :
    crcHi = crcHi' ∧ crcLo = crcLo' := by
  have hbits (i : ℕ) :
      (crcRegister crcHi crcLo).getLsbD i = (crcRegister crcHi' crcLo').getLsbD i := by
    rw [heq]
  simp only [getLsbD_crcRegister] at hbits
  constructor <;> apply BitVec.eq_of_getLsbD_eq <;> intro i hi
  · simpa only [if_pos hi] using hbits i
  · simpa only [if_neg (show ¬ i + 8 < 8 by omega), Nat.add_sub_cancel] using hbits (i + 8)

/-- One byte through the tables is one byte through the register. -/
theorem crcRegister_step (crcHi crcLo byte : Byte) :
    crcRegister (crcLo ^^^ tableCrcHi.getD (crcHi ^^^ byte).toNat 0)
        (tableCrcLo.getD (crcHi ^^^ byte).toNat 0) =
      (shift crcPoly)^[8] (crcRegister crcHi crcLo ^^^ byte.setWidth 16) := by
  have hsplit : crcRegister crcHi crcLo ^^^ byte.setWidth 16 =
      BitVec.ofNat 16 (crcHi ^^^ byte).toNat ^^^ crcRegister 0 crcLo := by
    apply BitVec.eq_of_getLsbD_eq
    intro i hi
    rw [BitVec.ofNat_toNat]
    simp only [BitVec.getLsbD_xor, BitVec.getLsbD_setWidth, getLsbD_crcRegister, hi, decide_true,
      Bool.true_and]
    by_cases hlow : i < 8
    · simp [hlow]
    · simp [hlow, BitVec.getLsbD_of_ge _ i (not_lt.mp hlow)]
  have hhigh : (shift crcPoly)^[8] (crcRegister 0 crcLo) = crcRegister 0 crcLo >>> 8 := by
    apply iterate_shift_of_low_clear
    intro i hi
    rw [getLsbD_crcRegister, if_pos hi]
    exact BitVec.getLsbD_zero
  symm
  calc
    (shift crcPoly)^[8] (crcRegister crcHi crcLo ^^^ byte.setWidth 16) =
        (shift crcPoly)^[8] (BitVec.ofNat 16 (crcHi ^^^ byte).toNat) ^^^
          (shift crcPoly)^[8] (crcRegister 0 crcLo) := by rw [hsplit, iterate_shift_xor]
    _ = crcRegister (tableCrcHi.getD (crcHi ^^^ byte).toNat 0)
          (tableCrcLo.getD (crcHi ^^^ byte).toNat 0) ^^^ crcRegister 0 crcLo >>> 8 := by
      rw [hhigh, table_eq_iterate _ (BitVec.isLt _)]
    _ = crcRegister (crcLo ^^^ tableCrcHi.getD (crcHi ^^^ byte).toNat 0)
          (tableCrcLo.getD (crcHi ^^^ byte).toNat 0) := by
      apply BitVec.eq_of_getLsbD_eq
      intro i hi
      simp only [BitVec.getLsbD_xor, BitVec.getLsbD_ushiftRight, getLsbD_crcRegister]
      by_cases hlow : i < 8
      · simp [hlow, Bool.xor_comm]
      · simp [hlow, BitVec.getLsbD_of_ge crcLo i (not_lt.mp hlow)]

/-- The loop of `crc16` feeds its bytes into the register. -/
theorem crcRegister_crc16Loop (buf : Ram) (crcHi crcLo : Byte) (index : ℤ) (len : ℕ) :
    crcRegister (crc16Loop buf crcHi crcLo index len).value.1
        (crc16Loop buf crcHi crcLo index len).value.2 =
      remainder crcPoly (crcRegister crcHi crcLo) (serialBits buf index) (8 * len) := by
  induction len generalizing crcHi crcLo index with
  | zero => rfl
  | succ len ih =>
      have hbyte : block 16 (serialBits buf index) 8 = (buf index).setWidth 16 := by
        apply BitVec.eq_of_getLsbD_eq
        intro i hi
        rw [getLsbD_block _ _ hi, BitVec.getLsbD_setWidth, serialBits]
        by_cases hlow : i < 8
        · simp [hlow, hi, Nat.div_eq_of_lt hlow, Nat.mod_eq_of_lt hlow]
        · simp [hlow, BitVec.getLsbD_of_ge _ i (not_lt.mp hlow)]
      have hfirst : remainder crcPoly (crcRegister crcHi crcLo) (serialBits buf index) 8 =
          crcRegister (crcLo ^^^ tableCrcHi.getD (crcHi ^^^ buf index).toNat 0)
            (tableCrcLo.getD (crcHi ^^^ buf index).toNat 0) := by
        rw [remainder_eq_iterate _ _ _ (by decide), hbyte, crcRegister_step]
      have hrest : (fun i ↦ serialBits buf index (8 + i)) = serialBits buf (index + 1) := by
        funext i
        exact serialBits_add buf index 1 i
      calc
        crcRegister (crc16Loop buf crcHi crcLo index (len + 1)).value.1
              (crc16Loop buf crcHi crcLo index (len + 1)).value.2 =
            remainder crcPoly (crcRegister (crcLo ^^^ tableCrcHi.getD (crcHi ^^^ buf index).toNat 0)
              (tableCrcLo.getD (crcHi ^^^ buf index).toNat 0)) (serialBits buf (index + 1))
              (8 * len) := by
          rw [crc16Loop, Traced.value_bind, Traced.value_read, ih]
        _ = remainder crcPoly (crcRegister crcHi crcLo) (serialBits buf index) (8 + 8 * len) := by
          rw [remainder_append, hfirst, hrest]
        _ = remainder crcPoly (crcRegister crcHi crcLo) (serialBits buf index) (8 * (len + 1)) := by
          rw [Nat.mul_succ, Nat.add_comm]

/-- A buffer ends in its checksum, high byte first, exactly when it brings the register to zero. -/
theorem crc16_eq_iff (buf : Ram) (len : BitVec 16) :
    (crc16 buf len).value = buf len.toNat ++ buf (len.toNat + 1) ↔
      remainder crcPoly 0xFFFF (serialBits buf 0) (8 * (len.toNat + 2)) = 0 := by
  cases hloop : (crc16Loop buf 0xFF 0xFF 0 len.toNat).value with
  | mk crcHi crcLo =>
      have hregister := crcRegister_crc16Loop buf 0xFF 0xFF 0 len.toNat
      rw [hloop] at hregister
      have hbytes : block 16 (fun i ↦ serialBits buf 0 (8 * len.toNat + i)) 16 =
          crcRegister (buf len.toNat) (buf (len.toNat + 1)) := by
        apply BitVec.eq_of_getLsbD_eq
        intro i hi
        rw [getLsbD_block _ _ hi, serialBits_add, getLsbD_crcRegister, serialBits, zero_add]
        by_cases hlow : i < 8
        · simp [hlow, hi, Nat.div_eq_of_lt hlow, Nat.mod_eq_of_lt hlow]
        · have hone : i / 8 = 1 := by omega
          have hmod : i % 8 = i - 8 := by omega
          simp [hlow, hi, hone, hmod]
      have hend : remainder crcPoly 0xFFFF (serialBits buf 0) (8 * (len.toNat + 2)) =
          (shift crcPoly)^[16] (crcRegister crcHi crcLo ^^^
            crcRegister (buf len.toNat) (buf (len.toNat + 1))) := by
        calc
          remainder crcPoly 0xFFFF (serialBits buf 0) (8 * (len.toNat + 2)) =
              remainder crcPoly (remainder crcPoly 0xFFFF (serialBits buf 0) (8 * len.toNat))
                (fun i ↦ serialBits buf 0 (8 * len.toNat + i)) 16 := by
            rw [Nat.mul_add, remainder_append]
          _ = remainder crcPoly (crcRegister crcHi crcLo)
                (fun i ↦ serialBits buf 0 (8 * len.toNat + i)) 16 :=
            congrArg (fun reg ↦ remainder crcPoly reg _ 16) hregister.symm
          _ = (shift crcPoly)^[16] (crcRegister crcHi crcLo ^^^
                crcRegister (buf len.toNat) (buf (len.toNat + 1))) := by
            rw [remainder_eq_iterate _ _ _ le_rfl, hbytes]
      have hvalue : (crc16 buf len).value = crcHi ++ crcLo := by
        rw [crc16, Traced.value_bind, hloop]
        rfl
      rw [hvalue, hend]
      constructor
      · intro heq
        -- the value of the code has the bytes of the register the other way round
        have hswap : crcRegister crcLo crcHi =
            crcRegister (buf (len.toNat + 1)) (buf len.toNat) := heq
        obtain ⟨rfl, rfl⟩ := crcRegister_inj hswap
        rw [BitVec.xor_self]
        exact iterate_shift_zero crcPoly 16
      · intro hzero
        have heq := eq_zero_of_iterate_shift_eq_zero crcPoly (by decide) hzero
        obtain ⟨rfl, rfl⟩ := crcRegister_inj (BitVec.xor_eq_zero_iff.mp heq)
        rfl

end ProjectSensor.Api
