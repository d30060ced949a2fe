import ProjectSensor.Api.CrcRegister
import ProjectSensor.App.RejectedWrite

/-!
# Transmission errors

An accepted frame brings the register of the checksum to zero over all its bytes, the received
checksum included.  Two accepted frames of one length therefore differ nowhere, or in more than 16
consecutive bits.
-/

open ProjectSensor.Library ProjectSensor.Library.ByteMemory ProjectSensor.Library.CyclicCode
open ProjectSensor.Api

namespace ProjectSensor.App

theorem be16_eq_append (high low : Byte) : be16 high low = high ++ low := by
  apply BitVec.eq_of_getLsbD_eq
  intro i hi
  simp only [be16, BitVec.getLsbD_or, BitVec.getLsbD_shiftLeft, BitVec.getLsbD_setWidth,
    BitVec.getLsbD_append]
  by_cases hlow : i < 8
  · simp [hlow, hi]
  · simp [hlow, hi, BitVec.getLsbD_of_ge low i (not_lt.mp hlow), show i - 8 < 16 by omega]

/-- The checksum of an accepted frame, as the register sees it. -/
theorem remainder_of_unpack {rtu : ProtocolModbusRtu} {pbuf : Ram} {len : BitVec 16}
    (hlen : 2 ≤ len.toNat) (haccept : (unpack rtu pbuf len).value = 0) :
    remainder crcPoly 0xFFFF (serialBits pbuf 0) (8 * len.toNat) = 0 := by
  have hsub : (len - 2).toNat = len.toNat - 2 := by
    have hle : (2 : BitVec 16) ≤ len := BitVec.le_def.mpr hlen
    rw [BitVec.toNat_sub_of_le hle]
    rfl
  have hhigh : ((len.toNat - 2 : ℕ) : ℤ) = (len.toNat : ℤ) - 2 := by omega
  have hlow : ((len.toNat - 2 : ℕ) : ℤ) + 1 = (len.toNat : ℤ) - 1 := by omega
  have hcrc := (accepted_of_unpack haccept).2.2
  have hiff := crc16_eq_iff pbuf (len - 2)
  rw [hsub, hlow, hhigh, Nat.sub_add_cancel hlen, ← be16_eq_append] at hiff
  exact hiff.mp hcrc

/-- When a frame is accepted, no frame of its length that differs from it, but only inside a window
of 16 consecutive bits, is. -/
theorem unpack_rejects_burst (rtu : ProtocolModbusRtu) (f g : Ram) (len : BitVec 16) (first : ℕ)
    (hlen : 3 ≤ len.toNat) (haccept : (unpack rtu f len).value = 0)
    (hsome : ∃ i < 8 * len.toNat, serialBits f 0 i ≠ serialBits g 0 i)
    (hwindow : ∀ i < 8 * len.toNat, serialBits f 0 i ≠ serialBits g 0 i →
      first ≤ i ∧ i < first + 16) :
    (unpack rtu g len).value ≠ 0 := by
  intro haccept'
  have htwo : 2 ≤ len.toNat := Nat.le_of_succ_le hlen
  have hsame : remainder crcPoly 0xFFFF (serialBits f 0) (8 * len.toNat) =
      remainder crcPoly 0xFFFF (serialBits g 0) (8 * len.toNat) := by
    rw [remainder_of_unpack htwo haccept, remainder_of_unpack htwo haccept']
  exact remainder_ne_of_burst crcPoly (by decide) 0xFFFF hsome hwindow hsame

/-- A read request and the same bytes with one bit of the register address flipped. -/
theorem unpack_rejects_burst_single_bit :
    (unpack (configured 1 ProtocolModbusRtu.construct.info)
      (frameRam [1, 3, 0, 1, 0, 1, 0x84, 0x0A]) 8).value ≠ 0 := by
  apply unpack_rejects_burst _ (frameRam [1, 3, 0, 0, 0, 1, 0x84, 0x0A]) _ _ 24
  · decide
  · decide +kernel
  · exact ⟨24, by decide, by decide +kernel⟩
  · decide +kernel

end ProjectSensor.App
