import NVSwitchFabric.Lib.Crc
import NVSwitchFabric.Model.Wire

/-!
# `Correctness.Checksum` — the checksum is the CRC-32

`crc32` of wire.cpp takes a byte at a time, by a table that a loop of eight steps fills. The table holds what these steps
make of a byte (`crcTable_toBitVec`), so one round is the `absorb` of `Lib.Crc` (`crcByte_toBitVec`), and the checksum the
remainder that the bits leave when they are taken in one at a time (`crc32_bitwise`).
-/

namespace NVSwitchFabric

open Lib.Crc

/-! ## The table -/

/-- The polynomial, reflected. -/
def crcPoly : BitVec 32 := 0xEDB88320#32

/-- The remainder a checksum starts from, and what it is combined with at the end. -/
def crcOnes : BitVec 32 := 0xFFFFFFFF#32

theorem crcPoly_high : crcPoly.getLsbD (32 - 1) = true := by decide

theorem crcBit_toBitVec (c : UInt32) : (crcBit c).toBitVec = shift crcPoly c.toBitVec := by
  have hlow : (c &&& 1 ≠ 0) ↔ c.toBitVec.getLsbD 0 = true := by
    rw [Ne, ← UInt32.toBitVec_inj, UInt32.toBitVec_and]
    show ¬c.toBitVec &&& 1#32 = 0#32 ↔ _
    rw [BitVec.and_one_eq_setWidth_ofBool_getLsbD]
    cases c.toBitVec.getLsbD 0 <;> decide
  unfold crcBit shift
  by_cases hbit : c.toBitVec.getLsbD 0 = true
  · rw [if_pos (hlow.mpr hbit), if_pos hbit]
    rfl
  · rw [if_neg (mt hlow.mp hbit), if_neg hbit]
    rfl

theorem crcTable_toBitVec (i : UInt8) : (crcTable i).toBitVec = shifts crcPoly 8 (i.toBitVec.setWidth 32) := by
  have hiter : ∀ (n : Nat) (c : UInt32), (crcBit^[n] c).toBitVec = shifts crcPoly n c.toBitVec := by
    intro n
    induction n with
    | zero => exact fun _ => rfl
    | succ n ih =>
      intro c
      rw [Function.iterate_succ_apply, ih, crcBit_toBitVec]
      exact (Function.iterate_succ_apply _ _ _).symm
  exact hiter 8 i.toUInt32

theorem crcByte_toBitVec (c : UInt32) (b : UInt8) : (crcByte c b).toBitVec = absorb crcPoly c.toBitVec b := by
  have hlow : ((c ^^^ b.toUInt32) &&& 0xFF).toUInt8.toBitVec =
      (c.toBitVec ^^^ b.toBitVec.setWidth 32).setWidth 8 := by
    apply BitVec.eq_of_getLsbD_eq
    intro i hi
    show (((c.toBitVec ^^^ b.toBitVec.setWidth 32) &&& 0xFF#32).setWidth 8).getLsbD i = _
    have hmask : ∀ i < 8, (0xFF#32).getLsbD i = true := by decide
    rw [BitVec.getLsbD_setWidth, BitVec.getLsbD_and, hmask i hi, Bool.and_true, ← BitVec.getLsbD_setWidth]
  have hrest : (c.toBitVec ^^^ b.toBitVec.setWidth 32) >>> 8 = c.toBitVec >>> 8 := by
    apply BitVec.eq_of_getLsbD_eq
    intro i hi
    rw [BitVec.getLsbD_ushiftRight, BitVec.getLsbD_xor, BitVec.getLsbD_setWidth, BitVec.getLsbD_ushiftRight,
      BitVec.getLsbD_of_ge b.toBitVec _ (by omega)]
    simp
  unfold crcByte absorb
  rw [UInt32.toBitVec_xor, crcTable_toBitVec, hlow, shifts_split 8 (c.toBitVec ^^^ b.toBitVec.setWidth 32), hrest]
  rfl

/-! ## The checksum -/

/-- **The table-driven checksum is the CRC of the bytes.** -/
theorem crc32_eq (data : List UInt8) : (crc32 data).toBitVec = run crcPoly crcOnes data ^^^ crcOnes := by
  have hfold : ∀ (c : UInt32), (data.foldl crcByte c).toBitVec = run crcPoly c.toBitVec data := by
    induction data with
    | nil => exact fun _ => rfl
    | cons b data ih =>
      intro c
      show (data.foldl crcByte (crcByte c b)).toBitVec = run crcPoly (absorb crcPoly c.toBitVec b) data
      rw [ih, crcByte_toBitVec]
  unfold crc32
  rw [UInt32.toBitVec_xor, hfold]
  rfl

/-- The reflected CRC-32, bit by bit: the register starts with all bits set, takes in the bits of the bytes one at a time,
    and is complemented at the end. -/
def bitwiseCrc32 (data : List UInt8) : BitVec 32 := ~~~serial 0xEDB88320#32 0xFFFFFFFF#32 (data.flatMap bits)

/-- **The table-driven checksum is the bitwise one.** -/
theorem crc32_bitwise (data : List UInt8) : (crc32 data).toBitVec = bitwiseCrc32 data := by
  rw [crc32_eq, bitwiseCrc32, ← BitVec.xor_allOnes, serial_bits (by decide)]
  rfl

-- the check value of the CRC-32
example : bitwiseCrc32 (ascii "123456789") = 0xCBF43926#32 := by decide +kernel

end NVSwitchFabric
