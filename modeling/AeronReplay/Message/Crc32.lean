import AeronReplay.Lib.Crc
import AeronReplay.Message.Header

set_option autoImplicit false

/-! # The message checksum

The table-driven CRC-32 of `MessageBuffer.h`. `crc32Step_eq` connects it to the reflected
register of the CRC library: one table step takes in one byte. From there on linearity
is available, and `crc32Run_eq_iff` says when replacing a stretch of bytes goes unnoticed. -/

namespace AeronReplay

/-- `CRC32_POLYNOMIAL`. -/
def CRC32_POLYNOMIAL : UInt32 := 0xEDB88320

/-- The body of the loop of `generateCRC32Entry`. -/
def crc32Bit (crc : UInt32) : UInt32 :=
  (crc >>> 1) ^^^ (if crc &&& 1 ≠ 0 then CRC32_POLYNOMIAL else 0)

def generateCRC32Entry (index : UInt8) : UInt32 := crc32Bit^[8] index.toUInt32

/-- `CRC32_TABLE`, a table of 256 entries. -/
def CRC32_TABLE (index : UInt8) : UInt32 := generateCRC32Entry index

/-- The body of the loops over header and payload bytes. -/
def crc32Step (crc : UInt32) (byte : UInt8) : UInt32 :=
  let index := ((crc ^^^ byte.toUInt32) &&& 0xFF).toUInt8
  (crc >>> 8) ^^^ CRC32_TABLE index

/-- The loop over a stretch of bytes. -/
def crc32Run (crc : UInt32) (bytes : List UInt8) : UInt32 := bytes.foldl crc32Step crc

def calculateCRC32 (data : List UInt8) : UInt32 := ~~~ crc32Run 0xFFFFFFFF data

/-- The checksum of a header, taken with the field `checksum` set to `0`, and of the first
`payload_length` bytes of a payload. -/
def calculateMessageCRC32 (header : MessageHeader) (payload : List UInt8)
    (payload_length : Nat) : UInt32 :=
  let temp_header := { header with checksum := 0 }
  let crc := crc32Run 0xFFFFFFFF temp_header.toBytes
  ~~~ crc32Run crc (payload.take payload_length)

/-! ## The table step is a step of the register -/

theorem crc32Bit_toBitVec (crc : UInt32) :
    (crc32Bit crc).toBitVec = Crc.bit CRC32_POLYNOMIAL.toBitVec crc.toBitVec := by
  have hlow : (crc &&& 1 ≠ 0) ↔ crc.toBitVec.getLsbD 0 = true := by
    rw [ne_eq, ← UInt32.toBitVec_inj]
    obtain ⟨x⟩ := crc
    show ¬ (x &&& 1#32 = 0#32) ↔ x.getLsbD 0 = true
    rw [← BitVec.toNat_inj, BitVec.toNat_and, BitVec.getLsbD, Nat.testBit_zero]
    show ¬ (x.toNat &&& 1 = 0) ↔ _
    rw [Nat.and_one_is_mod]
    simp
  unfold crc32Bit Crc.bit
  by_cases h : crc &&& 1 ≠ 0
  · rw [if_pos h, if_pos (hlow.mp h)]
    rfl
  · rw [if_neg h, if_neg (fun h' => h (hlow.mpr h'))]
    rfl

theorem crc32Bits_toBitVec (n : Nat) (crc : UInt32) :
    (crc32Bit^[n] crc).toBitVec = Crc.bits CRC32_POLYNOMIAL.toBitVec n crc.toBitVec := by
  induction n generalizing crc with
  | zero => rfl
  | succ n ih =>
      rw [Function.iterate_succ_apply, ih, crc32Bit_toBitVec]
      rfl

theorem crc32Step_eq (crc : UInt32) (byte : UInt8) :
    (crc32Step crc byte).toBitVec
      = Crc.byte CRC32_POLYNOMIAL.toBitVec crc.toBitVec byte.toBitVec := by
  have hindex : ((crc ^^^ byte.toUInt32) &&& 0xFF).toUInt8.toUInt32.toBitVec
      = (Crc.low (crc.toBitVec ^^^ byte.toBitVec.setWidth 32)).setWidth 32 := by
    obtain ⟨x⟩ := crc
    obtain ⟨b⟩ := byte
    show ((((x ^^^ b.setWidth 32) &&& 255#32).setWidth 8).setWidth 32)
      = ((x ^^^ b.setWidth 32).setWidth 8).setWidth 32
    have hmask : ((x ^^^ b.setWidth 32) &&& 255#32).setWidth 8
        = (x ^^^ b.setWidth 32).setWidth 8 := by
      rw [← BitVec.toNat_inj, BitVec.toNat_setWidth, BitVec.toNat_setWidth, BitVec.toNat_and]
      show (_ &&& (2 ^ 8 - 1)) % 2 ^ 8 = _
      rw [Nat.and_two_pow_sub_one_eq_mod, Nat.mod_mod]
    rw [hmask]
  calc (crc32Step crc byte).toBitVec
      = crc.toBitVec >>> 8 ^^^ Crc.bits CRC32_POLYNOMIAL.toBitVec 8
          ((crc ^^^ byte.toUInt32) &&& 0xFF).toUInt8.toUInt32.toBitVec := by
        rw [← crc32Bits_toBitVec]
        rfl
    _ = Crc.bits CRC32_POLYNOMIAL.toBitVec 8 (crc.toBitVec ^^^ byte.toBitVec.setWidth 32) := by
        rw [hindex, Crc.bits_eight _ (crc.toBitVec ^^^ _), Crc.shift_xor_byte]

theorem crc32Run_eq (crc : UInt32) (bytes : List UInt8) :
    (crc32Run crc bytes).toBitVec
      = Crc.run CRC32_POLYNOMIAL.toBitVec crc.toBitVec (bytes.map UInt8.toBitVec) := by
  induction bytes generalizing crc with
  | nil => rfl
  | cons b bs ih =>
      show (crc32Run (crc32Step crc b) bs).toBitVec = _
      rw [ih, crc32Step_eq]
      rfl

/-! ## Replaced bytes -/

/-- The bytewise difference of two stretches. -/
def bytesDiff (bs cs : List UInt8) : List UInt8 := List.zipWith (· ^^^ ·) bs cs

theorem bytesDiff_toBitVec (bs cs : List UInt8) :
    (bytesDiff bs cs).map UInt8.toBitVec
      = Crc.diff (bs.map UInt8.toBitVec) (cs.map UInt8.toBitVec) := by
  rw [bytesDiff, Crc.diff, List.map_zipWith, List.zipWith_map]
  rfl

/-- Replacing a stretch of bytes by another of the same length leaves the checksum as it was
exactly when the loop, started at `0`, ends at `0` on their difference. -/
theorem crc32Run_eq_iff (crc : UInt32) (pre bs cs post : List UInt8)
    (hlen : bs.length = cs.length) :
    crc32Run crc (pre ++ bs ++ post) = crc32Run crc (pre ++ cs ++ post) ↔
      crc32Run 0 (bytesDiff bs cs) = 0 := by
  have hpoly : CRC32_POLYNOMIAL.toBitVec.getLsbD (32 - 1) = true := by decide
  have h := Crc.run_eq_iff CRC32_POLYNOMIAL.toBitVec hpoly crc.toBitVec
    (pre.map UInt8.toBitVec) (bs.map UInt8.toBitVec) (cs.map UInt8.toBitVec)
    (post.map UInt8.toBitVec) (by rw [List.length_map, List.length_map, hlen])
  rw [← bytesDiff_toBitVec] at h
  simp only [← List.map_append, ← crc32Run_eq] at h
  rw [← UInt32.toBitVec_inj, h, ← UInt32.toBitVec_inj, crc32Run_eq]
  rfl

/-- **Bytes replaced within a stretch of four always change the register.** -/
theorem eq_of_crc32Run_eq (crc : UInt32) (pre bs cs post : List UInt8)
    (hlen : bs.length = cs.length) (hshort : bs.length ≤ 4)
    (h : crc32Run crc (pre ++ bs ++ post) = crc32Run crc (pre ++ cs ++ post)) : bs = cs := by
  have hrun := congrArg UInt32.toBitVec ((crc32Run_eq_iff crc pre bs cs post hlen).mp h)
  rw [crc32Run_eq] at hrun
  have hzero := Crc.residue_eq_zero CRC32_POLYNOMIAL.toBitVec (by decide)
    (by rw [List.length_map, bytesDiff, List.length_zipWith]; omega) hrun
  refine List.ext_getElem hlen fun i hb hc => ?_
  have hi : i < (bytesDiff bs cs).length := by
    rw [bytesDiff, List.length_zipWith]
    omega
  have hxor : (bytesDiff bs cs)[i].toBitVec = 0 :=
    hzero _ (List.mem_map.mpr ⟨_, List.getElem_mem hi, rfl⟩)
  simp only [bytesDiff, List.getElem_zipWith] at hxor
  exact UInt8.toBitVec_inj.mp (BitVec.xor_eq_zero_iff.mp hxor)

theorem crc32Run_append (crc : UInt32) (bs cs : List UInt8) :
    crc32Run crc (bs ++ cs) = crc32Run (crc32Run crc bs) cs := List.foldl_append

end AeronReplay
