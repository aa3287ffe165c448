import AeronReplay.Message.Crc32

set_option autoImplicit false

/-! # The checksum, bit by bit

What the checksum of a message is a checksum of: the packed header with the four bytes of
`checksum` cleared, followed by the payload. `calculateMessageCRC32_eq` compares the two chained
table-driven loops with the CRC-32 of IEEE 802.3 over these bytes, taken bit by bit. -/

namespace AeronReplay

open LittleEndian

/-- CRC-32 of IEEE 802.3: the register starts with all ones, takes in the message bit by bit with
the reflected polynomial, and is complemented at the end. -/
def crc32Reference (data : List UInt8) : UInt32 :=
  ~~~ ⟨Crc.serial 0xEDB88320#32 (BitVec.allOnes 32) (Crc.bitsOf (data.map UInt8.toBitVec))⟩

namespace TradingMessageUtils

/-- The inner loop body of the design document's `calculateCRC32`. -/
def crc32Bit (crc : UInt32) : UInt32 := (crc >>> 1) ^^^ (0xEDB88320 &&& -(crc &&& 1))

/-- `calculateCRC32` of the design document, which has no table. -/
def calculateCRC32 (data : List UInt8) : UInt32 :=
  ~~~ data.foldl (fun crc byte => crc32Bit^[8] (crc ^^^ byte.toUInt32)) 0xFFFFFFFF

end TradingMessageUtils

namespace MessageHeader

/-- The memory of a header with the four bytes at offset 56 cleared. -/
def clearChecksum (bs : List UInt8) : List UInt8 :=
  bs.take 56 ++ (List.replicate 4 0 ++ bs.drop 60)

/-- The member `checksum` is at offset 56. -/
theorem toBytes_checksum_zero (h : MessageHeader) :
    { h with checksum := 0 }.toBytes = clearChecksum h.toBytes := by
  have hzero : encode 4 (0 : UInt32).toNat = List.replicate 4 0 := rfl
  unfold clearChecksum toBytes leadingBytes trailingBytes
  simp only [List.append_assoc, hzero]
  rfl

end MessageHeader

/-! ## The loops -/

/-- The loop, as bits that go into the register. -/
theorem crc32Run_eq_serial (crc : UInt32) (bytes : List UInt8) :
    (crc32Run crc bytes).toBitVec
      = Crc.serial CRC32_POLYNOMIAL.toBitVec crc.toBitVec
          (Crc.bitsOf (bytes.map UInt8.toBitVec)) := by
  rw [crc32Run_eq, Crc.run_eq_serial _ (by decide)]

theorem calculateCRC32_eq_reference (data : List UInt8) :
    calculateCRC32 data = crc32Reference data := by
  have hrun : crc32Run 0xFFFFFFFF data
      = ⟨Crc.serial 0xEDB88320#32 (BitVec.allOnes 32) (Crc.bitsOf (data.map UInt8.toBitVec))⟩ :=
    UInt32.toBitVec_inj.mp (crc32Run_eq_serial 0xFFFFFFFF data)
  rw [calculateCRC32, crc32Reference, hrun]

/-- Masking with a negated bit is the choice the table generator makes. -/
theorem TradingMessageUtils.crc32Bit_eq (crc : UInt32) :
    TradingMessageUtils.crc32Bit crc = AeronReplay.crc32Bit crc := by
  have hlow : crc &&& 1 = 0 ∨ crc &&& 1 = 1 := by
    have hmod : (crc &&& 1).toNat = crc.toNat % 2 := by
      rw [UInt32.toNat_and]
      exact Nat.and_one_is_mod _
    obtain h | h := Nat.mod_two_eq_zero_or_one crc.toNat
    · exact Or.inl (UInt32.toNat_inj.mp (hmod.trans h))
    · exact Or.inr (UInt32.toNat_inj.mp (hmod.trans h))
  unfold TradingMessageUtils.crc32Bit AeronReplay.crc32Bit
  obtain h | h := hlow
  · rw [h]
    rfl
  · rw [h]
    rfl

/-- A step with the table is a step without it. -/
theorem crc32Step_eq_bits (crc : UInt32) (byte : UInt8) :
    crc32Step crc byte = TradingMessageUtils.crc32Bit^[8] (crc ^^^ byte.toUInt32) := by
  have hbit : TradingMessageUtils.crc32Bit = crc32Bit := funext TradingMessageUtils.crc32Bit_eq
  rw [← UInt32.toBitVec_inj, hbit, crc32Step_eq, crc32Bits_toBitVec]
  rfl

theorem calculateCRC32_eq_document (data : List UInt8) :
    calculateCRC32 data = TradingMessageUtils.calculateCRC32 data := by
  have hstep : crc32Step = fun crc byte =>
      TradingMessageUtils.crc32Bit^[8] (crc ^^^ byte.toUInt32) :=
    funext fun crc => funext fun byte => crc32Step_eq_bits crc byte
  rw [calculateCRC32, crc32Run, hstep, TradingMessageUtils.calculateCRC32]

/-- The two loops are one loop over the header with its checksum cleared and the payload. -/
theorem calculateMessageCRC32_eq_run (header : MessageHeader) (payload : List UInt8) (n : Nat) :
    calculateMessageCRC32 header payload n
      = ~~~ crc32Run 0xFFFFFFFF
          (MessageHeader.clearChecksum header.toBytes ++ payload.take n) := by
  rw [calculateMessageCRC32, ← crc32Run_append, MessageHeader.toBytes_checksum_zero]

/-! ## The result -/

/-- **The checksum of a message is the bit-by-bit CRC-32 of the packed header, its checksum bytes
cleared, followed by the payload bytes.** It is also what `calculateCRC32`, with and without the
table, makes of these bytes, and it does not depend on the checksum that the header stores. -/
theorem calculateMessageCRC32_eq (header : MessageHeader) (payload : List UInt8) (n : Nat) :
    let bytes := header.toBytes.take 56 ++ (List.replicate 4 0 ++ header.toBytes.drop 60)
      ++ payload.take n
    calculateMessageCRC32 header payload n = crc32Reference bytes ∧
    calculateMessageCRC32 header payload n = calculateCRC32 bytes ∧
    calculateMessageCRC32 header payload n = TradingMessageUtils.calculateCRC32 bytes ∧
    ∀ checksum : UInt32, calculateMessageCRC32 { header with checksum := checksum } payload n
      = calculateMessageCRC32 header payload n := by
  intro bytes
  have hdata : calculateMessageCRC32 header payload n = calculateCRC32 bytes :=
    calculateMessageCRC32_eq_run header payload n
  refine ⟨hdata.trans (calculateCRC32_eq_reference bytes), hdata,
    hdata.trans (calculateCRC32_eq_document bytes), fun checksum => rfl⟩

/-- The check value of the standard, for the nine bytes `"123456789"`. -/
example : crc32Reference [0x31, 0x32, 0x33, 0x34, 0x35, 0x36, 0x37, 0x38, 0x39] = 0xCBF43926 := by
  decide +kernel

end AeronReplay
