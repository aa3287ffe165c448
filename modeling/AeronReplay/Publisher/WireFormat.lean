import AeronReplay.Subscriber.FastPath

set_option autoImplicit false

/-! # The wire format, end to end

`AeronPublisher::run` builds a message, computes its checksum with `recv_time_ns = 0` and sends
it; the fast path stores the receive time into the header before anything checks the checksum.
`published_message_validates_iff` says which messages still validate. -/

namespace AeronReplay

open AeronSubscriber LittleEndian

namespace AeronPublisher

/-- The header before its checksum is set. -/
def unsignedHeader (sequence_number : UInt64) (event_time publish_time : Int64)
    (payload : List UInt8) : MessageHeader where
  magic := .sekr
  version := 1
  message_type := MSG_TEST
  sequence_number := sequence_number
  event_time_ns := event_time.toUInt64
  publish_time_ns := publish_time.toUInt64
  recv_time_ns := 0
  message_length := .ofNat (HEADER_SIZE + payload.length)
  publisher_id := 1
  priority := 128
  flags := FLAG_CHECKSUM_ENABLED
  session_id := 1
  checksum := 0
  reserved := 0

/-- The header of a published message. -/
def header (sequence_number : UInt64) (event_time publish_time : Int64)
    (payload : List UInt8) : MessageHeader :=
  let header := unsignedHeader sequence_number event_time publish_time payload
  { header with checksum := calculateMessageCRC32 header payload payload.length }

/-- The bytes that `run()` passes to `publish`. -/
def message (sequence_number : UInt64) (event_time publish_time : Int64)
    (payload : List UInt8) : List UInt8 :=
  (header sequence_number event_time publish_time payload).toBytes ++ payload

end AeronPublisher

/-! ## The checksum and the receive time -/

theorem MessageHeader.toBytes_split (h : MessageHeader) :
    h.toBytes = h.leadingBytes ++ encode 8 h.recv_time_ns.toNat ++ h.trailingBytes :=
  (List.append_assoc _ _ _).symm

theorem bytesDiff_zero (bs : List UInt8) : bytesDiff bs (List.replicate bs.length 0) = bs := by
  induction bs with
  | nil => rfl
  | cons b bs ih =>
      show (b ^^^ 0) :: bytesDiff bs (List.replicate bs.length 0) = b :: bs
      rw [ih, UInt8.xor_zero]

/-- Storing a receive time into a header leaves the checksum of the message as it was exactly
when the eight bytes of the time, taken alone, have the residue `0`. -/
theorem calculateMessageCRC32_stamp (h : MessageHeader) (payload : List UInt8) (n : Nat)
    (recv : UInt64) :
    calculateMessageCRC32 { h with recv_time_ns := recv } payload n
        = calculateMessageCRC32 { h with recv_time_ns := 0 } payload n ↔
      crc32Run 0 (encode 8 recv.toNat) = 0 := by
  have hzero : encode 8 (0 : UInt64).toNat = List.replicate (encode 8 recv.toNat).length 0 := by
    rw [length_encode]
    rfl
  unfold calculateMessageCRC32
  simp only [UInt32.not_inj, ← crc32Run_append, MessageHeader.toBytes_split, List.append_assoc]
  have hiff := crc32Run_eq_iff 0xFFFFFFFF { h with checksum := 0 }.leadingBytes
    (encode 8 recv.toNat) (encode 8 (0 : UInt64).toNat)
    ({ h with checksum := 0 }.trailingBytes ++ payload.take n)
    (by rw [length_encode, length_encode])
  rw [hzero, bytesDiff_zero, ← hzero] at hiff
  simp only [List.append_assoc] at hiff
  exact hiff

theorem calculateMessageCRC32_congr (h : MessageHeader) {p q : List UInt8} {n m : Nat}
    (hpq : p.take n = q.take m) :
    calculateMessageCRC32 h p n = calculateMessageCRC32 h q m := by
  unfold calculateMessageCRC32
  rw [hpq]

/-- The checksum does not depend on what the checksum field holds. -/
theorem calculateMessageCRC32_checksum (h : MessageHeader) (checksum : UInt32)
    (payload : List UInt8) (n : Nat) :
    calculateMessageCRC32 { h with checksum := checksum } payload n
      = calculateMessageCRC32 h payload n := by
  unfold calculateMessageCRC32
  rfl

/-- The header in the buffer that the fast path hands over. -/
theorem receive_header (buf : MessageBuffer) (h : MessageHeader) (payload : List UInt8)
    (recv : Int64) :
    (receive buf (h.toBytes ++ payload) recv).header
      = { h with recv_time_ns := recv.toUInt64 } := by
  have hstamp : (receive buf (h.toBytes ++ payload) recv).header
      = { (buf.copyFromAeron (h.toBytes ++ payload)).header with
          recv_time_ns := recv.toUInt64 } := rfl
  rw [hstamp, MessageBuffer.header_copyFromAeron]

/-- The payload in that buffer. -/
theorem receive_payloadBytes_of_le (buf : MessageBuffer) (h : MessageHeader)
    {payload : List UInt8} (hlen : payload.length ≤ MAX_PAYLOAD_SIZE) (recv : Int64) :
    (receive buf (h.toBytes ++ payload) recv).payloadBytes = payload := by
  have hcopied : (receive buf (h.toBytes ++ payload) recv).payloadBytes
      = (buf.copyFromAeron (h.toBytes ++ payload)).payloadBytes := by
    unfold receive MessageBuffer.payloadBytes
    rfl
  rw [hcopied, MessageBuffer.payloadBytes_copyFromAeron_of_le buf h hlen]

/-- `validate` on a message with sound constant fields is the comparison of checksums. -/
theorem validate_iff_of_fields {b : MessageBuffer} (hmagic : b.header.magic = .sekr)
    (hversion : b.header.version = 1)
    (hlen : b.header.message_length.toNat ≤ HEADER_SIZE + MAX_PAYLOAD_SIZE)
    (hflags : b.header.flags = FLAG_CHECKSUM_ENABLED) :
    b.validate = true ↔ b.header.checksum
      = calculateMessageCRC32 b.header b.payload.bytes b.actual_payload_length.toNat := by
  have hvalid : b.header.isValid = true := by simp [MessageHeader.isValid, hmagic]
  have hsum : b.header.hasChecksum = true := by
    rw [MessageHeader.hasChecksum, hflags]
    decide
  have hver : ¬ (b.header.version = 0 ∨ b.header.version > 100) := by
    rw [hversion]
    decide
  unfold MessageBuffer.validate
  rw [hvalid, hsum, if_neg hver, if_neg (Nat.not_lt.mpr hlen)]
  simp

/-- A published message validates on arrival exactly when stamping it leaves its checksum. -/
theorem validate_receive_iff_stamp (seq : UInt64) (event_time publish_time recv : Int64)
    {payload : List UInt8} (hlen : payload.length ≤ MAX_PAYLOAD_SIZE) (buf : MessageBuffer) :
    let h := AeronPublisher.unsignedHeader seq event_time publish_time payload
    (receive buf (AeronPublisher.message seq event_time publish_time payload) recv).validate
        = true ↔
      calculateMessageCRC32 { h with recv_time_ns := recv.toUInt64 } payload payload.length
        = calculateMessageCRC32 { h with recv_time_ns := 0 } payload payload.length := by
  intro h
  let b := receive buf (AeronPublisher.message seq event_time publish_time payload) recv
  have hheader : b.header = { AeronPublisher.header seq event_time publish_time payload with
      recv_time_ns := recv.toUInt64 } := receive_header buf _ payload recv
  have hpayload : b.payloadBytes = payload :=
    receive_payloadBytes_of_le buf (AeronPublisher.header seq event_time publish_time payload)
      hlen recv
  have hlength : b.header.message_length.toNat ≤ HEADER_SIZE + MAX_PAYLOAD_SIZE := by
    rw [hheader]
    show (UInt32.ofNat (HEADER_SIZE + payload.length)).toNat ≤ _
    rw [UInt32.toNat_ofNat']
    exact Nat.le_trans (Nat.mod_le _ _) (Nat.add_le_add_left hlen _)
  have hcrc : calculateMessageCRC32 b.header b.payload.bytes b.actual_payload_length.toNat
      = calculateMessageCRC32 { h with recv_time_ns := recv.toUInt64 } payload payload.length := by
    have hbytes : b.payload.bytes.take b.actual_payload_length.toNat
        = payload.take payload.length := by
      rw [List.take_length]
      exact hpayload
    rw [hheader, calculateMessageCRC32_congr _ hbytes]
    exact calculateMessageCRC32_checksum { h with recv_time_ns := recv.toUInt64 } _ _ _
  have hfields := validate_iff_of_fields (b := b) (by rw [hheader]; rfl) (by rw [hheader]; rfl)
    hlength (by rw [hheader]; rfl)
  rw [hcrc, hheader] at hfields
  exact hfields.trans eq_comm

/-! ## The result -/

/-- **A published message that arrives unaltered validates exactly when the CRC loop, started
at `0`, ends at `0` on the eight bytes of the receive time**, whatever its sequence number, its
timestamps, its payload and the buffer it is copied into. -/
theorem published_message_validates_iff (seq : UInt64) (event_time publish_time recv : Int64)
    (payload : List UInt8) (hlen : payload.length ≤ MAX_PAYLOAD_SIZE) (buf : MessageBuffer) :
    (receive buf (AeronPublisher.message seq event_time publish_time payload) recv).validate
        = true ↔
      crc32Run 0 (encode 8 recv.toUInt64.toNat) = 0 :=
  (validate_receive_iff_stamp seq event_time publish_time recv hlen buf).trans
    (calculateMessageCRC32_stamp _ payload payload.length recv.toUInt64)

/-- A receive time at which the condition holds, and the nanosecond after it. -/
theorem published_message_validates_iff_stamped :
    (receive .fresh (AeronPublisher.message 3 1348177100204407000 1348177100204408000
      [0x53, 0x45, 0x4B, 0x52]) 1348177100204408835).validate = true ∧
    (receive .fresh (AeronPublisher.message 3 1348177100204407000 1348177100204408000
      [0x53, 0x45, 0x4B, 0x52]) 1348177100204408836).validate = false := by
  constructor
  · exact (published_message_validates_iff 3 _ _ 1348177100204408835 _ (by decide) .fresh).mpr
      (by decide)
  · apply Bool.eq_false_iff.mpr
    intro hvalid
    have hresidue := (published_message_validates_iff 3 _ _ 1348177100204408836 _ (by decide)
      .fresh).mp hvalid
    exact absurd hresidue (by decide)

/-- The first message of a publisher, received at time `1`, does not validate. -/
theorem published_message_invalid_at_one :
    (receive .fresh (AeronPublisher.message 0 0 0 []) 1).validate = false := by
  rw [Bool.eq_false_iff]
  intro hvalid
  have hsame := (validate_receive_iff_stamp 0 0 0 1 (by decide) .fresh).mp hvalid
  have hresidue := (calculateMessageCRC32_stamp _ _ _ (1 : Int64).toUInt64).mp hsame
  exact absurd hresidue (by decide)

end AeronReplay
