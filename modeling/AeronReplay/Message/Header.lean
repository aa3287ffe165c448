import AeronReplay.Lib.LittleEndian

set_option autoImplicit false

/-! # The message header

`MessageHeader` (`MessageBuffer.h`): a packed structure of 64 bytes that the publisher writes
and the subscriber copies in as it stands. `toBytes` is its memory on a little-endian machine
and `ofBytes` what a copied stretch of 64 bytes reads as. -/

namespace AeronReplay

/-- `MAX_PAYLOAD_SIZE`. -/
def MAX_PAYLOAD_SIZE : Nat := 4096

/-- `sizeof(MessageHeader)`. -/
def HEADER_SIZE : Nat := 64

/-- `FLAG_CHECKSUM_ENABLED`. -/
def FLAG_CHECKSUM_ENABLED : UInt8 := 0x01

/-- `MSG_TEST`, the message type the publisher sends. -/
def MSG_TEST : UInt16 := 99

/-- The four bytes `magic`. -/
structure Magic where
  magic0 : UInt8
  magic1 : UInt8
  magic2 : UInt8
  magic3 : UInt8
  deriving DecidableEq

/-- `"SEKR"`. -/
def Magic.sekr : Magic := ⟨0x53, 0x45, 0x4B, 0x52⟩

structure MessageHeader where
  magic : Magic
  version : UInt16
  message_type : UInt16
  sequence_number : UInt64
  event_time_ns : UInt64
  publish_time_ns : UInt64
  recv_time_ns : UInt64
  message_length : UInt32
  publisher_id : UInt16
  priority : UInt8
  flags : UInt8
  session_id : UInt64
  checksum : UInt32
  reserved : UInt32
  deriving DecidableEq

namespace MessageHeader

open LittleEndian

/-- The header that `memset` with `0` leaves. -/
def zero : MessageHeader := ⟨⟨0, 0, 0, 0⟩, 0, 0, 0, 0, 0, 0, 0, 0, 0, 0, 0, 0, 0⟩

def isValid (h : MessageHeader) : Bool := h.magic = .sekr

def hasChecksum (h : MessageHeader) : Bool := h.flags &&& FLAG_CHECKSUM_ENABLED ≠ 0

/-- The members up to `publish_time_ns`, which stand before `recv_time_ns`. -/
def leadingBytes (h : MessageHeader) : List UInt8 :=
  encode 1 h.magic.magic0.toNat ++ (encode 1 h.magic.magic1.toNat ++
  (encode 1 h.magic.magic2.toNat ++ (encode 1 h.magic.magic3.toNat ++
  (encode 2 h.version.toNat ++ (encode 2 h.message_type.toNat ++
  (encode 8 h.sequence_number.toNat ++ (encode 8 h.event_time_ns.toNat ++
  encode 8 h.publish_time_ns.toNat)))))))

/-- The members from `message_length`, which stand after `recv_time_ns`. -/
def trailingBytes (h : MessageHeader) : List UInt8 :=
  encode 4 h.message_length.toNat ++ (encode 2 h.publisher_id.toNat ++
  (encode 1 h.priority.toNat ++ (encode 1 h.flags.toNat ++
  (encode 8 h.session_id.toNat ++ (encode 4 h.checksum.toNat ++
  encode 4 h.reserved.toNat)))))

/-- The memory of a header. -/
def toBytes (h : MessageHeader) : List UInt8 :=
  h.leadingBytes ++ (encode 8 h.recv_time_ns.toNat ++ h.trailingBytes)

/-- The header that a stretch of 64 bytes reads as. -/
def ofBytes (bs : List UInt8) : MessageHeader where
  magic := ⟨.ofNat (field 0 1 bs), .ofNat (field 1 1 bs), .ofNat (field 2 1 bs),
    .ofNat (field 3 1 bs)⟩
  version := .ofNat (field 4 2 bs)
  message_type := .ofNat (field 6 2 bs)
  sequence_number := .ofNat (field 8 8 bs)
  event_time_ns := .ofNat (field 16 8 bs)
  publish_time_ns := .ofNat (field 24 8 bs)
  recv_time_ns := .ofNat (field 32 8 bs)
  message_length := .ofNat (field 40 4 bs)
  publisher_id := .ofNat (field 44 2 bs)
  priority := .ofNat (field 46 1 bs)
  flags := .ofNat (field 47 1 bs)
  session_id := .ofNat (field 48 8 bs)
  checksum := .ofNat (field 56 4 bs)
  reserved := .ofNat (field 60 4 bs)

/-! ## The layout is exact -/

@[simp] theorem length_leadingBytes (h : MessageHeader) : h.leadingBytes.length = 32 := by
  simp only [leadingBytes, List.length_append, length_encode]

@[simp] theorem length_trailingBytes (h : MessageHeader) : h.trailingBytes.length = 24 := by
  simp only [trailingBytes, List.length_append, length_encode]

/-- `static_assert(sizeof(MessageHeader) == 64)`. -/
@[simp] theorem length_toBytes (h : MessageHeader) : h.toBytes.length = HEADER_SIZE := by
  simp only [toBytes, List.length_append, length_encode, length_leadingBytes,
    length_trailingBytes, HEADER_SIZE]

/-- A header copied byte by byte is the same header. -/
theorem ofBytes_toBytes (h : MessageHeader) (rest : List UInt8) :
    ofBytes (h.toBytes ++ rest) = h := by
  obtain ⟨⟨m0, m1, m2, m3⟩, ver, ty, sq, ev, pub, rcv, len, pid, pr, fl, ses, crc, res⟩ := h
  simp [ofBytes, toBytes, leadingBytes, trailingBytes, List.append_assoc, field_skip, field_here]

/-- Every stretch of 64 bytes is the memory of the header that it reads as. -/
theorem toBytes_ofBytes {bs : List UInt8} (h : bs.length = HEADER_SIZE) :
    (ofBytes bs).toBytes = bs := by
  have h1 (n : Nat) : encode 1 (UInt8.ofNat n).toNat = encode 1 n := encode_mod 1 n
  have h2 (n : Nat) : encode 2 (UInt16.ofNat n).toNat = encode 2 n := encode_mod 2 n
  have h4 (n : Nat) : encode 4 (UInt32.ofNat n).toNat = encode 4 n := encode_mod 4 n
  have h8 (n : Nat) : encode 8 (UInt64.ofNat n).toNat = encode 8 n := encode_mod 8 n
  have hnext (off k : Nat) (hle : off + k ≤ 64) :
      encode k (field off k bs) ++ bs.drop (off + k) = bs.drop off :=
    encode_field_append (Nat.le_trans hle (Nat.le_of_eq h.symm))
  have hend : bs.drop 64 = [] := List.drop_eq_nil_of_le (Nat.le_of_eq h)
  simp only [toBytes, leadingBytes, trailingBytes, ofBytes, h1, h2, h4, h8, List.append_assoc]
  -- from the last member to the first
  rw [← List.append_nil (encode 4 (field 60 4 bs)), ← hend, hnext 60 4 (by decide),
    hnext 56 4 (by decide), hnext 48 8 (by decide), hnext 47 1 (by decide),
    hnext 46 1 (by decide), hnext 44 2 (by decide), hnext 40 4 (by decide),
    hnext 32 8 (by decide), hnext 24 8 (by decide), hnext 16 8 (by decide), hnext 8 8 (by decide),
    hnext 6 2 (by decide), hnext 4 2 (by decide), hnext 3 1 (by decide), hnext 2 1 (by decide),
    hnext 1 1 (by decide), hnext 0 1 (by decide)]
  rfl

end MessageHeader

end AeronReplay
