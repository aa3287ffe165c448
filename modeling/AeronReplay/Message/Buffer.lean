import AeronReplay.Message.Crc32

set_option autoImplicit false

/-! # The message buffer

`MessageBuffer` (`MessageBuffer.h`): a header, room for `MAX_PAYLOAD_SIZE` payload bytes and the
metadata of the pool. Buffers are recycled: `reset` clears the header and the metadata and
leaves the payload bytes of the previous message in place. -/

namespace AeronReplay

/-- The payload array. -/
structure Payload where
  bytes : List UInt8
  length_eq : bytes.length = MAX_PAYLOAD_SIZE

structure MessageBuffer where
  header : MessageHeader
  payload : Payload
  in_use : Bool
  actual_payload_length : UInt32
  worker_dequeue_time_ns : Int64

/-- `memcpy` into the payload array, of at most `MAX_PAYLOAD_SIZE` bytes. -/
def Payload.memcpy (p : Payload) (src : List UInt8) : Payload where
  bytes := src.take MAX_PAYLOAD_SIZE ++ p.bytes.drop (src.take MAX_PAYLOAD_SIZE).length
  length_eq := by
    rw [List.length_append, List.length_drop, p.length_eq, List.length_take]
    omega

/-- `memcpy` into the header, of at most `sizeof(MessageHeader)` bytes. -/
def MessageHeader.memcpy (h : MessageHeader) (src : List UInt8) : MessageHeader :=
  .ofBytes (src.take HEADER_SIZE ++ h.toBytes.drop (src.take HEADER_SIZE).length)

/-- A buffer of a new pool. The constructor leaves the payload bytes as they are; here they
are `0`. -/
def MessageBuffer.fresh : MessageBuffer where
  header := .zero
  payload := ⟨List.replicate MAX_PAYLOAD_SIZE 0, List.length_replicate⟩
  in_use := false
  actual_payload_length := 0
  worker_dequeue_time_ns := 0

namespace MessageBuffer

/-- `reset()`. It leaves `in_use` to the pool. -/
def reset (b : MessageBuffer) : MessageBuffer :=
  { b with
    header := .zero
    actual_payload_length := 0
    worker_dequeue_time_ns := 0 }

def wireSize (b : MessageBuffer) : Nat := HEADER_SIZE + b.actual_payload_length.toNat

def copyFromAeron (b : MessageBuffer) (aeron_buffer : List UInt8) : MessageBuffer :=
  let header := b.header.memcpy aeron_buffer
  if HEADER_SIZE < aeron_buffer.length then
    let payload_size := min (aeron_buffer.length - HEADER_SIZE) MAX_PAYLOAD_SIZE
    { b with
      header := header
      payload := b.payload.memcpy (aeron_buffer.drop HEADER_SIZE)
      actual_payload_length := .ofNat payload_size }
  else { b with
    header := header
    actual_payload_length := 0 }

def validate (b : MessageBuffer) : Bool :=
  if !b.header.isValid then false
  else if b.header.version = 0 ∨ b.header.version > 100 then false
  else if b.header.message_length.toNat > HEADER_SIZE + MAX_PAYLOAD_SIZE then false
  else if b.header.hasChecksum then
    let expected_crc :=
      calculateMessageCRC32 b.header b.payload.bytes b.actual_payload_length.toNat
    if b.header.checksum ≠ expected_crc then false else true
  else true

/-- The payload bytes of the message in the buffer. -/
def payloadBytes (b : MessageBuffer) : List UInt8 :=
  b.payload.bytes.take b.actual_payload_length.toNat

/-! ## What a copied message looks like -/

theorem payload_memcpy_take (p : Payload) (src : List UInt8) :
    (p.memcpy src).bytes.take (min src.length MAX_PAYLOAD_SIZE) = src.take MAX_PAYLOAD_SIZE := by
  have hlen : (src.take MAX_PAYLOAD_SIZE).length = min src.length MAX_PAYLOAD_SIZE := by
    rw [List.length_take, Nat.min_comm]
  rw [Payload.memcpy, ← hlen, List.take_left]

theorem header_copyFromAeron_eq (b : MessageBuffer) (src : List UInt8) :
    (b.copyFromAeron src).header = b.header.memcpy src := by
  unfold copyFromAeron
  split <;> rfl

/-- `copyFromAeron` leaves the worker's timestamp alone. -/
theorem worker_dequeue_time_ns_copyFromAeron (b : MessageBuffer) (src : List UInt8) :
    (b.copyFromAeron src).worker_dequeue_time_ns = b.worker_dequeue_time_ns := by
  unfold copyFromAeron
  split <;> rfl

theorem actual_payload_length_copyFromAeron (b : MessageBuffer) (src : List UInt8) :
    (b.copyFromAeron src).actual_payload_length
      = .ofNat (min (src.length - HEADER_SIZE) MAX_PAYLOAD_SIZE) := by
  unfold copyFromAeron
  split
  · rfl
  next h =>
    rw [Nat.sub_eq_zero_of_le (Nat.le_of_not_lt h), Nat.zero_min]
    rfl

/-- The length that is stored is the number of bytes that are stored; the conversion to 32 bits
loses nothing. -/
theorem toNat_actual_payload_length_copyFromAeron (b : MessageBuffer) (src : List UInt8) :
    (b.copyFromAeron src).actual_payload_length.toNat
      = min (src.length - HEADER_SIZE) MAX_PAYLOAD_SIZE := by
  rw [actual_payload_length_copyFromAeron, UInt32.toNat_ofNat']
  refine Nat.mod_eq_of_lt (Nat.lt_of_le_of_lt (Nat.min_le_right _ _) ?_)
  decide

/-- The payload of a copied message is what follows the header, cut at `MAX_PAYLOAD_SIZE`. -/
theorem payloadBytes_copyFromAeron (b : MessageBuffer) (src : List UInt8) :
    (b.copyFromAeron src).payloadBytes = (src.drop HEADER_SIZE).take MAX_PAYLOAD_SIZE := by
  have hsize := toNat_actual_payload_length_copyFromAeron b src
  rw [← List.length_drop] at hsize
  rw [payloadBytes, hsize]
  unfold copyFromAeron
  split
  · exact payload_memcpy_take b.payload (src.drop HEADER_SIZE)
  next h =>
    rw [List.drop_eq_nil_of_le (Nat.le_of_not_lt h)]
    rfl

theorem wireSize_copyFromAeron (b : MessageBuffer) (src : List UInt8) :
    (b.copyFromAeron src).wireSize
      = HEADER_SIZE + min (src.length - HEADER_SIZE) MAX_PAYLOAD_SIZE := by
  rw [wireSize, toNat_actual_payload_length_copyFromAeron]

/-- A copied header that is as long as a header replaces the old one. -/
theorem header_copyFromAeron (b : MessageBuffer) (h : MessageHeader) (payload : List UInt8) :
    (b.copyFromAeron (h.toBytes ++ payload)).header = h := by
  have htake : (h.toBytes ++ payload).take HEADER_SIZE = h.toBytes :=
    List.take_left' h.length_toBytes
  rw [header_copyFromAeron_eq, MessageHeader.memcpy, htake, MessageHeader.ofBytes_toBytes]

theorem payloadBytes_copyFromAeron_of_le (b : MessageBuffer) (h : MessageHeader)
    {payload : List UInt8} (hlen : payload.length ≤ MAX_PAYLOAD_SIZE) :
    (b.copyFromAeron (h.toBytes ++ payload)).payloadBytes = payload := by
  rw [payloadBytes_copyFromAeron, List.drop_left' h.length_toBytes, List.take_of_length_le hlen]

end MessageBuffer

end AeronReplay
