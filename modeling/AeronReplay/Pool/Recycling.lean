import AeronReplay.Pool.BufferPool

set_option autoImplicit false

/-! # Recycled buffers

A buffer that `allocate` hands out again still holds the payload bytes of its last message.
`contents_of_allocate` says that none of them can be read: the contents of the buffer after
`copyFromAeron` are a function of the fragment alone. -/

namespace AeronReplay

namespace MessageBuffer

/-- What the subscriber's threads read of a message in a buffer. -/
structure Contents where
  header : MessageHeader
  actual_payload_length : UInt32
  worker_dequeue_time_ns : Int64
  payloadBytes : List UInt8

def contents (b : MessageBuffer) : Contents :=
  ⟨b.header, b.actual_payload_length, b.worker_dequeue_time_ns, b.payloadBytes⟩

/-- The contents that a fragment gives: a short header is filled up with zeros, and a long payload
is cut. -/
def fragmentContents (src : List UInt8) : Contents where
  header := .ofBytes ((src ++ List.replicate HEADER_SIZE 0).take HEADER_SIZE)
  actual_payload_length := .ofNat (min (src.length - HEADER_SIZE) MAX_PAYLOAD_SIZE)
  worker_dequeue_time_ns := 0
  payloadBytes := (src.drop HEADER_SIZE).take MAX_PAYLOAD_SIZE

/-! ## Copying into a buffer -/

/-- Into a cleared header, a short fragment is copied as if it were followed by zeros. -/
theorem memcpy_zero (src : List UInt8) :
    MessageHeader.zero.memcpy src
      = .ofBytes ((src ++ List.replicate HEADER_SIZE 0).take HEADER_SIZE) := by
  have hzero : MessageHeader.zero.toBytes = List.replicate HEADER_SIZE 0 := by decide
  rw [MessageHeader.memcpy, hzero, List.take_append, List.take_replicate, List.drop_replicate,
    List.length_take]
  congr 3
  omega

/-- **What is read after a reset and a copy depends only on the fragment.** -/
theorem contents_copyFromAeron {b : MessageBuffer} (hheader : b.header = .zero)
    (htime : b.worker_dequeue_time_ns = 0) (src : List UInt8) :
    (b.copyFromAeron src).contents = fragmentContents src := by
  rw [contents, header_copyFromAeron_eq, actual_payload_length_copyFromAeron,
    worker_dequeue_time_ns_copyFromAeron, payloadBytes_copyFromAeron, hheader, htime, memcpy_zero]
  rfl

/-! ## What a fragment of some length gives -/

/-- The bytes of the header that a fragment gives. -/
theorem fragmentContents_header_toBytes (src : List UInt8) :
    (fragmentContents src).header.toBytes
      = (src ++ List.replicate HEADER_SIZE 0).take HEADER_SIZE := by
  refine MessageHeader.toBytes_ofBytes ?_
  rw [List.length_take, List.length_append, List.length_replicate]
  omega

theorem fragmentContents_header_of_le {src : List UInt8} (h : HEADER_SIZE ≤ src.length) :
    (fragmentContents src).header.toBytes = src.take HEADER_SIZE := by
  rw [fragmentContents_header_toBytes, List.take_append_of_le_length h]

theorem fragmentContents_header_of_lt {src : List UInt8} (h : src.length < HEADER_SIZE) :
    (fragmentContents src).header.toBytes
      = src ++ List.replicate (HEADER_SIZE - src.length) 0 := by
  rw [fragmentContents_header_toBytes, List.take_append, List.take_replicate,
    List.take_of_length_le (Nat.le_of_lt h), Nat.min_eq_left (Nat.sub_le _ _)]

/-- A message that fits is stored as it stands. -/
theorem fragmentContents_message (h : MessageHeader) {payload : List UInt8}
    (hlen : payload.length ≤ MAX_PAYLOAD_SIZE) :
    (fragmentContents (h.toBytes ++ payload)).header = h ∧
      (fragmentContents (h.toBytes ++ payload)).payloadBytes = payload := by
  constructor
  · unfold fragmentContents
    rw [List.append_assoc, List.take_left' h.length_toBytes]
    have hback := MessageHeader.ofBytes_toBytes h []
    rwa [List.append_nil] at hback
  · unfold fragmentContents
    rw [List.drop_left' h.length_toBytes, List.take_of_length_le hlen]

/-- A fragment that is too long is cut after `HEADER_SIZE + MAX_PAYLOAD_SIZE` bytes. -/
theorem fragmentContents_long {src : List UInt8} (h : HEADER_SIZE ≤ src.length) :
    (fragmentContents src).header.toBytes ++ (fragmentContents src).payloadBytes
      = src.take (HEADER_SIZE + MAX_PAYLOAD_SIZE) := by
  rw [fragmentContents_header_of_le h, List.take_add]
  rfl

end MessageBuffer

/-! ## The result -/

open MessageBuffer

namespace BufferPool

/-- The buffer that is handed out has been reset. -/
theorem buffer_of_allocate {PoolSize : Nat} {p p' : BufferPool PoolSize} {b : Fin PoolSize}
    (halloc : p.allocate = (some b, p')) :
    p'.buffers_ b = { (p.buffers_ b).reset with in_use := true } := by
  obtain ⟨-, hnone⟩ | ⟨b', hsome, -, hbuffers⟩ := allocate_spec p
  · rw [hnone] at halloc
    cases halloc
  · rw [halloc] at hsome hbuffers
    obtain rfl : b = b' := Option.some.inj hsome
    rw [hbuffers, Function.update_self]

/-- **A recycled buffer carries nothing over.** Whatever the pool and its buffers hold, the contents
of an allocated buffer after `copyFromAeron` are those of the fragment: a message that fits is
stored as it stands, a longer fragment is cut, a shorter one is filled up with zeros. -/
theorem contents_of_allocate {PoolSize : Nat} (p p' : BufferPool PoolSize) (b : Fin PoolSize)
    (halloc : p.allocate = (some b, p')) (src : List UInt8) :
    let buf := (p'.buffers_ b).copyFromAeron src
    buf.contents = fragmentContents src ∧
    buf.actual_payload_length.toNat = min (src.length - HEADER_SIZE) MAX_PAYLOAD_SIZE ∧
    buf.payloadBytes.length = buf.actual_payload_length.toNat ∧
    (∀ (h : MessageHeader) (payload : List UInt8), src = h.toBytes ++ payload →
      payload.length ≤ MAX_PAYLOAD_SIZE →
      buf.header = h ∧ buf.payloadBytes = payload ∧ buf.wireSize = src.length) ∧
    (HEADER_SIZE + MAX_PAYLOAD_SIZE < src.length →
      buf.header.toBytes ++ buf.payloadBytes = src.take (HEADER_SIZE + MAX_PAYLOAD_SIZE)) ∧
    (src.length < HEADER_SIZE →
      buf.header.toBytes = src ++ List.replicate (HEADER_SIZE - src.length) 0 ∧
      buf.payloadBytes = []) := by
  intro buf
  have hreset := buffer_of_allocate halloc
  have hcontents : buf.contents = fragmentContents src :=
    contents_copyFromAeron (by rw [hreset]; rfl) (by rw [hreset]; rfl) src
  have hheader : buf.header = (fragmentContents src).header := congrArg Contents.header hcontents
  have hpayload : buf.payloadBytes = (fragmentContents src).payloadBytes :=
    congrArg Contents.payloadBytes hcontents
  have hlen : buf.actual_payload_length.toNat = _ :=
    toNat_actual_payload_length_copyFromAeron (p'.buffers_ b) src
  refine ⟨hcontents, hlen, ?_, ?_, ?_, ?_⟩
  · rw [hlen, hpayload, fragmentContents, List.length_take, List.length_drop, Nat.min_comm]
  · rintro h payload rfl hle
    obtain ⟨hh, hp⟩ := fragmentContents_message h hle
    refine ⟨hheader.trans hh, hpayload.trans hp, ?_⟩
    have hsize : buf.wireSize = _ := wireSize_copyFromAeron (p'.buffers_ b) _
    rw [hsize, List.length_append, h.length_toBytes, Nat.add_sub_cancel_left,
      Nat.min_eq_left hle]
  · intro hlong
    rw [hheader, hpayload]
    exact fragmentContents_long (Nat.le_trans (Nat.le_add_right _ _) (Nat.le_of_lt hlong))
  · intro hshort
    rw [hheader, hpayload]
    refine ⟨fragmentContents_header_of_lt hshort, ?_⟩
    rw [fragmentContents, List.drop_eq_nil_of_le (Nat.le_of_lt hshort), List.take_nil]

/-- A pool whose only buffer still holds a message. -/
def stalePool : BufferPool 1 where
  buffers_ _ := MessageBuffer.fresh.copyFromAeron (List.replicate 100 7)
  free_list_ _ := 0
  free_count_ := 1

/-- The buffer of `stalePool`, reused for three bytes. -/
theorem contents_of_allocate_stalePool :
    ((stalePool.allocate.2.buffers_ 0).copyFromAeron [1, 2, 3]).contents
      = fragmentContents [1, 2, 3] :=
  (contents_of_allocate stalePool stalePool.allocate.2 0 rfl [1, 2, 3]).1

end BufferPool

end AeronReplay
