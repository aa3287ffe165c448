import AeronReplay.Message.Buffer

set_option autoImplicit false

/-! # The fast path of the subscriber

The parts of `AeronSubscriber::handleMessageFastPath` that touch nothing but the subscriber's
own state and the buffer it holds: the copy of the fragment and the receive stamp, gap
detection and the ring of recent sequence numbers (`AeronSubscriber.cpp`). Sequence numbers
travel as `uint64_t` and are tracked as `int64_t`; the conversions and the arithmetic wrap.

`gaps_recovered_` depends on the archive and is only printed; it is in `System/GapRecovery.lean`. -/

namespace AeronReplay

/-- A fragment as `run()` passes it to the fast path: its bytes and `header.position()`. -/
structure Fragment where
  bytes : List UInt8
  position : Int64
  deriving DecidableEq

/-- `SubscriberConfig`, the fields the fast path reads. A negative window size makes `resize`
throw in the constructor, so the model has none. -/
structure SubscriberConfig where
  gap_recovery_enabled : Bool := true
  max_gap_tolerance : Int64 := 5
  duplicate_check_enabled : Bool := true
  duplicate_window_size : Nat := 1000

/-- The subscriber's gap and duplicate tracking. -/
structure Tracking where
  expected_sequence_ : Int64
  duplicate_buffer_ : List Int64
  duplicate_buffer_pos_ : Nat

namespace AeronSubscriber

/-! ## Copy and stamp -/

/-- `copyFromAeron` followed by `header.recv_time_ns = recv_timestamp`. -/
def receive (msg_buf : MessageBuffer) (buffer : List UInt8) (recv_timestamp : Int64) :
    MessageBuffer :=
  let msg_buf := msg_buf.copyFromAeron buffer
  { msg_buf with header := { msg_buf.header with recv_time_ns := recv_timestamp.toUInt64 } }

/-! ## Gaps and duplicates -/

/-- The tracking state that `AeronSubscriber(config)` sets up. -/
def initialTracking (config : SubscriberConfig) : Tracking where
  expected_sequence_ := 0
  duplicate_buffer_ :=
    if config.duplicate_check_enabled then List.replicate config.duplicate_window_size (-1)
    else []
  duplicate_buffer_pos_ := 0

/-- `checkForGaps`. It also initialises `expected_sequence_` at the first message. -/
def checkForGaps (config : SubscriberConfig) (t : Tracking) (message_number : Int64) :
    Bool × Tracking :=
  if t.expected_sequence_ = 0 then
    (false, { t with expected_sequence_ := message_number + 1 })
  else if message_number < t.expected_sequence_ then (false, t)
  else if message_number > t.expected_sequence_ then
    let gap_size := message_number - t.expected_sequence_
    if gap_size ≤ config.max_gap_tolerance then (true, t) else (false, t)
  else (false, t)

def isDuplicate (config : SubscriberConfig) (t : Tracking) (message_number : Int64) : Bool :=
  if !config.duplicate_check_enabled || t.duplicate_buffer_.isEmpty then false
  else t.duplicate_buffer_.any (· = message_number)

def addToDecluplicationBuffer (config : SubscriberConfig) (t : Tracking)
    (message_number : Int64) : Tracking :=
  if !config.duplicate_check_enabled || t.duplicate_buffer_.isEmpty then t
  else { t with
    duplicate_buffer_ := t.duplicate_buffer_.set t.duplicate_buffer_pos_ message_number
    duplicate_buffer_pos_ := (t.duplicate_buffer_pos_ + 1) % t.duplicate_buffer_.length }

/-- What steps 4 to 6 of the fast path decide: the range passed to
`triggerImmediateGapRecovery`, whether the message is dropped as a duplicate, and the tracking
state after it. -/
structure Verdict where
  gap : Option (Int64 × Int64)
  duplicate : Bool
  tracking : Tracking

/-- Step 4 of the fast path. -/
def detectGap (config : SubscriberConfig) (t : Tracking) (message_number : Int64) :
    Option (Int64 × Int64) × Tracking :=
  if config.gap_recovery_enabled then
    let (found, t) := checkForGaps config t message_number
    (if found then some (t.expected_sequence_, message_number - 1) else none, t)
  else (none, t)

/-- Steps 4 to 6 of the fast path. -/
def track (config : SubscriberConfig) (t : Tracking) (message_number : Int64) : Verdict :=
  let (gap, t) := detectGap config t message_number
  if config.duplicate_check_enabled && isDuplicate config t message_number then
    ⟨gap, true, t⟩
  else
    -- also where the number is smaller than the one expected
    let t := { t with expected_sequence_ := message_number + 1 }
    let t := if config.duplicate_check_enabled
      then addToDecluplicationBuffer config t message_number else t
    ⟨gap, false, t⟩

/-! ## What decides about a message -/

section Track

variable {config : SubscriberConfig} {t : Tracking} {message_number : Int64}

theorem isDuplicate_iff : isDuplicate config t message_number = true ↔
    config.duplicate_check_enabled = true ∧ message_number ∈ t.duplicate_buffer_ := by
  unfold isDuplicate
  by_cases hcheck : config.duplicate_check_enabled = true
  · cases hring : t.duplicate_buffer_ with
    | nil => simp [hcheck]
    | cons n ns => simp [hcheck, eq_comm (b := message_number)]
  · simp [hcheck]

theorem mem_addToDecluplicationBuffer {n : Int64}
    (h : n ∈ (addToDecluplicationBuffer config t message_number).duplicate_buffer_) :
    n ∈ t.duplicate_buffer_ ∨ n = message_number := by
  unfold addToDecluplicationBuffer at h
  split at h
  · exact Or.inl h
  · exact List.mem_or_eq_of_mem_set h

/-- Gap detection does not touch the ring. -/
theorem detectGap_ring :
    (detectGap config t message_number).2.duplicate_buffer_ = t.duplicate_buffer_ := by
  unfold detectGap checkForGaps
  grind

/-- A message is dropped exactly when its number is in the ring. -/
theorem track_duplicate : (track config t message_number).duplicate = true ↔
    config.duplicate_check_enabled = true ∧ message_number ∈ t.duplicate_buffer_ := by
  have hdup : isDuplicate config (detectGap config t message_number).2 message_number = true ↔
      config.duplicate_check_enabled = true ∧ message_number ∈ t.duplicate_buffer_ := by
    rw [isDuplicate_iff, detectGap_ring]
  unfold track
  grind

/-- Only the number of the message enters the ring, and only if the message is not dropped. -/
theorem mem_track {n : Int64}
    (h : n ∈ (track config t message_number).tracking.duplicate_buffer_) :
    n ∈ t.duplicate_buffer_ ∨
      n = message_number ∧ (track config t message_number).duplicate = false := by
  have hring : (detectGap config t message_number).2.duplicate_buffer_ = t.duplicate_buffer_ :=
    detectGap_ring
  unfold track at h ⊢
  dsimp only at h ⊢
  split at h
  · exact Or.inl (hring ▸ h)
  · rename_i hnew
    rw [if_neg hnew]
    by_cases hcheck : config.duplicate_check_enabled = true
    · rw [if_pos hcheck] at h
      rcases mem_addToDecluplicationBuffer h with hold | rfl
      · exact Or.inl (hring ▸ hold)
      · exact Or.inr ⟨rfl, rfl⟩
    · rw [if_neg hcheck] at h
      exact Or.inl (hring ▸ h)

/-! ## What becomes of the tracking state -/

/-- Gap detection writes nothing but `expected_sequence_`, and that at the first message only. -/
theorem detectGap_tracking : (detectGap config t message_number).2
    = if config.gap_recovery_enabled ∧ t.expected_sequence_ = 0
      then { t with expected_sequence_ := message_number + 1 } else t := by
  unfold detectGap checkForGaps
  grind

theorem track_gap :
    (track config t message_number).gap = (detectGap config t message_number).1 := by
  unfold track
  grind

/-- The range that is recovered: from the expected message to the one before this. -/
theorem detectGap_some {lo hi : Int64} :
    (detectGap config t message_number).1 = some (lo, hi) ↔
      config.gap_recovery_enabled = true ∧ t.expected_sequence_ ≠ 0 ∧
        t.expected_sequence_ < message_number ∧
        message_number - t.expected_sequence_ ≤ config.max_gap_tolerance ∧
        lo = t.expected_sequence_ ∧ hi = message_number - 1 := by
  unfold detectGap checkForGaps
  grind

theorem track_of_duplicate (h : (track config t message_number).duplicate = true) :
    (track config t message_number).tracking = (detectGap config t message_number).2 := by
  unfold track at h ⊢
  grind

/-- An accepted message is the last one expected so far and enters the ring. -/
theorem track_of_accepted (h : (track config t message_number).duplicate = false) :
    (track config t message_number).tracking
      = addToDecluplicationBuffer config
          { t with expected_sequence_ := message_number + 1 } message_number := by
  have hcopy : { (detectGap config t message_number).2 with
      expected_sequence_ := message_number + 1 }
        = { t with expected_sequence_ := message_number + 1 } := by
    rw [detectGap_tracking]
    split <;> rfl
  have hadd : ∀ t', config.duplicate_check_enabled = false →
      addToDecluplicationBuffer config t' message_number = t' := by
    intro t' hcheck
    unfold addToDecluplicationBuffer
    simp [hcheck]
  unfold track at h ⊢
  dsimp only at h ⊢
  split at h
  · cases h
  · rename_i hnew
    rw [if_neg hnew, ← hcopy]
    dsimp only
    split
    · rfl
    · rename_i hcheck
      exact (hadd _ (Bool.eq_false_iff.mpr hcheck)).symm

end Track

end AeronSubscriber

/-! ## What the fast path reads from a fragment

The buffer comes from `allocate`, which has reset it, so that header and payload depend on the
fragment alone, also where the fragment is shorter than a header. -/

namespace Fragment

def header (f : Fragment) : MessageHeader := MessageHeader.zero.memcpy f.bytes

def sequence_number (f : Fragment) : UInt64 := f.header.sequence_number

/-- `int64_t message_number`. -/
def message_number (f : Fragment) : Int64 := f.sequence_number.toInt64

/-- The conversion to `int64_t` tells all sequence numbers apart. -/
theorem sequence_number_of_message_number {f g : Fragment}
    (h : f.message_number = g.message_number) : f.sequence_number = g.sequence_number :=
  congrArg Int64.toUInt64 h

def payload (f : Fragment) : List UInt8 := (f.bytes.drop HEADER_SIZE).take MAX_PAYLOAD_SIZE

end Fragment

namespace AeronSubscriber

theorem header_copyFromAeron_reset (b : MessageBuffer) (f : Fragment) :
    (b.reset.copyFromAeron f.bytes).header = f.header :=
  MessageBuffer.header_copyFromAeron_eq b.reset f.bytes

theorem receive_sequence_number (b : MessageBuffer) (f : Fragment) (recv_timestamp : Int64) :
    (receive b.reset f.bytes recv_timestamp).header.sequence_number = f.sequence_number := by
  show (b.reset.copyFromAeron f.bytes).header.sequence_number = _
  rw [header_copyFromAeron_reset]
  rfl

theorem receive_payloadBytes (b : MessageBuffer) (f : Fragment) (recv_timestamp : Int64) :
    (receive b.reset f.bytes recv_timestamp).payloadBytes = f.payload :=
  MessageBuffer.payloadBytes_copyFromAeron b.reset f.bytes

theorem receive_in_use (b : MessageBuffer) (bytes : List UInt8) (recv_timestamp : Int64) :
    (receive b bytes recv_timestamp).in_use = b.in_use := by
  show (b.copyFromAeron bytes).in_use = b.in_use
  unfold MessageBuffer.copyFromAeron
  split <;> rfl

end AeronSubscriber

end AeronReplay
