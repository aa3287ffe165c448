import AeronReplay.Checkpoint.Record
import AeronReplay.Pool.BufferPool
import AeronReplay.Queue.RingQueue
import AeronReplay.Subscriber.FastPath

set_option autoImplicit false

/-! # One call of the fast path

`AeronSubscriber::handleMessageFastPath` as a whole (`AeronSubscriber.cpp`), on whatever pool
and queue it finds: the message is dropped where no buffer is free, where it is a duplicate or
where the queue is full, and is enqueued otherwise. Nothing interferes during the call.

The queue holds pointers, of which `addr b` is the one to buffer `b` of the pool.
`drop_keeps_state_iff` says when a message that cannot be delivered leaves no trace. -/

namespace AeronReplay

/-- The members of `AeronSubscriber` that the fast path reads and writes. `checkpoint_` is the
tuple in the checkpoint, if `enableCheckpoint` has been called. -/
structure AeronSubscriber where
  tracking : Tracking
  zc_messages_received_ : UInt64
  zc_buffer_allocation_failures_ : UInt64
  zc_queue_full_failures_ : UInt64
  gaps_detected_ : UInt64
  duplicates_detected_ : UInt64
  checkpoint_ : Option CheckpointData

/-- A fragment, and what the fast path finds when it is called for it: the pool, the queue and
what the clock is going to return. -/
structure Delivery (PoolSize : Nat) (Pointer : Type) where
  fragment : Fragment
  buffer_pool_ : BufferPool PoolSize
  message_queue_ : RingQueue (Option Pointer)
  recv_timestamp : Int64
  timestamp_ns : Int64

namespace AeronSubscriber

/-- The ways out of the fast path. -/
inductive Exit where
  | allocationFailed
  | duplicate
  | queueFull
  | delivered
  deriving DecidableEq

/-- What a call leaves behind; `gap` is the range passed to `triggerImmediateGapRecovery`. -/
structure Outcome (PoolSize : Nat) (Pointer : Type) where
  exit : Exit
  gap : Option (Int64 × Int64)
  subscriber : AeronSubscriber
  buffer_pool_ : BufferPool PoolSize
  message_queue_ : RingQueue (Option Pointer)

/-- A new subscriber, on the tuple that has been loaded if checkpoints are enabled. -/
def fresh (config : SubscriberConfig) (checkpoint_ : Option CheckpointData) :
    AeronSubscriber where
  tracking := initialTracking config
  zc_messages_received_ := 0
  zc_buffer_allocation_failures_ := 0
  zc_queue_full_failures_ := 0
  gaps_detected_ := 0
  duplicates_detected_ := 0
  checkpoint_ := checkpoint_

/-- The subscriber after steps 4 to 6. -/
def afterTracking (s : AeronSubscriber) (v : Verdict) : AeronSubscriber :=
  { s with
    tracking := v.tracking
    gaps_detected_ := if v.gap.isSome then s.gaps_detected_ + 1 else s.gaps_detected_
    duplicates_detected_ :=
      if v.duplicate then s.duplicates_detected_ + 1 else s.duplicates_detected_ }

/-- Steps 8 and 9. -/
def countAndUpdate (s : AeronSubscriber) (sequence_number : UInt64) (position : Int64)
    (timestamp_ns : Int64) : AeronSubscriber :=
  let zc_messages_received_ := s.zc_messages_received_ + 1
  { s with
    zc_messages_received_ := zc_messages_received_
    checkpoint_ := s.checkpoint_.map fun _ => {
      last_sequence_number := sequence_number.toInt64
      last_position := position
      message_count := zc_messages_received_.toInt64
      timestamp_ns := timestamp_ns } }

variable {PoolSize : Nat} {Pointer : Type} (N : Ring.Size) (addr : Fin PoolSize → Pointer)
  (config : SubscriberConfig)

def handleMessageFastPath (s : AeronSubscriber) (d : Delivery PoolSize Pointer) :
    Outcome PoolSize Pointer :=
  match d.buffer_pool_.allocate with
  | (none, pool) =>
    ⟨.allocationFailed, none,
      { s with zc_buffer_allocation_failures_ := s.zc_buffer_allocation_failures_ + 1 },
      pool, d.message_queue_⟩
  | (some msg_buf, pool) =>
    -- step 3
    let contents := receive (pool.buffers_ msg_buf) d.fragment.bytes d.recv_timestamp
    let pool := pool.write msg_buf contents
    -- steps 4 to 6
    let v := track config s.tracking contents.header.sequence_number.toInt64
    let s := s.afterTracking v
    if v.duplicate then
      ⟨.duplicate, v.gap, s, pool.deallocate (.buffer msg_buf), d.message_queue_⟩
    else
      -- step 7, with the tracking state already advanced
      match RingQueue.enqueue (messageQueue N Pointer) d.message_queue_ (some (addr msg_buf)) with
      | (false, queue) =>
        ⟨.queueFull, v.gap, { s with zc_queue_full_failures_ := s.zc_queue_full_failures_ + 1 },
          pool.deallocate (.buffer msg_buf), queue⟩
      | (true, queue) =>
        ⟨.delivered, v.gap,
          s.countAndUpdate contents.header.sequence_number d.fragment.position d.timestamp_ns,
          pool, queue⟩

/-! ## What a call can do -/

variable {N addr config} {s : AeronSubscriber} {d : Delivery PoolSize Pointer}

/-- The outcomes of a call, with the states in which they occur. -/
inductive Handles (N : Ring.Size) (config : SubscriberConfig) (s : AeronSubscriber)
    (d : Delivery PoolSize Pointer) : Outcome PoolSize Pointer → Prop
  | allocationFailed (hpool : d.buffer_pool_.free_count_ = 0) :
      Handles N config s d ⟨.allocationFailed, none,
        { s with zc_buffer_allocation_failures_ := s.zc_buffer_allocation_failures_ + 1 },
        d.buffer_pool_, d.message_queue_⟩
  | duplicate {v : Verdict} {pool : BufferPool PoolSize}
      (hpool : 0 < d.buffer_pool_.free_count_)
      (hv : track config s.tracking d.fragment.message_number = v) (hdup : v.duplicate = true) :
      Handles N config s d ⟨.duplicate, v.gap, s.afterTracking v, pool, d.message_queue_⟩
  | queueFull {v : Verdict} {pool : BufferPool PoolSize}
      (hpool : 0 < d.buffer_pool_.free_count_)
      (hv : track config s.tracking d.fragment.message_number = v) (hdup : v.duplicate = false)
      (hfull : RingQueue.full N d.message_queue_ = true) :
      Handles N config s d ⟨.queueFull, v.gap, { s.afterTracking v with
        zc_queue_full_failures_ := (s.afterTracking v).zc_queue_full_failures_ + 1 },
        pool, d.message_queue_⟩
  | delivered {v : Verdict} {pool : BufferPool PoolSize} {queue : RingQueue (Option Pointer)}
      (hpool : 0 < d.buffer_pool_.free_count_)
      (hv : track config s.tracking d.fragment.message_number = v) (hdup : v.duplicate = false)
      (hroom : RingQueue.full N d.message_queue_ = false) :
      Handles N config s d ⟨.delivered, v.gap,
        (s.afterTracking v).countAndUpdate d.fragment.sequence_number d.fragment.position
          d.timestamp_ns, pool, queue⟩

theorem reset_resetBuffer (p : BufferPool PoolSize) (b : Fin PoolSize) :
    ((p.resetBuffer b).buffers_ b).reset = (p.resetBuffer b).buffers_ b := by
  have hself : (p.resetBuffer b).buffers_ b = (p.buffers_ b).reset := Function.update_self _ _ _
  rw [hself]
  rfl

/-- The pool hands out a buffer exactly when its counter is positive, and resets it. -/
theorem allocate_eq (p : BufferPool PoolSize) :
    (p.free_count_ = 0 ∧ p.allocate = (none, p)) ∨
      (0 < p.free_count_ ∧ ∃ b q, p.allocate = (some b, q) ∧
        (q.buffers_ b).reset = q.buffers_ b ∧ q.free_count_ = p.free_count_ - 1 ∧
        p.freeList = q.freeList ++ [b]) := by
  obtain ⟨buffers, fl, count⟩ := p
  -- the counter is also the height of the free stack
  cases count with
  | zero => exact Or.inl ⟨rfl, rfl⟩
  | succ count =>
      exact Or.inr ⟨Nat.succ_pos _, fl count, _, rfl, reset_resetBuffer _ _, rfl,
        Places.stack_succ fl count⟩

theorem enqueue_eq (q : RingQueue (Option Pointer)) (x : Pointer) :
    (RingQueue.full N q = true ∧
      RingQueue.enqueue (messageQueue N Pointer) q (some x) = (false, q)) ∨
      (RingQueue.full N q = false ∧
        ∃ q', RingQueue.enqueue (messageQueue N Pointer) q (some x) = (true, q')) := by
  have hpointer : (messageQueue N Pointer).refuses (some x) = false := rfl
  unfold RingQueue.enqueue RingQueue.full
  rw [hpointer]
  by_cases hfull : increment N q.tail_ = q.head_
  · simp [hfull]
  · simp [hfull]

/-- **The call and its cases.** -/
theorem handleMessageFastPath_spec (N : Ring.Size) (addr : Fin PoolSize → Pointer)
    (config : SubscriberConfig) (s : AeronSubscriber) (d : Delivery PoolSize Pointer) :
    Handles N config s d (handleMessageFastPath N addr config s d) := by
  unfold handleMessageFastPath
  obtain ⟨hpool, halloc⟩ | ⟨hpool, b, pool, halloc, hreset, -, -⟩ := allocate_eq d.buffer_pool_
  · rw [halloc]
    exact .allocationFailed hpool
  have hseq : (receive (pool.buffers_ b) d.fragment.bytes d.recv_timestamp).header.sequence_number
      = d.fragment.sequence_number := by
    rw [← hreset, receive_sequence_number]
  rw [halloc]
  dsimp only
  rw [hseq]
  split
  · rename_i hdup
    exact .duplicate hpool rfl hdup
  · rename_i hdup
    replace hdup := Bool.eq_false_iff.mpr hdup
    obtain ⟨hfull, henq⟩ | ⟨hroom, queue, henq⟩ := enqueue_eq (N := N) d.message_queue_ (addr b)
    · rw [henq]
      exact .queueFull hpool rfl hdup hfull
    · rw [henq]
      exact .delivered hpool rfl hdup hroom

/-- Whatever the call does with the buffer it allocates, unless it enqueues it the free list is
afterwards what it was before. -/
theorem freeList_of_dropped (N : Ring.Size) (addr : Fin PoolSize → Pointer)
    (config : SubscriberConfig) (s : AeronSubscriber)
    (hpool : d.buffer_pool_.free_count_ ≤ PoolSize)
    (hexit : (handleMessageFastPath N addr config s d).exit ≠ .delivered) :
    (handleMessageFastPath N addr config s d).buffer_pool_.freeList
      = d.buffer_pool_.freeList := by
  have hreturned : ∀ (p : BufferPool PoolSize) (b : Fin PoolSize) (m : MessageBuffer),
      p.free_count_ < PoolSize →
        ((p.write b m).deallocate (.buffer b)).freeList = p.freeList ++ [b] :=
    fun p b m hroom => (BufferPool.deallocate_spec (p := p.write b m) hroom b).1
  unfold handleMessageFastPath at hexit ⊢
  obtain ⟨hpool, halloc⟩ | ⟨hpos, b, pool, halloc, -, hcount, hfree⟩ := allocate_eq d.buffer_pool_
  · rw [halloc]
  have hroom : pool.free_count_ < PoolSize := by omega
  rw [halloc] at hexit ⊢
  dsimp only at hexit ⊢
  split
  · rw [hfree]
    exact hreturned pool b _ hroom
  · rename_i hdup
    rw [if_neg hdup] at hexit
    obtain ⟨-, henq⟩ | ⟨-, queue, henq⟩ := enqueue_eq (N := N) d.message_queue_ (addr b)
    · rw [henq, hfree]
      exact hreturned pool b _ hroom
    · rw [henq] at hexit
      exact absurd rfl hexit

/-! ## Messages that cannot be delivered -/

/-- An accepted message leaves the tracking state as it was only where it is the one before the
expected message and there is no ring. -/
theorem track_eq_self_iff {t : Tracking} {n : Int64} (hnew : (track config t n).duplicate = false) :
    (track config t n).tracking = t ↔ t.expected_sequence_ = n + 1 ∧
      (config.duplicate_check_enabled = false ∨ t.duplicate_buffer_ = []) := by
  rw [track_of_accepted hnew]
  unfold addToDecluplicationBuffer
  dsimp only
  by_cases hring : (!config.duplicate_check_enabled || t.duplicate_buffer_.isEmpty) = true
  · rw [if_pos hring]
    have hnone : config.duplicate_check_enabled = false ∨ t.duplicate_buffer_ = [] := by
      simpa using hring
    constructor
    · intro h
      exact ⟨(congrArg Tracking.expected_sequence_ h).symm, hnone⟩
    · rintro ⟨hexp, -⟩
      rw [← hexp]
  · rw [if_neg hring]
    have hsome : ¬ (config.duplicate_check_enabled = false ∨ t.duplicate_buffer_ = []) := by
      simpa using hring
    refine iff_of_false (fun h => ?_) fun h => hsome h.2
    -- the write position moves on, and in a ring of one slot the slot changes
    have hslots : t.duplicate_buffer_.set t.duplicate_buffer_pos_ n = t.duplicate_buffer_ :=
      congrArg Tracking.duplicate_buffer_ h
    have hpos : (t.duplicate_buffer_pos_ + 1) % t.duplicate_buffer_.length
        = t.duplicate_buffer_pos_ := congrArg Tracking.duplicate_buffer_pos_ h
    have hlen : 0 < t.duplicate_buffer_.length :=
      List.length_pos_iff.mpr fun hnil => hsome (Or.inr hnil)
    have hlt : t.duplicate_buffer_pos_ < t.duplicate_buffer_.length := by
      rw [← hpos]
      exact Nat.mod_lt _ hlen
    have hmem : n ∈ t.duplicate_buffer_ := by
      rw [← hslots]
      exact List.mem_set hlt n
    have hcheck : config.duplicate_check_enabled = true :=
      Bool.not_eq_false _ ▸ fun hoff => hsome (Or.inl hoff)
    rw [Bool.eq_false_iff] at hnew
    exact hnew (track_duplicate.mpr ⟨hcheck, hmem⟩)

/-- The call has changed nothing that a later copy of the message could notice. -/
structure LeavesNoTrace (config : SubscriberConfig) (s : AeronSubscriber)
    (d : Delivery PoolSize Pointer) (o : Outcome PoolSize Pointer) : Prop where
  tracking : o.subscriber.tracking = s.tracking
  checkpoint_ : o.subscriber.checkpoint_ = s.checkpoint_
  message_queue_ : o.message_queue_ = d.message_queue_
  buffer_pool_ : o.buffer_pool_.freeList.Perm d.buffer_pool_.freeList
  again : (track config o.subscriber.tracking d.fragment.message_number).duplicate
    = (track config s.tracking d.fragment.message_number).duplicate

/-- **A message that cannot be delivered leaves no trace exactly when** no buffer is free, or
the queue is not full, or the message is a duplicate anyway, or it is the one before the
expected message and there is no ring to remember it in. -/
theorem drop_keeps_state_iff (addr : Fin PoolSize → Pointer)
    (hpool : d.buffer_pool_.free_count_ ≤ PoolSize) :
    (((handleMessageFastPath N addr config s d).exit = .allocationFailed ∨
        (handleMessageFastPath N addr config s d).exit = .queueFull) →
      LeavesNoTrace config s d (handleMessageFastPath N addr config s d)) ↔
    (d.buffer_pool_.free_count_ = 0 ∨ RingQueue.full N d.message_queue_ = false ∨
      (config.duplicate_check_enabled = true ∧
        d.fragment.message_number ∈ s.tracking.duplicate_buffer_) ∨
      (s.tracking.expected_sequence_ = d.fragment.message_number + 1 ∧
        (config.duplicate_check_enabled = false ∨ s.tracking.duplicate_buffer_ = []))) := by
  have hfree := freeList_of_dropped N addr config s hpool
  have hspec := handleMessageFastPath_spec N addr config s d
  revert hfree hspec
  generalize handleMessageFastPath N addr config s d = o
  intro hfree hspec
  cases hspec with
  | allocationFailed hempty =>
      exact iff_of_true (fun _ => ⟨rfl, rfl, rfl, .refl _, rfl⟩) (Or.inl hempty)
  | @duplicate v pool hpos hv hdup =>
      subst hv
      refine iff_of_true (fun h => ?_) (Or.inr (Or.inr (Or.inl (track_duplicate.mp hdup))))
      rcases h with h | h <;> cases h
  | @queueFull v pool hpos hv hdup hfull =>
      subst hv
      -- the only exit that has tracked the message and loses it all the same
      have hnotring : ¬ (config.duplicate_check_enabled = true ∧
          d.fragment.message_number ∈ s.tracking.duplicate_buffer_) := fun h =>
        Bool.eq_false_iff.mp hdup (track_duplicate.mpr h)
      rw [← track_eq_self_iff hdup]
      constructor
      · intro h
        exact Or.inr (Or.inr (Or.inr (h (Or.inr rfl)).tracking))
      · rintro (hempty | hroom | hring | hkept) -
        · omega
        · cases hfull.symm.trans hroom
        · exact absurd hring hnotring
        · refine ⟨hkept, rfl, rfl, ?_, congrArg _ (congrArg (track config · _) hkept)⟩
          rw [hfree (fun h => nomatch h)]
  | delivered hpos hv hdup hroom =>
      refine iff_of_true (fun h => ?_) (Or.inr (Or.inl hroom))
      rcases h with h | h <;> cases h

/-- The message with number `7`, delivered by a new pool to a queue that is full of buffers of
other pools. Pointers are numbers here; those of the pool are the numbers below `1024`. -/
def overload : Delivery 1024 Nat where
  fragment := ⟨{ MessageHeader.zero with
    magic := .sekr
    sequence_number := 7 }.toBytes, 64⟩
  buffer_pool_ := ⟨fun _ => .fresh, fun i => .ofNat 1024 i, 1024⟩
  message_queue_ := ⟨fun i => some (1024 + i), 0, 4095⟩
  recv_timestamp := 5
  timestamp_ns := 6

/-- The queue of the subscriber. -/
def overloadSize : Ring.Size := ⟨12, by decide, by decide⟩

/-- Without duplicate check, a repeat of the last message. -/
theorem drop_keeps_state_iff_last :
    LeavesNoTrace { duplicate_check_enabled := false }
      { fresh {} none with tracking := ⟨8, [], 0⟩ } overload
      (handleMessageFastPath overloadSize Fin.val { duplicate_check_enabled := false }
        { fresh {} none with tracking := ⟨8, [], 0⟩ } overload) :=
  (drop_keeps_state_iff Fin.val (Nat.le_refl 1024)).mpr
    (Or.inr (Or.inr (Or.inr ⟨by decide, Or.inl rfl⟩))) (Or.inr (by decide))

set_option maxRecDepth 20000 in
/-- The queue is full and the message is dropped. It has entered the ring, and a later copy is
dropped as a duplicate although there is room by then. -/
theorem dropped_message_leaves_trace :
    (handleMessageFastPath overloadSize Fin.val {} (fresh {} none) overload).exit = .queueFull ∧
    (handleMessageFastPath overloadSize Fin.val {}
      (handleMessageFastPath overloadSize Fin.val {} (fresh {} none) overload).subscriber
      { overload with message_queue_ := ⟨fun _ => none, 0, 0⟩ }).exit = .duplicate ∧
    ¬ LeavesNoTrace {} (fresh {} none) overload
      (handleMessageFastPath overloadSize Fin.val {} (fresh {} none) overload) := by
  refine ⟨by decide, by decide, fun h => ?_⟩
  have := congrArg Tracking.expected_sequence_ h.tracking
  revert this
  decide

/-- The message with this number at this position, while a new pool and an empty queue are at
hand. -/
def arriving (sequence_number : UInt64) (position : Int64 := 64) : Delivery 1024 Nat :=
  { overload with
    fragment := ⟨{ MessageHeader.zero with
      magic := .sekr
      sequence_number := sequence_number }.toBytes, position⟩
    message_queue_ := ⟨fun _ => none, 0, 0⟩ }

end AeronSubscriber

end AeronReplay
