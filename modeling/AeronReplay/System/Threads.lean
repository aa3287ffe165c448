import AeronReplay.Checkpoint.Snapshot
import AeronReplay.Pool.BufferPool
import AeronReplay.Queue.RingQueue
import AeronReplay.Subscriber.Delivery
import AeronReplay.Subscriber.FastPath
import AeronReplay.Subscriber.Worker

set_option autoImplicit false

/-! # The subscriber process

The threads of the zero-copy subscriber on one pool and one message queue: the subscriber thread
in `AeronSubscriber::handleMessageFastPath`, the worker in `MessageWorker::workerThreadMain`, the
flush thread of the checkpoint and `main` in its shutdown sequence. A load or a store of the
checkpoint is one step, and the steps of the threads interleave in any order.

A call of the pool or of the queue is one step here. `System/Accesses.lean` has the process access
by access, and `System/Linearization.lean` and `System/Histories.lean` show when a call is as good
as one step; what is said of the process without such a proviso is said there.

The worker's samples of the queue depth, its timing statistics and the monitoring queue are in
`System/Monitoring.lean`. -/

namespace AeronReplay.System

open Transition CheckpointManager

/-- What the process is configured with; `checkpoint_enabled` says whether
`enableCheckpoint` has been called. -/
structure Config extends SubscriberConfig where
  checkpoint_enabled : Bool := true

/-- Where the subscriber thread is in the fast path. -/
inductive FastPathPc (PoolSize : Nat) where
  | idle
  | allocated (f : Fragment) (recv_timestamp : Int64) (msg_buf : Fin PoolSize)
  | duplicate (f : Fragment) (msg_buf : Fin PoolSize)
  | tracked (f : Fragment) (msg_buf : Fin PoolSize)
  | refused (f : Fragment) (msg_buf : Fin PoolSize)
  | enqueued (f : Fragment) (msg_buf : Fin PoolSize)
  | updating
  | exited

/-- Where the worker thread is in its loop. -/
inductive WorkerPc (PoolSize : Nat) where
  | testing
  | polling
  | dequeued (msg_buf : Fin PoolSize)
  | rejected (msg_buf : Fin PoolSize)
  | processed (msg_buf : Fin PoolSize)
  | counting
  | exited

/-- Where `main` is in its shutdown sequence. -/
inductive MainPc where
  | running
  | subscriberStopped
  | subscriberJoined
  | workerStopped
  | done
  deriving DecidableEq

/-- The `uint64_t` statistics of the subscriber and the worker. -/
structure Statistics where
  zc_messages_received_ : UInt64
  zc_buffer_allocation_failures_ : UInt64
  zc_queue_full_failures_ : UInt64
  gaps_detected_ : UInt64
  duplicates_detected_ : UInt64
  messages_processed_ : UInt64
  messages_invalid_ : UInt64
  messages_duplicate_ : UInt64

structure State (PoolSize : Nat) where
  pool : BufferPool PoolSize
  queue : RingQueue (Option (Fin PoolSize))
  tracking : Tracking
  fastPath : FastPathPc PoolSize
  subscriber_running_ : Bool
  seen_sequences_ : Finset UInt64
  worker : WorkerPc PoolSize
  worker_running_ : Bool
  checkpoint : Snapshot
  main : MainPc
  stats : Statistics
  /-- Not in the program: the fragment that was last copied into each buffer. -/
  origin : Fin PoolSize → Fragment

/-- Neither thread is busy with a message. -/
def State.BetweenMessages {PoolSize : Nat} (s : State PoolSize) : Prop :=
  (s.fastPath = .idle ∨ s.fastPath = .exited) ∧
    (s.worker = .testing ∨ s.worker = .polling ∨ s.worker = .exited)

/-- What happens to the fragments. -/
inductive Event (PoolSize : Nat) where
  | arrived (f : Fragment)
  | allocationFailed (f : Fragment)
  /-- `triggerImmediateGapRecovery(gap_start, gap_end)` -/
  | gap (range : Int64 × Int64)
  | subscriberDuplicate (f : Fragment)
  | accepted (f : Fragment) (buf : Fin PoolSize)
  | queueFull (f : Fragment)
  /-- The worker has dequeued a buffer with this sequence number and payload. -/
  | dequeued (buf : Fin PoolSize) (sequence_number : UInt64) (payload : List UInt8)
  | invalid (f : Fragment)
  | workerDuplicate (f : Fragment)
  | processed (f : Fragment)
  /-- `deallocate` has found the free list full. -/
  | freeListOverflow
  | checkpoint (e : SnapshotEvent)
  /-- `MessageWorker::stop` has cleared `running_`. -/
  | workerStopped

variable {PoolSize : Nat}

/-! ## The history -/

namespace Event

def arrived? : Event PoolSize → Option Fragment
  | .arrived f => some f
  | _ => none

def accepted? : Event PoolSize → Option Fragment
  | .accepted f _ => some f
  | _ => none

/-- The buffer that is enqueued, with the sequence number and the payload copied into it. -/
def enqueued? : Event PoolSize → Option (Fin PoolSize × UInt64 × List UInt8)
  | .accepted f buf => some (buf, f.sequence_number, f.payload)
  | _ => none

def dequeued? : Event PoolSize → Option (Fin PoolSize × UInt64 × List UInt8)
  | .dequeued buf sequence_number payload => some (buf, sequence_number, payload)
  | _ => none

/-- The message whose fate the worker has decided. -/
def judged? : Event PoolSize → Option Fragment
  | .invalid f => some f
  | .workerDuplicate f => some f
  | .processed f => some f
  | _ => none

def gap? : Event PoolSize → Option (Int64 × Int64)
  | .gap range => some range
  | _ => none

def processed? : Event PoolSize → Option Fragment
  | .processed f => some f
  | _ => none

/-- What must not happen: a full message queue or a free list with no room. -/
def failure : Event PoolSize → Bool
  | .queueFull _ => true
  | .freeListOverflow => true
  | _ => false

/-- Not a failure, and no message is handed from thread to thread or judged. -/
def quiet : Event PoolSize → Bool
  | .accepted _ _ | .dequeued _ _ _ => false
  | .invalid _ | .workerDuplicate _ | .processed _ => false
  | .queueFull _ | .freeListOverflow => false
  | _ => true

theorem of_quiet {x : Event PoolSize} (h : x.quiet = true) :
    x.accepted? = none ∧ x.enqueued? = none ∧ x.dequeued? = none ∧ x.judged? = none ∧
      x.failure = false := by
  cases x with
  | accepted | dequeued | invalid | workerDuplicate | processed | queueFull
    | freeListOverflow => cases h
  | _ => exact ⟨rfl, rfl, rfl, rfl, rfl⟩

end Event

section History

variable (es fs : List (Event PoolSize))

def arrivals : List Fragment := es.filterMap Event.arrived?

def acceptances : List Fragment := es.filterMap Event.accepted?

def enqueues : List (Fin PoolSize × UInt64 × List UInt8) := es.filterMap Event.enqueued?

def dequeues : List (Fin PoolSize × UInt64 × List UInt8) := es.filterMap Event.dequeued?

def judgements : List Fragment := es.filterMap Event.judged?

/-- The ranges passed to `triggerImmediateGapRecovery`. -/
def gaps : List (Int64 × Int64) := es.filterMap Event.gap?

/-- The messages passed to `processMessage`. -/
def handlerCalls : List Fragment := es.filterMap Event.processed?

@[simp] theorem arrivals_append : arrivals (es ++ fs) = arrivals es ++ arrivals fs :=
  List.filterMap_append

@[simp] theorem acceptances_append :
    acceptances (es ++ fs) = acceptances es ++ acceptances fs := List.filterMap_append

@[simp] theorem enqueues_append : enqueues (es ++ fs) = enqueues es ++ enqueues fs :=
  List.filterMap_append

@[simp] theorem dequeues_append : dequeues (es ++ fs) = dequeues es ++ dequeues fs :=
  List.filterMap_append

@[simp] theorem judgements_append :
    judgements (es ++ fs) = judgements es ++ judgements fs := List.filterMap_append

@[simp] theorem gaps_append : gaps (es ++ fs) = gaps es ++ gaps fs := List.filterMap_append

@[simp] theorem handlerCalls_append :
    handlerCalls (es ++ fs) = handlerCalls es ++ handlerCalls fs := List.filterMap_append

variable {es} in
/-- What an observation does not see is not among what it observes. -/
theorem filterMap_eq_nil {β : Type} {obs : Event PoolSize → Option β}
    (hnone : ∀ x ∈ es, obs x = none) : es.filterMap obs = [] :=
  List.filterMap_eq_nil_iff.mpr hnone

end History

/-! ## The steps -/

/-- `free list overflow`, if the pool has no room. -/
def overflow (p : BufferPool PoolSize) : List (Event PoolSize) :=
  if p.free_count_ < PoolSize then [] else [.freeListOverflow]

theorem forall_overflow {P : Event PoolSize → Prop} (h : P .freeListOverflow)
    (p : BufferPool PoolSize) : ∀ x ∈ overflow p, P x := by
  unfold overflow
  split <;> simp [h]

theorem forall_gaps {P : Event PoolSize → Prop} (h : ∀ range, P (.gap range))
    (gap : Option (Int64 × Int64)) : ∀ x ∈ gap.toList.map .gap, P x := by
  intro x hx
  obtain ⟨range, -, rfl⟩ := List.mem_map.mp hx
  exact h range

/-- The step of a queue of pointers to buffers. -/
abbrev pointerQueue (N : Ring.Size) (PoolSize : Nat) : QueueClass N (Option (Fin PoolSize)) :=
  messageQueue N (Fin PoolSize)

/-- The buffer after `copyFromAeron` and the receive stamp. -/
def received (s : State PoolSize) (f : Fragment) (recv_timestamp : Int64)
    (msg_buf : Fin PoolSize) : MessageBuffer :=
  AeronSubscriber.receive (s.pool.buffers_ msg_buf) f.bytes recv_timestamp

/-- The outcome of gap detection and duplicate check for the message in the buffer. -/
def verdict (config : Config) (s : State PoolSize) (b : MessageBuffer) :
    AeronSubscriber.Verdict :=
  AeronSubscriber.track config.toSubscriberConfig s.tracking b.header.sequence_number.toInt64

/-- The statistics after gap detection and duplicate check. -/
def Statistics.track (st : Statistics) (v : AeronSubscriber.Verdict) : Statistics :=
  { st with
    gaps_detected_ := if v.gap.isSome then st.gaps_detected_ + 1 else st.gaps_detected_
    duplicates_detected_ :=
      if v.duplicate then st.duplicates_detected_ + 1 else st.duplicates_detected_ }

/-- One step of the subscriber thread. -/
inductive SubscriberStep (N : Ring.Size) (config : Config) :
    State PoolSize → List (Event PoolSize) → State PoolSize → Prop
  | arrive {s : State PoolSize} {p : BufferPool PoolSize} {msg_buf : Fin PoolSize}
      (f : Fragment) (recv_timestamp : Int64) (hpc : s.fastPath = .idle)
      (halloc : s.pool.allocate = (some msg_buf, p)) :
      SubscriberStep N config s [.arrived f] { s with
        pool := p
        fastPath := .allocated f recv_timestamp msg_buf }
  | allocationFails {s : State PoolSize} {p : BufferPool PoolSize} (f : Fragment)
      (hpc : s.fastPath = .idle) (halloc : s.pool.allocate = (none, p)) :
      SubscriberStep N config s [.arrived f, .allocationFailed f] { s with
        pool := p
        stats := { s.stats with
          zc_buffer_allocation_failures_ := s.stats.zc_buffer_allocation_failures_ + 1 } }
  | trackDuplicate {s : State PoolSize} {f : Fragment} {recv_timestamp : Int64}
      {msg_buf : Fin PoolSize} {b : MessageBuffer} {v : AeronSubscriber.Verdict}
      (hpc : s.fastPath = .allocated f recv_timestamp msg_buf)
      (hb : received s f recv_timestamp msg_buf = b) (hv : verdict config s b = v)
      (hdup : v.duplicate = true) :
      SubscriberStep N config s (v.gap.toList.map .gap ++ [.subscriberDuplicate f]) { s with
        pool := s.pool.write msg_buf b
        tracking := v.tracking
        fastPath := .duplicate f msg_buf
        stats := s.stats.track v
        origin := Function.update s.origin msg_buf f }
  | track {s : State PoolSize} {f : Fragment} {recv_timestamp : Int64}
      {msg_buf : Fin PoolSize} {b : MessageBuffer} {v : AeronSubscriber.Verdict}
      (hpc : s.fastPath = .allocated f recv_timestamp msg_buf)
      (hb : received s f recv_timestamp msg_buf = b) (hv : verdict config s b = v)
      (hdup : v.duplicate = false) :
      SubscriberStep N config s (v.gap.toList.map .gap) { s with
        pool := s.pool.write msg_buf b
        tracking := v.tracking
        fastPath := .tracked f msg_buf
        stats := s.stats.track v
        origin := Function.update s.origin msg_buf f }
  | dropDuplicate {s : State PoolSize} {f : Fragment} {msg_buf : Fin PoolSize}
      (hpc : s.fastPath = .duplicate f msg_buf) :
      SubscriberStep N config s (overflow s.pool) { s with
        pool := s.pool.deallocate (.buffer msg_buf)
        fastPath := .idle }
  | enqueue {s : State PoolSize} {f : Fragment} {msg_buf : Fin PoolSize}
      {q : RingQueue (Option (Fin PoolSize))} (hpc : s.fastPath = .tracked f msg_buf)
      (henq : RingQueue.enqueue (pointerQueue N PoolSize) s.queue (some msg_buf) = (true, q)) :
      SubscriberStep N config s [.accepted f msg_buf] { s with
        queue := q
        fastPath := .enqueued f msg_buf }
  | enqueueFails {s : State PoolSize} {f : Fragment} {msg_buf : Fin PoolSize}
      {q : RingQueue (Option (Fin PoolSize))} (hpc : s.fastPath = .tracked f msg_buf)
      (henq : RingQueue.enqueue (pointerQueue N PoolSize) s.queue (some msg_buf)
        = (false, q)) :
      SubscriberStep N config s [.queueFull f] { s with
        queue := q
        fastPath := .refused f msg_buf }
  | dropRefused {s : State PoolSize} {f : Fragment} {msg_buf : Fin PoolSize}
      (hpc : s.fastPath = .refused f msg_buf) :
      SubscriberStep N config s (overflow s.pool) { s with
        pool := s.pool.deallocate (.buffer msg_buf)
        fastPath := .idle
        stats := { s.stats with
          zc_queue_full_failures_ := s.stats.zc_queue_full_failures_ + 1 } }
  | count {s : State PoolSize} {f : Fragment} {msg_buf : Fin PoolSize}
      (hpc : s.fastPath = .enqueued f msg_buf) (hoff : config.checkpoint_enabled = false) :
      SubscriberStep N config s [] { s with
        fastPath := .idle
        stats := { s.stats with
          zc_messages_received_ := s.stats.zc_messages_received_ + 1 } }
  -- the sequence number is read from the buffer again, which the worker may have by now
  | countAndUpdate {s : State PoolSize} {f : Fragment} {msg_buf : Fin PoolSize}
      (timestamp : Int64) (hpc : s.fastPath = .enqueued f msg_buf)
      (hon : config.checkpoint_enabled = true) (hidle : s.checkpoint.updater = .idle) :
      SubscriberStep N config s [] { s with
        fastPath := .updating
        stats := { s.stats with
          zc_messages_received_ := s.stats.zc_messages_received_ + 1 }
        checkpoint := { s.checkpoint with
          updater := .storing {
            last_sequence_number :=
              (s.pool.buffers_ msg_buf).header.sequence_number.toInt64
            last_position := f.position
            message_count := (s.stats.zc_messages_received_ + 1).toInt64
            timestamp_ns := timestamp } 0 } }
  | updated {s : State PoolSize} (hpc : s.fastPath = .updating)
      (hidle : s.checkpoint.updater = .idle) :
      SubscriberStep N config s [] { s with fastPath := .idle }
  | exit {s : State PoolSize} (hpc : s.fastPath = .idle)
      (hstop : s.subscriber_running_ = false) :
      SubscriberStep N config s [] { s with fastPath := .exited }

/-- One step of the worker thread. -/
inductive WorkerStep (N : Ring.Size) :
    State PoolSize → List (Event PoolSize) → State PoolSize → Prop
  | testRunning {s : State PoolSize} (hpc : s.worker = .testing)
      (hrun : s.worker_running_ = true) :
      WorkerStep N s [] { s with worker := .polling }
  | exit {s : State PoolSize} (hpc : s.worker = .testing)
      (hstop : s.worker_running_ = false) :
      WorkerStep N s [] { s with worker := .exited }
  | queueEmpty {s : State PoolSize} {q : RingQueue (Option (Fin PoolSize))}
      (hpc : s.worker = .polling)
      (hdeq : RingQueue.dequeue (pointerQueue N PoolSize) s.queue = (none, q)) :
      WorkerStep N s [] { s with
        queue := q
        worker := .testing }
  | dequeue {s : State PoolSize} {buf : Fin PoolSize} {q : RingQueue (Option (Fin PoolSize))}
      (now : Int64) (hpc : s.worker = .polling)
      (hdeq : RingQueue.dequeue (pointerQueue N PoolSize) s.queue = (some (some buf), q)) :
      WorkerStep N s
        [.dequeued buf (s.pool.buffers_ buf).header.sequence_number
          (s.pool.buffers_ buf).payloadBytes] { s with
        pool := s.pool.write buf { s.pool.buffers_ buf with worker_dequeue_time_ns := now }
        queue := q
        worker := .dequeued buf }
  | rejectInvalid {s : State PoolSize} {buf : Fin PoolSize} (hpc : s.worker = .dequeued buf)
      (hvalid : MessageWorker.validateMessage (some (s.pool.buffers_ buf)) = false) :
      WorkerStep N s [.invalid (s.origin buf)] { s with
        worker := .rejected buf
        stats := { s.stats with messages_invalid_ := s.stats.messages_invalid_ + 1 } }
  | rejectDuplicate {s : State PoolSize} {buf : Fin PoolSize} {seen : Finset UInt64}
      (hpc : s.worker = .dequeued buf)
      (hvalid : MessageWorker.validateMessage (some (s.pool.buffers_ buf)) = true)
      (hdup : MessageWorker.checkDuplicate s.seen_sequences_ (s.pool.buffers_ buf)
        = (true, seen)) :
      WorkerStep N s [.workerDuplicate (s.origin buf)] { s with
        worker := .rejected buf
        seen_sequences_ := seen
        stats := { s.stats with messages_duplicate_ := s.stats.messages_duplicate_ + 1 } }
  | process {s : State PoolSize} {buf : Fin PoolSize} {seen : Finset UInt64}
      (hpc : s.worker = .dequeued buf)
      (hvalid : MessageWorker.validateMessage (some (s.pool.buffers_ buf)) = true)
      (hdup : MessageWorker.checkDuplicate s.seen_sequences_ (s.pool.buffers_ buf)
        = (false, seen)) :
      WorkerStep N s [.processed (s.origin buf)] { s with
        worker := .processed buf
        seen_sequences_ := seen }
  | returnRejected {s : State PoolSize} {buf : Fin PoolSize} (hpc : s.worker = .rejected buf) :
      WorkerStep N s (overflow s.pool) { s with
        pool := s.pool.deallocate (.buffer buf)
        worker := .testing }
  | returnProcessed {s : State PoolSize} {buf : Fin PoolSize}
      (hpc : s.worker = .processed buf) :
      WorkerStep N s (overflow s.pool) { s with
        pool := s.pool.deallocate (.buffer buf)
        worker := .counting }
  | countProcessed {s : State PoolSize} (hpc : s.worker = .counting) :
      WorkerStep N s [] { s with
        worker := .testing
        stats := { s.stats with messages_processed_ := s.stats.messages_processed_ + 1 } }

/-- One step of `main` in its shutdown sequence. -/
inductive MainStep : State PoolSize → List (Event PoolSize) → State PoolSize → Prop
  | shutdownSubscriber {s : State PoolSize} (hpc : s.main = .running) :
      MainStep s [] { s with
        subscriber_running_ := false
        main := .subscriberStopped }
  | joinSubscriber {s : State PoolSize} (hpc : s.main = .subscriberStopped)
      (hexit : s.fastPath = .exited) :
      MainStep s [] { s with main := .subscriberJoined }
  | stopWorker {s : State PoolSize} (hpc : s.main = .subscriberJoined) :
      MainStep s [.workerStopped] { s with
        worker_running_ := false
        main := .workerStopped }
  | joinWorker {s : State PoolSize} (hpc : s.main = .workerStopped)
      (hexit : s.worker = .exited) :
      MainStep s [] { s with main := .done }

/-- One step of one thread. -/
inductive Step (N : Ring.Size) (config : Config) :
    State PoolSize → List (Event PoolSize) → State PoolSize → Prop
  | subscriber {s t : State PoolSize} {e : List (Event PoolSize)}
      (h : SubscriberStep N config s e t) : Step N config s e t
  | worker {s t : State PoolSize} {e : List (Event PoolSize)} (h : WorkerStep N s e t) :
      Step N config s e t
  | main {s t : State PoolSize} {e : List (Event PoolSize)} (h : MainStep s e t) :
      Step N config s e t
  /-- `update`, on behalf of the subscriber thread, and the flush thread. -/
  | checkpoint {s : State PoolSize} {e : List SnapshotEvent} {c : Snapshot}
      (h : Access s.checkpoint e c) :
      Step N config s (e.map .checkpoint) { s with checkpoint := c }

/-- A process that has just been started: a new pool, an empty queue, and the tuple `d₀` that
has been loaded from the checkpoint file, or zero. -/
structure Initial (config : Config) (d₀ : CheckpointData) (s : State PoolSize) : Prop where
  pool : s.pool.Initial
  queue : s.queue.head_ = 0 ∧ s.queue.tail_ = 0
  tracking : s.tracking = AeronSubscriber.initialTracking config.toSubscriberConfig
  fastPath : s.fastPath = .idle
  seen_sequences_ : s.seen_sequences_ = ∅
  worker : s.worker = .testing
  running : s.subscriber_running_ = true ∧ s.worker_running_ = true ∧ s.main = .running
  checkpoint : s.checkpoint = ⟨d₀, .idle, .idle, none⟩
  stats : s.stats = ⟨0, 0, 0, 0, 0, 0, 0, 0⟩

/-- The subscriber process with a pool of `PoolSize` buffers and a queue of `N` slots. -/
def system (PoolSize : Nat) (N : Ring.Size) (config : Config) (d₀ : CheckpointData) :
    Lts (State PoolSize) (Event PoolSize) where
  Init := Initial config d₀
  Step := Step N config

/-- The number of buffers of `MessageBufferPool`. -/
def poolSize : Nat := 1024

/-- The number of slots of `MessageBufferQueue`. -/
def queueSize : Ring.Size := ⟨12, AeronSubscriber.overloadSize.pos, AeronSubscriber.overloadSize.lt⟩

theorem poolSize_lt : poolSize < queueSize.val := by decide

/-- The process as `main` builds it. -/
abbrev subscriberProcess (config : Config) (d₀ : CheckpointData) :
    Lts (State poolSize) (Event poolSize) :=
  system poolSize queueSize config d₀

instance : NeZero poolSize := ⟨by decide⟩

/-- The state in which `main` starts the threads. -/
def State.start (config : Config) (d₀ : CheckpointData) : State poolSize where
  pool := ⟨fun _ => .fresh, fun i => .ofNat poolSize i, poolSize⟩
  queue := ⟨fun _ => none, 0, 0⟩
  tracking := AeronSubscriber.initialTracking config.toSubscriberConfig
  fastPath := .idle
  subscriber_running_ := true
  seen_sequences_ := ∅
  worker := .testing
  worker_running_ := true
  checkpoint := ⟨d₀, .idle, .idle, none⟩
  main := .running
  stats := ⟨0, 0, 0, 0, 0, 0, 0, 0⟩
  origin := fun _ => ⟨[], 0⟩

theorem State.start_init (config : Config) (d₀ : CheckpointData) :
    (subscriberProcess config d₀).Init (.start config d₀) where
  pool := ⟨fun i => Fin.ofNat_val_eq_self i, rfl, fun _ => rfl⟩
  queue := ⟨rfl, rfl⟩
  tracking := rfl
  fastPath := rfl
  seen_sequences_ := rfl
  worker := rfl
  running := ⟨rfl, rfl, rfl⟩
  checkpoint := rfl
  stats := rfl

/-! ## The first message -/

/-- The state after a buffer has been allocated for an empty message. -/
def State.firstArrived (config : Config) : State poolSize :=
  let s := State.start config .zero
  { s with
    pool := s.pool.allocate.2
    fastPath := .allocated ⟨[], 64⟩ 7 1023 }

/-- The state after the message has been copied and found to be new. -/
def State.firstCopied (config : Config) : State poolSize :=
  let s := State.firstArrived config
  let b := received s ⟨[], 64⟩ 7 1023
  let v := verdict config s b
  { s with
    pool := s.pool.write 1023 b
    tracking := v.tracking
    fastPath := .tracked ⟨[], 64⟩ 1023
    stats := s.stats.track v
    origin := Function.update s.origin 1023 ⟨[], 64⟩ }

/-- The state after the message has been enqueued. -/
def State.firstQueued (config : Config) : State poolSize :=
  let s := State.firstCopied config
  { s with
    queue := (RingQueue.enqueue (pointerQueue queueSize poolSize) s.queue (some 1023)).2
    fastPath := .enqueued ⟨[], 64⟩ 1023 }

section First

variable {checkpoint_enabled : Bool}

set_option maxRecDepth 20000 in
theorem first_arrives : SubscriberStep queueSize { checkpoint_enabled }
    (.start { checkpoint_enabled } .zero) [.arrived ⟨[], 64⟩]
    (.firstArrived { checkpoint_enabled }) := by
  cases checkpoint_enabled <;> exact .arrive ⟨[], 64⟩ 7 rfl rfl

set_option maxRecDepth 20000 in
theorem first_copied : SubscriberStep queueSize { checkpoint_enabled }
    (.firstArrived { checkpoint_enabled }) [] (.firstCopied { checkpoint_enabled }) := by
  cases checkpoint_enabled <;>
    exact @SubscriberStep.track _ _ _ (.firstArrived _) ⟨[], 64⟩ 7 1023 _ _ rfl rfl rfl rfl

set_option maxRecDepth 20000 in
theorem first_queued : SubscriberStep queueSize { checkpoint_enabled }
    (.firstCopied { checkpoint_enabled }) [.accepted ⟨[], 64⟩ 1023]
    (.firstQueued { checkpoint_enabled }) := by
  cases checkpoint_enabled <;> exact .enqueue rfl rfl

/-- The first message is received and waits in the queue. -/
theorem firstQueued_run : Run (subscriberProcess { checkpoint_enabled } .zero)
    [.arrived ⟨[], 64⟩, .accepted ⟨[], 64⟩ 1023] (.firstQueued { checkpoint_enabled }) :=
  (((Run.init (State.start_init _ .zero)).step (.subscriber first_arrives)).step
    (.subscriber first_copied)).step (.subscriber first_queued)

end First

end AeronReplay.System
