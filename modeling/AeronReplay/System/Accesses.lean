import AeronReplay.Pool.Linearization
import AeronReplay.Queue.Linearization
import AeronReplay.System.HandOff
import AeronReplay.System.Monitoring

set_option autoImplicit false

/-! # The subscriber process, access by access

The process of `Monitoring` with its calls taken apart: `allocate` and `deallocate` of the buffer
pool, `enqueue`, `dequeue` and `size` of the message queue and of the monitoring queue are made one
access of a shared variable at a time, and the accesses of all threads interleave in any order. A
call is entered in a step of its own; what a thread does on its own after an access, up to its next
access, belongs to the step.

Only in the runs that respect `SlotOrder` are the calls as good as single steps
(`System/Linearization.lean`). -/

namespace AeronReplay.System

open Transition CheckpointManager BufferPool RingQueue

variable {PoolSize : Nat}

/-- The fast path goes from one place to the other without a call of pool or queue. -/
def FastPathPc.onItsOwn : FastPathPc PoolSize → FastPathPc PoolSize → Bool
  | .allocated _ _ _, _ => true
  | .enqueued _ _, _ => true
  | .updating, _ => true
  | .idle, .exited => true
  | _, _ => false

/-- The worker goes on from here without a call of pool or queue. -/
def WorkerPc.onItsOwn : WorkerPc PoolSize → Bool
  | .testing => true
  | .dequeued _ => true
  | .counting => true
  | _ => false

/-- The statistics after the fast path has returned a buffer it could not use. -/
def Statistics.dropped (st : Statistics) : FastPathPc PoolSize → Statistics
  | .refused _ _ => { st with zc_queue_full_failures_ := st.zc_queue_full_failures_ + 1 }
  | _ => st

namespace Accesses

/-! ## The state -/

/-- The call that the subscriber thread is in. -/
inductive SubscriberCall (PoolSize : Nat) where
  | none
  /-- `allocate`, for a fragment that has been received at this time. -/
  | allocate (f : Fragment) (recv_timestamp : Int64) (pc : AllocatePc PoolSize)
  | enqueue (pc : ProducerPc (Option (Fin PoolSize)))
  | deallocate (pc : DeallocatePc PoolSize)

/-- The call that the worker thread is in. -/
inductive WorkerCall (PoolSize : Nat) where
  | none
  | size (pc : ConsumerPc (Option (Fin PoolSize)))
  | dequeue (pc : ConsumerPc (Option (Fin PoolSize)))
  /-- `enqueue` into the monitoring queue. -/
  | send (stats : MonitoringStats) (pc : ProducerPc MonitoringStats)
  | deallocate (pc : DeallocatePc PoolSize)

namespace SubscriberCall

def allocating : SubscriberCall PoolSize → AllocatePc PoolSize
  | .allocate _ _ pc => pc
  | _ => .idle

def producer : SubscriberCall PoolSize → ProducerPc (Option (Fin PoolSize))
  | .enqueue pc => pc
  | _ => .idle

def dropping : SubscriberCall PoolSize → DeallocatePc PoolSize
  | .deallocate pc => pc
  | _ => .idle

end SubscriberCall

namespace WorkerCall

def consumer : WorkerCall PoolSize → ConsumerPc (Option (Fin PoolSize))
  | .size pc => pc
  | .dequeue pc => pc
  | _ => .idle

def producer : WorkerCall PoolSize → ProducerPc MonitoringStats
  | .send _ pc => pc
  | _ => .idle

def returning : WorkerCall PoolSize → DeallocatePc PoolSize
  | .deallocate pc => pc
  | _ => .idle

end WorkerCall

/-- The process, and the calls the threads are in. -/
structure State (PoolSize : Nat) where
  monitored : Monitored PoolSize
  subscriberCall : SubscriberCall PoolSize
  workerCall : WorkerCall PoolSize
  /-- The `dequeue` of the monitoring thread. -/
  monitorCall : ConsumerPc MonitoringStats

/-- The variables of the process without monitoring. -/
abbrev State.process (a : State PoolSize) : System.State PoolSize := a.monitored.process

/-- No thread is in a call. -/
structure State.Quiescent (a : State PoolSize) : Prop where
  subscriber : a.subscriberCall = .none
  worker : a.workerCall = .none
  monitor : a.monitorCall = .idle

/-- What happens in the process, and the accesses that `SlotOrder` is about. -/
inductive Event (PoolSize : Nat) where
  /-- `handleMessageFastPath` has been called; the fragment arrives in the sense of
  `System.Event` when it is decided whether there is a buffer for it. -/
  | polled (f : Fragment)
  | readSlot (slot : Nat)
  /-- The worker's `deallocate` has written the entry it had claimed. -/
  | wroteSlot (slot : Nat)
  | monitored (x : MonitoredEvent PoolSize)

def Event.monitored? : Event PoolSize → Option (MonitoredEvent PoolSize)
  | .monitored x => some x
  | _ => none

def Event.polled? : Event PoolSize → Option Fragment
  | .polled f => some f
  | _ => none

/-- The events of the process without monitoring. -/
def shown (e : List (System.Event PoolSize)) : List (Event PoolSize) :=
  e.map fun x => .monitored (.process x)

section History

variable (as bs : List (Event PoolSize))

/-- The fragments that `handleMessageFastPath` has been called for. -/
def polls : List Fragment := as.filterMap Event.polled?

/-- What is seen of the process and its monitoring. -/
def seen : List (MonitoredEvent PoolSize) := as.filterMap Event.monitored?

/-- What is seen of the process without monitoring. -/
def history : List (System.Event PoolSize) := (seen as).filterMap MonitoredEvent.process?

@[simp] theorem polls_append : polls (as ++ bs) = polls as ++ polls bs := List.filterMap_append

@[simp] theorem seen_append : seen (as ++ bs) = seen as ++ seen bs := List.filterMap_append

@[simp] theorem history_append : history (as ++ bs) = history as ++ history bs := by
  rw [history, seen_append]
  exact List.filterMap_append

end History

@[simp] theorem seen_shown (e : List (System.Event PoolSize)) :
    seen (shown e) = e.map .process := by
  rw [seen, shown, List.filterMap_map]
  exact congrFun (List.filterMap_eq_map (f := MonitoredEvent.process)) e

@[simp] theorem history_shown (e : List (System.Event PoolSize)) : history (shown e) = e := by
  rw [history, seen_shown, filterMap_process]

@[simp] theorem polls_shown (e : List (System.Event PoolSize)) : polls (shown e) = [] := by
  refine List.filterMap_eq_nil_iff.mpr fun x hx => ?_
  obtain ⟨y, -, rfl⟩ := List.mem_map.mp hx
  rfl

/-! ## The steps -/

/-- One access of the subscriber thread. -/
inductive SubscriberStep (N : Ring.Size) (config : Config) :
    State PoolSize → List (Event PoolSize) → State PoolSize → Prop
  | poll {a : State PoolSize} (f : Fragment) (recv_timestamp : Int64)
      (hcall : a.subscriberCall = .none) (hpc : a.process.fastPath = .idle) :
      SubscriberStep N config a [.polled f]
        { a with subscriberCall := .allocate f recv_timestamp .idle }
  -- the first load, or a compare-exchange that fails, for whatever reason
  | load {a : State PoolSize} {f : Fragment} {recv_timestamp : Int64} {pc : AllocatePc PoolSize}
      (hcall : a.subscriberCall = .allocate f recv_timestamp pc) (hpc : pc.Unclaimed)
      (hcount : 0 < a.process.pool.free_count_) :
      SubscriberStep N config a []
        { a with
          subscriberCall := .allocate f recv_timestamp (.loaded a.process.pool.free_count_) }
  | exhausted {a : State PoolSize} {f : Fragment} {recv_timestamp : Int64}
      {pc : AllocatePc PoolSize} (hcall : a.subscriberCall = .allocate f recv_timestamp pc)
      (hpc : pc.Unclaimed) (hcount : a.process.pool.free_count_ = 0) :
      SubscriberStep N config a (shown [.arrived f, .allocationFailed f]) { a with
        monitored.process.stats.zc_buffer_allocation_failures_ :=
          a.process.stats.zc_buffer_allocation_failures_ + 1
        subscriberCall := .none }
  | compareExchange {a : State PoolSize} {f : Fragment} {recv_timestamp : Int64} {slot : Nat}
      (hcall : a.subscriberCall = .allocate f recv_timestamp (.loaded (slot + 1)))
      (heq : a.process.pool.free_count_ = slot + 1) :
      SubscriberStep N config a (shown [.arrived f]) { a with
        monitored.process.pool.free_count_ := slot
        subscriberCall := .allocate f recv_timestamp (.claimed slot) }
  | readSlot {a : State PoolSize} {f : Fragment} {recv_timestamp : Int64} {slot : Nat}
      (hcall : a.subscriberCall = .allocate f recv_timestamp (.claimed slot)) :
      SubscriberStep N config a [.readSlot slot] { a with
        subscriberCall :=
          .allocate f recv_timestamp (.readSlot (a.process.pool.free_list_ slot)) }
  | markInUse {a : State PoolSize} {f : Fragment} {recv_timestamp : Int64}
      {msg_buf : Fin PoolSize}
      (hcall : a.subscriberCall = .allocate f recv_timestamp (.readSlot msg_buf)) :
      SubscriberStep N config a [] { a with
        monitored.process.pool := (a.process.pool.storeInUse msg_buf true).resetBuffer msg_buf
        monitored.process.fastPath := .allocated f recv_timestamp msg_buf
        subscriberCall := .none }
  | onItsOwn {a : State PoolSize} {e : List (System.Event PoolSize)} {p : System.State PoolSize}
      (hcall : a.subscriberCall = .none) (h : System.SubscriberStep N config a.process e p)
      (hown : a.process.fastPath.onItsOwn p.fastPath = true) :
      SubscriberStep N config a (shown e) { a with monitored.process := p }
  | callEnqueue {a : State PoolSize} {f : Fragment} {msg_buf : Fin PoolSize}
      (hcall : a.subscriberCall = .none) (hpc : a.process.fastPath = .tracked f msg_buf) :
      SubscriberStep N config a [] { a with subscriberCall := .enqueue .idle }
  | enqueueAccess {a : State PoolSize} {f : Fragment} {msg_buf : Fin PoolSize}
      {pc pc' : ProducerPc (Option (Fin PoolSize))} {q : RingQueue (Option (Fin PoolSize))}
      (hcall : a.subscriberCall = .enqueue pc) (hpc : a.process.fastPath = .tracked f msg_buf)
      (h : EnqueueStep (pointerQueue N PoolSize) (some msg_buf) a.process.queue pc [] q pc') :
      SubscriberStep N config a [] { a with
        monitored.process.queue := q
        subscriberCall := .enqueue pc' }
  | enqueue {a : State PoolSize} {f : Fragment} {msg_buf : Fin PoolSize}
      {pc pc' : ProducerPc (Option (Fin PoolSize))} {q : RingQueue (Option (Fin PoolSize))}
      (hcall : a.subscriberCall = .enqueue pc) (hpc : a.process.fastPath = .tracked f msg_buf)
      (h : EnqueueStep (pointerQueue N PoolSize) (some msg_buf) a.process.queue pc
        [.enq (some msg_buf)] q pc') :
      SubscriberStep N config a (shown [.accepted f msg_buf]) { a with
        monitored.process.queue := q
        monitored.process.fastPath := .enqueued f msg_buf
        subscriberCall := .none }
  | enqueueFails {a : State PoolSize} {f : Fragment} {msg_buf : Fin PoolSize}
      {pc pc' : ProducerPc (Option (Fin PoolSize))} {q : RingQueue (Option (Fin PoolSize))}
      (hcall : a.subscriberCall = .enqueue pc) (hpc : a.process.fastPath = .tracked f msg_buf)
      (h : EnqueueStep (pointerQueue N PoolSize) (some msg_buf) a.process.queue pc [.full] q pc') :
      SubscriberStep N config a (shown [.queueFull f]) { a with
        monitored.process.queue := q
        monitored.process.fastPath := .refused f msg_buf
        subscriberCall := .none }
  -- `deallocate` on the paths that drop a message
  | drop {a : State PoolSize} {f : Fragment} {msg_buf : Fin PoolSize}
      (hcall : a.subscriberCall = .none)
      (hpc : a.process.fastPath = .duplicate f msg_buf ∨
        a.process.fastPath = .refused f msg_buf) :
      SubscriberStep N config a [] { a with
        monitored.process.pool := a.process.pool.storeInUse msg_buf false
        subscriberCall := .deallocate (.marked msg_buf) }
  | deallocate {a : State PoolSize} {pc pc' : DeallocatePc PoolSize} {written : Option Nat}
      {p : BufferPool PoolSize} (hcall : a.subscriberCall = .deallocate pc)
      (h : DeallocateStep a.process.pool pc written p pc') :
      SubscriberStep N config a (shown (HandOff.returnEvents written pc')) { a with
        monitored.process.pool := p
        subscriberCall := .deallocate pc' }
  | dropped {a : State PoolSize} (hcall : a.subscriberCall = .deallocate .idle) :
      SubscriberStep N config a [] { a with
        monitored.process.fastPath := .idle
        monitored.process.stats := a.process.stats.dropped a.process.fastPath
        subscriberCall := .none }

/-- One access of the worker thread, where `N` is the size of the message queue and `M` that of the
monitoring queue. -/
inductive WorkerStep (N M : Ring.Size) :
    State PoolSize → List (Event PoolSize) → State PoolSize → Prop
  | onItsOwn {a : State PoolSize} {e : List (System.Event PoolSize)} {p : System.State PoolSize}
      (start_processing end_processing : Int64) (hcall : a.workerCall = .none)
      (hduty : a.monitored.duty = .none) (h : System.WorkerStep N a.process e p)
      (hown : a.process.worker.onItsOwn = true) :
      WorkerStep N M a (shown e) { a with
        monitored.process := p
        monitored.duty := p.worker.duty
        monitored.metrics := a.monitored.metrics.after a.process.worker p.worker
          (end_processing - start_processing) }
  | callSize {a : State PoolSize} (hcall : a.workerCall = .none)
      (hduty : a.monitored.duty = .sampleQueueDepth) :
      WorkerStep N M a [] { a with workerCall := .size .idle }
  | sizeAccess {a : State PoolSize} {pc pc' : ConsumerPc (Option (Fin PoolSize))}
      (hcall : a.workerCall = .size pc)
      (h : SizeStep (pointerQueue N PoolSize) a.process.queue pc [] pc') :
      WorkerStep N M a [] { a with workerCall := .size pc' }
  | sampleQueueDepth {a : State PoolSize} {pc pc' : ConsumerPc (Option (Fin PoolSize))}
      {queue_depth : Nat} (hcall : a.workerCall = .size pc)
      (h : SizeStep (pointerQueue N PoolSize) a.process.queue pc [.size queue_depth] pc') :
      WorkerStep N M a [.monitored (.queueDepth queue_depth)] { a with
        monitored.duty := .none
        monitored.metrics := { a.monitored.metrics with
          total_queue_depth_ := a.monitored.metrics.total_queue_depth_ + .ofNat queue_depth
          queue_depth_samples_ := a.monitored.metrics.queue_depth_samples_ + 1 }
        workerCall := .none }
  | callDequeue {a : State PoolSize} (hcall : a.workerCall = .none)
      (hduty : a.monitored.duty = .none) (hpc : a.process.worker = .polling) :
      WorkerStep N M a [] { a with workerCall := .dequeue .idle }
  | dequeueAccess {a : State PoolSize} {pc pc' : ConsumerPc (Option (Fin PoolSize))}
      {q : RingQueue (Option (Fin PoolSize))} (hcall : a.workerCall = .dequeue pc)
      (h : DequeueStep (pointerQueue N PoolSize) a.process.queue pc [] q pc') :
      WorkerStep N M a [] { a with
        monitored.process.queue := q
        workerCall := .dequeue pc' }
  | queueEmpty {a : State PoolSize} {pc pc' : ConsumerPc (Option (Fin PoolSize))}
      {q : RingQueue (Option (Fin PoolSize))} (hcall : a.workerCall = .dequeue pc)
      (h : DequeueStep (pointerQueue N PoolSize) a.process.queue pc [.empty] q pc') :
      WorkerStep N M a [] { a with
        monitored.process.queue := q
        monitored.process.worker := .testing
        monitored.metrics := a.monitored.metrics.after a.process.worker .testing 0
        workerCall := .none }
  -- the buffer is stamped as soon as `dequeue` has returned it
  | dequeue {a : State PoolSize} {pc pc' : ConsumerPc (Option (Fin PoolSize))}
      {msg_buf : Fin PoolSize} {q : RingQueue (Option (Fin PoolSize))} (now : Int64)
      (hcall : a.workerCall = .dequeue pc)
      (h : DequeueStep (pointerQueue N PoolSize) a.process.queue pc [.deq (some msg_buf)] q pc') :
      WorkerStep N M a
        (shown [.dequeued msg_buf (a.process.pool.buffers_ msg_buf).header.sequence_number
          (a.process.pool.buffers_ msg_buf).payloadBytes]) { a with
        monitored.process.pool := a.process.pool.write msg_buf
          { a.process.pool.buffers_ msg_buf with worker_dequeue_time_ns := now }
        monitored.process.queue := q
        monitored.process.worker := .dequeued msg_buf
        workerCall := .none }
  | callSend {a : State PoolSize} {msg_buf : Fin PoolSize} (hcall : a.workerCall = .none)
      (hduty : a.monitored.duty = .sendToMonitoring msg_buf) :
      WorkerStep N M a [] { a with
        workerCall :=
          .send (MessageWorker.monitoringStats (a.process.pool.buffers_ msg_buf)) .idle }
  | sendAccess {a : State PoolSize} {stats : MonitoringStats}
      {pc pc' : ProducerPc MonitoringStats} {q : RingQueue MonitoringStats}
      (hcall : a.workerCall = .send stats pc)
      (h : EnqueueStep (spscQueue M MonitoringStats) stats a.monitored.stats_queue pc [] q pc') :
      WorkerStep N M a [] { a with
        monitored.stats_queue := q
        workerCall := .send stats pc' }
  | send {a : State PoolSize} {stats : MonitoringStats} {pc pc' : ProducerPc MonitoringStats}
      {q : RingQueue MonitoringStats} (hcall : a.workerCall = .send stats pc)
      (h : EnqueueStep (spscQueue M MonitoringStats) stats a.monitored.stats_queue pc
        [.enq stats] q pc') :
      WorkerStep N M a [.monitored (.sent stats)] { a with
        monitored.duty := .none
        monitored.stats_queue := q
        workerCall := .none }
  | skip {a : State PoolSize} {stats : MonitoringStats} {pc pc' : ProducerPc MonitoringStats}
      {q : RingQueue MonitoringStats} (hcall : a.workerCall = .send stats pc)
      (h : EnqueueStep (spscQueue M MonitoringStats) stats a.monitored.stats_queue pc
        [.full] q pc') :
      WorkerStep N M a [.monitored (.skipped stats)] { a with
        monitored.duty := .none
        monitored.stats_queue := q
        workerCall := .none }
  | release {a : State PoolSize} {msg_buf : Fin PoolSize} (hcall : a.workerCall = .none)
      (hduty : a.monitored.duty = .none)
      (hpc : a.process.worker = .rejected msg_buf ∨ a.process.worker = .processed msg_buf) :
      WorkerStep N M a [] { a with
        monitored.process.pool := a.process.pool.storeInUse msg_buf false
        workerCall := .deallocate (.marked msg_buf) }
  | deallocate {a : State PoolSize} {pc pc' : DeallocatePc PoolSize} {written : Option Nat}
      {p : BufferPool PoolSize} (hcall : a.workerCall = .deallocate pc)
      (h : DeallocateStep a.process.pool pc written p pc') :
      WorkerStep N M a
        (written.toList.map .wroteSlot ++ shown (HandOff.returnEvents written pc')) { a with
        monitored.process.pool := p
        workerCall := .deallocate pc' }
  | returned {a : State PoolSize} (hcall : a.workerCall = .deallocate .idle) :
      WorkerStep N M a [] { a with
        monitored.process.worker := HandOff.afterReturn a.process.worker
        workerCall := .none }

/-- One access of the monitoring thread. -/
inductive MonitorStep (M : Ring.Size) :
    State PoolSize → List (Event PoolSize) → State PoolSize → Prop
  | testRunning {a : State PoolSize} (hpc : a.monitored.monitorPc = .testing)
      (hrun : a.monitored.monitoring_running = true) :
      MonitorStep M a [] { a with monitored.monitorPc := .polling }
  | exit {a : State PoolSize} (hpc : a.monitored.monitorPc = .testing)
      (hstop : a.monitored.monitoring_running = false) :
      MonitorStep M a [] { a with monitored.monitorPc := .exited }
  | dequeueAccess {a : State PoolSize} {pc' : ConsumerPc MonitoringStats}
      {q : RingQueue MonitoringStats} (hpc : a.monitored.monitorPc = .polling)
      (h : DequeueStep (spscQueue M MonitoringStats) a.monitored.stats_queue a.monitorCall []
        q pc') :
      MonitorStep M a [] { a with
        monitored.stats_queue := q
        monitorCall := pc' }
  | queueEmpty {a : State PoolSize} {pc' : ConsumerPc MonitoringStats}
      {q : RingQueue MonitoringStats} (hpc : a.monitored.monitorPc = .polling)
      (h : DequeueStep (spscQueue M MonitoringStats) a.monitored.stats_queue a.monitorCall
        [.empty] q pc') :
      MonitorStep M a [] { a with
        monitored.stats_queue := q
        monitored.monitorPc := .testing
        monitorCall := pc' }
  | observe {a : State PoolSize} {stats : MonitoringStats} {pc' : ConsumerPc MonitoringStats}
      {q : RingQueue MonitoringStats} (hpc : a.monitored.monitorPc = .polling)
      (h : DequeueStep (spscQueue M MonitoringStats) a.monitored.stats_queue a.monitorCall
        [.deq stats] q pc') :
      MonitorStep M a [.monitored (.observed stats)] { a with
        monitored.stats_queue := q
        monitored.monitorPc := .testing
        monitored.monitor := a.monitored.monitor.bind fun v => v.observe stats.toMessageStats
        monitorCall := pc' }

/-- One access of one thread. -/
inductive Step (N M : Ring.Size) (config : Config) :
    State PoolSize → List (Event PoolSize) → State PoolSize → Prop
  | subscriber {a b : State PoolSize} {e : List (Event PoolSize)}
      (h : SubscriberStep N config a e b) : Step N M config a e b
  | worker {a b : State PoolSize} {e : List (Event PoolSize)} (h : WorkerStep N M a e b) :
      Step N M config a e b
  | monitor {a b : State PoolSize} {e : List (Event PoolSize)} (h : MonitorStep M a e b) :
      Step N M config a e b
  | main {a : State PoolSize} {e : List (System.Event PoolSize)} {p : System.State PoolSize}
      (h : MainStep a.process e p) : Step N M config a (shown e) { a with monitored.process := p }
  | stopMonitoring {a : State PoolSize} (hmain : a.process.main = .done)
      (hrun : a.monitored.monitoring_running = true) :
      Step N M config a [] { a with monitored.monitoring_running := false }
  | joinMonitoring {a : State PoolSize} (hstop : a.monitored.monitoring_running = false)
      (hexit : a.monitored.monitorPc = .exited) :
      Step N M config a [] { a with monitored.joined := true }
  | checkpoint {a : State PoolSize} {e : List SnapshotEvent} {c : Snapshot}
      (h : Access a.process.checkpoint e c) :
      Step N M config a (shown (e.map .checkpoint)) { a with monitored.process.checkpoint := c }

/-- The state in which the threads are started. -/
structure Initial (config : Config) (d₀ : CheckpointData) (a : State PoolSize) : Prop where
  monitored : MonitoredInitial config d₀ a.monitored
  subscriberCall : a.subscriberCall = .none
  workerCall : a.workerCall = .none
  monitorCall : a.monitorCall = .idle

/-- The process with a pool of `PoolSize` buffers, a message queue of `N` slots and a monitoring
queue of `M` slots. -/
def system (PoolSize : Nat) (N M : Ring.Size) (config : Config) (d₀ : CheckpointData) :
    Lts (State PoolSize) (Event PoolSize) where
  Init := Initial config d₀
  Step := Step N M config

/-- **The two threads use an entry of `free_list_` in the order in which they have claimed it**, as
in `BufferPool.SlotOrder`: the subscriber does not read an entry that the worker has claimed before
it and not yet written, and the worker does not write an entry that the subscriber has claimed
before it and not yet read. -/
def SlotOrder (a : State PoolSize) (e : List (Event PoolSize)) : Prop :=
  (∀ slot, .readSlot slot ∈ e →
    ¬ ((∃ buf, a.workerCall.returning = .claimed buf slot) ∧
      a.process.pool.free_count_ = slot)) ∧
  (∀ slot, .wroteSlot slot ∈ e →
    ¬ (a.subscriberCall.allocating = .claimed slot ∧ a.process.pool.free_count_ = slot + 1))

end Accesses

/-- The process as `main` builds it, access by access. -/
abbrev accessProcess (config : Config) (d₀ : CheckpointData) :
    Lts (Accesses.State poolSize) (Accesses.Event poolSize) :=
  Accesses.system poolSize queueSize statsQueueSize config d₀

/-- Its runs that respect the order of the claims. -/
abbrev orderedProcess (config : Config) (d₀ : CheckpointData) :
    Lts (Accesses.State poolSize) (Accesses.Event poolSize) :=
  (accessProcess config d₀).only Accesses.SlotOrder

end AeronReplay.System
