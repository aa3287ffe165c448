import AeronReplay.Lib.Extension
import AeronReplay.Subscriber.Monitor
import AeronReplay.System.Threads

set_option autoImplicit false

/-! # The subscriber process with its monitoring

The process of `main.cpp` with all that `System/Threads.lean` leaves out of the worker and of
`main`: the worker samples the length of the message queue in every round, measures the time
`processMessage` takes and offers statistics about every message it has processed to the monitoring
queue, an `SPSCQueue`; the monitoring thread takes them from there and sums them up, until `main`
tells it to stop.

`monitoring_transparent` says that all this cannot be noticed by the rest of the process: the
runs without monitoring are exactly the runs with monitoring, the monitoring being left out. -/

namespace AeronReplay

/-- `MessageStats` as a whole. -/
structure MonitoringStats extends MessageStats where
  message_number : Int64 := -1
  send_timestamp := 0
  recv_timestamp := 0
  position : Int64 := 0

/-- The statistics that `sendToMonitoring` offers. -/
def MessageWorker.monitoringStats (buf : MessageBuffer) : MonitoringStats where
  message_number := buf.header.sequence_number.toInt64
  send_timestamp := buf.header.publish_time_ns.toInt64
  recv_timestamp := buf.header.recv_time_ns.toInt64
  position := 0

namespace System

open Transition CheckpointManager

variable {PoolSize : Nat}

/-! ## The state -/

/-- The counters of the worker that only `getStatistics` reads. -/
structure WorkerMetrics where
  queue_empty_count_ : UInt64
  total_processing_time_ns_ : UInt64
  processing_count_ : UInt64
  total_queue_depth_ : UInt64
  queue_depth_samples_ : UInt64

/-- What the worker has to do before its next step in `WorkerStep`. -/
inductive WorkerDuty (PoolSize : Nat) where
  | none
  | sampleQueueDepth
  | sendToMonitoring (msg_buf : Fin PoolSize)

/-- What the worker has to do when it has come to this place. -/
def WorkerPc.duty : WorkerPc PoolSize → WorkerDuty PoolSize
  | .polling => .sampleQueueDepth
  | .processed buf => .sendToMonitoring buf
  | _ => .none

/-- The counters after the worker has gone from `pc` to `pc'`; `processing_time` is what the
clock says of the time between. -/
def WorkerMetrics.after (w : WorkerMetrics) (pc pc' : WorkerPc PoolSize)
    (processing_time : Int64) : WorkerMetrics :=
  match pc, pc' with
  | .polling, .testing => { w with queue_empty_count_ := w.queue_empty_count_ + 1 }
  | .dequeued _, .processed _ => { w with
      total_processing_time_ns_ := w.total_processing_time_ns_ + processing_time.toUInt64
      processing_count_ := w.processing_count_ + 1 }
  | _, _ => w

/-- Where the monitoring thread is in its loop. -/
inductive MonitorPc where
  | testing
  | polling
  | exited

structure Monitored (PoolSize : Nat) where
  process : State PoolSize
  duty : WorkerDuty PoolSize
  metrics : WorkerMetrics
  stats_queue : RingQueue MonitoringStats
  monitorPc : MonitorPc
  /-- The variables of the monitoring loop, unless one of its sums has overflowed. -/
  monitor : Option Monitor
  monitoring_running : Bool
  /-- `main` has joined the monitoring thread. -/
  joined : Bool

/-- The events of the process, and what the worker and the monitoring thread do beside them. -/
inductive MonitoredEvent (PoolSize : Nat) where
  | process (x : Event PoolSize)
  | queueDepth (depth : Nat)
  | sent (stats : MonitoringStats)
  /-- The monitoring queue has been full. -/
  | skipped (stats : MonitoringStats)
  | observed (stats : MonitoringStats)

namespace MonitoredEvent

def process? : MonitoredEvent PoolSize → Option (Event PoolSize)
  | .process x => some x
  | _ => none

def queueDepth? : MonitoredEvent PoolSize → Option Nat
  | .queueDepth depth => some depth
  | _ => none

/-- The statistics that are offered to the monitoring queue, whether it has room or not. -/
def offered? : MonitoredEvent PoolSize → Option MonitoringStats
  | .sent stats => some stats
  | .skipped stats => some stats
  | _ => none

def sent? : MonitoredEvent PoolSize → Option MonitoringStats
  | .sent stats => some stats
  | _ => none

def skipped? : MonitoredEvent PoolSize → Option MonitoringStats
  | .skipped stats => some stats
  | _ => none

def observed? : MonitoredEvent PoolSize → Option MonitoringStats
  | .observed stats => some stats
  | _ => none

end MonitoredEvent

/-! ## The steps -/

/-- One step of one thread, where `N` is the size of the message queue and `M` that of the
monitoring queue. -/
inductive MonitoredStep (N M : Ring.Size) (config : Config) :
    Monitored PoolSize → List (MonitoredEvent PoolSize) → Monitored PoolSize → Prop
  | subscriber {m : Monitored PoolSize} {e : List (Event PoolSize)} {s : State PoolSize}
      (h : SubscriberStep N config m.process e s) :
      MonitoredStep N M config m (e.map .process) { m with process := s }
  | worker {m : Monitored PoolSize} {e : List (Event PoolSize)} {s : State PoolSize}
      (start_processing end_processing : Int64) (hduty : m.duty = .none)
      (h : WorkerStep N m.process e s) :
      MonitoredStep N M config m (e.map .process) { m with
        process := s
        duty := s.worker.duty
        metrics := m.metrics.after m.process.worker s.worker (end_processing - start_processing) }
  -- the worker is the consumer, so that `head_` does not change between the two loads of `size`
  | sampleQueueDepth {m : Monitored PoolSize} (hduty : m.duty = .sampleQueueDepth) :
      MonitoredStep N M config m
        [.queueDepth (MessageQueue.size N m.process.queue.head_ m.process.queue.tail_)] { m with
        duty := .none
        metrics := { m.metrics with
          total_queue_depth_ := m.metrics.total_queue_depth_
            + .ofNat (MessageQueue.size N m.process.queue.head_ m.process.queue.tail_)
          queue_depth_samples_ := m.metrics.queue_depth_samples_ + 1 } }
  | send {m : Monitored PoolSize} {msg_buf : Fin PoolSize} {q : RingQueue MonitoringStats}
      (hduty : m.duty = .sendToMonitoring msg_buf)
      (henq : RingQueue.enqueue (spscQueue M MonitoringStats) m.stats_queue
        (MessageWorker.monitoringStats (m.process.pool.buffers_ msg_buf)) = (true, q)) :
      MonitoredStep N M config m
        [.sent (MessageWorker.monitoringStats (m.process.pool.buffers_ msg_buf))] { m with
        duty := .none
        stats_queue := q }
  | skip {m : Monitored PoolSize} {msg_buf : Fin PoolSize} {q : RingQueue MonitoringStats}
      (hduty : m.duty = .sendToMonitoring msg_buf)
      (henq : RingQueue.enqueue (spscQueue M MonitoringStats) m.stats_queue
        (MessageWorker.monitoringStats (m.process.pool.buffers_ msg_buf)) = (false, q)) :
      MonitoredStep N M config m
        [.skipped (MessageWorker.monitoringStats (m.process.pool.buffers_ msg_buf))] { m with
        duty := .none
        stats_queue := q }
  | testMonitoring {m : Monitored PoolSize} (hpc : m.monitorPc = .testing)
      (hrun : m.monitoring_running = true) :
      MonitoredStep N M config m [] { m with monitorPc := .polling }
  | exitMonitoring {m : Monitored PoolSize} (hpc : m.monitorPc = .testing)
      (hstop : m.monitoring_running = false) :
      MonitoredStep N M config m [] { m with monitorPc := .exited }
  | statsQueueEmpty {m : Monitored PoolSize} {q : RingQueue MonitoringStats}
      (hpc : m.monitorPc = .polling)
      (hdeq : RingQueue.dequeue (spscQueue M MonitoringStats) m.stats_queue = (none, q)) :
      MonitoredStep N M config m [] { m with
        stats_queue := q
        monitorPc := .testing }
  | observe {m : Monitored PoolSize} {stats : MonitoringStats} {q : RingQueue MonitoringStats}
      (hpc : m.monitorPc = .polling)
      (hdeq : RingQueue.dequeue (spscQueue M MonitoringStats) m.stats_queue = (some stats, q)) :
      MonitoredStep N M config m [.observed stats] { m with
        stats_queue := q
        monitorPc := .testing
        monitor := m.monitor.bind fun v => v.observe stats.toMessageStats }
  | main {m : Monitored PoolSize} {e : List (Event PoolSize)} {s : State PoolSize}
      (h : MainStep m.process e s) :
      MonitoredStep N M config m (e.map .process) { m with process := s }
  | stopMonitoring {m : Monitored PoolSize} (hmain : m.process.main = .done)
      (hrun : m.monitoring_running = true) :
      MonitoredStep N M config m [] { m with monitoring_running := false }
  | joinMonitoring {m : Monitored PoolSize} (hstop : m.monitoring_running = false)
      (hexit : m.monitorPc = .exited) :
      MonitoredStep N M config m [] { m with joined := true }
  | checkpoint {m : Monitored PoolSize} {e : List SnapshotEvent} {c : Snapshot}
      (h : Access m.process.checkpoint e c) :
      MonitoredStep N M config m ((e.map .checkpoint).map .process)
        { m with process := { m.process with checkpoint := c } }

/-- The state in which the threads are started. -/
structure MonitoredInitial (config : Config) (d₀ : CheckpointData) (m : Monitored PoolSize) :
    Prop where
  process : Initial config d₀ m.process
  duty : m.duty = .none
  metrics : m.metrics = ⟨0, 0, 0, 0, 0⟩
  stats_queue : m.stats_queue.head_ = 0 ∧ m.stats_queue.tail_ = 0
  monitorPc : m.monitorPc = .testing
  monitor : m.monitor = some {}
  running : m.monitoring_running = true ∧ m.joined = false

/-- The process with a pool of `PoolSize` buffers, a message queue of `N` slots and a monitoring
queue of `M` slots. -/
def monitoredSystem (PoolSize : Nat) (N M : Ring.Size) (config : Config) (d₀ : CheckpointData) :
    Lts (Monitored PoolSize) (MonitoredEvent PoolSize) where
  Init := MonitoredInitial config d₀
  Step := MonitoredStep N M config

/-- The number of slots of `MessageStatsQueue`. -/
def statsQueueSize : Ring.Size := ⟨14, by decide, by decide⟩

/-- The process as `main` builds it. -/
abbrev monitoredProcess (config : Config) (d₀ : CheckpointData) :
    Lts (Monitored poolSize) (MonitoredEvent poolSize) :=
  monitoredSystem poolSize queueSize statsQueueSize config d₀

/-! ## What the rest of the process sees of it -/

section Projection

variable {N M : Ring.Size} {config : Config} {d₀ : CheckpointData}

@[simp] theorem filterMap_process (e : List (Event PoolSize)) :
    (e.map MonitoredEvent.process).filterMap MonitoredEvent.process? = e := by
  rw [List.filterMap_map]
  exact List.filterMap_some

/-- Every step is one of the process or leaves the process alone. -/
theorem MonitoredStep.process {m m' : Monitored PoolSize} {e : List (MonitoredEvent PoolSize)}
    (h : MonitoredStep N M config m e m') :
    Step N config m.process (e.filterMap MonitoredEvent.process?) m'.process ∨
      e.filterMap MonitoredEvent.process? = [] ∧ m'.process = m.process := by
  cases h with
  | subscriber h =>
      rw [filterMap_process]
      exact Or.inl (.subscriber h)
  | worker _ _ _ h =>
      rw [filterMap_process]
      exact Or.inl (.worker h)
  | main h =>
      rw [filterMap_process]
      exact Or.inl (.main h)
  | checkpoint h =>
      rw [filterMap_process]
      exact Or.inl (.checkpoint h)
  | _ => exact Or.inr ⟨rfl, rfl⟩

variable (config d₀) in
/-- The worker can always do its duty. -/
theorem exists_duty_done (m : Monitored PoolSize) :
    ∃ e m', Steps (monitoredSystem PoolSize N M config d₀) m e m' ∧
      e.filterMap MonitoredEvent.process? = [] ∧ m'.process = m.process ∧ m'.duty = .none := by
  cases hduty : m.duty with
  | none => exact ⟨[], m, .refl m, rfl, rfl, hduty⟩
  | sampleQueueDepth => exact ⟨_, _, .single (.sampleQueueDepth hduty), rfl, rfl, rfl⟩
  | sendToMonitoring b =>
      cases henq : RingQueue.enqueue (spscQueue M MonitoringStats) m.stats_queue
          (MessageWorker.monitoringStats (m.process.pool.buffers_ b)) with
      | mk accepted q =>
        cases accepted with
        | true => exact ⟨_, _, .single (.send hduty henq), rfl, rfl, rfl⟩
        | false => exact ⟨_, _, .single (.skip hduty henq), rfl, rfl, rfl⟩

/-- A new process can be monitored. -/
def State.monitored (s : State PoolSize) : Monitored PoolSize where
  process := s
  duty := .none
  metrics := ⟨0, 0, 0, 0, 0⟩
  stats_queue := ⟨fun _ => {}, 0, 0⟩
  monitorPc := .testing
  monitor := some {}
  monitoring_running := true
  joined := false

theorem State.monitored_init {s : State PoolSize} (h : Initial config d₀ s) :
    MonitoredInitial config d₀ s.monitored :=
  ⟨h, rfl, rfl, ⟨rfl, rfl⟩, rfl, rfl, rfl, rfl⟩

theorem monitored_conservative : Conservative (monitoredSystem PoolSize N M config d₀)
    (system PoolSize N config d₀) Monitored.process MonitoredEvent.process? where
  init _ h := h.process
  step m e m' h := by
    rcases MonitoredStep.process h with h | ⟨hnone, hsame⟩
    · exact .single h
    · rw [hnone, hsame]
      exact .refl _
  lift_init s h := ⟨s.monitored, s.monitored_init h, rfl⟩
  lift_step := by
    intro _ m f t _ h
    cases h with
    | subscriber h => exact ⟨_, _, .single (.subscriber h), filterMap_process f, rfl⟩
    | worker h =>
        obtain ⟨e, m', q, hnone, hsame, hduty⟩ := exists_duty_done (N := N) (M := M) config d₀ m
        have q' := q.tail (.worker 0 0 hduty (hsame ▸ h))
        refine ⟨_, _, q', ?_, rfl⟩
        rw [List.filterMap_append, hnone, filterMap_process, List.nil_append]
    | main h => exact ⟨_, _, .single (.main h), filterMap_process f, rfl⟩
    | checkpoint h => exact ⟨_, _, .single (.checkpoint h), filterMap_process _, rfl⟩

/-- **Monitoring is transparent.** A sequence of events and a final state are those of a run of
the process without monitoring exactly when they are what a run with monitoring shows of the
process. The monitoring thread neither delays a message nor reorders it nor brings one about,
and it does not matter whether its queue is full or whether it is running at all. -/
theorem monitoring_transparent {es : List (Event poolSize)} {s : State poolSize} :
    Run (subscriberProcess config d₀) es s ↔
      ∃ ms m, Run (monitoredProcess config d₀) ms m ∧
        ms.filterMap MonitoredEvent.process? = es ∧ m.process = s :=
  monitored_conservative.run_iff

end Projection

end System

end AeronReplay
