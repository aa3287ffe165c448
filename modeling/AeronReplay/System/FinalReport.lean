import AeronReplay.Lib.Extension
import AeronReplay.Pool.ManyThreads
import AeronReplay.Queue.Observers
import AeronReplay.System.Drain

set_option autoImplicit false

/-! # The final report

Four objects keep statistics of what goes through the process: the subscriber, the worker, the
pool and the message queue. Each counts on its own, and `main` prints all of them when both threads
have been joined. `final_report` says how the figures that an operator reads there belong together:
the messages received and the messages enqueued are the same number, and what has been enqueued and
not dequeued is what is still in the queue, which are the buffers still in use.

The process is that of `System/Threads.lean`: a call of the pool or of the queue is one step here,
and what is said holds of the runs in which the calls are as good as that. -/

namespace AeronReplay.System

open Transition CheckpointManager RingQueue

variable {PoolSize : Nat} {N : Ring.Size} {config : Config} {d₀ : CheckpointData}

/-! ## The counters of the pool and of the queue -/

structure ObjectCounters where
  total_allocations_ : UInt64
  total_deallocations_ : UInt64
  allocation_failures_ : UInt64
  total_enqueued_ : UInt64
  total_dequeued_ : UInt64
  enqueue_failures_ : UInt64

/-- A call of the pool or of the queue, with what it has come to. -/
inductive Operation where
  | allocate (found : Bool)
  | deallocate (room : Bool)
  | enqueue (room : Bool)
  | dequeue (found : Bool)

/-- Only a deallocation that finds no room and a dequeue that finds nothing are not counted. -/
def ObjectCounters.after (c : ObjectCounters) : Option Operation → ObjectCounters
  | some (.allocate true) => { c with total_allocations_ := c.total_allocations_ + 1 }
  | some (.allocate false) => { c with allocation_failures_ := c.allocation_failures_ + 1 }
  | some (.deallocate true) => { c with total_deallocations_ := c.total_deallocations_ + 1 }
  | some (.enqueue true) => { c with total_enqueued_ := c.total_enqueued_ + 1 }
  | some (.enqueue false) => { c with enqueue_failures_ := c.enqueue_failures_ + 1 }
  | some (.dequeue true) => { c with total_dequeued_ := c.total_dequeued_ + 1 }
  | _ => c

/-- The call by which the fast path goes from one place to the next, if it makes one; `room` says
whether the free list has any. -/
def FastPathPc.operation (room : Bool) :
    FastPathPc PoolSize → FastPathPc PoolSize → Option Operation
  | .idle, .allocated _ _ _ => some (.allocate true)
  | .idle, .idle => some (.allocate false)
  | .tracked _ _, .enqueued _ _ => some (.enqueue true)
  | .tracked _ _, .refused _ _ => some (.enqueue false)
  | .duplicate _ _, .idle => some (.deallocate room)
  | .refused _ _, .idle => some (.deallocate room)
  | _, _ => none

/-- The call by which the worker goes from one place to the next, if it makes one. -/
def WorkerPc.operation (room : Bool) : WorkerPc PoolSize → WorkerPc PoolSize → Option Operation
  | .polling, .dequeued _ => some (.dequeue true)
  | .polling, .testing => some (.dequeue false)
  | .rejected _, .testing => some (.deallocate room)
  | .processed _, .counting => some (.deallocate room)
  | _, _ => none

structure Reported (PoolSize : Nat) where
  process : State PoolSize
  counters : ObjectCounters

/-- Whether `deallocate` finds room in the free list. -/
def State.room (s : State PoolSize) : Bool := s.pool.free_count_ < PoolSize

/-- One step of one thread; a call is counted by the object that is called. -/
inductive ReportedStep (N : Ring.Size) (config : Config) :
    Reported PoolSize → List (Event PoolSize) → Reported PoolSize → Prop
  | subscriber {s : Reported PoolSize} {e : List (Event PoolSize)} {p : State PoolSize}
      (h : SubscriberStep N config s.process e p) :
      ReportedStep N config s e ⟨p,
        s.counters.after (s.process.fastPath.operation s.process.room p.fastPath)⟩
  | worker {s : Reported PoolSize} {e : List (Event PoolSize)} {p : State PoolSize}
      (h : WorkerStep N s.process e p) :
      ReportedStep N config s e ⟨p,
        s.counters.after (s.process.worker.operation s.process.room p.worker)⟩
  | main {s : Reported PoolSize} {e : List (Event PoolSize)} {p : State PoolSize}
      (h : MainStep s.process e p) : ReportedStep N config s e { s with process := p }
  | checkpoint {s : Reported PoolSize} {e : List SnapshotEvent} {c : Snapshot}
      (h : Access s.process.checkpoint e c) :
      ReportedStep N config s (e.map .checkpoint) { s with process.checkpoint := c }

/-- The process with the counters of its pool and its queue. -/
def reported (PoolSize : Nat) (N : Ring.Size) (config : Config) (d₀ : CheckpointData) :
    Lts (Reported PoolSize) (Event PoolSize) where
  Init s := Initial config d₀ s.process ∧ s.counters = ⟨0, 0, 0, 0, 0, 0⟩
  Step := ReportedStep N config

/-- The counters neither keep the process from a step nor bring one about. -/
theorem reported_conservative (PoolSize : Nat) (N : Ring.Size) (config : Config)
    (d₀ : CheckpointData) :
    Conservative (reported PoolSize N config d₀) (system PoolSize N config d₀) Reported.process
      some where
  init _ h := h.1
  step _ _ _ h := by
    rw [List.filterMap_some]
    cases h with
    | subscriber h => exact .single (.subscriber h)
    | worker h => exact .single (.worker h)
    | main h => exact .single (.main h)
    | checkpoint h => exact .single (.checkpoint h)
  lift_init s h := ⟨⟨s, ⟨0, 0, 0, 0, 0, 0⟩⟩, ⟨h, rfl⟩, rfl⟩
  lift_step := by
    intro _ s f t _ h
    cases h with
    | subscriber h => exact ⟨_, _, .single (.subscriber h), List.filterMap_some, rfl⟩
    | worker h => exact ⟨_, _, .single (.worker h), List.filterMap_some, rfl⟩
    | main h => exact ⟨_, _, .single (.main h), List.filterMap_some, rfl⟩
    | checkpoint h => exact ⟨_, _, .single (.checkpoint h), List.filterMap_some, rfl⟩

variable {es e : List (Event PoolSize)} {s t : Reported PoolSize}

theorem process_run (r : Run (reported PoolSize N config d₀) es s) :
    Run (system PoolSize N config d₀) es s.process := by
  have := (reported_conservative PoolSize N config d₀).toExtension.run r
  rwa [List.filterMap_some] at this

/-! ## What the counters say of each other -/

/-- `1` if the fast path has counted a duplicate that it has not returned to the pool yet. -/
def FastPathPc.unreturned : FastPathPc PoolSize → UInt64
  | .duplicate _ _ => 1
  | _ => 0

/-- `1` if the queue has counted a refusal that the fast path has not counted yet. -/
def FastPathPc.unrefused : FastPathPc PoolSize → UInt64
  | .refused _ _ => 1
  | _ => 0

/-- `1` if the worker has counted a message that it has not returned to the pool yet. -/
def WorkerPc.unreturned : WorkerPc PoolSize → UInt64
  | .rejected _ => 1
  | _ => 0

/-- `1` if the worker has returned a message to the pool that it has not counted yet. -/
def WorkerPc.unjudgedReturn : WorkerPc PoolSize → UInt64
  | .counting => 1
  | _ => 0

/-- The messages that the subscriber or the worker has done with, by their own count. -/
def Statistics.finished (st : Statistics) : UInt64 :=
  st.duplicates_detected_ + st.zc_queue_full_failures_ + st.judged

/-- How the counters of the pool and of the queue compare with the history and with the
statistics of the threads. -/
structure Tallies (es : List (Event PoolSize)) (s : Reported PoolSize) : Prop where
  arrived : .ofNat (arrivals es).length
    = s.counters.total_allocations_ + s.counters.allocation_failures_
  failed : s.process.stats.zc_buffer_allocation_failures_ = s.counters.allocation_failures_
  returned : s.counters.total_deallocations_ + s.process.fastPath.unreturned +
      s.process.worker.unreturned
    = s.process.stats.finished + s.process.worker.unjudgedReturn
  accepted : .ofNat (acceptances es).length = s.counters.total_enqueued_
  refused : s.counters.enqueue_failures_
    = s.process.stats.zc_queue_full_failures_ + s.process.fastPath.unrefused
  dequeued : .ofNat (dequeues es).length = s.counters.total_dequeued_

/-- Both sides of the accounts after a step, from what the step adds to them. -/
theorem Tallies.next (h : Tallies es s)
    (arrived : t.counters.total_allocations_ + t.counters.allocation_failures_
      = s.counters.total_allocations_ + s.counters.allocation_failures_
        + .ofNat (arrivals e).length)
    (failed : t.process.stats.zc_buffer_allocation_failures_ + s.counters.allocation_failures_
      = s.process.stats.zc_buffer_allocation_failures_ + t.counters.allocation_failures_)
    (returned : t.counters.total_deallocations_ + t.process.fastPath.unreturned +
        t.process.worker.unreturned + (s.process.stats.finished + s.process.worker.unjudgedReturn)
      = s.counters.total_deallocations_ + s.process.fastPath.unreturned +
        s.process.worker.unreturned + (t.process.stats.finished + t.process.worker.unjudgedReturn))
    (accepted : t.counters.total_enqueued_
      = s.counters.total_enqueued_ + .ofNat (acceptances e).length)
    (refused : t.counters.enqueue_failures_
        + (s.process.stats.zc_queue_full_failures_ + s.process.fastPath.unrefused)
      = s.counters.enqueue_failures_
        + (t.process.stats.zc_queue_full_failures_ + t.process.fastPath.unrefused))
    (dequeued : t.counters.total_dequeued_
      = s.counters.total_dequeued_ + .ofNat (dequeues e).length) : Tallies (es ++ e) t where
  arrived := by
    rw [arrivals_append, List.length_append, UInt64.ofNat_add, h.arrived, arrived]
  failed := by
    have := h.failed
    grind
  returned := by
    have := h.returned
    grind
  accepted := by
    rw [acceptances_append, List.length_append, UInt64.ofNat_add, h.accepted, accepted]
  refused := by
    have := h.refused
    grind
  dequeued := by
    rw [dequeues_append, List.length_append, UInt64.ofNat_add, h.dequeued, dequeued]

/-- A step at which nothing arrives and nothing is handed over. -/
theorem Tallies.still (h : Tallies es s) (he : ∀ x ∈ e, x.still = true)
    (arrived : t.counters.total_allocations_ + t.counters.allocation_failures_
      = s.counters.total_allocations_ + s.counters.allocation_failures_)
    (failed : t.process.stats.zc_buffer_allocation_failures_ + s.counters.allocation_failures_
      = s.process.stats.zc_buffer_allocation_failures_ + t.counters.allocation_failures_)
    (returned : t.counters.total_deallocations_ + t.process.fastPath.unreturned +
        t.process.worker.unreturned + (s.process.stats.finished + s.process.worker.unjudgedReturn)
      = s.counters.total_deallocations_ + s.process.fastPath.unreturned +
        s.process.worker.unreturned + (t.process.stats.finished + t.process.worker.unjudgedReturn))
    (accepted : t.counters.total_enqueued_ = s.counters.total_enqueued_)
    (refused : t.counters.enqueue_failures_
        + (s.process.stats.zc_queue_full_failures_ + s.process.fastPath.unrefused)
      = s.counters.enqueue_failures_
        + (t.process.stats.zc_queue_full_failures_ + t.process.fastPath.unrefused))
    (dequeued : t.counters.total_dequeued_ = s.counters.total_dequeued_) : Tallies (es ++ e) t := by
  have harrivals : arrivals e = [] := filterMap_eq_nil fun x hx => (Event.of_still (he x hx)).1
  have hacceptances : acceptances e = [] :=
    filterMap_eq_nil fun x hx => (Event.of_still (he x hx)).2.1
  have hdequeues : dequeues e = [] :=
    filterMap_eq_nil fun x hx => (Event.of_still (he x hx)).2.2
  refine h.next ?_ failed returned ?_ refused ?_
  · rw [arrived, harrivals]
    exact (UInt64.add_zero _).symm
  · rw [accepted, hacceptances]
    exact (UInt64.add_zero _).symm
  · rw [dequeued, hdequeues]
    exact (UInt64.add_zero _).symm

theorem finished_track (st : Statistics) (v : AeronSubscriber.Verdict) :
    (st.track v).finished = st.finished + if v.duplicate then 1 else 0 := by
  by_cases h : v.duplicate
  · simp only [Statistics.track, Statistics.finished, Statistics.judged, h, if_true]
    ac_rfl
  · simp [Statistics.track, Statistics.finished, Statistics.judged, h]

theorem eq_add_none (x : UInt64) : x = x + .ofNat 0 := (UInt64.add_zero x).symm

theorem Tallies.subscriberStep (h : Tallies es s) {p : State PoolSize}
    (hroom : s.process.fastPath.held ≠ [] → s.process.room = true)
    (hstep : SubscriberStep N config s.process e p) :
    Tallies (es ++ e) ⟨p,
      s.counters.after (s.process.fastPath.operation s.process.room p.fastPath)⟩ := by
  cases hstep with
  | arrive f recv hpc halloc =>
      rw [hpc]
      refine h.next ?_ rfl ?_ (eq_add_none _) ?_ (eq_add_none _)
      · show s.counters.total_allocations_ + 1 + _ = _ + _ + 1
        ac_rfl
      · rw [hpc]
        rfl
      · rw [hpc]
        rfl
  | allocationFails f hpc halloc =>
      rw [show FastPathPc.operation _ _ _ = some (.allocate false) by rw [hpc]; rfl]
      refine h.next ?_ ?_ rfl (eq_add_none _) rfl (eq_add_none _)
      · exact (UInt64.add_assoc _ _ _).symm
      · show _ + 1 + s.counters.allocation_failures_ = _ + (_ + 1)
        ac_rfl
  | trackDuplicate hpc hb hv hdup =>
      rw [hpc]
      refine h.still ?_ rfl rfl ?_ rfl ?_ rfl
      · exact List.forall_mem_append.mpr ⟨forall_gaps (fun _ => rfl) _, by simp [Event.still]⟩
      · rw [hpc]
        show s.counters.total_deallocations_ + 1 + s.process.worker.unreturned + _
          = s.counters.total_deallocations_ + 0 + s.process.worker.unreturned
            + ((Statistics.track _ _).finished + s.process.worker.unjudgedReturn)
        rw [finished_track, if_pos hdup, UInt64.add_zero]
        ac_rfl
      · rw [hpc]
        rfl
  | track hpc hb hv hdup =>
      rw [hpc]
      refine h.still (forall_gaps (fun _ => rfl) _) rfl rfl ?_ rfl ?_ rfl
      · rw [hpc]
        show s.counters.total_deallocations_ + 0 + s.process.worker.unreturned + _
          = s.counters.total_deallocations_ + 0 + s.process.worker.unreturned
            + ((Statistics.track _ _).finished + s.process.worker.unjudgedReturn)
        rw [finished_track, hdup, if_neg Bool.false_ne_true,
          UInt64.add_zero s.process.stats.finished]
      · rw [hpc]
        rfl
  | dropDuplicate hpc =>
      rw [hroom (by simp [hpc, FastPathPc.held]), hpc]
      refine h.still (forall_overflow (by rfl) _) rfl rfl ?_ rfl ?_ rfl
      · rw [hpc]
        show s.counters.total_deallocations_ + 1 + 0 + _ + _
          = s.counters.total_deallocations_ + 1 + _ + _
        rw [UInt64.add_zero]
      · rw [hpc]
        rfl
  | enqueue hpc henq =>
      rw [hpc]
      refine h.next (eq_add_none _) rfl ?_ rfl ?_ (eq_add_none _)
      · rw [hpc]
        rfl
      · rw [hpc]
        rfl
  | enqueueFails hpc henq =>
      rw [hpc]
      refine h.still (by simp [Event.still]) rfl rfl ?_ rfl ?_ rfl
      · rw [hpc]
        rfl
      · rw [hpc]
        show s.counters.enqueue_failures_ + 1 + (s.process.stats.zc_queue_full_failures_ + 0)
          = _ + (_ + 1)
        rw [UInt64.add_zero]
        ac_rfl
  | dropRefused hpc =>
      rw [hroom (by simp [hpc, FastPathPc.held]), hpc]
      refine h.still (forall_overflow (by rfl) _) rfl rfl ?_ rfl ?_ rfl
      · rw [hpc]
        show s.counters.total_deallocations_ + 1 + 0 + _ + (s.process.stats.finished + _)
          = _ + 0 + _ + (s.process.stats.duplicates_detected_
            + (s.process.stats.zc_queue_full_failures_ + 1) + s.process.stats.judged + _)
        rw [Statistics.finished, UInt64.add_zero, UInt64.add_zero]
        ac_rfl
      · rw [hpc]
        exact congrArg _ (UInt64.add_zero _).symm
  | count hpc | countAndUpdate _ hpc =>
      rw [hpc]
      refine h.still (by simp) rfl rfl ?_ rfl ?_ rfl
      · rw [hpc]
        rfl
      · rw [hpc]
        rfl
  | updated hpc | exit hpc =>
      rw [hpc]
      refine h.still (by simp) rfl rfl ?_ rfl ?_ rfl
      · rw [hpc]
        rfl
      · rw [hpc]
        rfl

theorem Tallies.workerStep (h : Tallies es s) {p : State PoolSize}
    (hroom : s.process.worker.held ≠ [] → s.process.room = true)
    (hstep : WorkerStep N s.process e p) :
    Tallies (es ++ e) ⟨p,
      s.counters.after (s.process.worker.operation s.process.room p.worker)⟩ := by
  cases hstep with
  | testRunning hpc | exit hpc | queueEmpty hpc | process hpc =>
      rw [hpc]
      refine h.still (by simp [Event.still]) rfl rfl ?_ rfl rfl rfl
      rw [hpc]
      rfl
  | dequeue now hpc hdeq =>
      rw [hpc]
      refine h.next (eq_add_none _) rfl ?_ (eq_add_none _) rfl rfl
      rw [hpc]
      rfl
  | rejectInvalid hpc hvalid | rejectDuplicate hpc hvalid hdup =>
      rw [hpc]
      refine h.still (by simp [Event.still]) rfl rfl ?_ rfl rfl rfl
      rw [hpc]
      show s.counters.total_deallocations_ + s.process.fastPath.unreturned + 1
          + (s.process.stats.finished + 0)
        = s.counters.total_deallocations_ + s.process.fastPath.unreturned + 0 + (_ + 0)
      simp only [Statistics.finished, Statistics.judged, UInt64.add_zero]
      ac_rfl
  | returnRejected hpc =>
      rw [hroom (by simp [hpc, WorkerPc.held]), hpc]
      refine h.still (forall_overflow (by rfl) _) rfl rfl ?_ rfl rfl rfl
      rw [hpc]
      show s.counters.total_deallocations_ + 1 + s.process.fastPath.unreturned + 0 + _
        = s.counters.total_deallocations_ + s.process.fastPath.unreturned + 1 + _
      rw [UInt64.add_zero]
      ac_rfl
  | returnProcessed hpc =>
      rw [hroom (by simp [hpc, WorkerPc.held]), hpc]
      refine h.still (forall_overflow (by rfl) _) rfl rfl ?_ rfl rfl rfl
      rw [hpc]
      show s.counters.total_deallocations_ + 1 + s.process.fastPath.unreturned + 0
          + (s.process.stats.finished + 0)
        = s.counters.total_deallocations_ + s.process.fastPath.unreturned + 0
          + (s.process.stats.finished + 1)
      simp only [UInt64.add_zero]
      ac_rfl
  | countProcessed hpc =>
      rw [hpc]
      refine h.still (by simp) rfl rfl ?_ rfl rfl rfl
      rw [hpc]
      show s.counters.total_deallocations_ + s.process.fastPath.unreturned + 0
          + (s.process.stats.finished + 1)
        = s.counters.total_deallocations_ + s.process.fastPath.unreturned + 0 + (_ + 0)
      simp only [Statistics.finished, Statistics.judged, UInt64.add_zero]
      ac_rfl

theorem tallies_run (hsize : PoolSize < N.val) (r : Run (reported PoolSize N config d₀) es s) :
    Tallies es s := by
  induction r with
  | @init s h =>
      obtain ⟨hinit, hcounters⟩ := h
      refine ⟨?_, ?_, ?_, ?_, ?_, ?_⟩ <;> simp [hcounters, hinit.stats, hinit.fastPath,
        hinit.worker, arrivals, acceptances, dequeues, Statistics.finished, Statistics.judged,
        FastPathPc.unreturned, FastPathPc.unrefused, WorkerPc.unreturned, WorkerPc.unjudgedReturn]
  | @step es e s t r hstep ih =>
      obtain ⟨l, h⟩ := custody_run hsize (process_run r)
      have hroom {b : Fin PoolSize} (hb : b ∈ out s.process l) : s.process.room = true :=
        decide_eq_true (h.custody.pool.count_lt hb)
      cases hstep with
      | subscriber hstep =>
          refine ih.subscriberStep (fun hheld => ?_) hstep
          obtain ⟨b, hb⟩ := List.exists_mem_of_ne_nil _ hheld
          exact hroom (b := b) (by simp [out, hb])
      | worker hstep =>
          refine ih.workerStep (fun hheld => ?_) hstep
          obtain ⟨b, hb⟩ := List.exists_mem_of_ne_nil _ hheld
          exact hroom (b := b) (by simp [out, hb])
      | main hstep =>
          cases hstep with
          | _ => exact ih.still (by simp [Event.still]) rfl rfl rfl rfl rfl rfl
      | checkpoint hstep => exact ih.still (by simp [Event.still]) rfl rfl rfl rfl rfl rfl

theorem enqueue_failures_step (hstep : ReportedStep N config s e t) :
    t.counters.enqueue_failures_ = s.counters.enqueue_failures_ ∨ ∃ f, .queueFull f ∈ e := by
  cases hstep with
  | subscriber h =>
      cases h with
      | enqueueFails => exact .inr ⟨_, .head _⟩
      | allocationFails f hpc =>
          left
          rw [show FastPathPc.operation _ _ _ = some (.allocate false) by rw [hpc]; rfl]
          rfl
      | arrive _ _ hpc | trackDuplicate hpc | track hpc | dropDuplicate hpc | enqueue hpc
        | dropRefused hpc | count hpc | countAndUpdate _ hpc | updated hpc | exit hpc =>
          left
          rw [hpc]
          cases s.process.room <;> rfl
  | worker h =>
      left
      cases h with
      | testRunning hpc | exit hpc | queueEmpty hpc | dequeue _ hpc | rejectInvalid hpc
        | rejectDuplicate hpc | process hpc | returnRejected hpc | returnProcessed hpc
        | countProcessed hpc =>
          rw [hpc]
          cases s.process.room <;> rfl
  | main | checkpoint => exact .inl rfl

theorem enqueue_failures_eq_zero (hsize : PoolSize < N.val)
    (r : Run (reported PoolSize N config d₀) es s) : s.counters.enqueue_failures_ = 0 := by
  induction r with
  | init h => rw [h.2]
  | step r hstep ih =>
      obtain ⟨l, h⟩ := conserved_run hsize (process_run (r.step hstep))
      obtain hsame | ⟨f, hf⟩ := enqueue_failures_step hstep
      · rw [hsame, ih]
      · exact absurd (List.mem_append_right _ hf) (h.noQueueFull f)

/-! ## What `main` prints -/

/-- `BufferPool::getStatistics` -/
def Reported.poolStatistics (s : Reported PoolSize) : PoolThreads.Statistics :=
  (⟨s.process.pool, s.counters.total_allocations_, s.counters.total_deallocations_,
    s.counters.allocation_failures_⟩ : PoolThreads.Shared PoolSize).getStatistics

/-- `MessageQueue::getStatistics` -/
def Reported.queueStatistics (N : Ring.Size) (s : Reported PoolSize) : QueueStatistics where
  total_enqueued := s.counters.total_enqueued_
  total_dequeued := s.counters.total_dequeued_
  enqueue_failures := s.counters.enqueue_failures_
  current_size := MessageQueue.size N s.process.queue.head_ s.process.queue.tail_
  capacity := N.val - 1

/-- The figures of one report of a process that has received the fragments `fs`. -/
structure AddsUp (fs : List Fragment) (st : Statistics) (pool : PoolThreads.Statistics)
    (queue : QueueStatistics) : Prop where
  arrived : .ofNat fs.length = pool.total_allocations + pool.allocation_failures
  not_allocated : st.zc_buffer_allocation_failures_ = pool.allocation_failures
  received : st.zc_messages_received_ = queue.total_enqueued
  never_full : queue.enqueue_failures = 0 ∧ st.zc_queue_full_failures_ = 0
  judged : queue.total_dequeued
    = st.messages_processed_ + st.messages_invalid_ + st.messages_duplicate_
  left : queue.total_enqueued = queue.total_dequeued + .ofNat queue.current_size
  returned : pool.total_deallocations = st.duplicates_detected_ + queue.total_dequeued
  in_use : pool.current_in_use = .ofNat queue.current_size
  out : pool.total_allocations = pool.total_deallocations + pool.current_in_use

/-- **What `main` prints at the end adds up.** In every run of the process in which `main` has
joined both threads, the figures of the subscriber, the worker, the pool and the queue belong
together; the buffers that are still in use are the messages that the shutdown has left in the
queue. -/
theorem final_report {es : List (Event poolSize)} {s : Reported poolSize}
    (r : Run (reported poolSize queueSize config d₀) es s) (hdone : s.process.main = .done) :
    AddsUp (arrivals es) s.process.stats s.poolStatistics (s.queueStatistics queueSize) := by
  have hrun := process_run r
  have h := tallies_run poolSize_lt r
  obtain ⟨l, hl⟩ := conserved_run poolSize_lt hrun
  have hfast := exited_of_joined hrun (by simp [hdone]) (by simp [hdone])
  have hworker := (inPhase_run hrun).done hdone
  have haccounts := accounting_run hrun
  have hhandled := haccounts.handled
  have haccepted := haccounts.accepted
  have hjudged := haccounts.judged
  have hreturned := h.returned
  have hrefused := h.refused
  rw [hfast] at hhandled haccepted hreturned hrefused
  rw [hworker] at hjudged hreturned
  simp only [FastPathPc.inFlight, FastPathPc.uncounted, WorkerPc.uncounted, FastPathPc.unreturned,
    WorkerPc.unreturned, WorkerPc.unjudgedReturn, FastPathPc.unrefused, UInt64.add_zero]
    at hhandled haccepted hjudged hreturned hrefused
  have hnone : s.process.stats.zc_queue_full_failures_ = 0 := by
    rw [← hrefused, enqueue_failures_eq_zero poolSize_lt r]
  -- what is in the queue, and what is in use
  have hsize : MessageQueue.size queueSize s.process.queue.head_ s.process.queue.tail_
      = l.length := by
    rw [← List.length_map some]
    exact hl.queued.size_eq (pointerQueue queueSize poolSize)
  have hlength : (acceptances es).length = (dequeues es).length + l.length := by
    have := congrArg List.length hl.delivered
    rwa [List.length_append, List.length_map, length_enqueues] at this
  have hleft : s.counters.total_enqueued_ = s.counters.total_dequeued_ + .ofNat l.length := by
    rw [← h.accepted, ← h.dequeued, hlength, UInt64.ofNat_add]
  have hpool : .ofNat poolSize - .ofNat s.process.pool.free_count_ = UInt64.ofNat l.length := by
    have hplaces := hl.places.length_eq
    rw [hfast, hworker, List.length_append, BufferPool.freeList, Places.length_stack] at hplaces
    simp only [FastPathPc.held, WorkerPc.held, List.append_nil] at hplaces
    have hall : UInt64.ofNat poolSize
        = .ofNat l.length + .ofNat s.process.pool.free_count_ := by
      rw [← UInt64.ofNat_add, Nat.add_comm]
      exact congrArg _ hplaces.symm
    rw [hall]
    exact UInt64.add_sub_cancel _ _
  have hout : s.counters.total_deallocations_
      = s.process.stats.duplicates_detected_ + s.counters.total_dequeued_ := by
    rw [hreturned, Statistics.finished, hnone, UInt64.add_zero, ← hjudged, h.dequeued]
  refine ⟨h.arrived, h.failed, haccepted.symm.trans h.accepted,
    ⟨enqueue_failures_eq_zero poolSize_lt r, hnone⟩, h.dequeued.symm.trans hjudged, ?_, hout,
    ?_, ?_⟩
  · show s.counters.total_enqueued_ = s.counters.total_dequeued_ + .ofNat (MessageQueue.size _ _ _)
    rw [hsize, hleft]
  · show _ = UInt64.ofNat (MessageQueue.size _ _ _)
    rw [hsize, ← hpool]
    rfl
  · show s.counters.total_allocations_ = s.counters.total_deallocations_
      + (.ofNat poolSize - .ofNat s.process.pool.free_count_)
    rw [hpool, hout, UInt64.add_assoc, ← hleft, ← h.accepted, haccepted]
    have harrived := h.arrived
    rw [hhandled, Statistics.handled, hnone, h.failed, UInt64.add_zero] at harrived
    grind

/-- A message that the worker has not looked at is left in the queue, and its buffer in use. -/
theorem final_report_left : ∃ es s,
    Run (reported poolSize queueSize { checkpoint_enabled := false } .zero) es s ∧
    s.process.queue.head_ ≠ s.process.queue.tail_ ∧
    AddsUp [⟨[], 64⟩] s.process.stats s.poolStatistics (s.queueStatistics queueSize) := by
  obtain ⟨es, t, r, hdone, harrived, -, -, hleft⟩ := exists_left
  obtain ⟨fs, s, hr, hfs, rfl⟩ := (reported_conservative _ _ _ _).run_iff.mp r
  rw [List.filterMap_some] at hfs
  obtain rfl : fs = es := hfs
  have hreport := final_report hr hdone
  rw [harrived] at hreport
  exact ⟨fs, s, hr, hleft, hreport⟩

end AeronReplay.System
