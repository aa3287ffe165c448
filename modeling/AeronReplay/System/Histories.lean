import AeronReplay.System.Linearization

set_option autoImplicit false

/-! # The histories of the process

Between calls a thread can make its next call alone, while the others stand still, and then the
accesses of the call do what the call does in one step. So every run with single steps is a run of
accesses that respects `SlotOrder`, and with `ordered_simulates` both have the same histories
(`ordered_histories`). Calls that are in progress can be finished (`exists_quiescent`). -/

namespace AeronReplay.System

open Transition CheckpointManager BufferPool RingQueue

namespace Accesses

variable {PoolSize : Nat} {N M : Ring.Size} {config : Config} {d₀ : CheckpointData}
  {a b c : State PoolSize} {fs gs : List Fragment} {ms ns : List (MonitoredEvent PoolSize)}
  {e : List (Event PoolSize)}

/-! ## Accesses in a row -/

/-- Accesses that respect `SlotOrder` lead from `a` to `b`. Meanwhile the fragments `fs` are
received, and `ms` is seen of the process. -/
def Leads (N M : Ring.Size) (config : Config) (d₀ : CheckpointData) (a : State PoolSize)
    (fs : List Fragment) (ms : List (MonitoredEvent PoolSize)) (b : State PoolSize) : Prop :=
  ∃ as, Steps ((system PoolSize N M config d₀).only SlotOrder) a as b ∧ polls as = fs ∧
    seen as = ms

theorem Leads.refl (a : State PoolSize) : Leads N M config d₀ a [] [] a := ⟨[], .refl a, rfl, rfl⟩

theorem Leads.trans (h : Leads N M config d₀ a fs ms b) (h' : Leads N M config d₀ b gs ns c) :
    Leads N M config d₀ a (fs ++ gs) (ms ++ ns) c := by
  obtain ⟨as, q, rfl, rfl⟩ := h
  obtain ⟨bs, q', rfl, rfl⟩ := h'
  exact ⟨as ++ bs, q.trans q', polls_append as bs, seen_append as bs⟩

theorem Leads.single (h : Step N M config a e b) (horder : SlotOrder a e) :
    Leads N M config d₀ a (polls e) (seen e) b := ⟨e, .single ⟨h, horder⟩, rfl, rfl⟩

/-- Only the accesses of entries can be out of order. -/
theorem slotOrder_of_notMem (hr : ∀ slot, .readSlot slot ∉ e) (hw : ∀ slot, .wroteSlot slot ∉ e) :
    SlotOrder a e := ⟨fun i hi => absurd hi (hr i), fun i hi => absurd hi (hw i)⟩

theorem slotOrder_shown (e : List (System.Event PoolSize)) : SlotOrder a (shown e) :=
  slotOrder_of_notMem (by simp [shown]) (by simp [shown])

/-- An access that is seen as `e`. -/
theorem Leads.shows {e : List (System.Event PoolSize)} (h : Step N M config a (shown e) b) :
    Leads N M config d₀ a [] (e.map .process) b := by
  have hsingle : Leads N M config d₀ a _ _ b := Leads.single h (slotOrder_shown e)
  rwa [polls_shown, seen_shown] at hsingle

/-- An access that is not seen. -/
theorem Leads.silent (h : Step N M config a [] b) (rest : Leads N M config d₀ b fs ms c) :
    Leads N M config d₀ a fs ms c := (Leads.shows (e := []) h).trans rest

/-! ## The calls of the subscriber -/

section Subscriber

variable {m : Monitored PoolSize} {wcall : WorkerCall PoolSize}
  {mcall : ConsumerPc MonitoringStats} {f : Fragment} {recv : Int64} {buf : Fin PoolSize}

/-- `allocate` reads the entry it has claimed and goes on to its end. -/
theorem claimed_alone {slot : Nat} (horder : ¬ ((∃ b, wcall.returning = .claimed b slot) ∧
      m.process.pool.free_count_ = slot)) :
    Leads N M config d₀ ⟨m, .allocate f recv (.claimed slot), wcall, mcall⟩ [] []
      ⟨{ m with process := { m.process with
        pool := (m.process.pool.storeInUse (m.process.pool.free_list_ slot) true).resetBuffer
          (m.process.pool.free_list_ slot)
        fastPath := .allocated f recv (m.process.pool.free_list_ slot) } }, .none, wcall,
        mcall⟩ := by
  have h₁ : Step N M config ⟨m, .allocate f recv (.claimed slot), wcall, mcall⟩
      [.readSlot slot] _ := .subscriber (.readSlot rfl)
  have hread : SlotOrder ⟨m, .allocate f recv (.claimed slot), wcall, mcall⟩ [.readSlot slot] := by
    refine ⟨fun i hi => ?_, fun i hi => ?_⟩
    · cases List.mem_singleton.mp hi
      exact horder
    · cases List.mem_singleton.mp hi
  exact (Leads.single h₁ hread).trans (.silent (.subscriber (.markInUse rfl)) (.refl _))

/-- Alone, the accesses of `allocate` do what the call does in one step. -/
theorem allocate_alone {pc : AllocatePc PoolSize} {p : BufferPool PoolSize}
    (hw : ∀ b slot, wcall.returning ≠ .claimed b slot) (hpc : pc.Unclaimed)
    (halloc : m.process.pool.allocate = (some buf, p)) :
    Leads N M config d₀ ⟨m, .allocate f recv pc, wcall, mcall⟩ [] [.process (.arrived f)]
      ⟨{ m with process := { m.process with
        pool := p
        fastPath := .allocated f recv buf } }, .none, wcall, mcall⟩ := by
  obtain ⟨⟨⟨_, _, count⟩, _, _, _, _, _, _, _, _, _, _, _⟩, _, _, _, _, _, _, _⟩ := m
  cases count with
  | zero => cases halloc
  | succ slot =>
      cases halloc
      refine .silent (.subscriber (.load rfl hpc (Nat.succ_pos slot))) ?_
      refine (Leads.shows (e := [.arrived f]) (.subscriber (.compareExchange rfl rfl))).trans ?_
      exact claimed_alone fun h => by
        obtain ⟨⟨b, hb⟩, -⟩ := h
        exact hw b slot hb

theorem allocate_fails_alone {pc : AllocatePc PoolSize} {p : BufferPool PoolSize}
    (hpc : pc.Unclaimed) (halloc : m.process.pool.allocate = (none, p)) :
    Leads N M config d₀ ⟨m, .allocate f recv pc, wcall, mcall⟩ []
      [.process (.arrived f), .process (.allocationFailed f)]
      ⟨{ m with process := { m.process with
        pool := p
        stats := { m.process.stats with
          zc_buffer_allocation_failures_ :=
            m.process.stats.zc_buffer_allocation_failures_ + 1 } } }, .none, wcall, mcall⟩ := by
  obtain ⟨⟨⟨_, _, count⟩, _, _, _, _, _, _, _, _, _, _, _⟩, _, _, _, _, _, _, _⟩ := m
  cases count with
  | zero =>
      cases halloc
      exact Leads.shows (e := [.arrived f, .allocationFailed f])
        (.subscriber (.exhausted rfl hpc rfl))
  | succ slot => cases halloc

/-- `enqueue` goes on to its end and accepts the buffer. -/
theorem enqueue_alone {pc : ProducerPc (Option (Fin PoolSize))}
    {q' : RingQueue (Option (Fin PoolSize))} (hpc : m.process.fastPath = .tracked f buf)
    (h : Enqueues (pointerQueue N PoolSize) (some buf) m.process.queue pc (.enq (some buf)) q') :
    Leads N M config d₀ ⟨m, .enqueue pc, wcall, mcall⟩ [] [.process (.accepted f buf)]
      ⟨{ m with process := { m.process with
        queue := q'
        fastPath := .enqueued f buf } }, .none, wcall, mcall⟩ := by
  generalize hq : m.process.queue = q at h
  generalize hx : Fifo.Event.enq (some buf) = x at h
  induction h generalizing m with
  | last hstep =>
      subst hq hx
      exact Leads.shows (e := [.accepted f buf]) (.subscriber (.enqueue rfl hpc hstep))
  | head hstep _ ih =>
      subst hq
      exact .silent (.subscriber (.enqueueAccess rfl hpc hstep))
        (ih (m := { m with process := { m.process with queue := _ } }) hpc rfl hx)

theorem enqueue_fails_alone {pc : ProducerPc (Option (Fin PoolSize))}
    {q' : RingQueue (Option (Fin PoolSize))} (hpc : m.process.fastPath = .tracked f buf)
    (h : Enqueues (pointerQueue N PoolSize) (some buf) m.process.queue pc .full q') :
    Leads N M config d₀ ⟨m, .enqueue pc, wcall, mcall⟩ [] [.process (.queueFull f)]
      ⟨{ m with process := { m.process with
        queue := q'
        fastPath := .refused f buf } }, .none, wcall, mcall⟩ := by
  generalize hq : m.process.queue = q at h
  generalize hx : Fifo.Event.full = x at h
  induction h generalizing m with
  | last hstep =>
      subst hq hx
      exact Leads.shows (e := [.queueFull f]) (.subscriber (.enqueueFails rfl hpc hstep))
  | head hstep _ ih =>
      subst hq
      exact .silent (.subscriber (.enqueueAccess rfl hpc hstep))
        (ih (m := { m with process := { m.process with queue := _ } }) hpc rfl hx)

theorem returnEvents_of_busy {pc : DeallocatePc PoolSize} (h : pc ≠ .idle)
    (written : Option Nat) : HandOff.returnEvents written pc = [] := by
  cases pc with
  | idle => exact absurd rfl h
  | marked | loaded | claimed => cases written <;> rfl

/-- What a whole call of `deallocate` shows. -/
theorem returnEvents_marked (p : BufferPool PoolSize) :
    HandOff.returnEvents (if p.free_count_ < PoolSize then some p.free_count_ else none)
      (.idle : DeallocatePc PoolSize) = overflow p := by
  by_cases hroom : p.free_count_ < PoolSize
  · rw [overflow, if_pos hroom, if_pos hroom]
    rfl
  · rw [overflow, if_neg hroom, if_neg hroom]
    rfl

/-- `deallocate` on a drop path goes on to its end. -/
theorem dropping_alone {pc : DeallocatePc PoolSize} {p' : BufferPool PoolSize}
    {written : Option Nat} (h : Deallocates m.process.pool pc written p') :
    Leads N M config d₀ ⟨m, .deallocate pc, wcall, mcall⟩ []
      ((HandOff.returnEvents written (.idle : DeallocatePc PoolSize)).map .process)
      ⟨{ m with process := { m.process with
        pool := p'
        fastPath := .idle
        stats := m.process.stats.dropped m.process.fastPath } }, .none, wcall, mcall⟩ := by
  generalize hp : m.process.pool = p at h
  induction h generalizing m with
  | last hstep =>
      subst hp
      have haccess : Step N M config ⟨m, .deallocate _, wcall, mcall⟩ _ _ :=
        .subscriber (.deallocate rfl hstep)
      rw [← List.append_nil (List.map _ _)]
      exact (Leads.shows haccess).trans (.silent (.subscriber (.dropped rfl)) (.refl _))
  | head hstep hbusy _ ih =>
      subst hp
      have haccess : Step N M config ⟨m, .deallocate _, wcall, mcall⟩ _ _ :=
        .subscriber (.deallocate rfl hstep)
      rw [returnEvents_of_busy hbusy] at haccess
      exact .silent haccess (ih (m := { m with process := { m.process with pool := _ } }) rfl)

/-- Alone, the accesses of `deallocate` on a drop path do what the call does in one step. -/
theorem drop_alone
    (hpc : m.process.fastPath = .duplicate f buf ∨ m.process.fastPath = .refused f buf) :
    Leads N M config d₀ ⟨m, .none, wcall, mcall⟩ [] ((overflow m.process.pool).map .process)
      ⟨{ m with process := { m.process with
        pool := m.process.pool.deallocate (.buffer buf)
        fastPath := .idle
        stats := m.process.stats.dropped m.process.fastPath } }, .none, wcall, mcall⟩ := by
  rw [← returnEvents_marked]
  exact .silent (.subscriber (.drop rfl hpc))
    (dropping_alone (m := { m with process := { m.process with pool := _ } })
      (deallocates_marked m.process.pool buf))

end Subscriber

/-! ## The calls of the worker -/

section Worker

variable {m : Monitored PoolSize} {scall : SubscriberCall PoolSize}
  {mcall : ConsumerPc MonitoringStats} {buf : Fin PoolSize}

/-- An access that the monitoring sees. -/
theorem Leads.monitored {x : MonitoredEvent PoolSize} (h : Step N M config a [.monitored x] b) :
    Leads N M config d₀ a [] [x] b :=
  Leads.single h (slotOrder_of_notMem (by simp) (by simp))

/-- `dequeue` goes on to its end and returns the buffer. -/
theorem dequeue_alone {pc : ConsumerPc (Option (Fin PoolSize))}
    {q' : RingQueue (Option (Fin PoolSize))} (now : Int64)
    (h : Dequeues (pointerQueue N PoolSize) m.process.queue pc (.deq (some buf)) q') :
    Leads N M config d₀ ⟨m, scall, .dequeue pc, mcall⟩ []
      [.process (.dequeued buf (m.process.pool.buffers_ buf).header.sequence_number
        (m.process.pool.buffers_ buf).payloadBytes)]
      ⟨{ m with process := { m.process with
        pool := m.process.pool.write buf
          { m.process.pool.buffers_ buf with worker_dequeue_time_ns := now }
        queue := q'
        worker := .dequeued buf } }, scall, .none, mcall⟩ := by
  generalize hq : m.process.queue = q at h
  generalize hx : Fifo.Event.deq (some buf) = x at h
  induction h generalizing m with
  | last hstep =>
      subst hq hx
      exact Leads.shows (e := [.dequeued buf _ _]) (.worker (.dequeue now rfl hstep))
  | head hstep _ ih =>
      subst hq
      exact .silent (.worker (.dequeueAccess rfl hstep))
        (ih (m := { m with process := { m.process with queue := _ } }) rfl hx)

theorem dequeue_empty_alone {pc : ConsumerPc (Option (Fin PoolSize))}
    {q' : RingQueue (Option (Fin PoolSize))}
    (h : Dequeues (pointerQueue N PoolSize) m.process.queue pc .empty q') :
    Leads N M config d₀ ⟨m, scall, .dequeue pc, mcall⟩ [] []
      ⟨{ m with
        process := { m.process with
          queue := q'
          worker := .testing }
        metrics := m.metrics.after m.process.worker .testing 0 }, scall, .none, mcall⟩ := by
  generalize hq : m.process.queue = q at h
  generalize hx : Fifo.Event.empty = x at h
  induction h generalizing m with
  | last hstep =>
      subst hq hx
      exact .silent (.worker (.queueEmpty rfl hstep)) (.refl _)
  | head hstep _ ih =>
      subst hq
      exact .silent (.worker (.dequeueAccess rfl hstep))
        (ih (m := { m with process := { m.process with queue := _ } }) rfl hx)

/-- `size` goes on to its end when it has loaded `head_`. -/
theorem size_alone (current_head : Nat) :
    Leads N M config d₀ ⟨m, scall, .size (.sizeLoadedHead current_head), mcall⟩ []
      [.queueDepth (MessageQueue.size N current_head m.process.queue.tail_)]
      ⟨{ m with
        duty := .none
        metrics := { m.metrics with
          total_queue_depth_ := m.metrics.total_queue_depth_
            + .ofNat (MessageQueue.size N current_head m.process.queue.tail_)
          queue_depth_samples_ := m.metrics.queue_depth_samples_ + 1 } }, scall, .none,
        mcall⟩ :=
  Leads.monitored (.worker (.sampleQueueDepth rfl .loadTail))

/-- `enqueue` into the monitoring queue goes on to its end and accepts the statistics. -/
theorem send_alone {stats : MonitoringStats} {pc : ProducerPc MonitoringStats}
    {q' : RingQueue MonitoringStats}
    (h : Enqueues (spscQueue M MonitoringStats) stats m.stats_queue pc (.enq stats) q') :
    Leads N M config d₀ ⟨m, scall, .send stats pc, mcall⟩ [] [.sent stats]
      ⟨{ m with
        duty := .none
        stats_queue := q' }, scall, .none, mcall⟩ := by
  generalize hq : m.stats_queue = q at h
  generalize hx : Fifo.Event.enq stats = x at h
  induction h generalizing m with
  | last hstep =>
      subst hq hx
      exact Leads.monitored (.worker (.send rfl hstep))
  | head hstep _ ih =>
      subst hq
      exact .silent (.worker (.sendAccess rfl hstep))
        (ih (m := { m with stats_queue := _ }) rfl hx)

theorem skip_alone {stats : MonitoringStats} {pc : ProducerPc MonitoringStats}
    {q' : RingQueue MonitoringStats}
    (h : Enqueues (spscQueue M MonitoringStats) stats m.stats_queue pc .full q') :
    Leads N M config d₀ ⟨m, scall, .send stats pc, mcall⟩ [] [.skipped stats]
      ⟨{ m with
        duty := .none
        stats_queue := q' }, scall, .none, mcall⟩ := by
  generalize hq : m.stats_queue = q at h
  generalize hx : Fifo.Event.full = x at h
  induction h generalizing m with
  | last hstep =>
      subst hq hx
      exact Leads.monitored (.worker (.skip rfl hstep))
  | head hstep _ ih =>
      subst hq
      exact .silent (.worker (.sendAccess rfl hstep))
        (ih (m := { m with stats_queue := _ }) rfl hx)

/-- The worker's `deallocate` goes on to its end while the subscriber has claimed no entry. -/
theorem returning_alone {pc : DeallocatePc PoolSize} {p' : BufferPool PoolSize}
    {written : Option Nat} (hs : ∀ slot, scall.allocating ≠ .claimed slot)
    (h : Deallocates m.process.pool pc written p') :
    Leads N M config d₀ ⟨m, scall, .deallocate pc, mcall⟩ []
      ((HandOff.returnEvents written (.idle : DeallocatePc PoolSize)).map .process)
      ⟨{ m with process := { m.process with
        pool := p'
        worker := HandOff.afterReturn m.process.worker } }, scall, .none, mcall⟩ := by
  generalize hp : m.process.pool = p at h
  induction h generalizing m with
  | @last _ _ pc written hstep =>
      subst hp
      have haccess : Step N M config ⟨m, scall, .deallocate pc, mcall⟩ _ _ :=
        .worker (.deallocate rfl hstep)
      have horder : SlotOrder ⟨m, scall, .deallocate pc, mcall⟩
          (written.toList.map Event.wroteSlot ++ shown (HandOff.returnEvents written .idle)) :=
        ⟨fun i hi => by simp [shown] at hi, fun i _ hclaimed => hs i hclaimed.1⟩
      have hseen : seen (written.toList.map Event.wroteSlot : List (Event PoolSize)) = [] :=
        List.filterMap_eq_nil_iff.mpr (by simp [Event.monitored?])
      have hpolls : polls (written.toList.map Event.wroteSlot : List (Event PoolSize)) = [] :=
        List.filterMap_eq_nil_iff.mpr (by simp [Event.polled?])
      have hwrite : Leads N M config d₀ _ _ _ _ := (Leads.single haccess horder).trans
        (.silent (.worker (.returned rfl)) (.refl _))
      rw [polls_append, seen_append, hpolls, hseen, polls_shown, seen_shown] at hwrite
      simpa only [List.nil_append, List.append_nil] using hwrite
  | @head _ _ _ pc _ _ hstep hbusy _ ih =>
      subst hp
      have haccess : Step N M config ⟨m, scall, .deallocate pc, mcall⟩ _ _ :=
        .worker (.deallocate rfl hstep)
      rw [returnEvents_of_busy hbusy] at haccess
      exact .silent haccess (ih (m := { m with process := { m.process with pool := _ } }) rfl)

/-- Alone, the accesses of the worker's `deallocate` do what the call does in one step. -/
theorem release_alone (hs : ∀ slot, scall.allocating ≠ .claimed slot) (hduty : m.duty = .none)
    (hpc : m.process.worker = .rejected buf ∨ m.process.worker = .processed buf) :
    Leads N M config d₀ ⟨m, scall, .none, mcall⟩ [] ((overflow m.process.pool).map .process)
      ⟨{ m with process := { m.process with
        pool := m.process.pool.deallocate (.buffer buf)
        worker := HandOff.afterReturn m.process.worker } }, scall, .none, mcall⟩ := by
  rw [← returnEvents_marked]
  exact .silent (.worker (.release rfl hduty hpc))
    (returning_alone (m := { m with process := { m.process with pool := _ } }) hs
      (deallocates_marked m.process.pool buf))

end Worker

/-! ## The call of the monitoring thread -/

section Monitor

variable {m : Monitored PoolSize} {scall : SubscriberCall PoolSize} {wcall : WorkerCall PoolSize}

/-- The monitoring thread's `dequeue` goes on to its end and returns statistics. -/
theorem observe_alone {pc : ConsumerPc MonitoringStats} {stats : MonitoringStats}
    {q' : RingQueue MonitoringStats} (hpc : m.monitorPc = .polling)
    (h : Dequeues (spscQueue M MonitoringStats) m.stats_queue pc (.deq stats) q') :
    Leads N M config d₀ ⟨m, scall, wcall, pc⟩ [] [.observed stats]
      ⟨{ m with
        stats_queue := q'
        monitorPc := .testing
        monitor := m.monitor.bind fun v => v.observe stats.toMessageStats }, scall, wcall,
        .idle⟩ := by
  generalize hq : m.stats_queue = q at h
  generalize hx : Fifo.Event.deq stats = x at h
  induction h generalizing m with
  | @last _ _ pc pc' _ hstep =>
      subst hq hx
      obtain rfl : pc' = .idle := by
        cases hstep with
        | storeHead | storeHeadCleared => rfl
      exact Leads.monitored (.monitor (.observe hpc hstep))
  | head hstep _ ih =>
      subst hq
      exact .silent (.monitor (.dequeueAccess hpc hstep))
        (ih (m := { m with stats_queue := _ }) hpc rfl hx)

theorem observe_empty_alone {pc : ConsumerPc MonitoringStats} {q' : RingQueue MonitoringStats}
    (hpc : m.monitorPc = .polling)
    (h : Dequeues (spscQueue M MonitoringStats) m.stats_queue pc .empty q') :
    Leads N M config d₀ ⟨m, scall, wcall, pc⟩ [] []
      ⟨{ m with
        stats_queue := q'
        monitorPc := .testing }, scall, wcall, .idle⟩ := by
  generalize hq : m.stats_queue = q at h
  generalize hx : Fifo.Event.empty = x at h
  induction h generalizing m with
  | @last _ _ pc pc' _ hstep =>
      subst hq hx
      obtain rfl : pc' = .idle := by
        cases hstep with
        | loadTailEmpty => rfl
      exact .silent (.monitor (.queueEmpty hpc hstep)) (.refl _)
  | head hstep _ ih =>
      subst hq
      exact .silent (.monitor (.dequeueAccess hpc hstep))
        (ih (m := { m with stats_queue := _ }) hpc rfl hx)

end Monitor

/-! ## Every step with single calls -/

/-- The process, no thread being in a call. -/
def State.between (m : Monitored PoolSize) : State PoolSize := ⟨m, .none, .none, .idle⟩

theorem State.between_quiescent (m : Monitored PoolSize) : (State.between m).Quiescent :=
  ⟨rfl, rfl, rfl⟩

theorem State.Quiescent.eq (h : a.Quiescent) : a = .between a.monitored := by
  obtain ⟨m, scall, wcall, mcall⟩ := a
  obtain ⟨rfl, rfl, rfl⟩ : scall = .none ∧ wcall = .none ∧ mcall = .idle :=
    ⟨h.subscriber, h.worker, h.monitor⟩
  rfl

theorem arrivals_overflow (p : BufferPool PoolSize) : arrivals (overflow p) = [] :=
  filterMap_eq_nil (forall_overflow (by rfl) p)

/-- On its own the fast path receives nothing. -/
theorem arrivals_of_onItsOwn {s t : System.State PoolSize} {e : List (System.Event PoolSize)}
    (h : System.SubscriberStep N config s e t) (hown : s.fastPath.onItsOwn t.fastPath = true) :
    arrivals e = [] := by
  cases h with
  | arrive _ _ hpc | allocationFails _ hpc =>
      rw [show s.fastPath = _ from hpc] at hown
      cases hown
  | trackDuplicate =>
      refine filterMap_eq_nil (List.forall_mem_append.mpr ⟨forall_gaps (fun _ => rfl) _, ?_⟩)
      simp [Event.arrived?]
  | track => exact filterMap_eq_nil (forall_gaps (fun _ => rfl) _)
  | dropDuplicate | dropRefused => exact arrivals_overflow _
  | enqueue | enqueueFails | count | countAndUpdate | updated | exit => rfl

variable {m m' : Monitored PoolSize}

theorem subscriberStep_leads {e : List (System.Event PoolSize)} {p : System.State PoolSize}
    (h : System.SubscriberStep N config m.process e p) :
    Leads N M config d₀ (.between m) (arrivals e) (e.map .process)
      (.between { m with process := p }) := by
  have hown : m.process.fastPath.onItsOwn p.fastPath = true →
      Leads N M config d₀ (.between m) (arrivals e) (e.map .process)
        (.between { m with process := p }) := fun hown => by
    rw [arrivals_of_onItsOwn h hown]
    exact Leads.shows (.subscriber (.onItsOwn rfl h hown))
  have hpoll : ∀ f recv, m.process.fastPath = .idle →
      Leads N M config d₀ (.between m) [f] []
        ⟨m, .allocate f recv .idle, .none, .idle⟩ := fun f recv hpc =>
    Leads.single (.subscriber (.poll f recv rfl hpc)) (slotOrder_of_notMem (by simp) (by simp))
  cases h with
  | arrive f recv hpc halloc =>
      exact (hpoll f recv hpc).trans (allocate_alone nofun (.inl rfl) halloc)
  | allocationFails f hpc halloc =>
      exact (hpoll f 0 hpc).trans (allocate_fails_alone (.inl rfl) halloc)
  | trackDuplicate hpc | track hpc | count hpc | countAndUpdate _ hpc | updated hpc | exit hpc =>
      exact hown (by rw [hpc]; rfl)
  | dropDuplicate hpc =>
      have hdrop : Leads N M config d₀ (.between m) _ _ _ := drop_alone (.inl hpc)
      rw [hpc] at hdrop
      rw [arrivals_overflow]
      exact hdrop
  | dropRefused hpc =>
      have hdrop : Leads N M config d₀ (.between m) _ _ _ := drop_alone (.inr hpc)
      rw [hpc] at hdrop
      rw [arrivals_overflow]
      exact hdrop
  | enqueue hpc henq =>
      exact .silent (.subscriber (.callEnqueue rfl hpc))
        (enqueue_alone hpc (enqueues_of_enqueue rfl henq))
  | enqueueFails hpc henq =>
      exact .silent (.subscriber (.callEnqueue rfl hpc))
        (enqueue_fails_alone hpc (enqueues_of_enqueue rfl henq))

theorem workerStep_leads (start_processing end_processing : Int64) (hduty : m.duty = .none)
    {e : List (System.Event PoolSize)} {p : System.State PoolSize}
    (h : System.WorkerStep N m.process e p) :
    Leads N M config d₀ (.between m) [] (e.map .process) (.between { m with
      process := p
      duty := p.worker.duty
      metrics := m.metrics.after m.process.worker p.worker
        (end_processing - start_processing) }) := by
  have hown : m.process.worker.onItsOwn = true → Leads N M config d₀ (.between m) []
      (e.map .process) (.between { m with
        process := p
        duty := p.worker.duty
        metrics := m.metrics.after m.process.worker p.worker
          (end_processing - start_processing) }) := fun hown =>
    Leads.shows (.worker (.onItsOwn start_processing end_processing rfl hduty h hown))
  obtain ⟨⟨pool, queue, tracking, fastPath, running, seen, worker, worker_running, checkpoint, main,
    stats, origin⟩, duty, metrics, stats_queue, monitorPc, monitor, monitoring, joined⟩ := m
  obtain rfl : duty = .none := hduty
  cases h with
  | testRunning hpc | exit hpc | rejectInvalid hpc | rejectDuplicate hpc | process hpc
    | countProcessed hpc => exact hown (by rw [hpc]; rfl)
  | queueEmpty hpc hdeq =>
      obtain rfl : worker = .polling := hpc
      obtain ⟨rfl, hempty⟩ := dequeues_of_dequeue_none hdeq
      exact .silent (.worker (.callDequeue rfl rfl rfl)) (dequeue_empty_alone hempty)
  | dequeue now hpc hdeq =>
      obtain rfl : worker = .polling := hpc
      exact .silent (.worker (.callDequeue rfl rfl rfl))
        (dequeue_alone now (dequeues_of_dequeue hdeq))
  | @returnRejected buf hpc =>
      obtain rfl : worker = .rejected buf := hpc
      exact release_alone nofun rfl (.inl rfl)
  | @returnProcessed buf hpc =>
      obtain rfl : worker = .processed buf := hpc
      exact release_alone nofun rfl (.inr rfl)

/-- **A step with single calls can be made access by access.** -/
theorem step_leads (h : MonitoredStep N M config m ms m') :
    Leads N M config d₀ (.between m) (arrivals (ms.filterMap MonitoredEvent.process?)) ms
      (.between m') := by
  cases h with
  | subscriber h =>
      rw [filterMap_process]
      exact subscriberStep_leads h
  | worker start finish hduty h =>
      have harrivals : ∀ {s t : System.State PoolSize} {e : List (System.Event PoolSize)},
          System.WorkerStep N s e t → arrivals e = [] := fun h => by
        cases h with
        | returnRejected | returnProcessed => exact arrivals_overflow _
        | _ => rfl
      rw [filterMap_process, harrivals h]
      exact workerStep_leads start finish hduty h
  | sampleQueueDepth hduty =>
      exact .silent (.worker (.callSize rfl hduty))
        (.silent (.worker (.sizeAccess rfl .loadHead)) (size_alone _))
  | send hduty henq =>
      exact .silent (.worker (.callSend rfl hduty)) (send_alone (enqueues_of_enqueue rfl henq))
  | skip hduty henq =>
      exact .silent (.worker (.callSend rfl hduty)) (skip_alone (enqueues_of_enqueue rfl henq))
  | testMonitoring hpc hrun => exact .silent (.monitor (.testRunning hpc hrun)) (.refl _)
  | exitMonitoring hpc hstop => exact .silent (.monitor (.exit hpc hstop)) (.refl _)
  | statsQueueEmpty hpc hdeq =>
      obtain ⟨rfl, hempty⟩ := dequeues_of_dequeue_none hdeq
      exact observe_empty_alone hpc hempty
  | observe hpc hdeq => exact observe_alone hpc (dequeues_of_dequeue hdeq)
  | main h =>
      rw [filterMap_process, show arrivals _ = [] by cases h <;> rfl]
      exact Leads.shows (.main h)
  | stopMonitoring hmain hrun => exact .silent (.stopMonitoring hmain hrun) (.refl _)
  | joinMonitoring hstop hexit => exact .silent (.joinMonitoring hstop hexit) (.refl _)
  | checkpoint h =>
      rw [filterMap_process, show arrivals _ = [] from filterMap_eq_nil (by simp [Event.arrived?])]
      exact Leads.shows (.checkpoint h)

/-- **Every run with single steps is one of accesses that respect `SlotOrder`.** -/
theorem exists_ordered_run (r : Run (monitoredSystem PoolSize N M config d₀) ms m) :
    ∃ as, Run ((system PoolSize N M config d₀).only SlotOrder) as (.between m) ∧ seen as = ms ∧
      polls as = arrivals (history as) := by
  induction r with
  | init h => exact ⟨[], .init ⟨h, rfl, rfl, rfl⟩, rfl, rfl⟩
  | @step ms e m m' r hstep ih =>
      obtain ⟨as, hr, rfl, hpolls⟩ := ih
      obtain ⟨bs, q, hpolls', rfl⟩ : Leads N M config d₀ (.between m) _ _ (.between m') :=
        step_leads hstep
      refine ⟨as ++ bs, hr.trans q, seen_append as bs, ?_⟩
      rw [polls_append, history_append, arrivals_append, hpolls, hpolls']
      rfl

/-- The same of the process without monitoring. -/
theorem exists_ordered_of_process {es : List (System.Event PoolSize)} {s : System.State PoolSize}
    (r : Run (System.system PoolSize N config d₀) es s) :
    ∃ as a, Run ((system PoolSize N M config d₀).only SlotOrder) as a ∧ a.Quiescent ∧
      history as = es ∧ polls as = arrivals es ∧ a.process = s := by
  obtain ⟨ms, m, r, rfl, rfl⟩ := monitored_conservative.run_iff.mp r
  obtain ⟨as, hr, rfl, hpolls⟩ := exists_ordered_run (M := M) r
  exact ⟨as, _, hr, State.between_quiescent m, rfl, hpolls, rfl⟩

theorem run_of_ordered {as : List (Event PoolSize)} (hsize : PoolSize < N.val)
    (r : Run ((system PoolSize N M config d₀).only SlotOrder) as a) :
    ∃ m, StandsFor N M a m ∧ Run (monitoredSystem PoolSize N M config d₀) (seen as) m :=
  (ordered_simulates hsize).run r

/-! ## Calls in progress -/

/-- The call that the subscriber is in is about the message that it has in hand. -/
def SubscriberCall.Proper (call : SubscriberCall PoolSize) (pc : FastPathPc PoolSize) : Prop :=
  match call with
  | .enqueue p => ∃ f b, pc = .tracked f b ∧ p.Carries (some b)
  | _ => True

/-- The worker is where its call can have come to. -/
def WorkerCall.Proper : WorkerCall PoolSize → Prop
  | .size pc => pc.Sizing
  | .dequeue pc => pc.Dequeuing
  | .send stats pc => pc.Carries stats
  | _ => True

/-- Every thread is where its call can have come to. -/
structure Proper (a : State PoolSize) : Prop where
  subscriber : a.subscriberCall.Proper a.process.fastPath
  worker : a.workerCall.Proper
  monitor : a.monitorCall.Dequeuing
  polling : a.monitored.monitorPc ≠ .polling → a.monitorCall = .idle

theorem SubscriberStep.proper (h : SubscriberStep N config a e b) (hp : Proper a) : Proper b := by
  cases h with
  | callEnqueue hcall hpc => exact ⟨⟨_, _, hpc, trivial⟩, hp.worker, hp.monitor, hp.polling⟩
  | enqueueAccess hcall hpc h =>
      exact ⟨⟨_, _, hpc, h.carries⟩, hp.worker, hp.monitor, hp.polling⟩
  | onItsOwn hcall =>
      refine ⟨?_, hp.worker, hp.monitor, hp.polling⟩
      show SubscriberCall.Proper a.subscriberCall _
      rw [hcall]
      trivial
  | _ => exact ⟨trivial, hp.worker, hp.monitor, hp.polling⟩

theorem WorkerStep.proper (h : WorkerStep N M a e b) (hp : Proper a) : Proper b := by
  cases h with
  | onItsOwn _ _ hcall _ h =>
      refine ⟨?_, ?_, hp.monitor, hp.polling⟩
      · have hsubscriber := hp.subscriber
        cases h <;> exact hsubscriber
      · show WorkerCall.Proper a.workerCall
        rw [hcall]
        trivial
  | sizeAccess hcall h => exact ⟨hp.subscriber, h.sizing, hp.monitor, hp.polling⟩
  | dequeueAccess hcall h => exact ⟨hp.subscriber, h.dequeuing, hp.monitor, hp.polling⟩
  | sendAccess hcall h => exact ⟨hp.subscriber, h.carries, hp.monitor, hp.polling⟩
  | _ => exact ⟨hp.subscriber, trivial, hp.monitor, hp.polling⟩

theorem MonitorStep.proper (h : MonitorStep M a e b) (hp : Proper a) : Proper b := by
  obtain ⟨m, scall, wcall, mcall⟩ := a
  cases h with
  | testRunning hpc => exact ⟨hp.subscriber, hp.worker, hp.monitor, fun hne => absurd rfl hne⟩
  | exit hpc =>
      exact ⟨hp.subscriber, hp.worker, hp.monitor, fun _ => hp.polling fun hpolling => by
        cases hpc.symm.trans hpolling⟩
  | dequeueAccess hpc h =>
      exact ⟨hp.subscriber, hp.worker, h.dequeuing, fun hne => absurd hpc hne⟩
  | queueEmpty hpc h =>
      refine ⟨hp.subscriber, hp.worker, h.dequeuing, fun _ => ?_⟩
      cases h with
      | loadTailEmpty => rfl
  | observe hpc h =>
      refine ⟨hp.subscriber, hp.worker, h.dequeuing, fun _ => ?_⟩
      cases h with
      | storeHead | storeHeadCleared => rfl

theorem Step.proper (h : Step N M config a e b) (hp : Proper a) : Proper b := by
  cases h with
  | subscriber h => exact h.proper hp
  | worker h => exact h.proper hp
  | monitor h => exact h.proper hp
  | main h =>
      have hsubscriber := hp.subscriber
      refine ⟨?_, hp.worker, hp.monitor, hp.polling⟩
      cases h <;> exact hsubscriber
  | _ => exact ⟨hp.subscriber, hp.worker, hp.monitor, hp.polling⟩

/-- What can be relied on when a call goes on. -/
structure Ready (N M : Ring.Size) (a : State PoolSize) : Prop where
  standsFor : ∃ m, StandsFor N M a m
  proper : Proper a

theorem Leads.ready (h : Leads N M config d₀ a fs ms b) (hsize : PoolSize < N.val)
    (ha : Ready N M a) : Ready N M b := by
  obtain ⟨as, q, -, -⟩ := h
  obtain ⟨m, hm⟩ := ha.standsFor
  obtain ⟨m', hm', -⟩ := (ordered_simulates hsize).steps hm q
  exact ⟨⟨m', hm'⟩, Steps.invariant (I := fun _ a => Proper a)
    (fun _ _ _ _ hp (hstep : Step N M config _ _ _ ∧ _) => hstep.1.proper hp) q ha.proper⟩

theorem ready_run {as : List (Event PoolSize)} (hsize : PoolSize < N.val)
    (r : Run ((system PoolSize N M config d₀).only SlotOrder) as a) : Ready N M a := by
  obtain ⟨m, hm, -⟩ := run_of_ordered hsize r
  refine ⟨⟨m, hm⟩, Run.invariant (I := fun _ a => Proper a) (fun a h => ?_)
    (fun _ _ _ _ hp (hstep : Step N M config _ _ _ ∧ _) => hstep.1.proper hp) r⟩
  refine ⟨?_, ?_, ?_, fun _ => h.monitorCall⟩
  · rw [h.subscriberCall]
    trivial
  · rw [h.workerCall]
    trivial
  · rw [h.monitorCall]
    trivial

/-- Meanwhile `main` has done nothing. -/
structure Undisturbed (a b : State PoolSize) : Prop where
  main : b.process.main = a.process.main
  worker_running_ : b.process.worker_running_ = a.process.worker_running_

theorem Undisturbed.trans (h : Undisturbed a b) (h' : Undisturbed b c) : Undisturbed a c :=
  ⟨h'.main.trans h.main, h'.worker_running_.trans h.worker_running_⟩

variable (N M config d₀) in
/-- An `allocate` that has claimed an entry comes to its end. If the worker has claimed the entry
before, the worker writes it first. -/
theorem exists_unclaimed (a : State PoolSize) : ∃ ms b, Leads N M config d₀ a [] ms b ∧
    (∀ slot, b.subscriberCall.allocating ≠ .claimed slot) ∧ Undisturbed a b := by
  obtain ⟨m, scall, wcall, mcall⟩ := a
  by_cases hclaimed : ∃ slot, scall.allocating = .claimed slot
  · obtain ⟨slot, hslot⟩ := hclaimed
    obtain ⟨f, recv, rfl⟩ : ∃ f recv, scall = .allocate f recv (.claimed slot) := by
      cases scall with
      | allocate f recv pc =>
          obtain rfl : pc = .claimed slot := hslot
          exact ⟨f, recv, rfl⟩
      | none | enqueue | deallocate => cases hslot
    by_cases hfirst : (∃ buf, wcall.returning = .claimed buf slot) ∧
        m.process.pool.free_count_ = slot
    · obtain ⟨⟨buf, hbuf⟩, hcount⟩ := hfirst
      obtain rfl : wcall = .deallocate (.claimed buf slot) := by
        cases wcall with
        | deallocate pc =>
            obtain rfl : pc = .claimed buf slot := hbuf
            rfl
        | none | size | dequeue | send => cases hbuf
      let a : State PoolSize :=
        ⟨m, .allocate f recv (.claimed slot), .deallocate (.claimed buf slot), mcall⟩
      have hwrite : Step N M config a [.wroteSlot slot] _ := .worker (.deallocate rfl .writeSlot)
      have horder : SlotOrder a [.wroteSlot slot] := by
        refine ⟨fun i hi => ?_, fun i hi h => ?_⟩
        · cases List.mem_singleton.mp hi
        · cases List.mem_singleton.mp hi
          have : m.process.pool.free_count_ = slot + 1 := h.2
          omega
      refine ⟨_, _, (Leads.single hwrite horder).trans (claimed_alone fun h => ?_), nofun, rfl, rfl⟩
      obtain ⟨⟨_, hb⟩, -⟩ := h
      cases hb
    · exact ⟨_, _, claimed_alone hfirst, nofun, rfl, rfl⟩
  · exact ⟨[], _, .refl _, not_exists.mp hclaimed, rfl, rfl⟩

variable (config d₀) in
/-- The worker's call comes to its end while the subscriber has claimed no entry. -/
theorem exists_worker_idle (h : Ready N M a)
    (hs : ∀ slot, a.subscriberCall.allocating ≠ .claimed slot) :
    ∃ ms b, Leads N M config d₀ a [] ms b ∧ b.subscriberCall = a.subscriberCall ∧
      b.workerCall = .none ∧ Undisturbed a b := by
  obtain ⟨m, scall, wcall, mcall⟩ := a
  have hproper := h.proper.worker
  cases wcall with
  | none => exact ⟨[], _, .refl _, rfl, rfl, rfl, rfl⟩
  | size pc =>
      cases pc with
      | idle =>
          exact ⟨_, _, .silent (.worker (.sizeAccess rfl .loadHead)) (size_alone _), rfl, rfl, rfl,
            rfl⟩
      | sizeLoadedHead current_head => exact ⟨_, _, size_alone _, rfl, rfl, rfl, rfl⟩
      | loadedHead | loadedTail | readSlot | clearedSlot => cases hproper
  | dequeue pc =>
      obtain ⟨_, q, k, l, waiting, rfl, hl⟩ := h.standsFor
      obtain ⟨x, q', hdeq, rfl | ⟨item, rfl⟩⟩ :=
        exists_dequeues (K := pointerQueue N PoolSize) hproper m.process.queue
      · exact ⟨_, _, dequeue_empty_alone hdeq, rfl, rfl, rfl, rfl⟩
      · obtain ⟨buf, -, rfl⟩ := List.mem_map.mp (hl.queue.mem_of_dequeues hdeq)
        exact ⟨_, _, dequeue_alone 0 hdeq, rfl, rfl, rfl, rfl⟩
  | send stats pc =>
      obtain ⟨x, q', henq, rfl | rfl⟩ :=
        exists_enqueues (K := spscQueue M MonitoringStats) rfl hproper m.stats_queue
      · exact ⟨_, _, send_alone henq, rfl, rfl, rfl, rfl⟩
      · exact ⟨_, _, skip_alone henq, rfl, rfl, rfl, rfl⟩
  | deallocate pc =>
      by_cases hidle : pc = .idle
      · subst hidle
        exact ⟨_, _, .silent (.worker (.returned rfl)) (.refl _), rfl, rfl, rfl, rfl⟩
      · obtain ⟨written, p', hreturn⟩ := exists_deallocates hidle m.process.pool
        exact ⟨_, _, returning_alone hs hreturn, rfl, rfl, rfl, rfl⟩

variable (config d₀) in
/-- The subscriber's call comes to its end while the worker is in none. -/
theorem exists_subscriber_idle (h : Ready N M a) (hw : a.workerCall = .none) :
    ∃ ms b, Leads N M config d₀ a [] ms b ∧ b.subscriberCall = .none ∧ b.workerCall = .none ∧
      Undisturbed a b := by
  obtain ⟨m, scall, wcall, mcall⟩ := a
  obtain rfl : wcall = .none := hw
  have hproper := h.proper.subscriber
  cases scall with
  | none => exact ⟨[], _, .refl _, rfl, rfl, rfl, rfl⟩
  | allocate f recv pc =>
      have hunclaimed : pc.Unclaimed → ∃ ms b, Leads N M config d₀
          ⟨m, .allocate f recv pc, .none, mcall⟩ [] ms b ∧ b.subscriberCall = .none ∧
          b.workerCall = .none ∧ Undisturbed ⟨m, .allocate f recv pc, .none, mcall⟩ b := by
        intro hpc
        cases halloc : m.process.pool.allocate with
        | mk result p =>
          cases result with
          | none => exact ⟨_, _, allocate_fails_alone hpc halloc, rfl, rfl, rfl, rfl⟩
          | some buf => exact ⟨_, _, allocate_alone nofun hpc halloc, rfl, rfl, rfl, rfl⟩
      cases pc with
      | idle => exact hunclaimed (.inl rfl)
      | loaded count => exact hunclaimed (.inr ⟨count, rfl⟩)
      | claimed slot =>
          refine ⟨_, _, claimed_alone fun h => ?_, rfl, rfl, rfl, rfl⟩
          obtain ⟨⟨_, hb⟩, -⟩ := h
          cases hb
      | readSlot buf =>
          exact ⟨_, _, .silent (.subscriber (.markInUse rfl)) (.refl _), rfl, rfl, rfl, rfl⟩
  | enqueue pc =>
      obtain ⟨f, buf, hpc, hcarries⟩ := hproper
      obtain ⟨x, q', henq, rfl | rfl⟩ :=
        exists_enqueues (K := pointerQueue N PoolSize) rfl hcarries m.process.queue
      · exact ⟨_, _, enqueue_alone hpc henq, rfl, rfl, rfl, rfl⟩
      · exact ⟨_, _, enqueue_fails_alone hpc henq, rfl, rfl, rfl, rfl⟩
  | deallocate pc =>
      by_cases hidle : pc = .idle
      · subst hidle
        exact ⟨_, _, .silent (.subscriber (.dropped rfl)) (.refl _), rfl, rfl, rfl, rfl⟩
      · obtain ⟨written, p', hdrop⟩ := exists_deallocates hidle m.process.pool
        exact ⟨_, _, dropping_alone hdrop, rfl, rfl, rfl, rfl⟩

variable (config d₀) in
/-- The monitoring thread's call comes to its end. -/
theorem exists_monitor_idle (h : Ready N M a) :
    ∃ ms b, Leads N M config d₀ a [] ms b ∧ b.subscriberCall = a.subscriberCall ∧
      b.workerCall = a.workerCall ∧ b.monitorCall = .idle ∧ Undisturbed a b := by
  obtain ⟨m, scall, wcall, mcall⟩ := a
  by_cases hpc : m.monitorPc = .polling
  · obtain ⟨x, q', hdeq, rfl | ⟨stats, rfl⟩⟩ :=
      exists_dequeues (K := spscQueue M MonitoringStats) h.proper.monitor m.stats_queue
    · exact ⟨_, _, observe_empty_alone hpc hdeq, rfl, rfl, rfl, rfl, rfl⟩
    · exact ⟨_, _, observe_alone hpc hdeq, rfl, rfl, rfl, rfl, rfl⟩
  · exact ⟨[], _, .refl _, rfl, rfl, h.proper.polling hpc, rfl, rfl⟩

variable (config d₀) in
/-- **The calls in progress can be finished**, without a further fragment. -/
theorem exists_quiescent (hsize : PoolSize < N.val) (h : Ready N M a) :
    ∃ ms b, Leads N M config d₀ a [] ms b ∧ b.Quiescent ∧ Undisturbed a b := by
  obtain ⟨ms₁, a₁, h₁, hs, hsame₁⟩ := exists_unclaimed N M config d₀ a
  obtain ⟨ms₂, a₂, h₂, -, hw₂, hsame₂⟩ :=
    exists_worker_idle config d₀ (h₁.ready hsize h) hs
  have h₁₂ := h₁.trans h₂
  obtain ⟨ms₃, a₃, h₃, hs₃, hw₃, hsame₃⟩ :=
    exists_subscriber_idle config d₀ (h₁₂.ready hsize h) hw₂
  have h₁₃ := h₁₂.trans h₃
  obtain ⟨ms₄, a₄, h₄, hs₄, hw₄, hm₄, hsame₄⟩ :=
    exists_monitor_idle config d₀ (h₁₃.ready hsize h)
  exact ⟨_, a₄, h₁₃.trans h₄, ⟨hs₄.trans hs₃, hw₄.trans hw₃, hm₄⟩,
    ((hsame₁.trans hsame₂).trans hsame₃).trans hsame₄⟩

/-! ## What has been received -/

/-- The fragment for which there is no decision yet. -/
def SubscriberCall.undecided : SubscriberCall PoolSize → List Fragment
  | .allocate f _ .idle => [f]
  | .allocate f _ (.loaded _) => [f]
  | _ => []

theorem undecided_of_unclaimed {f : Fragment} {recv : Int64} {pc : AllocatePc PoolSize}
    (hpc : pc.Unclaimed) : (SubscriberCall.allocate f recv pc).undecided = [f] := by
  rcases hpc with rfl | ⟨count, rfl⟩ <;> rfl

theorem SubscriberStep.undecided (h : SubscriberStep N config a e b) :
    a.subscriberCall.undecided ++ polls e
      = arrivals (history e) ++ b.subscriberCall.undecided := by
  cases h with
  | poll f recv hcall =>
      rw [hcall]
      rfl
  | load hcall hpc | exhausted hcall hpc =>
      rw [hcall, undecided_of_unclaimed hpc]
      rfl
  | compareExchange hcall | readSlot hcall | markInUse hcall | callEnqueue hcall
    | enqueueAccess hcall | enqueue hcall | enqueueFails hcall | drop hcall | dropped hcall =>
      rw [hcall]
      rfl
  | onItsOwn hcall h hown =>
      rw [polls_shown, history_shown, arrivals_of_onItsOwn h hown]
      exact List.append_nil _
  | deallocate hcall h =>
      rw [polls_shown, history_shown, hcall]
      cases h <;> rfl

theorem Step.undecided (h : Step N M config a e b) :
    a.subscriberCall.undecided ++ polls e
      = arrivals (history e) ++ b.subscriberCall.undecided := by
  cases h with
  | subscriber h => exact h.undecided
  | worker h =>
      cases h with
      | onItsOwn _ _ _ _ h =>
          rw [polls_shown, history_shown]
          cases h with
          | returnRejected | returnProcessed =>
              rw [arrivals_overflow]
              exact List.append_nil _
          | _ => exact List.append_nil _
      | deallocate _ h =>
          cases h with
          | _ => exact List.append_nil _
      | _ => exact List.append_nil _
  | monitor h =>
      cases h with
      | _ => exact List.append_nil _
  | main h =>
      cases h with
      | _ => exact List.append_nil _
  | stopMonitoring | joinMonitoring => exact List.append_nil _
  | checkpoint h =>
      rw [polls_shown, history_shown,
        show arrivals _ = [] from filterMap_eq_nil (by simp [Event.arrived?])]
      exact List.append_nil _

/-- What has been received has arrived, or is just being decided about. -/
theorem polls_run {as : List (Event PoolSize)} (r : Run (system PoolSize N M config d₀) as a) :
    polls as = arrivals (history as) ++ a.subscriberCall.undecided := by
  induction r with
  | init h =>
      rw [h.subscriberCall]
      rfl
  | step _ h ih =>
      rw [polls_append, history_append, arrivals_append, ih, List.append_assoc, h.undecided,
        List.append_assoc]

theorem arrivals_prefix {as : List (Event PoolSize)}
    (r : Run (system PoolSize N M config d₀) as a) : arrivals (history as) <+: polls as :=
  ⟨_, (polls_run r).symm⟩

theorem polls_eq_arrivals {as : List (Event PoolSize)}
    (r : Run (system PoolSize N M config d₀) as a) (hs : a.subscriberCall = .none) :
    polls as = arrivals (history as) := by
  rw [polls_run r, hs]
  exact List.append_nil _

/-! ## What can be done from here -/

/-- A run with single steps can be made access by access. -/
theorem steps_lead (q : Steps (monitoredSystem PoolSize N M config d₀) m ms m') :
    Leads N M config d₀ (.between m) (arrivals (ms.filterMap MonitoredEvent.process?)) ms
      (.between m') := by
  induction q with
  | refl => exact .refl _
  | tail _ h ih =>
      rw [List.filterMap_append, arrivals_append]
      exact ih.trans (step_leads h)

/-- Between calls, the process can do access by access what it can do with single steps. -/
theorem exists_ordered_steps {as : List (Event PoolSize)} (hsize : PoolSize < N.val)
    (r : Run ((system PoolSize N M config d₀).only SlotOrder) as a) (hq : a.Quiescent)
    {es : List (System.Event PoolSize)} {t : System.State PoolSize}
    (q : Steps (System.system PoolSize N config d₀) a.process es t) :
    ∃ bs b, Steps ((system PoolSize N M config d₀).only SlotOrder) a bs b ∧
      polls bs = arrivals es ∧ history bs = es ∧ b.process = t := by
  obtain ⟨m, hm, r'⟩ := run_of_ordered hsize r
  obtain rfl := hm.eq_monitored hq
  obtain ⟨ms, m', q', rfl, rfl⟩ := monitored_conservative.lift_steps r' q
  obtain ⟨bs, q'', hpolls, hseen⟩ := steps_lead q'
  rw [← hq.eq] at q''
  exact ⟨bs, _, q'', hpolls, by rw [history, hseen], rfl⟩

/-! ## What a state stands for -/

/-- While neither thread is in a call the process is as it is. -/
theorem StandsFor.process_eq (h : StandsFor N M a m) (hs : a.subscriberCall = .none)
    (hw : a.workerCall = .none) : m.process = a.process := by
  obtain ⟨q, k, l, waiting, rfl, h⟩ := h
  obtain ⟨m, scall, wcall, mcall⟩ := a
  obtain rfl : scall = .none := hs
  obtain rfl : wcall = .none := hw
  obtain rfl : q = m.process.queue := h.queue.eq_mem rfl rfl
  have hpool : (State.poolState ⟨m, .none, .none, mcall⟩ []).atomic = m.process.pool :=
    State.atomic_quiescent ⟨rfl, rfl, rfl⟩
  rw [Accesses.atomic_eq hpool]
  rfl

/-- The calls do not concern the checkpoint. -/
theorem StandsFor.checkpoint_eq (h : StandsFor N M a m) :
    m.process.checkpoint = a.process.checkpoint := by
  obtain ⟨_, _, _, _, rfl, -⟩ := h
  rfl

theorem afterAllocate_ne {f : Fragment} {recv : Int64} {pc other : FastPathPc PoolSize}
    (hpc : pc ≠ other) (hnext : ∀ b, .allocated f recv b ≠ other) (reserved : List (Fin PoolSize)) :
    afterAllocate f recv pc reserved ≠ other := by
  cases reserved with
  | nil => exact hpc
  | cons b => exact hnext b

theorem afterDeallocate_ne {α : Type} {pc next other : α} (hpc : pc ≠ other) (hnext : next ≠ other)
    (held : List (Fin PoolSize)) : afterDeallocate pc next held ≠ other := by
  cases held with
  | nil => exact hnext
  | cons => exact hpc

/-- A thread that has exited is in no call. -/
theorem Linearized.none_of_exited {q : RingQueue (Option (Fin PoolSize))}
    {k : RingQueue MonitoringStats} {l : List (Fin PoolSize)} {waiting : List MonitoringStats}
    (h : Linearized N M a q k l waiting) :
    (a.fastPath = .exited → a.subscriberCall = .none) ∧
      (a.worker = .exited → a.workerCall = .none) := by
  obtain ⟨⟨⟨_, _, _, fastPath, _, _, worker, _, _, _, _, _⟩, duty, _, _, _, _, _, _⟩, scall, wcall,
    mcall⟩ := a
  refine ⟨fun hexit => ?_, fun hexit => ?_⟩
  · cases scall with
    | none => rfl
    | allocate f recv pc =>
        obtain rfl : fastPath = .idle := h.subscriber
        refine absurd hexit (afterAllocate_ne ?_ ?_ (State.poolState _ []).reserved)
        · exact nofun
        · exact nofun
    | enqueue pc =>
        obtain ⟨f, b, hpc⟩ := h.subscriber
        obtain rfl : fastPath = .tracked f b := hpc
        cases hexit
    | deallocate pc =>
        obtain ⟨f, b, hpc, -⟩ := h.subscriber
        obtain rfl : fastPath = .duplicate f b := hpc
        have hne : afterDeallocate (FastPathPc.duplicate f b) .idle pc.held ≠ .exited := by
          apply afterDeallocate_ne <;> nofun
        exact absurd hexit hne
  · cases wcall with
    | none => rfl
    | size pc =>
        obtain rfl : worker = .exited := hexit
        obtain rfl : duty = .sampleQueueDepth := h.worker
        rcases h.duty with hduty | hduty <;> cases hduty
    | dequeue pc =>
        obtain ⟨hpc, -⟩ : worker = .polling ∧ duty = .none := h.worker
        cases hpc.symm.trans hexit
    | send stats pc =>
        obtain ⟨b, hpc, -⟩ := h.worker
        cases hpc.symm.trans hexit
    | deallocate pc =>
        obtain ⟨b, hpc, -⟩ := h.worker
        rcases hpc with hpc | hpc
        · obtain rfl : worker = .rejected b := hpc
          have hne : afterDeallocate (WorkerPc.rejected b) .testing pc.held ≠ .exited := by
            apply afterDeallocate_ne <;> nofun
          exact absurd hexit hne
        · obtain rfl : worker = .processed b := hpc
          have hne : afterDeallocate (WorkerPc.processed b) .counting pc.held ≠ .exited := by
            apply afterDeallocate_ne <;> nofun
          exact absurd hexit hne

/-- The worker's calls do not hide that it is about to dequeue. -/
theorem Linearized.polling_iff {q : RingQueue (Option (Fin PoolSize))}
    {k : RingQueue MonitoringStats} {l : List (Fin PoolSize)} {waiting : List MonitoringStats}
    (h : Linearized N M a q k l waiting) : a.worker = .polling ↔ a.process.worker = .polling := by
  obtain ⟨⟨⟨_, _, _, _, _, _, worker, _, _, _, _, _⟩, _, _, _, _, _, _, _⟩, scall, wcall,
    mcall⟩ := a
  cases wcall with
  | none | size | dequeue | send => exact Iff.rfl
  | deallocate pc =>
      obtain ⟨b, hpc, -⟩ := h.worker
      rcases hpc with hpc | hpc
      · obtain rfl : worker = .rejected b := hpc
        have hne : afterDeallocate (WorkerPc.rejected b) .testing pc.held ≠ .polling := by
          apply afterDeallocate_ne <;> nofun
        exact iff_of_false hne nofun
      · obtain rfl : worker = .processed b := hpc
        have hne : afterDeallocate (WorkerPc.processed b) .counting pc.held ≠ .polling := by
          apply afterDeallocate_ne <;> nofun
        exact iff_of_false hne nofun

theorem process_run_of_ordered {as : List (Event PoolSize)} (hsize : PoolSize < N.val)
    (r : Run ((system PoolSize N M config d₀).only SlotOrder) as a) :
    ∃ m, StandsFor N M a m ∧ Run (System.system PoolSize N config d₀) (history as) m.process := by
  obtain ⟨m, hm, r⟩ := run_of_ordered hsize r
  exact ⟨m, hm, monitored_conservative.toExtension.run r⟩

end Accesses

/-- **Calls that use the entries in the order of their claims are as good as single steps.** The
histories of the process access by access, as far as it respects `SlotOrder`, are those of the
process in which every call of pool and queue is one step; and the states in which no thread is in
a call are the states of that process. -/
theorem ordered_histories {config : Config} {d₀ : CheckpointData} :
    (∀ ms : List (MonitoredEvent poolSize),
      (∃ as a, Run (orderedProcess config d₀) as a ∧ Accesses.seen as = ms) ↔
        ∃ m, Run (monitoredProcess config d₀) ms m) ∧
    ∀ (ms : List (MonitoredEvent poolSize)) (m : Monitored poolSize),
      (∃ as a, Run (orderedProcess config d₀) as a ∧ a.Quiescent ∧ Accesses.seen as = ms ∧
        a.monitored = m) ↔ Run (monitoredProcess config d₀) ms m := by
  have hlift : ∀ ms m, Run (monitoredProcess config d₀) ms m → ∃ as a,
      Run (orderedProcess config d₀) as a ∧ a.Quiescent ∧ Accesses.seen as = ms ∧
        a.monitored = m := fun ms m r => by
    obtain ⟨as, r', hseen, -⟩ := Accesses.exists_ordered_run r
    exact ⟨as, _, r', Accesses.State.between_quiescent m, hseen, rfl⟩
  refine ⟨fun ms => ⟨?_, ?_⟩, fun ms m => ⟨?_, hlift ms m⟩⟩
  · rintro ⟨as, a, r, rfl⟩
    obtain ⟨m, -, r'⟩ := Accesses.run_of_ordered poolSize_lt r
    exact ⟨m, r'⟩
  · rintro ⟨m, r⟩
    obtain ⟨as, a, r', -, hseen, -⟩ := hlift ms m r
    exact ⟨as, a, r', hseen⟩
  · rintro ⟨as, a, r, hq, rfl, rfl⟩
    obtain ⟨m, hm, r'⟩ := Accesses.run_of_ordered poolSize_lt r
    rwa [hm.eq_monitored hq] at r'

end AeronReplay.System
