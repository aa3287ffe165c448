import AeronReplay.System.Accesses

set_option autoImplicit false

/-! # Calls as single steps

A run of the process access by access that respects `SlotOrder` is a run of the process in
`Monitoring`, where every call is one step (`ordered_simulates`). A call of the pool takes effect
with its claim, `enqueue` when it stores `tail_`, `dequeue` when it stores `head_`, a refusal when
the other thread's index is loaded, and `size` when it loads `tail_`. In between, the state of the
process with single steps is known (`State.atomic`) but for the slots of the queues that hold
nothing. -/

namespace AeronReplay.System

open Transition CheckpointManager BufferPool RingQueue

namespace Accesses

variable {PoolSize : Nat} {N M : Ring.Size} {config : Config} {d₀ : CheckpointData}
  {a b : State PoolSize}

/-! ## The process between the calls -/

/-- What is about the pool while the message queue holds these buffers. -/
def State.poolState (a : State PoolSize) (queued : List (Fin PoolSize)) :
    BufferPool.State PoolSize where
  pool := a.process.pool
  allocating := a.subscriberCall.allocating
  dropping := a.subscriberCall.dropping
  returning := a.workerCall.returning
  msg_buf := match a.subscriberCall with
    | .none | .enqueue _ => a.process.fastPath.held.head?
    | _ => none
  queued := queued
  worker_buf := match a.workerCall with
    | .deallocate _ => none
    | _ => a.process.worker.held.head?

/-- Where the fast path is when `allocate` has reserved these buffers. -/
def afterAllocate (f : Fragment) (recv_timestamp : Int64) (pc : FastPathPc PoolSize) :
    List (Fin PoolSize) → FastPathPc PoolSize
  | msg_buf :: _ => .allocated f recv_timestamp msg_buf
  | [] => pc

/-- Where a thread is while `deallocate` still has these buffers: it goes on when there is none. -/
def afterDeallocate {α : Type} (pc next : α) : List (Fin PoolSize) → α
  | _ :: _ => pc
  | [] => next

/-- Where the fast path is when the call it is in takes effect at once. -/
def State.fastPath (a : State PoolSize) : FastPathPc PoolSize :=
  match a.subscriberCall with
  | .allocate f recv_timestamp _ =>
      afterAllocate f recv_timestamp a.process.fastPath (a.poolState []).reserved
  | .deallocate pc => afterDeallocate a.process.fastPath .idle pc.held
  | _ => a.process.fastPath

/-- Where the worker is when the call it is in takes effect at once. -/
def State.worker (a : State PoolSize) : WorkerPc PoolSize :=
  match a.workerCall with
  | .deallocate pc =>
      afterDeallocate a.process.worker (HandOff.afterReturn a.process.worker) pc.held
  | _ => a.process.worker

/-- The process as it is when every call is made in one step, with these two queues. -/
def State.atomic (a : State PoolSize) (q : RingQueue (Option (Fin PoolSize)))
    (k : RingQueue MonitoringStats) : Monitored PoolSize :=
  { a.monitored with
    process := { a.process with
      pool := (a.poolState []).atomic
      queue := q
      fastPath := a.fastPath
      worker := a.worker }
    stats_queue := k }

/-- The call that the subscriber is in fits the place it has come to. -/
def SubscriberCall.At (call : SubscriberCall PoolSize) (pc : FastPathPc PoolSize) : Prop :=
  match call with
  | .none => ∀ f b, pc ≠ .refused f b
  | .allocate _ _ _ => pc = .idle
  | .enqueue _ => ∃ f b, pc = .tracked f b
  | .deallocate d => ∃ f b, pc = .duplicate f b ∧ ∀ b' ∈ d.held, b' = b

/-- The call that the worker is in fits the place it has come to and what it has to do there. -/
def WorkerCall.At (call : WorkerCall PoolSize) (pc : WorkerPc PoolSize)
    (duty : WorkerDuty PoolSize) (p : BufferPool PoolSize) : Prop :=
  match call with
  | .none => True
  | .size _ => duty = .sampleQueueDepth
  | .dequeue _ => pc = .polling ∧ duty = .none
  | .send stats _ => ∃ b, pc = .processed b ∧ duty = .sendToMonitoring b ∧
      stats = MessageWorker.monitoringStats (p.buffers_ b)
  | .deallocate d => ∃ b, (pc = .rejected b ∨ pc = .processed b) ∧ duty = .none ∧
      ∀ b' ∈ d.held, b' = b

/-- The state `a` stands for `a.atomic q k`, where the message queue holds `l` and the monitoring
queue `waiting`. -/
structure Linearized (N M : Ring.Size) (a : State PoolSize)
    (q : RingQueue (Option (Fin PoolSize))) (k : RingQueue MonitoringStats)
    (l : List (Fin PoolSize)) (waiting : List MonitoringStats) : Prop where
  sound : Sound (a.poolState l)
  queue : Refined (pointerQueue N PoolSize)
    ⟨a.process.queue, a.subscriberCall.producer, a.workerCall.consumer⟩ q (l.map some)
  stats_queue : Refined (spscQueue M MonitoringStats)
    ⟨a.monitored.stats_queue, a.workerCall.producer, a.monitorCall⟩ k waiting
  subscriber : a.subscriberCall.At a.process.fastPath
  worker : a.workerCall.At a.process.worker a.monitored.duty a.process.pool
  duty : a.monitored.duty = .none ∨ a.monitored.duty = a.process.worker.duty

/-- What the worker relies on is in the buffer that it has. -/
theorem WorkerCall.At.frame {call : WorkerCall PoolSize} {pc : WorkerPc PoolSize}
    {duty : WorkerDuty PoolSize} {p p' : BufferPool PoolSize} (h : call.At pc duty p)
    (hsame : ∀ stats s b, call = .send stats s → pc = .processed b →
      p'.buffers_ b = p.buffers_ b) : call.At pc duty p' := by
  cases call with
  | send stats s =>
      obtain ⟨b, hpc, hduty, hstats⟩ := h
      exact ⟨b, hpc, hduty, (hsame stats s b rfl hpc).symm ▸ hstats⟩
  | none | size | dequeue | deallocate => exact h

/-- The buffer whose statistics are being sent is with the worker. -/
theorem State.owned_of_send (a : State PoolSize) {stats : MonitoringStats}
    {s : ProducerPc MonitoringStats} {b : Fin PoolSize} {l : List (Fin PoolSize)}
    (hcall : a.workerCall = .send stats s) (hpc : a.process.worker = .processed b) :
    b ∈ (a.poolState l).owned := by
  simp [BufferPool.State.owned, State.poolState, hcall, hpc, WorkerPc.held]

/-- What a step from `a` with the events `e` to `b` means when every call is one step. -/
def Follows (N M : Ring.Size) (config : Config) (a : State PoolSize)
    (q : RingQueue (Option (Fin PoolSize))) (k : RingQueue MonitoringStats)
    (e : List (Event PoolSize)) (b : State PoolSize) : Prop :=
  ∃ q' k' l waiting, Linearized N M b q' k' l waiting ∧
    (MonitoredStep N M config (a.atomic q k) (seen e) (b.atomic q' k') ∨
      seen e = [] ∧ b.atomic q' k' = a.atomic q k)

variable {q : RingQueue (Option (Fin PoolSize))} {k : RingQueue MonitoringStats}
  {l : List (Fin PoolSize)} {waiting : List MonitoringStats}

/-- While `deallocate` has a buffer there is room in the free list. -/
theorem returnEvents_eq_nil {p p' : BufferPool PoolSize} {pc pc' : DeallocatePc PoolSize}
    {written : Option Nat} (hstep : DeallocateStep p pc written p' pc')
    (hroom : ∀ b count, pc = .loaded b count → count < PoolSize) :
    HandOff.returnEvents written pc' = [] := by
  cases hstep with
  | overflow hfull => exact absurd (hroom _ _ rfl) hfull
  | _ => rfl

theorem atomic_eq {p : BufferPool PoolSize} (hpool : (b.poolState []).atomic = p) :
    b.atomic q k = { b.monitored with
      process := { b.process with
        pool := p
        queue := q
        fastPath := b.fastPath
        worker := b.worker }
      stats_queue := k } := by
  rw [State.atomic, hpool]

theorem fastPath_congr (hcall : b.subscriberCall = a.subscriberCall)
    (hpc : b.process.fastPath = a.process.fastPath)
    (hreserved : (b.poolState []).reserved = (a.poolState []).reserved) :
    b.fastPath = a.fastPath := by
  simp only [State.fastPath, hcall, hpc, hreserved]

/-! ## The steps of the subscriber -/

theorem Linearized.poll (h : Linearized N M a q k l waiting) (f : Fragment) (recv : Int64)
    (hcall : a.subscriberCall = .none) (hpc : a.process.fastPath = .idle) :
    Follows N M config a q k [.polled f] { a with subscriberCall := .allocate f recv .idle } := by
  obtain ⟨m, scall, wcall, mcall⟩ := a
  obtain rfl : scall = .none := hcall
  have hsound := h.sound
  simp only [State.poolState, hpc, FastPathPc.held, List.head?_nil] at hsound
  exact ⟨q, k, l, waiting, ⟨hsound, h.queue, h.stats_queue, hpc, h.worker, h.duty⟩,
    .inr ⟨rfl, rfl⟩⟩

theorem Linearized.load (h : Linearized N M a q k l waiting) {f : Fragment} {recv : Int64}
    {pc : AllocatePc PoolSize} (hcall : a.subscriberCall = .allocate f recv pc)
    (hpc : pc.Unclaimed) :
    Follows N M config a q k []
      { a with
        subscriberCall := .allocate f recv (.loaded a.process.pool.free_count_) } := by
  obtain ⟨m, scall, wcall, mcall⟩ := a
  obtain rfl : scall = .allocate f recv pc := hcall
  let loaded : AllocatePc PoolSize := .loaded m.process.pool.free_count_
  have hunclaimed : loaded.Unclaimed := .inr ⟨_, rfl⟩
  have hload := h.sound.load hpc hunclaimed ⟨rfl, rfl⟩
  refine ⟨q, k, l, waiting, ⟨hload, h.queue, h.stats_queue, h.subscriber, h.worker, h.duty⟩,
    .inr ⟨rfl, ?_⟩⟩
  rcases hpc with rfl | ⟨count, rfl⟩ <;> rfl

theorem Linearized.exhausted (h : Linearized N M a q k l waiting) {f : Fragment} {recv : Int64}
    {pc : AllocatePc PoolSize} (hcall : a.subscriberCall = .allocate f recv pc)
    (hpc : pc.Unclaimed) (hcount : a.process.pool.free_count_ = 0) :
    Follows N M config a q k (shown [.arrived f, .allocationFailed f]) { a with
      monitored.process.stats.zc_buffer_allocation_failures_ :=
        a.process.stats.zc_buffer_allocation_failures_ + 1
      subscriberCall := .none } := by
  obtain ⟨m, scall, wcall, mcall⟩ := a
  obtain rfl : scall = .allocate f recv pc := hcall
  have hidle : m.process.fastPath = .idle := h.subscriber
  have hunclaimed : (AllocatePc.idle : AllocatePc PoolSize).Unclaimed := .inl rfl
  have hload := h.sound.load hpc hunclaimed ⟨rfl, rfl⟩
  refine ⟨q, k, l, waiting, ⟨?_, h.queue, h.stats_queue, ?_, h.worker, h.duty⟩, .inl ?_⟩
  · simp only [State.poolState, hidle, FastPathPc.held, List.head?_nil]
    exact hload
  · intro f b
    show m.process.fastPath ≠ _
    simp [hidle]
  · let a : State PoolSize := ⟨m, .allocate f recv pc, wcall, mcall⟩
    have hpc' : (a.atomic q k).process.fastPath = .idle := by
      rcases hpc with rfl | ⟨count, rfl⟩ <;> exact hidle
    have hnone : (a.atomic q k).process.pool.allocate = (none, (a.atomic q k).process.pool) :=
      atomic_exhausted (s := a.poolState []) hcount
    have hfails : System.SubscriberStep N config (a.atomic q k).process _ _ :=
      .allocationFails f hpc' hnone
    have hstep := MonitoredStep.subscriber (M := M) hfails
    rcases hpc with rfl | ⟨count, rfl⟩ <;> exact hstep

/-- `allocate` claims an entry: the fragment has got its buffer. -/
theorem Linearized.compareExchange (h : Linearized N M a q k l waiting) {f : Fragment}
    {recv : Int64} {slot : Nat}
    (hcall : a.subscriberCall = .allocate f recv (.loaded (slot + 1)))
    (heq : a.process.pool.free_count_ = slot + 1) :
    Follows N M config a q k (shown [.arrived f]) { a with
      monitored.process.pool.free_count_ := slot
      subscriberCall := .allocate f recv (.claimed slot) } := by
  obtain ⟨m, scall, wcall, mcall⟩ := a
  obtain rfl : scall = .allocate f recv (.loaded (slot + 1)) := hcall
  let a : State PoolSize := ⟨m, .allocate f recv (.loaded (slot + 1)), wcall, mcall⟩
  let b : State PoolSize := { a with
    monitored.process.pool.free_count_ := slot
    subscriberCall := .allocate f recv (.claimed slot) }
  have hsound : Sound (b.poolState l) := h.sound.step (.compareExchange rfl heq) slotOrder_nil
  refine ⟨q, k, l, waiting, ⟨hsound, h.queue, h.stats_queue, h.subscriber, h.worker, h.duty⟩,
    .inl ?_⟩
  have halloc : (a.atomic q k).process.pool.allocate
      = (some ((a.poolState l).slots slot), (b.atomic q k).process.pool) :=
    atomic_compareExchange h.sound rfl heq
  have hreserved : (b.poolState []).reserved = [(a.poolState l).slots slot] := by
    show (if slot = slot then _ else _) = _
    rw [if_pos rfl]
    rfl
  have hpc : (b.atomic q k).process.fastPath = .allocated f recv ((a.poolState l).slots slot) :=
    congrArg (afterAllocate f recv m.process.fastPath) hreserved
  have harrive : System.SubscriberStep N config (a.atomic q k).process _ _ :=
    .arrive f recv h.subscriber halloc
  have hstep := MonitoredStep.subscriber (M := M) harrive
  rw [← hpc] at hstep
  exact hstep

theorem Linearized.readSlot (h : Linearized N M a q k l waiting) {f : Fragment} {recv : Int64}
    {slot : Nat} (hcall : a.subscriberCall = .allocate f recv (.claimed slot))
    (horder : SlotOrder a [.readSlot slot]) :
    Follows N M config a q k [.readSlot slot] { a with
      subscriberCall := .allocate f recv (.readSlot (a.process.pool.free_list_ slot)) } := by
  obtain ⟨m, scall, wcall, mcall⟩ := a
  obtain rfl : scall = .allocate f recv (.claimed slot) := hcall
  let a : State PoolSize := ⟨m, .allocate f recv (.claimed slot), wcall, mcall⟩
  let b : State PoolSize := { a with
    subscriberCall := .allocate f recv (.readSlot (a.process.pool.free_list_ slot)) }
  have hnot := horder.1 slot (List.mem_singleton_self (Event.readSlot slot))
  have hsound : Sound (b.poolState l) := by
    refine h.sound.step (BufferPool.Step.readSlot rfl) ⟨fun i hi => ?_, fun i hi => ?_⟩
    · cases List.mem_singleton.mp hi
      exact hnot
    · cases List.mem_singleton.mp hi
  refine ⟨q, k, l, waiting, ⟨hsound, h.queue, h.stats_queue, h.subscriber, h.worker, h.duty⟩,
    .inr ⟨rfl, ?_⟩⟩
  have hpool : (b.poolState []).atomic = (a.poolState []).atomic :=
    atomic_readSlot (s := a.poolState l) h.sound.toInv rfl hnot
  have hreserved : (a.poolState []).reserved = (b.poolState []).reserved :=
    Inv.reserved_claimed (s := a.poolState l) h.sound.toInv rfl hnot
  have hpc : b.fastPath = a.fastPath :=
    congrArg (afterAllocate f recv m.process.fastPath) hreserved.symm
  show b.atomic q k = a.atomic q k
  rw [State.atomic, State.atomic, hpool, hpc]
  rfl

theorem Linearized.markInUse (h : Linearized N M a q k l waiting) {f : Fragment} {recv : Int64}
    {msg_buf : Fin PoolSize} (hcall : a.subscriberCall = .allocate f recv (.readSlot msg_buf)) :
    Follows N M config a q k [] { a with
      monitored.process.pool := (a.process.pool.storeInUse msg_buf true).resetBuffer msg_buf
      monitored.process.fastPath := .allocated f recv msg_buf
      subscriberCall := .none } := by
  obtain ⟨m, scall, wcall, mcall⟩ := a
  obtain rfl : scall = .allocate f recv (.readSlot msg_buf) := hcall
  let a : State PoolSize := ⟨m, .allocate f recv (.readSlot msg_buf), wcall, mcall⟩
  let b : State PoolSize := { a with
    monitored.process.pool := (a.process.pool.storeInUse msg_buf true).resetBuffer msg_buf
    monitored.process.fastPath := .allocated f recv msg_buf
    subscriberCall := .none }
  have hsound : Sound (b.poolState l) :=
    h.sound.step (BufferPool.Step.markInUse rfl) (slotOrder_of_notMem (by simp) (by simp))
  refine ⟨q, k, l, waiting, ⟨hsound, h.queue, h.stats_queue, fun _ _ hpc => ?_, ?_, h.duty⟩,
    .inr ⟨rfl, ?_⟩⟩
  · cases hpc
  · refine h.worker.frame fun stats pc c hsend hpc => ?_
    have hne : c ≠ msg_buf := fun heq =>
      Inv.notMem_owned (s := a.poolState l) h.sound.toInv rfl (heq ▸ a.owned_of_send hsend hpc)
    rw [resetBuffer_storeInUse, Function.update_of_ne hne]
  · have hpool : (b.poolState []).atomic = (a.poolState []).atomic :=
      atomic_markInUse (s := a.poolState l) h.sound.toInv rfl
    show b.atomic q k = a.atomic q k
    rw [State.atomic, State.atomic, hpool]
    rfl

/-- The buffer that the fast path holds is as it is when every call is made in one step. -/
theorem Linearized.buffer_held (h : Linearized N M a q k l waiting)
    (hcall : a.subscriberCall = .none) {msg_buf : Fin PoolSize}
    (hheld : a.process.fastPath.held = [msg_buf]) :
    msg_buf ∈ (a.poolState l).owned ∧
      (a.atomic q k).process.pool.buffers_ msg_buf = a.process.pool.buffers_ msg_buf := by
  have howned : msg_buf ∈ (a.poolState l).owned := by
    simp [BufferPool.State.owned, State.poolState, hcall, hheld]
  exact ⟨howned, h.sound.contents_owned howned⟩

/-- The worker sends the statistics of another buffer. -/
theorem Linearized.ne_of_send (h : Linearized N M a q k l waiting)
    (hcall : a.subscriberCall = .none) {msg_buf c : Fin PoolSize}
    (hheld : a.process.fastPath.held = [msg_buf]) {stats : MonitoringStats}
    {s : ProducerPc MonitoringStats} (hsend : a.workerCall = .send stats s)
    (hpc : a.process.worker = .processed c) : c ≠ msg_buf := by
  rintro rfl
  have hnodup := Inv.nodup_owned (s := a.poolState l) h.sound.toInv
  simp [BufferPool.State.owned, State.poolState, hcall, hheld, hsend, hpc,
    WorkerPc.held] at hnodup

/-- The fast path copies the fragment and checks it. -/
theorem Linearized.receive (h : Linearized N M a q k l waiting) (hcall : a.subscriberCall = .none)
    {f : Fragment} {recv : Int64} {msg_buf : Fin PoolSize} {m : MessageBuffer}
    {pc : FastPathPc PoolSize} (hpc : a.process.fastPath = .allocated f recv msg_buf)
    (hm : received a.process f recv msg_buf = m)
    (hnew : pc = .duplicate f msg_buf ∨ pc = .tracked f msg_buf) (tracking : Tracking)
    (st : Statistics) {b : State PoolSize}
    (hb : b = { a with monitored.process := { a.process with
      pool := a.process.pool.write msg_buf m
      tracking := tracking
      fastPath := pc
      stats := st
      origin := Function.update a.process.origin msg_buf f } }) :
    Linearized N M b q k l waiting ∧ received (a.atomic q k).process f recv msg_buf = m ∧
      (b.poolState []).atomic = (a.atomic q k).process.pool.write msg_buf m := by
  have hheld : a.process.fastPath.held = [msg_buf] := by
    rw [hpc]
    rfl
  have hheld' : pc.held = [msg_buf] := by
    rcases hnew with rfl | rfl <;> rfl
  obtain ⟨howned, hbuffer⟩ := h.buffer_held hcall hheld
  have hflag : m.in_use = (a.process.pool.buffers_ msg_buf).in_use := by
    rw [← hm]
    exact AeronSubscriber.receive_in_use _ _ _
  have hpool : b.poolState l
      = { a.poolState l with pool := (a.poolState l).pool.write msg_buf m } := by
    rw [hb]
    simp only [State.poolState, hcall, hheld, hheld']
  refine ⟨⟨?_, ?_, ?_, ?_, ?_, ?_⟩, ?_, ?_⟩
  · rw [hpool]
    exact h.sound.write hflag
  · rw [hb]
    exact h.queue
  · rw [hb]
    exact h.stats_queue
  · rw [hb]
    show a.subscriberCall.At pc
    rw [hcall]
    rintro f' b' rfl
    rcases hnew with hnew | hnew <;> cases hnew
  · rw [hb]
    refine h.worker.frame fun stats s c hsend hprocessed => Function.update_of_ne ?_ _ _
    exact h.ne_of_send hcall hheld hsend hprocessed
  · rw [hb]
    exact h.duty
  · rw [received, hbuffer]
    exact hm
  · have hwrite := atomic_write h.sound howned m
    rw [← hpool] at hwrite
    exact hwrite

/-- The fast path goes on to a place where it holds the same buffer. -/
theorem Linearized.move (h : Linearized N M a q k l waiting) (hcall : a.subscriberCall = .none)
    {pc : FastPathPc PoolSize} (hheld : a.process.fastPath.held = pc.held)
    (hpc : ∀ f b, pc ≠ .refused f b) (st : Statistics) (c : Snapshot) :
    Linearized N M { a with monitored.process := { a.process with
      fastPath := pc
      stats := st
      checkpoint := c } } q k l waiting := by
  obtain ⟨m, scall, wcall, mcall⟩ := a
  obtain rfl : scall = .none := hcall
  have hsound := h.sound
  simp only [State.poolState, hheld] at hsound
  exact ⟨hsound, h.queue, h.stats_queue, hpc, h.worker, h.duty⟩

/-- **A step of the fast path on its own is the same step.** -/
theorem Linearized.fastPathStep (h : Linearized N M a q k l waiting)
    (hcall : a.subscriberCall = .none) {e : List (System.Event PoolSize)}
    {p : System.State PoolSize} (hstep : System.SubscriberStep N config a.process e p)
    (hown : a.process.fastPath.onItsOwn p.fastPath = true) :
    Follows N M config a q k (shown e) { a with monitored.process := p } := by
  obtain ⟨m, scall, wcall, mcall⟩ := a
  obtain rfl : scall = .none := hcall
  let a : State PoolSize := ⟨m, .none, wcall, mcall⟩
  rw [Follows, seen_shown]
  cases hstep with
  | arrive f recv hpc =>
      rw [show m.process.fastPath = _ from hpc] at hown
      cases hown
  | allocationFails f hpc =>
      rw [show m.process.fastPath = _ from hpc] at hown
      cases hown
  | dropDuplicate hpc | enqueue hpc | enqueueFails hpc | dropRefused hpc =>
      rw [show m.process.fastPath = _ from hpc] at hown
      cases hown
  | trackDuplicate hpc hm hv hdup =>
      obtain ⟨hnext, hm', hpool⟩ := h.receive rfl hpc hm (.inl rfl) _ (m.process.stats.track _) rfl
      refine ⟨q, k, l, waiting, hnext, .inl ?_⟩
      rw [atomic_eq hpool]
      exact MonitoredStep.subscriber (m := a.atomic q k)
        (SubscriberStep.trackDuplicate (s := (a.atomic q k).process) hpc hm' hv hdup)
  | track hpc hm hv hdup =>
      obtain ⟨hnext, hm', hpool⟩ := h.receive rfl hpc hm (.inr rfl) _ (m.process.stats.track _) rfl
      refine ⟨q, k, l, waiting, hnext, .inl ?_⟩
      rw [atomic_eq hpool]
      exact MonitoredStep.subscriber (m := a.atomic q k)
        (SubscriberStep.track (s := (a.atomic q k).process) hpc hm' hv hdup)
  | count hpc hoff =>
      refine ⟨q, k, l, waiting, h.move rfl (by rw [hpc]; rfl) (by simp) _ _, .inl ?_⟩
      exact MonitoredStep.subscriber (m := a.atomic q k)
        (SubscriberStep.count (s := (a.atomic q k).process) hpc hoff)
  | @countAndUpdate f msg_buf now hpc hon hidle =>
      refine ⟨q, k, l, waiting, h.move rfl (by rw [hpc]; rfl) (by simp) _ _, .inl ?_⟩
      have hheader : ((a.atomic q k).process.pool.buffers_ msg_buf).header
          = (m.process.pool.buffers_ msg_buf).header := header_contents rfl msg_buf
      have hstep := MonitoredStep.subscriber (N := N) (M := M) (m := a.atomic q k)
        (SubscriberStep.countAndUpdate (s := (a.atomic q k).process) now hpc hon hidle)
      rw [hheader] at hstep
      exact hstep
  | updated hpc hidle =>
      refine ⟨q, k, l, waiting, h.move rfl (by rw [hpc]; rfl) (by simp) _ _, .inl ?_⟩
      exact MonitoredStep.subscriber (m := a.atomic q k)
        (SubscriberStep.updated (s := (a.atomic q k).process) hpc hidle)
  | exit hpc hstop =>
      refine ⟨q, k, l, waiting, h.move rfl (by rw [hpc]; rfl) (by simp) _ _, .inl ?_⟩
      exact MonitoredStep.subscriber (m := a.atomic q k)
        (SubscriberStep.exit (s := (a.atomic q k).process) hpc hstop)

theorem Linearized.callEnqueue (h : Linearized N M a q k l waiting) {f : Fragment}
    {msg_buf : Fin PoolSize} (hcall : a.subscriberCall = .none)
    (hpc : a.process.fastPath = .tracked f msg_buf) :
    Follows N M config a q k [] { a with subscriberCall := .enqueue .idle } := by
  obtain ⟨m, scall, wcall, mcall⟩ := a
  obtain rfl : scall = .none := hcall
  exact ⟨q, k, l, waiting, ⟨h.sound, h.queue, h.stats_queue, ⟨f, msg_buf, hpc⟩, h.worker, h.duty⟩,
    .inr ⟨rfl, rfl⟩⟩

theorem Linearized.enqueueAccess (h : Linearized N M a q k l waiting) {msg_buf : Fin PoolSize}
    {pc pc' : ProducerPc (Option (Fin PoolSize))} {q' : RingQueue (Option (Fin PoolSize))}
    (hcall : a.subscriberCall = .enqueue pc)
    (hstep : EnqueueStep (pointerQueue N PoolSize) (some msg_buf) a.process.queue pc [] q' pc') :
    Follows N M config a q k [] { a with
      monitored.process.queue := q'
      subscriberCall := .enqueue pc' } := by
  obtain ⟨m, scall, wcall, mcall⟩ := a
  obtain rfl : scall = .enqueue pc := hcall
  have hqueue := h.queue.silent (hstep.step wcall.consumer)
  exact ⟨q, k, l, waiting, ⟨h.sound, hqueue, h.stats_queue, h.subscriber, h.worker, h.duty⟩,
    .inr ⟨rfl, rfl⟩⟩

/-- The buffer is in the queue when `tail_` has been stored. -/
theorem Linearized.enqueue (h : Linearized N M a q k l waiting) {f : Fragment}
    {msg_buf : Fin PoolSize} {pc pc' : ProducerPc (Option (Fin PoolSize))}
    {q' : RingQueue (Option (Fin PoolSize))} (hcall : a.subscriberCall = .enqueue pc)
    (hpc : a.process.fastPath = .tracked f msg_buf)
    (hstep : EnqueueStep (pointerQueue N PoolSize) (some msg_buf) a.process.queue pc
      [.enq (some msg_buf)] q' pc') :
    Follows N M config a q k (shown [.accepted f msg_buf]) { a with
      monitored.process.queue := q'
      monitored.process.fastPath := .enqueued f msg_buf
      subscriberCall := .none } := by
  obtain ⟨m, scall, wcall, mcall⟩ := a
  obtain rfl : scall = .enqueue pc := hcall
  let a : State PoolSize := ⟨m, .enqueue pc, wcall, mcall⟩
  obtain rfl : pc' = .idle := by
    cases hstep with
    | storeTail => rfl
  obtain ⟨hok, hqueue⟩ := h.queue.enq (hstep.step wcall.consumer)
  have hbuf : (a.poolState l).msg_buf = some msg_buf := by
    show m.process.fastPath.held.head? = _
    rw [show m.process.fastPath = _ from hpc]
    rfl
  have hsound : Sound { a.poolState l with msg_buf := none, queued := l ++ [msg_buf] } :=
    h.sound.step (.enqueue hbuf) slotOrder_nil
  rw [show l.map some ++ [some msg_buf] = (l ++ [msg_buf]).map some by simp] at hqueue
  refine ⟨_, k, l ++ [msg_buf], waiting, ⟨hsound, hqueue, h.stats_queue,
    fun _ _ hrefused => (by cases hrefused), h.worker, h.duty⟩, .inl ?_⟩
  exact MonitoredStep.subscriber (m := a.atomic q k)
    (System.SubscriberStep.enqueue (s := (a.atomic q k).process) hpc (Prod.ext hok rfl))

/-- The message queue has room for every buffer of the pool. -/
theorem Linearized.enqueue_not_full (h : Linearized N M a q k l waiting) (hsize : PoolSize < N.val)
    {f : Fragment} {msg_buf : Fin PoolSize} {pc pc' : ProducerPc (Option (Fin PoolSize))}
    {q' : RingQueue (Option (Fin PoolSize))} (hcall : a.subscriberCall = .enqueue pc)
    (hpc : a.process.fastPath = .tracked f msg_buf) :
    ¬ EnqueueStep (pointerQueue N PoolSize) (some msg_buf) a.process.queue pc [.full] q' pc' := by
  intro hstep
  have hqueue := h.queue
  rw [hcall] at hqueue
  obtain ⟨hfull, -⟩ := hqueue.full (hstep.step a.workerCall.consumer)
  have hbuf : (a.poolState l).msg_buf = some msg_buf := by
    simp only [State.poolState, hcall, hpc, FastPathPc.held, List.head?_cons]
  have hlt : l.length < PoolSize := Inv.length_queued_lt (s := a.poolState l) h.sound.toInv hbuf
  rw [List.length_map] at hfull
  omega

theorem Linearized.drop (h : Linearized N M a q k l waiting) {f : Fragment}
    {msg_buf : Fin PoolSize} (hcall : a.subscriberCall = .none)
    (hpc : a.process.fastPath = .duplicate f msg_buf ∨
      a.process.fastPath = .refused f msg_buf) :
    Follows N M config a q k [] { a with
      monitored.process.pool := a.process.pool.storeInUse msg_buf false
      subscriberCall := .deallocate (.marked msg_buf) } := by
  obtain ⟨m, scall, wcall, mcall⟩ := a
  obtain rfl : scall = .none := hcall
  let a : State PoolSize := ⟨m, .none, wcall, mcall⟩
  let b : State PoolSize := { a with
    monitored.process.pool := a.process.pool.storeInUse msg_buf false
    subscriberCall := .deallocate (.marked msg_buf) }
  have hpc : m.process.fastPath = .duplicate f msg_buf :=
    hpc.resolve_right (h.subscriber f msg_buf)
  have hbuf : (a.poolState l).msg_buf = some msg_buf := by
    show m.process.fastPath.held.head? = _
    rw [hpc]
    rfl
  have hsound : Sound (b.poolState l) := h.sound.step (.drop hbuf rfl) slotOrder_nil
  have hpool : (b.poolState []).atomic = (a.poolState []).atomic := atomic_drop h.sound hbuf rfl
  refine ⟨q, k, l, waiting, ⟨hsound, h.queue, h.stats_queue, ⟨f, msg_buf, hpc, by simp⟩, ?_,
    h.duty⟩, .inr ⟨rfl, ?_⟩⟩
  · refine h.worker.frame fun stats s c hsend hprocessed => storeInUse_of_ne _ ?_ _
    exact h.ne_of_send rfl (by rw [hpc]; rfl) hsend hprocessed
  · show b.atomic q k = a.atomic q k
    rw [State.atomic, State.atomic, hpool]
    rfl

theorem Linearized.deallocate (h : Linearized N M a q k l waiting) {pc pc' : DeallocatePc PoolSize}
    {written : Option Nat} {p : BufferPool PoolSize} (hcall : a.subscriberCall = .deallocate pc)
    (hstep : DeallocateStep a.process.pool pc written p pc') :
    Follows N M config a q k (shown (HandOff.returnEvents written pc')) { a with
      monitored.process.pool := p
      subscriberCall := .deallocate pc' } := by
  obtain ⟨m, scall, wcall, mcall⟩ := a
  obtain rfl : scall = .deallocate pc := hcall
  let a : State PoolSize := ⟨m, .deallocate pc, wcall, mcall⟩
  let b : State PoolSize := { a with
    monitored.process.pool := p
    subscriberCall := .deallocate pc' }
  obtain ⟨f, msg_buf, hpc, hheld⟩ := h.subscriber
  have hsound : Sound (b.poolState l) := h.sound.step (.dropping hstep) slotOrder_nil
  have hworker : b.workerCall.At b.process.worker b.monitored.duty p := by
    refine h.worker.frame fun _ _ c _ _ => ?_
    rw [HandOff.deallocateStep_buffers hstep]
  rw [Follows, seen_shown, returnEvents_eq_nil hstep
    fun b count hloaded => h.sound.loaded b count (.inl hloaded)]
  obtain ⟨hsame, hpool⟩ | ⟨c, hc, hnil, hpool⟩ := atomic_dropping h.sound hstep
  · refine ⟨q, k, l, waiting, ⟨hsound, h.queue, h.stats_queue, ⟨f, msg_buf, hpc, ?_⟩, hworker,
      h.duty⟩, .inr ⟨rfl, ?_⟩⟩
    · rw [hsame]
      exact hheld
    · have hplace : b.fastPath = a.fastPath :=
        congrArg (afterDeallocate m.process.fastPath .idle) hsame
      show b.atomic q k = a.atomic q k
      rw [atomic_eq hpool, hplace]
      rfl
  · refine ⟨q, k, l, waiting, ⟨hsound, h.queue, h.stats_queue, ⟨f, msg_buf, hpc, ?_⟩, hworker,
      h.duty⟩, .inl ?_⟩
    · rw [hnil]
      exact fun _ hmem => absurd hmem List.not_mem_nil
    · have hmem : c ∈ (a.poolState l).dropping.held := hc ▸ List.mem_singleton_self c
      obtain rfl : c = msg_buf := hheld c hmem
      have hroom : (a.atomic q k).process.pool.free_count_ < PoolSize :=
        Inv.count_lt (s := a.poolState l) h.sound.toInv (List.mem_append_left _ hmem)
      have hplace : (a.atomic q k).process.fastPath = .duplicate f c :=
        (congrArg (afterDeallocate m.process.fastPath .idle) hc).trans hpc
      have hplace' : b.fastPath = .idle :=
        congrArg (afterDeallocate m.process.fastPath .idle) hnil
      have hdropped : System.SubscriberStep N config (a.atomic q k).process _ _ :=
        .dropDuplicate hplace
      have hdrop := MonitoredStep.subscriber (M := M) hdropped
      rw [overflow, if_pos hroom] at hdrop
      have hpool' : (b.poolState []).atomic = (a.poolState []).atomic.deallocate (.buffer c) :=
        hpool
      rw [atomic_eq hpool', hplace']
      exact hdrop

theorem Linearized.dropped (h : Linearized N M a q k l waiting)
    (hcall : a.subscriberCall = .deallocate .idle) :
    Follows N M config a q k [] { a with
      monitored.process.fastPath := .idle
      monitored.process.stats := a.process.stats.dropped a.process.fastPath
      subscriberCall := .none } := by
  obtain ⟨m, scall, wcall, mcall⟩ := a
  obtain rfl : scall = .deallocate .idle := hcall
  obtain ⟨f, msg_buf, hpc, -⟩ := h.subscriber
  have hstats : m.process.stats.dropped m.process.fastPath = m.process.stats := by
    rw [show m.process.fastPath = _ from hpc]
    rfl
  refine ⟨q, k, l, waiting, ⟨h.sound, h.queue, h.stats_queue, fun _ _ hrefused => (by
    cases hrefused), h.worker, h.duty⟩, .inr ⟨rfl, ?_⟩⟩
  simp only [hstats]
  rfl

/-! ## The steps of the worker -/

/-- The worker goes on to a place where it holds the same buffer. -/
theorem Linearized.moveWorker (h : Linearized N M a q k l waiting) (hcall : a.workerCall = .none)
    {pc : WorkerPc PoolSize} (hheld : a.process.worker.held = pc.held) (seen : Finset UInt64)
    (st : Statistics) (w : WorkerMetrics) :
    Linearized N M { a with
      monitored.process := { a.process with
        worker := pc
        seen_sequences_ := seen
        stats := st }
      monitored.duty := pc.duty
      monitored.metrics := w } q k l waiting := by
  obtain ⟨m, scall, wcall, mcall⟩ := a
  obtain rfl : wcall = .none := hcall
  have hsound := h.sound
  simp only [State.poolState, hheld] at hsound
  exact ⟨hsound, h.queue, h.stats_queue, h.subscriber, trivial, .inr rfl⟩

/-- The buffer that the worker holds is as it is when every call is made in one step. -/
theorem Linearized.buffer_of_worker (h : Linearized N M a q k l waiting)
    (hcall : a.workerCall = .none) {msg_buf : Fin PoolSize}
    (hheld : a.process.worker.held = [msg_buf]) :
    (a.atomic q k).process.pool.buffers_ msg_buf = a.process.pool.buffers_ msg_buf := by
  have howned : msg_buf ∈ (a.poolState l).owned := by
    simp [BufferPool.State.owned, State.poolState, hcall, hheld]
  exact h.sound.contents_owned howned

/-- **A step of the worker on its own is the same step.** -/
theorem Linearized.workerStep (h : Linearized N M a q k l waiting) (start finish : Int64)
    (hcall : a.workerCall = .none) (hduty : a.monitored.duty = .none)
    {e : List (System.Event PoolSize)} {p : System.State PoolSize}
    (hstep : System.WorkerStep N a.process e p) (hown : a.process.worker.onItsOwn = true) :
    Follows N M config a q k (shown e) { a with
      monitored.process := p
      monitored.duty := p.worker.duty
      monitored.metrics := a.monitored.metrics.after a.process.worker p.worker
        (finish - start) } := by
  obtain ⟨m, scall, wcall, mcall⟩ := a
  obtain rfl : wcall = .none := hcall
  let a : State PoolSize := ⟨m, scall, .none, mcall⟩
  rw [Follows, seen_shown]
  cases hstep with
  | queueEmpty hpc | dequeue _ hpc | returnRejected hpc | returnProcessed hpc =>
      rw [show m.process.worker = _ from hpc] at hown
      cases hown
  | testRunning hpc hrun =>
      refine ⟨q, k, l, waiting, h.moveWorker rfl (by rw [hpc]; rfl) _ _ _, .inl ?_⟩
      exact MonitoredStep.worker (m := a.atomic q k) start finish hduty
        (System.WorkerStep.testRunning (s := (a.atomic q k).process) hpc hrun)
  | exit hpc hstop =>
      refine ⟨q, k, l, waiting, h.moveWorker rfl (by rw [hpc]; rfl) _ _ _, .inl ?_⟩
      exact MonitoredStep.worker (m := a.atomic q k) start finish hduty
        (System.WorkerStep.exit (s := (a.atomic q k).process) hpc hstop)
  | @rejectInvalid msg_buf hpc hvalid =>
      have hbuffer := h.buffer_of_worker rfl (show m.process.worker.held = [msg_buf] by
        rw [show m.process.worker = _ from hpc]
        rfl)
      refine ⟨q, k, l, waiting, h.moveWorker rfl (by rw [hpc]; rfl) _ _ _, .inl ?_⟩
      rw [← hbuffer] at hvalid
      exact MonitoredStep.worker (m := a.atomic q k) start finish hduty
        (System.WorkerStep.rejectInvalid (s := (a.atomic q k).process) hpc hvalid)
  | @rejectDuplicate msg_buf seen hpc hvalid hdup =>
      have hbuffer := h.buffer_of_worker rfl (show m.process.worker.held = [msg_buf] by
        rw [show m.process.worker = _ from hpc]
        rfl)
      refine ⟨q, k, l, waiting, h.moveWorker rfl (by rw [hpc]; rfl) _ _ _, .inl ?_⟩
      rw [← hbuffer] at hvalid hdup
      exact MonitoredStep.worker (m := a.atomic q k) start finish hduty
        (System.WorkerStep.rejectDuplicate (s := (a.atomic q k).process) hpc hvalid hdup)
  | @process msg_buf seen hpc hvalid hdup =>
      have hbuffer := h.buffer_of_worker rfl (show m.process.worker.held = [msg_buf] by
        rw [show m.process.worker = _ from hpc]
        rfl)
      refine ⟨q, k, l, waiting, h.moveWorker rfl (by rw [hpc]; rfl) _ _ _, .inl ?_⟩
      rw [← hbuffer] at hvalid hdup
      exact MonitoredStep.worker (m := a.atomic q k) start finish hduty
        (System.WorkerStep.process (s := (a.atomic q k).process) hpc hvalid hdup)
  | countProcessed hpc =>
      refine ⟨q, k, l, waiting, h.moveWorker rfl (by rw [hpc]; rfl) _ _ _, .inl ?_⟩
      exact MonitoredStep.worker (m := a.atomic q k) start finish hduty
        (System.WorkerStep.countProcessed (s := (a.atomic q k).process) hpc)

theorem Linearized.callSize (h : Linearized N M a q k l waiting) (hcall : a.workerCall = .none)
    (hduty : a.monitored.duty = .sampleQueueDepth) :
    Follows N M config a q k [] { a with workerCall := .size .idle } := by
  obtain ⟨m, scall, wcall, mcall⟩ := a
  obtain rfl : wcall = .none := hcall
  exact ⟨q, k, l, waiting, ⟨h.sound, h.queue, h.stats_queue, h.subscriber, hduty, h.duty⟩,
    .inr ⟨rfl, rfl⟩⟩

theorem Linearized.sizeAccess (h : Linearized N M a q k l waiting)
    {pc pc' : ConsumerPc (Option (Fin PoolSize))} (hcall : a.workerCall = .size pc)
    (hstep : SizeStep (pointerQueue N PoolSize) a.process.queue pc [] pc') :
    Follows N M config a q k [] { a with workerCall := .size pc' } := by
  obtain ⟨m, scall, wcall, mcall⟩ := a
  obtain rfl : wcall = .size pc := hcall
  have hqueue := h.queue.silent (hstep.step scall.producer)
  exact ⟨q, k, l, waiting, ⟨h.sound, hqueue, h.stats_queue, h.subscriber, h.worker, h.duty⟩,
    .inr ⟨rfl, rfl⟩⟩

theorem Linearized.sampleQueueDepth (h : Linearized N M a q k l waiting)
    {pc pc' : ConsumerPc (Option (Fin PoolSize))} {queue_depth : Nat}
    (hcall : a.workerCall = .size pc)
    (hstep : SizeStep (pointerQueue N PoolSize) a.process.queue pc [.size queue_depth] pc') :
    Follows N M config a q k [.monitored (.queueDepth queue_depth)] { a with
      monitored.duty := .none
      monitored.metrics := { a.monitored.metrics with
        total_queue_depth_ := a.monitored.metrics.total_queue_depth_ + .ofNat queue_depth
        queue_depth_samples_ := a.monitored.metrics.queue_depth_samples_ + 1 }
      workerCall := .none } := by
  obtain ⟨m, scall, wcall, mcall⟩ := a
  obtain rfl : wcall = .size pc := hcall
  let a : State PoolSize := ⟨m, scall, .size pc, mcall⟩
  obtain rfl : pc' = .idle := by
    cases hstep with
    | loadTail => rfl
  obtain ⟨rfl, hqueue⟩ := h.queue.size (hstep.step scall.producer)
  refine ⟨q, k, l, waiting, ⟨h.sound, hqueue, h.stats_queue, h.subscriber, trivial, .inl rfl⟩,
    .inl ?_⟩
  exact MonitoredStep.sampleQueueDepth (m := a.atomic q k) h.worker

theorem Linearized.callDequeue (h : Linearized N M a q k l waiting) (hcall : a.workerCall = .none)
    (hduty : a.monitored.duty = .none) (hpc : a.process.worker = .polling) :
    Follows N M config a q k [] { a with workerCall := .dequeue .idle } := by
  obtain ⟨m, scall, wcall, mcall⟩ := a
  obtain rfl : wcall = .none := hcall
  exact ⟨q, k, l, waiting, ⟨h.sound, h.queue, h.stats_queue, h.subscriber, ⟨hpc, hduty⟩, h.duty⟩,
    .inr ⟨rfl, rfl⟩⟩

theorem Linearized.dequeueAccess (h : Linearized N M a q k l waiting)
    {pc pc' : ConsumerPc (Option (Fin PoolSize))} {q' : RingQueue (Option (Fin PoolSize))}
    (hcall : a.workerCall = .dequeue pc)
    (hstep : DequeueStep (pointerQueue N PoolSize) a.process.queue pc [] q' pc') :
    Follows N M config a q k [] { a with
      monitored.process.queue := q'
      workerCall := .dequeue pc' } := by
  obtain ⟨m, scall, wcall, mcall⟩ := a
  obtain rfl : wcall = .dequeue pc := hcall
  have hqueue := h.queue.silent (hstep.step scall.producer)
  exact ⟨q, k, l, waiting, ⟨h.sound, hqueue, h.stats_queue, h.subscriber, h.worker, h.duty⟩,
    .inr ⟨rfl, rfl⟩⟩

theorem Linearized.queueEmpty (h : Linearized N M a q k l waiting)
    {pc pc' : ConsumerPc (Option (Fin PoolSize))} {q' : RingQueue (Option (Fin PoolSize))}
    (hcall : a.workerCall = .dequeue pc)
    (hstep : DequeueStep (pointerQueue N PoolSize) a.process.queue pc [.empty] q' pc') :
    Follows N M config a q k [] { a with
      monitored.process.queue := q'
      monitored.process.worker := .testing
      monitored.metrics := a.monitored.metrics.after a.process.worker .testing 0
      workerCall := .none } := by
  obtain ⟨⟨⟨_, _, _, _, _, _, worker, _, _, _, _, _⟩, duty, _, _, _, _, _, _⟩, scall, wcall,
    mcall⟩ := a
  obtain rfl : wcall = .dequeue pc := hcall
  obtain ⟨rfl, rfl⟩ : worker = .polling ∧ duty = .none := h.worker
  obtain rfl : pc' = .idle := by
    cases hstep with
    | loadTailEmpty => rfl
  obtain ⟨hempty, hqueue⟩ := h.queue.empty (hstep.step scall.producer)
  refine ⟨q, k, l, waiting, ⟨h.sound, hqueue, h.stats_queue, h.subscriber, trivial, .inl rfl⟩,
    .inl ?_⟩
  exact MonitoredStep.worker (m := State.atomic _ q k) 0 0 rfl
    (System.WorkerStep.queueEmpty (s := (State.atomic _ q k).process) rfl hempty)

/-- The buffer is with the worker when `head_` has been stored. -/
theorem Linearized.dequeue (h : Linearized N M a q k l waiting)
    {pc pc' : ConsumerPc (Option (Fin PoolSize))} {msg_buf : Fin PoolSize}
    {q' : RingQueue (Option (Fin PoolSize))} (now : Int64) (hcall : a.workerCall = .dequeue pc)
    (hstep : DequeueStep (pointerQueue N PoolSize) a.process.queue pc [.deq (some msg_buf)]
      q' pc') :
    Follows N M config a q k
      (shown [.dequeued msg_buf (a.process.pool.buffers_ msg_buf).header.sequence_number
        (a.process.pool.buffers_ msg_buf).payloadBytes]) { a with
      monitored.process.pool := a.process.pool.write msg_buf
        { a.process.pool.buffers_ msg_buf with worker_dequeue_time_ns := now }
      monitored.process.queue := q'
      monitored.process.worker := .dequeued msg_buf
      workerCall := .none } := by
  obtain ⟨⟨⟨pool, queue, tracking, fastPath, running, seen, worker, worker_running, checkpoint,
    main, stats, origin⟩, duty, metrics, stats_queue, monitorPc, monitor, monitoring, joined⟩,
    scall, wcall, mcall⟩ := a
  obtain rfl : wcall = .dequeue pc := hcall
  obtain ⟨rfl, rfl⟩ : worker = .polling ∧ duty = .none := h.worker
  obtain rfl : pc' = .idle := by
    cases hstep with
    | storeHead | storeHeadCleared => rfl
  obtain ⟨l', hl, hsome, hqueue⟩ := h.queue.deq (hstep.step scall.producer)
  obtain ⟨msg_buf', l, rfl, hbuf, rfl⟩ := List.map_eq_cons_iff.mp hl
  obtain rfl : msg_buf' = msg_buf := Option.some.inj hbuf
  let a : State PoolSize := ⟨⟨⟨pool, queue, tracking, fastPath, running, seen, .polling,
    worker_running, checkpoint, main, stats, origin⟩, .none, metrics, stats_queue, monitorPc,
    monitor, monitoring, joined⟩, scall, .dequeue pc, mcall⟩
  let stamped : MessageBuffer := { pool.buffers_ msg_buf' with worker_dequeue_time_ns := now }
  have howned : msg_buf' ∈ (a.poolState (msg_buf' :: l)).owned := by
    simp [BufferPool.State.owned, State.poolState]
  have hbuffer : (a.atomic q k).process.pool.buffers_ msg_buf' = pool.buffers_ msg_buf' :=
    h.sound.contents_owned howned
  have htaken : Sound { a.poolState (msg_buf' :: l) with
      queued := l
      worker_buf := some msg_buf' } := h.sound.step (.dequeue rfl rfl rfl) slotOrder_nil
  have hsound := htaken.write (b := msg_buf') (m := stamped) rfl
  let b : State PoolSize := { a with
    monitored.process.pool := pool.write msg_buf' stamped
    monitored.process.queue := q'
    monitored.process.worker := .dequeued msg_buf'
    workerCall := .none }
  have hpool : (b.poolState []).atomic = (a.poolState []).atomic.write msg_buf' stamped :=
    atomic_write h.sound howned stamped
  have hdequeued : MonitoredStep N M config (a.atomic q k) _ _ := .worker 0 0 rfl
    (System.WorkerStep.dequeue (s := (a.atomic q k).process) now rfl (Prod.ext hsome rfl))
  rw [hbuffer] at hdequeued
  refine ⟨_, k, l, waiting, ⟨hsound, hqueue, h.stats_queue, h.subscriber, trivial, .inl rfl⟩,
    .inl ?_⟩
  rw [seen_shown, atomic_eq (b := b) hpool]
  exact hdequeued

theorem processed_of_duty {pc : WorkerPc PoolSize} {msg_buf : Fin PoolSize}
    (h : pc.duty = .sendToMonitoring msg_buf) : pc = .processed msg_buf := by
  cases pc with
  | processed b =>
      cases h
      rfl
  | _ => cases h

theorem Linearized.callSend (h : Linearized N M a q k l waiting) {msg_buf : Fin PoolSize}
    (hcall : a.workerCall = .none) (hduty : a.monitored.duty = .sendToMonitoring msg_buf) :
    Follows N M config a q k [] { a with
      workerCall :=
        .send (MessageWorker.monitoringStats (a.process.pool.buffers_ msg_buf)) .idle } := by
  have hpc : a.process.worker = .processed msg_buf := by
    rcases h.duty with hnone | hplace
    · rw [hnone] at hduty
      cases hduty
    · exact processed_of_duty (hplace.symm.trans hduty)
  obtain ⟨m, scall, wcall, mcall⟩ := a
  obtain rfl : wcall = .none := hcall
  exact ⟨q, k, l, waiting, ⟨h.sound, h.queue, h.stats_queue, h.subscriber,
    ⟨msg_buf, hpc, hduty, rfl⟩, h.duty⟩, .inr ⟨rfl, rfl⟩⟩

theorem Linearized.sendAccess (h : Linearized N M a q k l waiting) {stats : MonitoringStats}
    {pc pc' : ProducerPc MonitoringStats} {k' : RingQueue MonitoringStats}
    (hcall : a.workerCall = .send stats pc)
    (hstep : EnqueueStep (spscQueue M MonitoringStats) stats a.monitored.stats_queue pc [] k' pc') :
    Follows N M config a q k [] { a with
      monitored.stats_queue := k'
      workerCall := .send stats pc' } := by
  obtain ⟨m, scall, wcall, mcall⟩ := a
  obtain rfl : wcall = .send stats pc := hcall
  have hqueue := h.stats_queue.silent (hstep.step mcall)
  exact ⟨q, k, l, waiting, ⟨h.sound, h.queue, hqueue, h.subscriber, h.worker, h.duty⟩,
    .inr ⟨rfl, rfl⟩⟩

/-- What the worker sends is what is in its buffer when every call is made in one step. -/
theorem Linearized.stats_eq (h : Linearized N M a q k l waiting) {stats : MonitoringStats}
    {pc : ProducerPc MonitoringStats} (hcall : a.workerCall = .send stats pc) :
    ∃ b, a.process.worker = .processed b ∧ a.monitored.duty = .sendToMonitoring b ∧
      MessageWorker.monitoringStats ((a.atomic q k).process.pool.buffers_ b) = stats := by
  have hat := h.worker
  rw [hcall] at hat
  obtain ⟨b, hpc, hduty, hstats⟩ := hat
  refine ⟨b, hpc, hduty, ?_⟩
  rw [hstats]
  exact congrArg MessageWorker.monitoringStats
    (h.sound.contents_owned (a.owned_of_send hcall hpc))

theorem Linearized.send (h : Linearized N M a q k l waiting) {stats : MonitoringStats}
    {pc pc' : ProducerPc MonitoringStats} {k' : RingQueue MonitoringStats}
    (hcall : a.workerCall = .send stats pc)
    (hstep : EnqueueStep (spscQueue M MonitoringStats) stats a.monitored.stats_queue pc
      [.enq stats] k' pc') :
    Follows N M config a q k [.monitored (.sent stats)] { a with
      monitored.duty := .none
      monitored.stats_queue := k'
      workerCall := .none } := by
  obtain ⟨b, hpc, hduty, hstats⟩ := h.stats_eq hcall
  obtain ⟨m, scall, wcall, mcall⟩ := a
  obtain rfl : wcall = .send stats pc := hcall
  let a : State PoolSize := ⟨m, scall, .send stats pc, mcall⟩
  obtain rfl : pc' = .idle := by
    cases hstep with
    | storeTail => rfl
  obtain ⟨hok, hqueue⟩ := h.stats_queue.enq (hstep.step mcall)
  have hsound : Sound { a.poolState l with worker_buf := m.process.worker.held.head? } := h.sound
  have hsend : MonitoredStep N M config (a.atomic q k) _ _ :=
    .send hduty (Prod.ext (by rw [hstats]; exact hok) rfl)
  rw [hstats] at hsend
  exact ⟨q, _, l, _, ⟨hsound, h.queue, hqueue, h.subscriber, trivial, .inl rfl⟩, .inl hsend⟩

theorem Linearized.skip (h : Linearized N M a q k l waiting) {stats : MonitoringStats}
    {pc pc' : ProducerPc MonitoringStats} {k' : RingQueue MonitoringStats}
    (hcall : a.workerCall = .send stats pc)
    (hstep : EnqueueStep (spscQueue M MonitoringStats) stats a.monitored.stats_queue pc
      [.full] k' pc') :
    Follows N M config a q k [.monitored (.skipped stats)] { a with
      monitored.duty := .none
      monitored.stats_queue := k'
      workerCall := .none } := by
  obtain ⟨b, hpc, hduty, hstats⟩ := h.stats_eq hcall
  obtain ⟨m, scall, wcall, mcall⟩ := a
  obtain rfl : wcall = .send stats pc := hcall
  let a : State PoolSize := ⟨m, scall, .send stats pc, mcall⟩
  obtain rfl : pc' = .idle := by
    cases hstep with
    | loadHeadFull => rfl
  obtain ⟨hfull, hqueue⟩ := h.stats_queue.full (hstep.step mcall)
  have hrefused : RingQueue.enqueue (spscQueue M MonitoringStats) k stats = (false, k) := by
    have hitem : (spscQueue M MonitoringStats).refuses stats = false := rfl
    obtain ⟨hroom, -⟩ | ⟨-, hno⟩ :=
      enqueue_spec (spscQueue M MonitoringStats) h.stats_queue.stores hitem
    · omega
    · exact hno
  have hskip : MonitoredStep N M config (a.atomic q k) _ _ :=
    .skip hduty (by rw [hstats]; exact hrefused)
  rw [hstats] at hskip
  exact ⟨q, k, l, waiting, ⟨h.sound, h.queue, hqueue, h.subscriber, trivial, .inl rfl⟩,
    .inl hskip⟩

theorem Linearized.release (h : Linearized N M a q k l waiting) {msg_buf : Fin PoolSize}
    (hcall : a.workerCall = .none) (hduty : a.monitored.duty = .none)
    (hpc : a.process.worker = .rejected msg_buf ∨ a.process.worker = .processed msg_buf) :
    Follows N M config a q k [] { a with
      monitored.process.pool := a.process.pool.storeInUse msg_buf false
      workerCall := .deallocate (.marked msg_buf) } := by
  obtain ⟨m, scall, wcall, mcall⟩ := a
  obtain rfl : wcall = .none := hcall
  let a : State PoolSize := ⟨m, scall, .none, mcall⟩
  let b : State PoolSize := { a with
    monitored.process.pool := a.process.pool.storeInUse msg_buf false
    workerCall := .deallocate (.marked msg_buf) }
  have hbuf : (a.poolState l).worker_buf = some msg_buf := by
    show m.process.worker.held.head? = _
    rcases hpc with hpc | hpc <;> rw [show m.process.worker = _ from hpc] <;> rfl
  have hsound : Sound (b.poolState l) := h.sound.step (.release hbuf rfl) slotOrder_nil
  have hpool : (b.poolState []).atomic = (a.poolState []).atomic :=
    atomic_release h.sound hbuf rfl
  refine ⟨q, k, l, waiting, ⟨hsound, h.queue, h.stats_queue, h.subscriber,
    ⟨msg_buf, hpc, hduty, by simp⟩, h.duty⟩, .inr ⟨rfl, ?_⟩⟩
  show b.atomic q k = a.atomic q k
  rw [State.atomic, State.atomic, hpool]
  rfl

/-- The worker's claim is the whole call of `deallocate`. -/
theorem returned_step {m : Monitored PoolSize} {c : Fin PoolSize}
    (hroom : m.process.pool.free_count_ < PoolSize) (hduty : m.duty = .none)
    (hpc : m.process.worker = .rejected c ∨ m.process.worker = .processed c) :
    MonitoredStep N M config m [] { m with process := { m.process with
      pool := m.process.pool.deallocate (.buffer c)
      worker := HandOff.afterReturn m.process.worker } } := by
  obtain ⟨⟨pool, queue, tracking, fastPath, running, seen, worker, worker_running, checkpoint, main,
    stats, origin⟩, duty, metrics, stats_queue, monitorPc, monitor, monitoring, joined⟩ := m
  obtain rfl : duty = .none := hduty
  have hnone : overflow pool = [] := if_pos hroom
  rcases hpc with hpc | hpc
  · obtain rfl : worker = .rejected c := hpc
    have hstep : MonitoredStep N M config ⟨⟨pool, queue, tracking, fastPath, running, seen,
      .rejected c, worker_running, checkpoint, main, stats, origin⟩, .none, metrics, stats_queue,
      monitorPc, monitor, monitoring, joined⟩ _ _ := .worker 0 0 rfl (.returnRejected rfl)
    rw [hnone] at hstep
    exact hstep
  · obtain rfl : worker = .processed c := hpc
    have hstep : MonitoredStep N M config ⟨⟨pool, queue, tracking, fastPath, running, seen,
      .processed c, worker_running, checkpoint, main, stats, origin⟩, .none, metrics, stats_queue,
      monitorPc, monitor, monitoring, joined⟩ _ _ := .worker 0 0 rfl (.returnProcessed rfl)
    rw [hnone] at hstep
    exact hstep

theorem Linearized.workerDeallocate (h : Linearized N M a q k l waiting)
    {pc pc' : DeallocatePc PoolSize} {written : Option Nat} {p : BufferPool PoolSize}
    (hcall : a.workerCall = .deallocate pc)
    (hstep : DeallocateStep a.process.pool pc written p pc')
    (horder : ∀ slot ∈ written, ¬ (a.subscriberCall.allocating = .claimed slot ∧
      a.process.pool.free_count_ = slot + 1)) :
    Follows N M config a q k
      (written.toList.map .wroteSlot ++ shown (HandOff.returnEvents written pc')) { a with
      monitored.process.pool := p
      workerCall := .deallocate pc' } := by
  obtain ⟨m, scall, wcall, mcall⟩ := a
  obtain rfl : wcall = .deallocate pc := hcall
  let a : State PoolSize := ⟨m, scall, .deallocate pc, mcall⟩
  let b : State PoolSize := { a with
    monitored.process.pool := p
    workerCall := .deallocate pc' }
  obtain ⟨msg_buf, hpc, hduty, hheld⟩ := h.worker
  have hsound : Sound (b.poolState l) := by
    refine h.sound.step (.returning hstep) ⟨fun i hi => ?_, fun i hi => ?_⟩
    · obtain ⟨j, -, hj⟩ := List.mem_map.mp hi
      cases hj
    · obtain ⟨j, hj, hij⟩ := List.mem_map.mp hi
      cases hij
      exact horder i (Option.mem_toList.mp hj)
  have hevents : seen (written.toList.map Event.wroteSlot ++
      shown (HandOff.returnEvents written pc') : List (Event PoolSize)) = [] := by
    rw [returnEvents_eq_nil hstep fun b count hloaded => h.sound.loaded b count (.inr hloaded)]
    refine List.filterMap_eq_nil_iff.mpr fun x hx => ?_
    obtain ⟨j, -, rfl⟩ := List.mem_map.mp (List.append_nil _ ▸ hx)
    rfl
  have hfast : b.fastPath = a.fastPath :=
    fastPath_congr rfl rfl (reserved_returning h.sound.toInv hstep horder)
  rw [Follows, hevents]
  obtain ⟨hsame, hpool⟩ | ⟨c, hc, hnil, hpool⟩ := atomic_returning h.sound hstep horder
  · refine ⟨q, k, l, waiting, ⟨hsound, h.queue, h.stats_queue, h.subscriber,
      ⟨msg_buf, hpc, hduty, ?_⟩, h.duty⟩, .inr ⟨rfl, ?_⟩⟩
    · rw [hsame]
      exact hheld
    · have hplace : b.worker = a.worker :=
        congrArg (afterDeallocate m.process.worker (HandOff.afterReturn m.process.worker)) hsame
      show b.atomic q k = a.atomic q k
      rw [atomic_eq hpool, hplace, hfast]
      rfl
  · refine ⟨q, k, l, waiting, ⟨hsound, h.queue, h.stats_queue, h.subscriber,
      ⟨msg_buf, hpc, hduty, ?_⟩, h.duty⟩, .inl ?_⟩
    · rw [hnil]
      exact fun _ hmem => absurd hmem List.not_mem_nil
    · have hmem : c ∈ (a.poolState l).returning.held := hc ▸ List.mem_singleton_self c
      obtain rfl : c = msg_buf := hheld c hmem
      have hroom : (a.atomic q k).process.pool.free_count_ < PoolSize :=
        Inv.count_lt (s := a.poolState l) h.sound.toInv (List.mem_append_right _ hmem)
      have hplace : (a.atomic q k).process.worker = m.process.worker :=
        congrArg (afterDeallocate m.process.worker (HandOff.afterReturn m.process.worker)) hc
      have hplace' : b.worker = HandOff.afterReturn m.process.worker :=
        congrArg (afterDeallocate m.process.worker (HandOff.afterReturn m.process.worker)) hnil
      have hpool' : (b.poolState []).atomic = (a.poolState []).atomic.deallocate (.buffer c) :=
        hpool
      have hstep : MonitoredStep N M config (a.atomic q k) _ _ :=
        returned_step hroom hduty (by rw [hplace]; exact hpc)
      rw [hplace] at hstep
      rw [atomic_eq hpool', hplace', hfast]
      exact hstep

theorem Linearized.returned (h : Linearized N M a q k l waiting)
    (hcall : a.workerCall = .deallocate .idle) :
    Follows N M config a q k [] { a with
      monitored.process.worker := HandOff.afterReturn a.process.worker
      workerCall := .none } := by
  obtain ⟨⟨⟨_, _, _, _, _, _, worker, _, _, _, _, _⟩, _, _, _, _, _, _, _⟩, scall, wcall,
    mcall⟩ := a
  obtain rfl : wcall = .deallocate .idle := hcall
  obtain ⟨msg_buf, hpc, hduty, -⟩ := h.worker
  refine ⟨q, k, l, waiting, ⟨?_, h.queue, h.stats_queue, h.subscriber, trivial, .inl hduty⟩,
    .inr ⟨rfl, rfl⟩⟩
  rcases hpc with hpc | hpc
  · obtain rfl : worker = .rejected msg_buf := hpc
    exact h.sound
  · obtain rfl : worker = .processed msg_buf := hpc
    exact h.sound

/-! ## The other threads -/

theorem Linearized.monitorStep (h : Linearized N M a q k l waiting) {e : List (Event PoolSize)}
    (hstep : MonitorStep M a e b) : Follows N M config a q k e b := by
  have hat := h.worker
  cases hstep with
  | testRunning hpc hrun =>
      refine ⟨q, k, l, waiting, ⟨h.sound, h.queue, h.stats_queue, h.subscriber, hat, h.duty⟩,
        .inl ?_⟩
      exact MonitoredStep.testMonitoring (m := a.atomic q k) hpc hrun
  | exit hpc hstop =>
      refine ⟨q, k, l, waiting, ⟨h.sound, h.queue, h.stats_queue, h.subscriber, hat, h.duty⟩,
        .inl ?_⟩
      exact MonitoredStep.exitMonitoring (m := a.atomic q k) hpc hstop
  | dequeueAccess hpc hdeq =>
      have hqueue := h.stats_queue.silent (hdeq.step a.workerCall.producer)
      exact ⟨q, k, l, waiting, ⟨h.sound, h.queue, hqueue, h.subscriber, hat, h.duty⟩,
        .inr ⟨rfl, rfl⟩⟩
  | queueEmpty hpc hdeq =>
      obtain ⟨hempty, hqueue⟩ := h.stats_queue.empty (hdeq.step a.workerCall.producer)
      refine ⟨q, k, l, waiting, ⟨h.sound, h.queue, hqueue, h.subscriber, hat, h.duty⟩, .inl ?_⟩
      exact MonitoredStep.statsQueueEmpty (m := a.atomic q k) hpc hempty
  | observe hpc hdeq =>
      obtain ⟨rest, -, hsome, hqueue⟩ := h.stats_queue.deq (hdeq.step a.workerCall.producer)
      refine ⟨q, _, l, rest, ⟨h.sound, h.queue, hqueue, h.subscriber, hat, h.duty⟩, .inl ?_⟩
      exact MonitoredStep.observe (m := a.atomic q k) hpc (Prod.ext hsome rfl)

/-- A thread that has exited is in no call. -/
theorem Linearized.exited (h : Linearized N M a q k l waiting) :
    (a.process.fastPath = .exited → a.fastPath = .exited) ∧
      (a.process.worker = .exited → a.worker = .exited) := by
  constructor
  · intro hpc
    have hat := h.subscriber
    unfold State.fastPath
    cases hcall : a.subscriberCall with
    | none | enqueue => exact hpc
    | allocate =>
        rw [hcall] at hat
        cases hpc.symm.trans hat
    | deallocate =>
        rw [hcall] at hat
        obtain ⟨f, msg_buf, hpc', -⟩ := hat
        cases hpc.symm.trans hpc'
  · intro hpc
    have hat := h.worker
    unfold State.worker
    cases hcall : a.workerCall with
    | none | size | dequeue | send => exact hpc
    | deallocate =>
        rw [hcall] at hat
        obtain ⟨msg_buf, hpc' | hpc', -⟩ := hat <;> cases hpc.symm.trans hpc'

theorem Linearized.mainStep (h : Linearized N M a q k l waiting)
    {e : List (System.Event PoolSize)} {p : System.State PoolSize}
    (hstep : MainStep a.process e p) :
    Follows N M config a q k (shown e) { a with monitored.process := p } := by
  have hat := h.worker
  rw [Follows, seen_shown]
  refine ⟨q, k, l, waiting, ?_, .inl ?_⟩
  · cases hstep <;>
      exact ⟨h.sound, h.queue, h.stats_queue, h.subscriber, hat, h.duty⟩
  · cases hstep with
    | shutdownSubscriber hpc =>
        exact MonitoredStep.main (m := a.atomic q k)
          (MainStep.shutdownSubscriber (s := (a.atomic q k).process) hpc)
    | joinSubscriber hpc hexit =>
        exact MonitoredStep.main (m := a.atomic q k)
          (MainStep.joinSubscriber (s := (a.atomic q k).process) hpc (h.exited.1 hexit))
    | stopWorker hpc =>
        exact MonitoredStep.main (m := a.atomic q k)
          (MainStep.stopWorker (s := (a.atomic q k).process) hpc)
    | joinWorker hpc hexit =>
        exact MonitoredStep.main (m := a.atomic q k)
          (MainStep.joinWorker (s := (a.atomic q k).process) hpc (h.exited.2 hexit))

/-! ## The simulation -/

/-- The state `m` is what the state `a` stands for. -/
def StandsFor (N M : Ring.Size) (a : State PoolSize) (m : Monitored PoolSize) : Prop :=
  ∃ q k l waiting, m = a.atomic q k ∧ Linearized N M a q k l waiting

/-- One access. -/
theorem Linearized.step (h : Linearized N M a q k l waiting) (hsize : PoolSize < N.val)
    {e : List (Event PoolSize)} (hstep : Step N M config a e b) (horder : SlotOrder a e) :
    Follows N M config a q k e b := by
  cases hstep with
  | subscriber hstep =>
      cases hstep with
      | poll f recv hcall hpc => exact h.poll f recv hcall hpc
      | load hcall hpc _ => exact h.load hcall hpc
      | exhausted hcall hpc hcount => exact h.exhausted hcall hpc hcount
      | compareExchange hcall heq => exact h.compareExchange hcall heq
      | readSlot hcall => exact h.readSlot hcall horder
      | markInUse hcall => exact h.markInUse hcall
      | onItsOwn hcall hstep hown => exact h.fastPathStep hcall hstep hown
      | callEnqueue hcall hpc => exact h.callEnqueue hcall hpc
      | enqueueAccess hcall _ hstep => exact h.enqueueAccess hcall hstep
      | enqueue hcall hpc hstep => exact h.enqueue hcall hpc hstep
      | enqueueFails hcall hpc hstep => exact absurd hstep (h.enqueue_not_full hsize hcall hpc)
      | drop hcall hpc => exact h.drop hcall hpc
      | deallocate hcall hstep => exact h.deallocate hcall hstep
      | dropped hcall => exact h.dropped hcall
  | worker hstep =>
      cases hstep with
      | onItsOwn start finish hcall hduty hstep hown =>
          exact h.workerStep start finish hcall hduty hstep hown
      | callSize hcall hduty => exact h.callSize hcall hduty
      | sizeAccess hcall hstep => exact h.sizeAccess hcall hstep
      | sampleQueueDepth hcall hstep => exact h.sampleQueueDepth hcall hstep
      | callDequeue hcall hduty hpc => exact h.callDequeue hcall hduty hpc
      | dequeueAccess hcall hstep => exact h.dequeueAccess hcall hstep
      | queueEmpty hcall hstep => exact h.queueEmpty hcall hstep
      | dequeue now hcall hstep => exact h.dequeue now hcall hstep
      | callSend hcall hduty => exact h.callSend hcall hduty
      | sendAccess hcall hstep => exact h.sendAccess hcall hstep
      | send hcall hstep => exact h.send hcall hstep
      | skip hcall hstep => exact h.skip hcall hstep
      | release hcall hduty hpc => exact h.release hcall hduty hpc
      | deallocate hcall hstep =>
          refine h.workerDeallocate hcall hstep fun slot hslot => horder.2 slot ?_
          exact List.mem_append_left _
            (List.mem_map_of_mem (Option.mem_toList.mpr hslot))
      | returned hcall => exact h.returned hcall
  | monitor hstep => exact h.monitorStep hstep
  | main hstep => exact h.mainStep hstep
  | stopMonitoring hmain hrun =>
      refine ⟨q, k, l, waiting, ⟨h.sound, h.queue, h.stats_queue, h.subscriber, h.worker, h.duty⟩,
        .inl ?_⟩
      exact MonitoredStep.stopMonitoring (m := a.atomic q k) hmain hrun
  | joinMonitoring hstop hexit =>
      refine ⟨q, k, l, waiting, ⟨h.sound, h.queue, h.stats_queue, h.subscriber, h.worker, h.duty⟩,
        .inl ?_⟩
      exact MonitoredStep.joinMonitoring (m := a.atomic q k) hstop hexit
  | checkpoint haccess =>
      rw [Follows, seen_shown]
      refine ⟨q, k, l, waiting, ⟨h.sound, h.queue, h.stats_queue, h.subscriber, h.worker, h.duty⟩,
        .inl ?_⟩
      exact MonitoredStep.checkpoint (m := a.atomic q k) haccess

/-- **Between calls a state stands for itself.** -/
theorem Linearized.atomic_eq (h : Linearized N M a q k l waiting) (hq : a.Quiescent) :
    a.atomic q k = a.monitored := by
  obtain ⟨m, scall, wcall, mcall⟩ := a
  obtain ⟨rfl, rfl, rfl⟩ : scall = .none ∧ wcall = .none ∧ mcall = .idle :=
    ⟨hq.subscriber, hq.worker, hq.monitor⟩
  obtain rfl : q = m.process.queue := h.queue.eq_mem rfl rfl
  obtain rfl : k = m.stats_queue := h.stats_queue.eq_mem rfl rfl
  exact Accesses.atomic_eq (State.atomic_quiescent ⟨rfl, rfl, rfl⟩)

theorem StandsFor.eq_monitored {m : Monitored PoolSize} (h : StandsFor N M a m)
    (hq : a.Quiescent) : m = a.monitored := by
  obtain ⟨q, k, l, waiting, rfl, h⟩ := h
  exact h.atomic_eq hq

theorem standsFor_init (h : Initial config d₀ a) : StandsFor N M a a.monitored := by
  obtain ⟨m, scall, wcall, mcall⟩ := a
  obtain ⟨hm, rfl, rfl, rfl⟩ := h
  have hfast : m.process.fastPath = .idle := hm.process.fastPath
  have hworker : m.process.worker = .testing := hm.process.worker
  have hsound : Sound (State.poolState ⟨m, .none, .none, .idle⟩ []) := by
    refine sound_init ⟨hm.process.pool, rfl, rfl, rfl, ?_, rfl, ?_⟩
    · show m.process.fastPath.held.head? = none
      rw [hfast]
      rfl
    · show m.process.worker.held.head? = none
      rw [hworker]
      rfl
  have hqueue : Refined (pointerQueue N PoolSize) ⟨m.process.queue, .idle, .idle⟩
      m.process.queue [] :=
    refined_init ⟨hm.process.queue.1, hm.process.queue.2, rfl, rfl⟩
  have hstats : Refined (spscQueue M MonitoringStats) ⟨m.stats_queue, .idle, .idle⟩
      m.stats_queue [] := refined_init ⟨hm.stats_queue.1, hm.stats_queue.2, rfl, rfl⟩
  have hlinearized : Linearized N M ⟨m, .none, .none, .idle⟩ m.process.queue m.stats_queue
      [] [] := by
    refine ⟨hsound, hqueue, hstats, fun f b hpc => ?_, trivial, .inl hm.duty⟩
    rw [show State.process _ = m.process from rfl, hfast] at hpc
    cases hpc
  exact ⟨_, _, [], [], (hlinearized.atomic_eq ⟨rfl, rfl, rfl⟩).symm, hlinearized⟩

/-- **Under `SlotOrder` every call is as good as a single step.** -/
theorem ordered_simulates (hsize : PoolSize < N.val) :
    Simulation ((system PoolSize N M config d₀).only SlotOrder)
      (monitoredSystem PoolSize N M config d₀) Event.monitored? (StandsFor N M) where
  init a h := ⟨a.monitored, h.monitored, standsFor_init h⟩
  step := by
    rintro a m e b ⟨q, k, l, waiting, rfl, h⟩ ⟨hstep, horder⟩
    obtain ⟨q', k', l', waiting', h', hfollows⟩ := h.step hsize hstep horder
    exact ⟨b.atomic q' k', ⟨q', k', l', waiting', rfl, h'⟩, hfollows⟩

end Accesses

end AeronReplay.System
