import AeronReplay.Pool.Interleaving
import AeronReplay.System.Accounting

set_option autoImplicit false

/-! # Reading a buffer after it has been handed over

When the fast path has enqueued a buffer, it reads the sequence number from it once more, for the
checkpoint. By then the worker may have dequeued, processed and returned the buffer.

Here the worker accesses buffer and pool one access at a time (`WorkerStep`), where `Threads` has it
take a message, judge it or return it in one step; `run_of_system` says that nothing is lost by
that. No access of the worker writes a header (`WorkerStep.untouched`), and between the copy of a
message and the call of `update` the subscriber does not allocate, so that `update` gets what
belongs to the message just received (`update_gets_message`). None of this relies on who owns which
buffer. -/

namespace AeronReplay.System

open Transition CheckpointManager

namespace HandOff

variable {PoolSize : Nat} {N : Ring.Size} {config : Config} {d₀ : CheckpointData}

/-! ## The worker, access by access -/

/-- How far the worker is on the way from one place in its loop to the next. -/
inductive WorkerAccess (PoolSize : Nat) where
  | none
  /-- `dequeue` has returned the buffer. -/
  | taken (msg_buf : Fin PoolSize)
  | valid (msg_buf : Fin PoolSize)
  | new (msg_buf : Fin PoolSize)
  | returning (pc : BufferPool.DeallocatePc PoolSize)

/-- The process, and what the worker is about. -/
structure State (PoolSize : Nat) where
  process : System.State PoolSize
  access : WorkerAccess PoolSize

/-- Where the worker goes on after it has returned a buffer. -/
def afterReturn : WorkerPc PoolSize → WorkerPc PoolSize
  | .rejected _ => .testing
  | .processed _ => .counting
  | pc => pc

/-- `deallocate` has come to its end without writing an entry. -/
def returnEvents : Option Nat → BufferPool.DeallocatePc PoolSize → List (Event PoolSize)
  | .none, .idle => [.freeListOverflow]
  | _, _ => []

/-- One access of the worker thread. -/
inductive WorkerStep (N : Ring.Size) :
    State PoolSize → List (Event PoolSize) → State PoolSize → Prop
  -- the steps of the loop that have no buffer to do with
  | loop {s : State PoolSize} {e : List (Event PoolSize)} {p : System.State PoolSize}
      (ha : s.access = .none) (h : System.WorkerStep N s.process e p)
      (hbefore : s.process.worker.held = []) (hafter : p.worker.held = []) :
      WorkerStep N s e ⟨p, .none⟩
  | dequeue {s : State PoolSize} {buf : Fin PoolSize} {q : RingQueue (Option (Fin PoolSize))}
      (ha : s.access = .none) (hpc : s.process.worker = .polling)
      (hdeq : RingQueue.dequeue (pointerQueue N PoolSize) s.process.queue = (some (some buf), q)) :
      WorkerStep N s
        [.dequeued buf (s.process.pool.buffers_ buf).header.sequence_number
          (s.process.pool.buffers_ buf).payloadBytes]
        ⟨{ s.process with queue := q }, .taken buf⟩
  | stamp {s : State PoolSize} {buf : Fin PoolSize} (now : Int64) (ha : s.access = .taken buf) :
      WorkerStep N s []
        ⟨{ s.process with
            pool := s.process.pool.write buf
              { s.process.pool.buffers_ buf with worker_dequeue_time_ns := now }
            worker := .dequeued buf }, .none⟩
  | rejectInvalid {s : State PoolSize} {buf : Fin PoolSize} (ha : s.access = .none)
      (hpc : s.process.worker = .dequeued buf)
      (hvalid : MessageWorker.validateMessage (some (s.process.pool.buffers_ buf)) = false) :
      WorkerStep N s [.invalid (s.process.origin buf)]
        ⟨{ s.process with
            worker := .rejected buf
            stats := { s.process.stats with
              messages_invalid_ := s.process.stats.messages_invalid_ + 1 } }, .none⟩
  | validate {s : State PoolSize} {buf : Fin PoolSize} (ha : s.access = .none)
      (hpc : s.process.worker = .dequeued buf)
      (hvalid : MessageWorker.validateMessage (some (s.process.pool.buffers_ buf)) = true) :
      WorkerStep N s [] ⟨s.process, .valid buf⟩
  | rejectDuplicate {s : State PoolSize} {buf : Fin PoolSize} {seen : Finset UInt64}
      (ha : s.access = .valid buf)
      (hdup : MessageWorker.checkDuplicate s.process.seen_sequences_ (s.process.pool.buffers_ buf)
        = (true, seen)) :
      WorkerStep N s [.workerDuplicate (s.process.origin buf)]
        ⟨{ s.process with
            worker := .rejected buf
            seen_sequences_ := seen
            stats := { s.process.stats with
              messages_duplicate_ := s.process.stats.messages_duplicate_ + 1 } }, .none⟩
  | checkDuplicate {s : State PoolSize} {buf : Fin PoolSize} {seen : Finset UInt64}
      (ha : s.access = .valid buf)
      (hdup : MessageWorker.checkDuplicate s.process.seen_sequences_ (s.process.pool.buffers_ buf)
        = (false, seen)) :
      WorkerStep N s [] ⟨{ s.process with seen_sequences_ := seen }, .new buf⟩
  -- the handler gets a pointer to a constant buffer
  | process {s : State PoolSize} {buf : Fin PoolSize} (ha : s.access = .new buf) :
      WorkerStep N s [.processed (s.process.origin buf)]
        ⟨{ s.process with worker := .processed buf }, .none⟩
  | release {s : State PoolSize} {buf : Fin PoolSize} (ha : s.access = .none)
      (hpc : s.process.worker = .rejected buf ∨ s.process.worker = .processed buf) :
      WorkerStep N s []
        ⟨{ s.process with pool := s.process.pool.storeInUse buf false }, .returning (.marked buf)⟩
  | returning {s : State PoolSize} {pc pc' : BufferPool.DeallocatePc PoolSize}
      {written : Option Nat} {p : BufferPool PoolSize} (ha : s.access = .returning pc)
      (h : BufferPool.DeallocateStep s.process.pool pc written p pc') :
      WorkerStep N s (returnEvents written pc') ⟨{ s.process with pool := p }, .returning pc'⟩
  | returned {s : State PoolSize} (ha : s.access = .returning .idle) :
      WorkerStep N s []
        ⟨{ s.process with worker := afterReturn s.process.worker }, .none⟩

/-- One step of one thread. -/
inductive Step (N : Ring.Size) (config : Config) :
    State PoolSize → List (Event PoolSize) → State PoolSize → Prop
  | subscriber {s : State PoolSize} {e : List (Event PoolSize)} {p : System.State PoolSize}
      (h : SubscriberStep N config s.process e p) : Step N config s e ⟨p, s.access⟩
  | worker {s t : State PoolSize} {e : List (Event PoolSize)} (h : WorkerStep N s e t) :
      Step N config s e t
  | main {s : State PoolSize} {e : List (Event PoolSize)} {p : System.State PoolSize}
      (h : MainStep s.process e p) : Step N config s e ⟨p, s.access⟩
  | checkpoint {s : State PoolSize} {e : List SnapshotEvent} {c : Snapshot}
      (h : Access s.process.checkpoint e c) :
      Step N config s (e.map .checkpoint) ⟨{ s.process with checkpoint := c }, s.access⟩

/-- The process with the accesses of the worker one by one. -/
def system (PoolSize : Nat) (N : Ring.Size) (config : Config) (d₀ : CheckpointData) :
    Lts (State PoolSize) (Event PoolSize) where
  Init s := Initial config d₀ s.process ∧ s.access = .none
  Step := Step N config

/-! ## Nothing is lost -/

/-- `deallocate`, access by access. -/
theorem steps_deallocate {p : System.State PoolSize} {buf : Fin PoolSize}
    (hpc : p.worker = .rejected buf ∨ p.worker = .processed buf) :
    Steps (system PoolSize N config d₀) ⟨p, .none⟩ (overflow p.pool)
      ⟨{ p with
          pool := p.pool.deallocate (.buffer buf)
          worker := afterReturn p.worker }, .none⟩ := by
  have h₀ : Steps (system PoolSize N config d₀) ⟨p, .none⟩ [] ⟨p, .none⟩ := .refl _
  have h₁ := h₀.tail (.worker (.release rfl hpc))
  have h₂ := h₁.tail (.worker (.returning rfl .load))
  by_cases hroom : p.pool.free_count_ < PoolSize
  · have h₃ := h₂.tail (.worker (.returning rfl (.compareExchange hroom rfl)))
    have h₄ := h₃.tail (.worker (.returning rfl .writeSlot))
    have h₅ := h₄.tail (.worker (.returned rfl))
    rw [overflow, if_pos hroom, BufferPool.deallocate_eq hroom]
    exact h₅
  · have h₃ := h₂.tail (.worker (.returning rfl (.overflow hroom)))
    have h₄ := h₃.tail (.worker (.returned rfl))
    have hdealloc : p.pool.deallocate (.buffer buf) = p.pool.storeInUse buf false := if_neg hroom
    rw [overflow, if_neg hroom, hdealloc]
    exact h₄

/-- A step of the worker in `Threads`, access by access. -/
theorem steps_worker {p q : System.State PoolSize} {e : List (Event PoolSize)}
    (h : System.WorkerStep N p e q) :
    Steps (system PoolSize N config d₀) ⟨p, .none⟩ e ⟨q, .none⟩ := by
  have h₀ : Steps (system PoolSize N config d₀) ⟨p, .none⟩ [] ⟨p, .none⟩ := .refl _
  cases h with
  | testRunning hpc hrun =>
      exact h₀.tail (.worker (.loop rfl (.testRunning hpc hrun) (by rw [hpc]; rfl) rfl))
  | exit hpc hstop =>
      exact h₀.tail (.worker (.loop rfl (.exit hpc hstop) (by rw [hpc]; rfl) rfl))
  | queueEmpty hpc hdeq =>
      exact h₀.tail (.worker (.loop rfl (.queueEmpty hpc hdeq) (by rw [hpc]; rfl) rfl))
  | dequeue now hpc hdeq =>
      exact (h₀.tail (.worker (.dequeue rfl hpc hdeq))).tail (.worker (.stamp now rfl))
  | rejectInvalid hpc hvalid => exact h₀.tail (.worker (.rejectInvalid rfl hpc hvalid))
  | rejectDuplicate hpc hvalid hdup =>
      exact (h₀.tail (.worker (.validate rfl hpc hvalid))).tail
        (.worker (.rejectDuplicate rfl hdup))
  | process hpc hvalid hdup =>
      have h₁ := h₀.tail (.worker (.validate rfl hpc hvalid))
      have h₂ := h₁.tail (.worker (.checkDuplicate rfl hdup))
      exact h₂.tail (.worker (.process rfl))
  | returnRejected hpc =>
      have h : Steps (system PoolSize N config d₀) _ _ _ := steps_deallocate (.inl hpc)
      rwa [hpc] at h
  | returnProcessed hpc =>
      have h : Steps (system PoolSize N config d₀) _ _ _ := steps_deallocate (.inr hpc)
      rwa [hpc] at h
  | countProcessed hpc =>
      exact h₀.tail (.worker (.loop rfl (.countProcessed hpc) (by rw [hpc]; rfl) rfl))

/-- **A run of the process in `Threads` is a run here.** -/
theorem run_of_system {es : List (Event PoolSize)} {s : System.State PoolSize}
    (r : Run (System.system PoolSize N config d₀) es s) :
    Run (system PoolSize N config d₀) es ⟨s, .none⟩ := by
  induction r with
  | init h => exact .init ⟨h, rfl⟩
  | step _ h ih =>
      cases h with
      | subscriber h => exact ih.step (.subscriber h)
      | worker h => exact ih.trans (steps_worker h)
      | main h => exact ih.step (.main h)
      | checkpoint h => exact ih.step (.checkpoint h)

/-! ## What the others leave alone -/

/-- A step that does not touch what the fast path relies on: its own variables, the headers of all
buffers and the count of accepted messages. -/
structure Untouched (s : System.State PoolSize) (e : List (Event PoolSize))
    (t : System.State PoolSize) : Prop where
  fastPath : t.fastPath = s.fastPath
  header : ∀ b, (t.pool.buffers_ b).header = (s.pool.buffers_ b).header
  counted : t.stats.zc_messages_received_ = s.stats.zc_messages_received_
  arrivals : arrivals e = []
  acceptances : acceptances e = []

/-- Writing what is not part of the header. -/
theorem header_write (p : BufferPool PoolSize) (buf b : Fin PoolSize) {m : MessageBuffer}
    (hm : m.header = (p.buffers_ buf).header) :
    (Function.update p.buffers_ buf m b).header = (p.buffers_ b).header := by
  by_cases hb : b = buf
  · rw [hb, Function.update_self, hm]
  · rw [Function.update_of_ne hb]

theorem deallocateStep_buffers {p p' : BufferPool PoolSize}
    {pc pc' : BufferPool.DeallocatePc PoolSize} {written : Option Nat}
    (h : BufferPool.DeallocateStep p pc written p' pc') : p'.buffers_ = p.buffers_ := by
  cases h with
  | _ => rfl

theorem returnEvents_quiet (written : Option Nat) (pc : BufferPool.DeallocatePc PoolSize) :
    arrivals (returnEvents written pc) = [] ∧ acceptances (returnEvents written pc) = [] := by
  unfold returnEvents
  split <;> exact ⟨rfl, rfl⟩

/-- **No access of the worker touches what the fast path relies on.** -/
theorem WorkerStep.untouched {s t : State PoolSize} {e : List (Event PoolSize)}
    (h : WorkerStep N s e t) : Untouched s.process e t.process := by
  cases h with
  | loop ha h hbefore hafter =>
      cases h with
      | testRunning | exit | queueEmpty | countProcessed => exact ⟨rfl, fun _ => rfl, rfl, rfl, rfl⟩
      | dequeue | rejectInvalid | rejectDuplicate | process => cases hafter
      | returnRejected hpc | returnProcessed hpc =>
          rw [hpc] at hbefore
          cases hbefore
  | dequeue | rejectInvalid | validate | rejectDuplicate | checkDuplicate | process | returned =>
      exact ⟨rfl, fun _ => rfl, rfl, rfl, rfl⟩
  | stamp now ha => exact ⟨rfl, fun b => header_write _ _ b rfl, rfl, rfl, rfl⟩
  | release ha hpc => exact ⟨rfl, fun b => header_write _ _ b rfl, rfl, rfl, rfl⟩
  | returning ha h =>
      exact ⟨rfl, fun b => by rw [deallocateStep_buffers h], rfl, (returnEvents_quiet _ _).1,
        (returnEvents_quiet _ _).2⟩

/-- The worker does not touch the checkpoint either. -/
theorem WorkerStep.checkpoint {s t : State PoolSize} {e : List (Event PoolSize)}
    (h : WorkerStep N s e t) : t.process.checkpoint = s.process.checkpoint := by
  cases h with
  | loop ha h hbefore hafter =>
      cases h with
      | _ => rfl
  | _ => rfl

theorem untouched_main {s t : System.State PoolSize} {e : List (Event PoolSize)}
    (h : MainStep s e t) : Untouched s e t := by
  cases h with
  | _ => exact ⟨rfl, fun _ => rfl, rfl, rfl, rfl⟩

theorem untouched_checkpoint (s : System.State PoolSize) (e : List SnapshotEvent) (c : Snapshot) :
    Untouched s (e.map .checkpoint) { s with checkpoint := c } :=
  ⟨rfl, fun _ => rfl, rfl, filterMap_eq_nil (by simp [Event.arrived?]),
    filterMap_eq_nil (by simp [Event.accepted?])⟩

/-! ## The message just received -/

/-- The fragment that the fast path is at. -/
def received? : FastPathPc PoolSize → Option Fragment
  | .allocated f _ _ | .tracked f _ | .enqueued f _ => some f
  | _ => none

/-- What the fast path may rely on in a run with the events `es`. -/
structure InHand (es : List (Event PoolSize)) (s : System.State PoolSize) : Prop where
  cleared : ∀ f recv b, s.fastPath = .allocated f recv b → (s.pool.buffers_ b).header = .zero
  copied : ∀ f b, s.fastPath = .tracked f b ∨ s.fastPath = .enqueued f b →
    (s.pool.buffers_ b).header.sequence_number = f.sequence_number
  last : ∀ f, received? s.fastPath = some f → (arrivals es).getLast? = some f
  accepted : ∀ f b, s.fastPath = .enqueued f b → (acceptances es).getLast? = some f
  counted : .ofNat (acceptances es).length
    = s.stats.zc_messages_received_ + s.fastPath.uncounted

theorem inHand_init {s : System.State PoolSize} (h : Initial config d₀ s) : InHand [] s := by
  refine ⟨fun f recv b hpc => ?_, fun f b hpc => ?_, fun f hf => ?_, fun f b hpc => ?_, ?_⟩
  · cases h.fastPath.symm.trans hpc
  · rcases hpc with hpc | hpc <;> cases h.fastPath.symm.trans hpc
  · rw [h.fastPath] at hf
    cases hf
  · cases h.fastPath.symm.trans hpc
  · rw [h.fastPath, h.stats]
    rfl

variable {es e : List (Event PoolSize)} {s t : System.State PoolSize}

/-- What is left alone may still be relied on. -/
theorem InHand.untouched (h : InHand es s) (hsame : Untouched s e t) : InHand (es ++ e) t := by
  have harrivals : arrivals (es ++ e) = arrivals es := by
    rw [arrivals_append, hsame.arrivals, List.append_nil]
  have hacceptances : acceptances (es ++ e) = acceptances es := by
    rw [acceptances_append, hsame.acceptances, List.append_nil]
  refine ⟨fun f recv b hpc => ?_, fun f b hpc => ?_, fun f hf => ?_, fun f b hpc => ?_, ?_⟩
  · rw [hsame.header]
    exact h.cleared f recv b (hsame.fastPath ▸ hpc)
  · rw [hsame.header]
    exact h.copied f b (hsame.fastPath ▸ hpc)
  · rw [harrivals]
    exact h.last f (hsame.fastPath ▸ hf)
  · rw [hacceptances]
    exact h.accepted f b (hsame.fastPath ▸ hpc)
  · rw [hacceptances, hsame.counted, hsame.fastPath]
    exact h.counted

/-- The count goes on as `Accounting` has it. -/
theorem InHand.counted_next (h : InHand es s) (hstep : SubscriberStep N config s e t) :
    .ofNat (acceptances (es ++ e)).length
      = t.stats.zc_messages_received_ + t.fastPath.uncounted := by
  rw [acceptances_append, List.length_append, UInt64.ofNat_add, h.counted]
  exact (counts_subscriber hstep).accepted

/-- While the fast path is at no message, only the count matters. -/
theorem inHand_of_none (hnone : received? s.fastPath = none)
    (hcounted : .ofNat (acceptances es).length
      = s.stats.zc_messages_received_ + s.fastPath.uncounted) : InHand es s := by
  refine ⟨fun f recv b hpc => ?_, fun f b hpc => ?_, fun f hf => ?_, fun f b hpc => ?_, hcounted⟩
  · rw [hpc] at hnone
    cases hnone
  · rcases hpc with hpc | hpc
    · rw [hpc] at hnone
      cases hnone
    · rw [hpc] at hnone
      cases hnone
  · cases hnone.symm.trans hf
  · rw [hpc] at hnone
    cases hnone

/-- The header of a buffer that has just been allocated. -/
theorem header_allocate {p p' : BufferPool PoolSize} {b : Fin PoolSize}
    (halloc : p.allocate = (some b, p')) : (p'.buffers_ b).header = .zero := by
  obtain ⟨-, hnone⟩ | ⟨b', hsome, -, hbuffers⟩ := p.allocate_spec
  · rw [halloc] at hnone
    cases hnone
  · rw [halloc] at hsome hbuffers
    cases hsome
    rw [hbuffers, Function.update_self]
    rfl

/-- What is copied into a cleared header is the header of the fragment. -/
theorem sequence_number_received {f : Fragment} {recv : Int64} {b : Fin PoolSize}
    (hzero : (s.pool.buffers_ b).header = .zero) :
    (received s f recv b).header.sequence_number = f.sequence_number := by
  show ((s.pool.buffers_ b).copyFromAeron f.bytes).header.sequence_number = _
  rw [MessageBuffer.header_copyFromAeron_eq, hzero]
  rfl

theorem InHand.subscriberStep (h : InHand es s) (hstep : SubscriberStep N config s e t) :
    InHand (es ++ e) t := by
  have hcounted := h.counted_next hstep
  cases hstep with
  | @arrive p b f recv hpc halloc =>
      refine ⟨fun f' recv' b' hpc' => ?_, fun f' b' hpc' => ?_, fun f' hf' => ?_,
        fun f' b' hpc' => ?_, hcounted⟩
      · cases hpc'
        exact header_allocate halloc
      · rcases hpc' with hpc' | hpc' <;> cases hpc'
      · cases hf'
        rw [arrivals_append]
        exact List.getLast?_concat
      · cases hpc'
  | @track f recv b m v hpc hb hv hdup =>
      have hquiet : arrivals (v.gap.toList.map Event.gap : List (Event PoolSize)) = [] :=
        filterMap_eq_nil (forall_gaps (fun _ => rfl) v.gap)
      refine ⟨fun f' recv' b' hpc' => ?_, fun f' b' hpc' => ?_, fun f' hf' => ?_,
        fun f' b' hpc' => ?_, hcounted⟩
      · cases hpc'
      · obtain hpc' | hpc' := hpc'
        · cases hpc'
          show (Function.update s.pool.buffers_ b m b).header.sequence_number = _
          rw [Function.update_self, ← hb]
          exact sequence_number_received (h.cleared f recv b hpc)
        · cases hpc'
      · cases hf'
        rw [arrivals_append, hquiet, List.append_nil]
        exact h.last f (by rw [hpc]; rfl)
      · cases hpc'
  | @enqueue f b q hpc henq =>
      refine ⟨fun f' recv' b' hpc' => ?_, fun f' b' hpc' => ?_, fun f' hf' => ?_,
        fun f' b' hpc' => ?_, hcounted⟩
      · cases hpc'
      · obtain hpc' | hpc' := hpc'
        · cases hpc'
        · cases hpc'
          exact h.copied f b (.inl hpc)
      · cases hf'
        rw [arrivals_append]
        show (arrivals es ++ []).getLast? = some f
        rw [List.append_nil]
        exact h.last f (by rw [hpc]; rfl)
      · cases hpc'
        rw [acceptances_append]
        exact List.getLast?_concat
  | allocationFails f hpc halloc =>
      have hidle : received? s.fastPath = none := by
        rw [hpc]
        rfl
      exact inHand_of_none hidle hcounted
  | trackDuplicate | dropDuplicate | enqueueFails | dropRefused | count | countAndUpdate | updated
    | exit => exact inHand_of_none rfl hcounted

theorem InHand.step {a b : State PoolSize} (h : InHand es a.process)
    (hstep : Step N config a e b) : InHand (es ++ e) b.process := by
  cases hstep with
  | subscriber hstep => exact h.subscriberStep hstep
  | worker hstep => exact h.untouched hstep.untouched
  | main hstep => exact h.untouched (untouched_main hstep)
  | checkpoint hstep => exact h.untouched (untouched_checkpoint _ _ _)

theorem inHand_run {a : State PoolSize} (r : Run (system PoolSize N config d₀) es a) :
    InHand es a.process := by
  induction r with
  | init h => exact inHand_init h.1
  | step _ hstep ih => exact ih.step hstep

/-- A call of `update` is made with what the fast path finds in the buffer and in its variables. -/
theorem call_update {a b : State PoolSize} (hstep : Step N config a e b) {args : CheckpointData}
    (hidle : a.process.checkpoint.updater = .idle)
    (hcall : b.process.checkpoint.updater = .storing args 0) :
    ∃ f buf, a.process.fastPath = .enqueued f buf ∧
      args.last_sequence_number
        = (a.process.pool.buffers_ buf).header.sequence_number.toInt64 ∧
      args.last_position = f.position ∧
      args.message_count = (a.process.stats.zc_messages_received_ + 1).toInt64 := by
  cases hstep with
  | subscriber hstep =>
      cases hstep with
      | @countAndUpdate f buf now hpc hon hupdater =>
          obtain ⟨rfl⟩ := hcall
          exact ⟨f, buf, hpc, rfl, rfl, rfl⟩
      | _ => cases hidle.symm.trans hcall
  | worker hstep => cases hidle.symm.trans (hstep.checkpoint ▸ hcall)
  | main hstep => cases hstep <;> cases hidle.symm.trans hcall
  | checkpoint hstep =>
      cases hstep with
      | store hupdater | updated hupdater => cases hidle.symm.trans hupdater
      | flush | load | skip | persist | fail => cases hidle.symm.trans hcall

/-- **Reading the buffer after the hand-over is harmless**: whatever the worker does in between, a
call of `update` gets the sequence number and the position of the message that has been received and
accepted last, and the number of messages accepted so far. -/
theorem update_gets_message {a b : State PoolSize} (r : Run (system PoolSize N config d₀) es a)
    (hstep : Step N config a e b) {args : CheckpointData}
    (hidle : a.process.checkpoint.updater = .idle)
    (hcall : b.process.checkpoint.updater = .storing args 0) :
    ∃ f, (arrivals es).getLast? = some f ∧ (acceptances es).getLast? = some f ∧
      args.last_sequence_number = f.message_number ∧ args.last_position = f.position ∧
      args.message_count = (UInt64.ofNat (acceptances es).length).toInt64 := by
  obtain ⟨f, buf, hpc, hseq, hposition, hcount⟩ := call_update hstep hidle hcall
  have h := inHand_run r
  have hcounted := h.counted
  rw [hpc] at hcounted
  refine ⟨f, h.last f (by rw [hpc]; rfl), h.accepted f buf hpc, ?_, hposition, ?_⟩
  · rw [hseq, h.copied f buf (.inr hpc)]
    rfl
  · rw [hcount, hcounted]
    rfl

set_option maxRecDepth 20000 in
/-- The worker has processed the message and the buffer is free again when `update` is called. -/
theorem update_gets_message_returned : ∃ es e a b args,
    Run (system poolSize queueSize {} .zero) es a ∧ Step queueSize {} a e b ∧
    handlerCalls es = [⟨[], 64⟩] ∧ a.process.pool.free_count_ = poolSize ∧
    b.process.checkpoint.updater = .storing args 0 ∧
    ∃ f, (arrivals es).getLast? = some f ∧ (acceptances es).getLast? = some f ∧
      args.last_sequence_number = f.message_number ∧ args.last_position = f.position ∧
      args.message_count = (UInt64.ofNat (acceptances es).length).toInt64 := by
  have r₀ : Run (system poolSize queueSize {} .zero) [] ⟨.start {} .zero, .none⟩ :=
    .init ⟨State.start_init {} .zero, rfl⟩
  have r₁ := r₀.step (.subscriber first_arrives)
  have r₂ := r₁.step (.subscriber first_copied)
  have r₃ := r₂.step (.subscriber first_queued)
  have r₄ := r₃.step (.worker (.loop rfl (.testRunning rfl rfl) rfl rfl))
  have r₅ := r₄.step (.worker (.dequeue rfl rfl rfl))
  have r₆ := r₅.step (.worker (.stamp 8 rfl))
  have r₇ := r₆.step (.worker (.validate rfl rfl rfl))
  have r₈ := r₇.step (.worker (.checkDuplicate rfl rfl))
  have r₉ := r₈.step (.worker (.process rfl))
  have r₁₀ := r₉.step (.worker (.release rfl (.inr rfl)))
  have r₁₁ := r₁₀.step (.worker (.returning rfl .load))
  have r₁₂ := r₁₁.step (.worker (.returning rfl (.compareExchange (by decide) rfl)))
  have r₁₃ := r₁₂.step (.worker (.returning rfl .writeSlot))
  have r₁₄ := r₁₃.step (.worker (.returned rfl))
  refine ⟨_, _, _, _, _, r₁₄, .subscriber (.countAndUpdate 9 rfl rfl rfl), rfl, rfl, rfl, ?_⟩
  exact update_gets_message r₁₄ (.subscriber (.countAndUpdate 9 rfl rfl rfl)) rfl rfl

end HandOff

end AeronReplay.System
