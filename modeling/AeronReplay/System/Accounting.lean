import AeronReplay.System.Custody

set_option autoImplicit false

/-! # The statistics add up

The counters of the subscriber and of the worker are incremented on different paths, some of
them after the buffer has been passed on. A message that a thread is still busy with may or may
not have been counted, which its program counter tells. -/

namespace AeronReplay.System

open Transition CheckpointManager

variable {PoolSize : Nat} {N : Ring.Size} {config : Config}

/-- `1` if the fast path is busy with a message that no counter has counted yet. -/
@[simp] def FastPathPc.inFlight : FastPathPc PoolSize → UInt64
  | .allocated _ _ _ | .tracked _ _ | .refused _ _ | .enqueued _ _ => 1
  | _ => 0

/-- `1` if the fast path has enqueued a message that it has not counted yet. -/
@[simp] def FastPathPc.uncounted : FastPathPc PoolSize → UInt64
  | .enqueued _ _ => 1
  | _ => 0

/-- `1` if the worker is busy with a message that no counter has counted yet. -/
@[simp] def WorkerPc.uncounted : WorkerPc PoolSize → UInt64
  | .dequeued _ | .processed _ | .counting => 1
  | _ => 0

/-- The fragments that the subscriber has counted. -/
def Statistics.handled (st : Statistics) : UInt64 :=
  st.zc_messages_received_ + st.zc_buffer_allocation_failures_ + st.zc_queue_full_failures_ +
    st.duplicates_detected_

/-- The messages that the worker has counted. -/
def Statistics.judged (st : Statistics) : UInt64 :=
  st.messages_processed_ + st.messages_invalid_ + st.messages_duplicate_

structure Accounting (es : List (Event PoolSize)) (s : State PoolSize) : Prop where
  handled : .ofNat (arrivals es).length = s.stats.handled + s.fastPath.inFlight
  accepted : .ofNat (acceptances es).length = s.stats.zc_messages_received_ + s.fastPath.uncounted
  judged : .ofNat (dequeues es).length = s.stats.judged + s.worker.uncounted

/-- What a step adds to the events, it adds to the counters. -/
structure Counts (s : State PoolSize) (e : List (Event PoolSize)) (t : State PoolSize) :
    Prop where
  handled : s.stats.handled + s.fastPath.inFlight + .ofNat (arrivals e).length
    = t.stats.handled + t.fastPath.inFlight
  accepted : s.stats.zc_messages_received_ + s.fastPath.uncounted + .ofNat (acceptances e).length
    = t.stats.zc_messages_received_ + t.fastPath.uncounted
  judged : s.stats.judged + s.worker.uncounted + .ofNat (dequeues e).length
    = t.stats.judged + t.worker.uncounted

/-- Neither an arrival nor a hand-over. -/
def Event.still : Event PoolSize → Bool
  | .arrived _ | .accepted _ _ | .dequeued _ _ _ => false
  | _ => true

theorem Event.of_still {x : Event PoolSize} (h : x.still = true) :
    x.arrived? = none ∧ x.accepted? = none ∧ x.dequeued? = none := by
  cases x with
  | arrived | accepted | dequeued => cases h
  | _ => exact ⟨rfl, rfl, rfl⟩

/-- A step in which no message arrives or is handed over. -/
theorem Counts.still {s t : State PoolSize} {e : List (Event PoolSize)}
    (he : ∀ x ∈ e, x.still = true)
    (handled : s.stats.handled + s.fastPath.inFlight = t.stats.handled + t.fastPath.inFlight)
    (accepted : s.stats.zc_messages_received_ + s.fastPath.uncounted
      = t.stats.zc_messages_received_ + t.fastPath.uncounted)
    (judged : s.stats.judged + s.worker.uncounted = t.stats.judged + t.worker.uncounted) :
    Counts s e t := by
  have harrived : arrivals e = [] := filterMap_eq_nil fun x hx => (Event.of_still (he x hx)).1
  have haccepted : acceptances e = [] :=
    filterMap_eq_nil fun x hx => (Event.of_still (he x hx)).2.1
  have hdequeued : dequeues e = [] :=
    filterMap_eq_nil fun x hx => (Event.of_still (he x hx)).2.2
  refine ⟨?_, ?_, ?_⟩
  · rw [harrived, ← handled]
    exact UInt64.add_zero _
  · rw [haccepted, ← accepted]
    exact UInt64.add_zero _
  · rw [hdequeued, ← judged]
    exact UInt64.add_zero _

theorem handled_track (st : Statistics) (v : AeronSubscriber.Verdict) :
    (st.track v).handled = st.handled + if v.duplicate then 1 else 0 := by
  by_cases h : v.duplicate <;> simp [Statistics.track, Statistics.handled, h, UInt64.add_assoc]

theorem counts_subscriber {s t : State PoolSize} {e : List (Event PoolSize)}
    (h : SubscriberStep N config s e t) : Counts s e t := by
  cases h with
  | arrive f recv hpc halloc =>
      refine ⟨?_, ?_, ?_⟩
      · show _ + _ + UInt64.ofNat 1 = _
        simp [hpc]
      · show _ + _ + UInt64.ofNat 0 = _
        simp [hpc]
      · exact UInt64.add_zero _
  | allocationFails f hpc halloc =>
      refine ⟨?_, UInt64.add_zero _, UInt64.add_zero _⟩
      show _ + _ + UInt64.ofNat 1 = _
      simp only [Statistics.handled, hpc, FastPathPc.inFlight]
      ac_rfl
  | trackDuplicate hpc hb hv hdup =>
      refine .still ?_ ?_ ?_ rfl
      · exact List.forall_mem_append.mpr ⟨forall_gaps (fun _ => rfl) _, by simp [Event.still]⟩
      · simp [hpc, handled_track, hdup]
      · simp [hpc, Statistics.track]
  | track hpc hb hv hdup =>
      refine .still (forall_gaps (fun _ => rfl) _) ?_ ?_ rfl
      · simp [hpc, handled_track, hdup]
      · simp [hpc, Statistics.track]
  | dropDuplicate hpc =>
      refine .still (forall_overflow (by rfl) _) ?_ ?_ rfl <;> simp [hpc]
  | enqueue hpc henq =>
      refine ⟨?_, ?_, UInt64.add_zero _⟩
      · show _ + _ + UInt64.ofNat 0 = _
        simp [hpc]
      · show _ + _ + UInt64.ofNat 1 = _
        simp [hpc]
  | enqueueFails hpc henq =>
      refine .still (by simp [Event.still]) ?_ ?_ rfl <;> simp [hpc]
  | dropRefused hpc =>
      refine .still (forall_overflow (by rfl) _) ?_ (by simp [hpc]) rfl
      simp only [Statistics.handled, hpc, FastPathPc.inFlight]
      ac_rfl
  | count hpc hoff | countAndUpdate _ hpc hon hidle =>
      refine .still (by simp) ?_ (by simp [hpc]) rfl
      simp only [Statistics.handled, hpc, FastPathPc.inFlight]
      ac_rfl
  | updated hpc hidle | exit hpc hstop =>
      refine .still (by simp) ?_ ?_ rfl <;> simp [hpc]

theorem counts_worker {s t : State PoolSize} {e : List (Event PoolSize)}
    (h : WorkerStep N s e t) : Counts s e t := by
  cases h with
  | testRunning hpc hrun | exit hpc hrun | queueEmpty hpc hdeq =>
      exact .still (by simp) rfl rfl (by simp [hpc])
  | dequeue now hpc hdeq =>
      refine ⟨UInt64.add_zero _, UInt64.add_zero _, ?_⟩
      show _ + _ + UInt64.ofNat 1 = _
      simp [hpc]
  | rejectInvalid hpc hvalid | rejectDuplicate hpc hvalid hdup =>
      refine .still (by simp [Event.still]) rfl rfl ?_
      simp only [Statistics.judged, hpc, WorkerPc.uncounted]
      ac_rfl
  | process hpc hvalid hdup =>
      exact .still (by simp [Event.still]) rfl rfl (by simp [hpc])
  | returnRejected hpc | returnProcessed hpc =>
      exact .still (forall_overflow (by rfl) _) rfl rfl (by simp [hpc])
  | countProcessed hpc =>
      refine .still (by simp) rfl rfl ?_
      simp only [Statistics.judged, hpc, WorkerPc.uncounted]
      ac_rfl

theorem counts_step {s t : State PoolSize} {e : List (Event PoolSize)}
    (h : Step N config s e t) : Counts s e t := by
  cases h with
  | subscriber h => exact counts_subscriber h
  | worker h => exact counts_worker h
  | main h =>
      cases h with
      | _ => exact .still (by simp [Event.still]) rfl rfl rfl
  | checkpoint h => exact .still (by simp [Event.still]) rfl rfl rfl

theorem accounting_run {d₀ : CheckpointData} {es : List (Event PoolSize)} {s : State PoolSize}
    (r : Run (system PoolSize N config d₀) es s) : Accounting es s := by
  refine Run.invariant (I := Accounting) ?_ ?_ r
  · intro s h
    refine ⟨?_, ?_, ?_⟩ <;> simp [h.stats, h.fastPath, h.worker, Statistics.handled,
      Statistics.judged, arrivals, acceptances, dequeues]
  · intro es s e t h hstep
    -- both sides of each equation grow by what the step adds to the events
    have hcounts := counts_step hstep
    refine ⟨?_, ?_, ?_⟩
    · calc UInt64.ofNat (arrivals (es ++ e)).length
          = .ofNat (arrivals es).length + .ofNat (arrivals e).length := by
            rw [arrivals_append, List.length_append, UInt64.ofNat_add]
        _ = t.stats.handled + t.fastPath.inFlight := by rw [h.handled, hcounts.handled]
    · calc UInt64.ofNat (acceptances (es ++ e)).length
          = .ofNat (acceptances es).length + .ofNat (acceptances e).length := by
            rw [acceptances_append, List.length_append, UInt64.ofNat_add]
        _ = t.stats.zc_messages_received_ + t.fastPath.uncounted := by
            rw [h.accepted, hcounts.accepted]
    · calc UInt64.ofNat (dequeues (es ++ e)).length
          = .ofNat (dequeues es).length + .ofNat (dequeues e).length := by
            rw [dequeues_append, List.length_append, UInt64.ofNat_add]
        _ = t.stats.judged + t.worker.uncounted := by rw [h.judged, hcounts.judged]

/-! ## Conservation -/

/-- What is true of a run with the events `es` to `s`, where the message queue holds `l`. -/
structure Conserved (N : Ring.Size) (es : List (Event PoolSize)) (s : State PoolSize)
    (l : List (Fin PoolSize)) : Prop where
  queued : RingQueue.Stores N s.queue (l.map some)
  /-- Each buffer is in exactly one place. -/
  places : Places.Each (s.pool.freeList ++ (l ++ s.fastPath.held ++ s.worker.held))
  free : ∀ b ∈ s.pool.freeList, (s.pool.buffers_ b).in_use = false
  in_use : ∀ b ∈ l ++ s.fastPath.held ++ s.worker.held, (s.pool.buffers_ b).in_use = true
  /-- The messages dequeued, followed by those in the queue, are the messages accepted. -/
  delivered : enqueues es = dequeues es ++ l.map fun b =>
    (b, (s.pool.buffers_ b).header.sequence_number, (s.pool.buffers_ b).payloadBytes)
  noQueueFull : ∀ f, .queueFull f ∉ es
  noOverflow : .freeListOverflow ∉ es
  handled : s.BetweenMessages → .ofNat (arrivals es).length
    = s.stats.zc_messages_received_ + s.stats.zc_buffer_allocation_failures_ +
      s.stats.zc_queue_full_failures_ + s.stats.duplicates_detected_
  received : s.BetweenMessages → s.stats.zc_messages_received_
    = .ofNat (MessageQueue.size N s.queue.head_ s.queue.tail_) + s.stats.messages_processed_ +
      s.stats.messages_invalid_ + s.stats.messages_duplicate_

theorem length_enqueues (es : List (Event PoolSize)) :
    (enqueues es).length = (acceptances es).length := by
  induction es with
  | nil => rfl
  | cons x es ih =>
      cases x with
      | accepted f buf => exact congrArg (· + 1) ih
      | _ => exact ih

theorem conserved_run (hsize : PoolSize < N.val) {d₀ : CheckpointData}
    {es : List (Event PoolSize)} {s : State PoolSize}
    (r : Run (system PoolSize N config d₀) es s) : ∃ l, Conserved N es s l := by
  obtain ⟨l, h⟩ := custody_run hsize r
  have haccounts := accounting_run r
  have hlength : (acceptances es).length = (dequeues es).length + l.length := by
    have := congrArg List.length h.delivered
    rwa [List.length_append, List.length_map, length_enqueues] at this
  refine ⟨l, h.custody.stores, h.custody.pool.places, fun b hb => ?_,
    fun b hb => h.custody.pool.in_use_of_mem hb, ?_, fun f hf => ?_, fun hf => ?_, ?_, ?_⟩
  · rw [← Bool.not_eq_true, h.custody.pool.in_use]
    exact not_not_intro hb
  · rw [h.delivered]
    refine congrArg _ (List.map_congr_left fun b hb => ?_)
    obtain ⟨hseq, hpayload⟩ := h.custody.carries b
      (List.mem_append_left _ (List.mem_append_left _ hb))
    rw [hseq, hpayload]
    rfl
  · cases h.noFailure _ hf
  · cases h.noFailure _ hf
  · rintro ⟨hfast, -⟩
    -- between two messages nothing waits to be counted
    have hnone : s.fastPath.inFlight = 0 := by
      rcases hfast with h | h <;> rw [h] <;> rfl
    rw [haccounts.handled, hnone]
    exact UInt64.add_zero _
  · rintro ⟨hfast, hworker⟩
    have hfast' : s.fastPath.uncounted = 0 := by
      rcases hfast with h | h <;> rw [h] <;> rfl
    have hworker' : s.worker.uncounted = 0 := by
      rcases hworker with h | h | h <;> rw [h] <;> rfl
    have hsize : MessageQueue.size N s.queue.head_ s.queue.tail_ = l.length := by
      rw [← List.length_map some]
      exact h.custody.stores.size_eq (pointerQueue N PoolSize)
    have haccepted := haccounts.accepted
    have hjudged := haccounts.judged
    rw [hfast', UInt64.add_zero] at haccepted
    rw [hworker', UInt64.add_zero, Statistics.judged] at hjudged
    calc s.stats.zc_messages_received_
        = .ofNat (acceptances es).length := haccepted.symm
      _ = .ofNat (dequeues es).length + .ofNat l.length := by rw [hlength, UInt64.ofNat_add]
      _ = .ofNat (MessageQueue.size N s.queue.head_ s.queue.tail_) +
          s.stats.messages_processed_ + s.stats.messages_invalid_ +
          s.stats.messages_duplicate_ := by
        rw [hjudged, hsize]
        ac_rfl

/-- **The subscriber process conserves its buffers and its messages**, in every reachable
state and whatever arrives. -/
theorem subscriberProcess_conserved {d₀ : CheckpointData} {es : List (Event poolSize)}
    {s : State poolSize} (r : Run (subscriberProcess config d₀) es s) :
    ∃ l, Conserved queueSize es s l :=
  conserved_run poolSize_lt r

set_option maxRecDepth 20000 in
/-- The worker has dequeued the first message while the subscriber has dropped the second one. -/
theorem subscriberProcess_conserved_dequeued : ∃ es s,
    Run (subscriberProcess { checkpoint_enabled := false } .zero) es s ∧
      arrivals es = [⟨[], 64⟩, ⟨[], 128⟩] ∧ acceptances es = [⟨[], 64⟩] ∧
      s.worker.held = [1023] ∧ s.stats.duplicates_detected_ = 1 ∧
      ∃ l, Conserved queueSize es s l := by
  have r₁ := firstQueued_run.step (.subscriber (.count rfl rfl))
  have r₂ := r₁.step (.subscriber (.arrive ⟨[], 128⟩ 8 rfl rfl))
  have r₃ := r₂.step (.worker (.testRunning rfl rfl))
  have r₄ := r₃.step (.worker (.dequeue 9 rfl rfl))
  have r₅ := r₄.step (.subscriber (.trackDuplicate rfl rfl rfl rfl))
  have r₆ := r₅.step (.subscriber (.dropDuplicate rfl))
  exact ⟨_, _, r₆, rfl, rfl, rfl, rfl, subscriberProcess_conserved r₆⟩

end AeronReplay.System
