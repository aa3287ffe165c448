import AeronReplay.System.Sequential

set_option autoImplicit false

/-! # Every list of fragments can be handled

The threads can take their turns message by message, so that every list of fragments is the
list of arrivals of some run that ends in a settled state and never runs out of buffers. What is
proved about settled runs is therefore about every list of fragments. -/

namespace AeronReplay.System

open Transition CheckpointManager RingQueue

variable {PoolSize : Nat} {N : Ring.Size} (config : Config) (d₀ : CheckpointData)
  {s : State PoolSize}

/-- Neither an arrival nor a lack of buffers. -/
def Event.aside : Event PoolSize → Bool
  | .arrived _ | .allocationFailed _ => false
  | _ => true

/-- All threads wait for the next fragment. -/
structure State.Resting (s : State PoolSize) : Prop where
  fastPath : s.fastPath = .idle
  worker : s.worker = .testing
  running : s.worker_running_ = true
  updater : s.checkpoint.updater = .idle
  empty : s.queue.head_ = s.queue.tail_

/-- The other threads are where they have been. -/
structure OnlyWorker (s t : State PoolSize) : Prop where
  fastPath : t.fastPath = s.fastPath
  checkpoint : t.checkpoint = s.checkpoint
  main : t.main = s.main
  subscriber_running_ : t.subscriber_running_ = s.subscriber_running_
  worker_running_ : t.worker_running_ = s.worker_running_

/-- The worker finishes with the message it has dequeued. -/
theorem worker_finishes {b : Fin PoolSize} (hpc : s.worker = .dequeued b) :
    ∃ es t, Steps (system PoolSize N config d₀) s es t ∧ (∀ x ∈ es, x.aside = true) ∧
      t.worker = .testing ∧ t.queue = s.queue ∧ OnlyWorker s t := by
  have q₀ := Steps.refl (M := system PoolSize N config d₀) s
  obtain ⟨duplicate, seen, hcheck⟩ : ∃ duplicate seen, MessageWorker.checkDuplicate
      s.seen_sequences_ (s.pool.buffers_ b) = (duplicate, seen) := ⟨_, _, rfl⟩
  cases duplicate with
  | true =>
      have q₁ := q₀.tail (.worker (.rejectDuplicate hpc rfl hcheck))
      have q₂ := q₁.tail (.worker (.returnRejected rfl))
      refine ⟨_, _, q₂, ?_, rfl, rfl, ⟨rfl, rfl, rfl, rfl, rfl⟩⟩
      simp only [List.forall_mem_append]
      exact ⟨by simp [Event.aside], forall_overflow (by rfl) _⟩
  | false =>
      have q₁ := q₀.tail (.worker (.process hpc rfl hcheck))
      have q₂ := q₁.tail (.worker (.returnProcessed rfl))
      have q₃ := q₂.tail (.worker (.countProcessed rfl))
      refine ⟨_, _, q₃, ?_, rfl, rfl, ⟨rfl, rfl, rfl, rfl, rfl⟩⟩
      simp only [List.forall_mem_append]
      exact ⟨⟨by simp [Event.aside], forall_overflow (by rfl) _⟩, by simp⟩

/-- The worker takes the first message from the queue and finishes with it. -/
theorem worker_takes {b : Fin PoolSize} {l : List (Fin PoolSize)}
    (hstores : Stores N s.queue ((b :: l).map some)) (hworker : s.worker = .polling) :
    ∃ es t, Steps (system PoolSize N config d₀) s es t ∧ (∀ x ∈ es, x.aside = true) ∧
      t.worker = .testing ∧ Stores N t.queue (l.map some) ∧ OnlyWorker s t := by
  obtain ⟨hnil, -⟩ | ⟨a, l', hl, hfirst, hrest⟩ :=
    dequeue_spec (pointerQueue N PoolSize) hstores
  · cases hnil
  cases hl
  have hdeq : dequeue (pointerQueue N PoolSize) s.queue
      = (some (some b), (dequeue (pointerQueue N PoolSize) s.queue).2) := Prod.ext hfirst rfl
  have q₁ := (Steps.refl (M := system PoolSize N config d₀) s).tail
    (.worker (.dequeue 0 hworker hdeq))
  obtain ⟨es, t, q₂, hes, htesting, hqueue, hsame⟩ := worker_finishes (N := N) config d₀
    (s := { s with
      pool := s.pool.write b { s.pool.buffers_ b with worker_dequeue_time_ns := 0 }
      queue := (dequeue (pointerQueue N PoolSize) s.queue).2
      worker := .dequeued b }) rfl
  refine ⟨_, _, q₁.trans q₂, ?_, htesting, hqueue ▸ hrest, hsame.fastPath, hsame.checkpoint,
    hsame.main, hsame.subscriber_running_, hsame.worker_running_⟩
  exact List.forall_mem_append.mpr ⟨by simp [Event.aside], hes⟩

/-- The worker takes the only message from the queue and finishes with it. -/
theorem worker_drains {b : Fin PoolSize} (hstores : Stores N s.queue [some b])
    (hworker : s.worker = .testing) (hrun : s.worker_running_ = true) :
    ∃ es t, Steps (system PoolSize N config d₀) s es t ∧ (∀ x ∈ es, x.aside = true) ∧
      t.worker = .testing ∧ t.queue.head_ = t.queue.tail_ ∧ t.worker_running_ = true ∧
      t.fastPath = s.fastPath ∧ t.checkpoint = s.checkpoint := by
  have q₁ := (Steps.refl (M := system PoolSize N config d₀) s).tail
    (.worker (.testRunning hworker hrun))
  obtain ⟨es, t, q₂, hes, htesting, hqueue, hsame⟩ := worker_takes (N := N) config d₀
    (s := { s with worker := .polling }) (l := []) hstores rfl
  exact ⟨_, _, q₁.trans q₂, hes, htesting, hqueue.empty_iff.mpr rfl,
    hsame.worker_running_.trans hrun, hsame.fastPath, hsame.checkpoint⟩

/-- The fast path counts the message it has enqueued and updates the checkpoint. -/
theorem fastPath_counts {f : Fragment} {b : Fin PoolSize} (hpc : s.fastPath = .enqueued f b)
    (hidle : s.checkpoint.updater = .idle) :
    ∃ es t, Steps (system PoolSize N config d₀) s es t ∧ (∀ x ∈ es, x.aside = true) ∧
      t.fastPath = .idle ∧ t.checkpoint.updater = .idle ∧ t.worker = s.worker ∧
      t.queue = s.queue ∧ t.worker_running_ = s.worker_running_ := by
  have q₀ := Steps.refl (M := system PoolSize N config d₀) s
  by_cases hon : config.checkpoint_enabled = true
  · have q₁ := q₀.tail (.subscriber (.countAndUpdate 0 hpc hon hidle))
    have q₂ := q₁.tail (.checkpoint (@Access.store _ _ 0 rfl))
    have q₃ := q₂.tail (.checkpoint (@Access.store _ _ 1 rfl))
    have q₄ := q₃.tail (.checkpoint (@Access.store _ _ 2 rfl))
    have q₅ := q₄.tail (.checkpoint (@Access.store _ _ 3 rfl))
    have q₆ := q₅.tail (.checkpoint (.updated rfl))
    have q₇ := q₆.tail (.subscriber (.updated rfl rfl))
    exact ⟨_, _, q₇, by simp [Event.aside], rfl, rfl, rfl, rfl, rfl⟩
  · have q₁ := q₀.tail (.subscriber (.count hpc (Bool.eq_false_iff.mpr hon)))
    exact ⟨_, _, q₁, by simp, rfl, hidle, rfl, rfl, rfl⟩

/-- Once it has a buffer, a fragment is handled to the end. -/
theorem allocated_handled (hsize : PoolSize < N.val) (hcustody : Custody N s []) {f : Fragment}
    {recv : Int64} {b : Fin PoolSize} (hpc : s.fastPath = .allocated f recv b)
    (hworker : s.worker = .testing) (hrun : s.worker_running_ = true)
    (hupdater : s.checkpoint.updater = .idle) :
    ∃ es t, Steps (system PoolSize N config d₀) s es t ∧ (∀ x ∈ es, x.aside = true) ∧
      t.Resting := by
  have q₀ := Steps.refl (M := system PoolSize N config d₀) s
  by_cases hdup : (verdict config s (received s f recv b)).duplicate = true
  · have q₁ := q₀.tail (.subscriber (.trackDuplicate hpc rfl rfl hdup))
    have q₂ := q₁.tail (.subscriber (.dropDuplicate rfl))
    refine ⟨_, _, q₂, ?_, rfl, hworker, hrun, hupdater, hcustody.stores.empty_iff.mpr rfl⟩
    simp only [List.forall_mem_append]
    exact ⟨⟨by simp, forall_gaps (fun _ => rfl) _, by simp [Event.aside]⟩,
      forall_overflow (by rfl) _⟩
  · have q₁ := q₀.tail (.subscriber (.track hpc rfl rfl (Bool.eq_false_iff.mpr hdup)))
    have hcustody₁ := hcustody.receive hpc rfl (.inr rfl)
      (verdict config s (received s f recv b)).tracking
      (s.stats.track (verdict config s (received s f recv b)))
    obtain ⟨hok, hcustody₂⟩ := hcustody₁.enqueue hsize rfl rfl
    have q₂ := q₁.tail (.subscriber (.enqueue rfl (Prod.ext hok rfl)))
    obtain ⟨es₃, t₃, q₃, hes₃, hworker₃, hqueue₃, hrun₃, hpc₃, hupdater₃⟩ :=
      worker_drains config d₀ hcustody₂.stores hworker hrun
    rw [← hupdater₃] at hupdater
    obtain ⟨es₄, t₄, q₄, hes₄, hpc₄, hupdater₄, hworker₄, hqueue₄, hrun₄⟩ :=
      fastPath_counts (N := N) config d₀ hpc₃ hupdater
    refine ⟨_, _, (q₂.trans q₃).trans q₄, ?_, hpc₄, hworker₄.trans hworker₃,
      hrun₄.trans hrun₃, hupdater₄, hqueue₄ ▸ hqueue₃⟩
    simp only [List.forall_mem_append]
    exact ⟨⟨⟨⟨by simp, forall_gaps (fun _ => rfl) _⟩, by simp [Event.aside]⟩, hes₃⟩, hes₄⟩

/-- From rest to rest, one fragment further. -/
theorem fragment_handled (hpos : 0 < PoolSize) (hsize : PoolSize < N.val)
    (hcustody : Custody N s []) (h : s.Resting) (f : Fragment) :
    ∃ es t, Steps (system PoolSize N config d₀) s (.arrived f :: es) t ∧
      (∀ x ∈ es, x.aside = true) ∧ t.Resting := by
  have hplaces := hcustody.pool.places.length_eq
  simp only [out, h.fastPath, h.worker, FastPathPc.held, WorkerPc.held, List.append_nil] at hplaces
  obtain ⟨hnil, -⟩ | ⟨b, hsome, -⟩ := s.pool.allocate_spec
  · rw [hnil, List.length_nil] at hplaces
    omega
  have halloc : s.pool.allocate = (some b, s.pool.allocate.2) := Prod.ext hsome rfl
  have hnext := hcustody.arrive f 0 h.fastPath halloc
  obtain ⟨es, t, q, hes, ht⟩ := allocated_handled config d₀ hsize hnext rfl h.worker
    h.running h.updater
  have q₁ := (Steps.refl (M := system PoolSize N config d₀) s).tail
    (.subscriber (.arrive f 0 h.fastPath halloc))
  exact ⟨es, t, q₁.trans q, hes, ht⟩

theorem arrivals_of_aside {es : List (Event PoolSize)} (h : ∀ x ∈ es, x.aside = true) :
    arrivals es = [] := by
  refine filterMap_eq_nil fun x hx => ?_
  have hx := h x hx
  cases x with
  | arrived => cases hx
  | _ => rfl

variable {config d₀} in
/-- **Every list of fragments is what arrives in some run that ends settled** and in which no
buffer is missing. -/
theorem exists_settled_run (hpos : 0 < PoolSize) (hsize : PoolSize < N.val)
    (hinit : Initial config d₀ s) (fs : List Fragment) :
    ∃ es t, Run (system PoolSize N config d₀) es t ∧ (∀ f, .allocationFailed f ∉ es) ∧
      t.Settled ∧ arrivals es = fs := by
  suffices h : ∃ es t, Run (system PoolSize N config d₀) es t ∧
      (∀ f, .allocationFailed f ∉ es) ∧ t.Resting ∧ arrivals es = fs by
    obtain ⟨es, t, r, hpool, ht, hfs⟩ := h
    exact ⟨es, t, r, hpool, ⟨⟨.inl ht.fastPath, .inl ht.worker⟩, ht.empty⟩, hfs⟩
  induction fs using List.reverseRecOn with
  | nil =>
      refine ⟨[], s, .init hinit, fun _ hf => (List.not_mem_nil hf).elim,
        ⟨hinit.fastPath, hinit.worker, hinit.running.2.1, ?_, ?_⟩, rfl⟩
      · rw [hinit.checkpoint]
      · rw [hinit.queue.1, hinit.queue.2]
  | append_singleton fs f ih =>
      obtain ⟨es, t, r, hpool, ht, rfl⟩ := ih
      obtain ⟨l, hl⟩ := custody_run hsize r
      obtain rfl : l = [] := List.map_eq_nil_iff.mp (hl.custody.stores.empty_iff.mp ht.empty)
      obtain ⟨es', t', q, hes', ht'⟩ := fragment_handled config d₀ hpos hsize hl.custody ht f
      refine ⟨_, _, r.trans q, fun g hg => ?_, ht', ?_⟩
      · rcases List.mem_append.mp hg with hg | hg
        · exact hpool g hg
        · rcases List.mem_cons.mp hg with hg | hg
          · cases hg
          · cases hes' _ hg
      · rw [arrivals_append]
        exact congrArg (fun gs => arrivals es ++ f :: gs) (arrivals_of_aside hes')

end AeronReplay.System
