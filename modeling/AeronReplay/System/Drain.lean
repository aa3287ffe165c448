import AeronReplay.System.Schedule
import AeronReplay.System.Shutdown

set_option autoImplicit false

/-! # The process can always be drained

Whatever state the threads have come to, they can go on without a further fragment until nothing
is in their hands: the queue is empty, every message that has been accepted is judged, and every
buffer is back in the pool. From there `main` can shut the process down without losing anything,
and if it has already told the worker to stop, it can still come to its end (`can_shut_down`).
No state is a deadlock and no buffer leaks, as long as the accesses respect `SlotOrder`; what a
shutdown loses it loses by the order in which it is made. -/

namespace AeronReplay.System

open Transition CheckpointManager RingQueue

variable {PoolSize : Nat} {N : Ring.Size} {config : Config} {d₀ : CheckpointData}
  {es : List (Event PoolSize)} {s t : State PoolSize}

/-! ## Where the threads can be at the same time -/

/-- What the program counters and the `running_` flags say of each other. -/
structure InPhase (s : State PoolSize) : Prop where
  updating : ∀ args k, s.checkpoint.updater = .storing args k → s.fastPath = .updating ∧ k ≤ 4
  subscriber : s.subscriber_running_ = true ↔ s.main = .running
  worker : s.worker_running_ = true ↔ s.main ≠ .workerStopped ∧ s.main ≠ .done
  exited : s.worker = .exited → s.worker_running_ = false
  done : s.main = .done → s.worker = .exited

theorem inPhase_init (h : Initial config d₀ s) : InPhase s where
  updating args k hu := by
    rw [h.checkpoint] at hu
    cases hu
  subscriber := iff_of_true h.running.1 h.running.2.2
  worker := iff_of_true h.running.2.1 (by simp [h.running.2.2])
  exited hpc := by
    rw [h.worker] at hpc
    cases hpc
  done hdone := by
    rw [h.running.2.2] at hdone
    cases hdone

theorem InPhase.subscriberStep (h : InPhase s) {e : List (Event PoolSize)}
    (hstep : SubscriberStep N config s e t) : InPhase t := by
  -- no step but those of `update` starts from the place of an update
  have hidle : ∀ {u : State PoolSize}, s.fastPath ≠ .updating →
      u.checkpoint = s.checkpoint → ∀ args k, u.checkpoint.updater = .storing args k →
        u.fastPath = .updating ∧ k ≤ 4 := fun hpc hsame args k hu =>
    absurd (h.updating args k (hsame ▸ hu)).1 hpc
  cases hstep with
  | arrive _ _ hpc | allocationFails _ hpc | trackDuplicate hpc | track hpc | dropDuplicate hpc
    | enqueue hpc | enqueueFails hpc | dropRefused hpc | count hpc | exit hpc =>
      exact ⟨hidle (by simp [hpc]) rfl, h.subscriber, h.worker, h.exited, h.done⟩
  | countAndUpdate _ hpc hon hnone =>
      refine ⟨fun args k hu => ?_, h.subscriber, h.worker, h.exited, h.done⟩
      cases hu
      exact ⟨rfl, Nat.zero_le 4⟩
  | updated hpc hnone =>
      refine ⟨fun args k hu => ?_, h.subscriber, h.worker, h.exited, h.done⟩
      cases hnone.symm.trans hu

theorem InPhase.step (h : InPhase s) {e : List (Event PoolSize)} (hstep : Step N config s e t) :
    InPhase t := by
  cases hstep with
  | subscriber hstep => exact h.subscriberStep hstep
  | worker hstep =>
      have hbusy : s.worker ≠ .exited → s.main ≠ .done := mt h.done
      cases hstep with
      | exit hpc hstop =>
          exact ⟨h.updating, h.subscriber, h.worker, fun _ => hstop, fun _ => rfl⟩
      | testRunning hpc | queueEmpty hpc | dequeue _ hpc | rejectInvalid hpc
        | rejectDuplicate hpc | process hpc | returnRejected hpc | returnProcessed hpc
        | countProcessed hpc =>
          exact ⟨h.updating, h.subscriber, h.worker, fun hexit => (nomatch hexit),
            fun hdone => absurd hdone (hbusy (by simp [hpc]))⟩
  | main hstep =>
      cases hstep with
      | shutdownSubscriber hpc =>
          refine ⟨h.updating, by simp, ?_, h.exited, fun hdone => (nomatch hdone)⟩
          exact h.worker.trans (by simp [hpc])
      | joinSubscriber hpc =>
          refine ⟨h.updating, ?_, ?_, h.exited, fun hdone => (nomatch hdone)⟩
          · exact h.subscriber.trans (by simp [hpc])
          · exact h.worker.trans (by simp [hpc])
      | stopWorker hpc =>
          refine ⟨h.updating, ?_, by simp, fun _ => rfl, fun hdone => (nomatch hdone)⟩
          exact h.subscriber.trans (by simp [hpc])
      | joinWorker hpc hexit =>
          refine ⟨h.updating, ?_, ?_, h.exited, fun _ => hexit⟩
          · exact h.subscriber.trans (by simp [hpc])
          · exact h.worker.trans (by simp [hpc])
  | checkpoint hstep =>
      refine ⟨fun args k hu => ?_, h.subscriber, h.worker, h.exited, h.done⟩
      cases hstep with
      | store hu' =>
          cases hu
          exact ⟨(h.updating _ _ hu').1, by omega⟩
      | updated hu' => cases hu
      | flush | load | skip | persist | fail => exact h.updating args k hu

theorem inPhase_run (r : Run (system PoolSize N config d₀) es s) : InPhase s :=
  Run.invariant (I := fun _ s => InPhase s) (fun _ h => inPhase_init h)
    (fun _ _ _ _ h hstep => h.step hstep) r

/-! ## The fast path -/

/-- The worker and `main` are where they have been, and the queue has lost nothing. -/
structure OnlySubscriber (s t : State PoolSize) : Prop where
  worker : t.worker = s.worker
  main : t.main = s.main
  subscriber_running_ : t.subscriber_running_ = s.subscriber_running_
  worker_running_ : t.worker_running_ = s.worker_running_

theorem OnlySubscriber.refl (s : State PoolSize) : OnlySubscriber s s := ⟨rfl, rfl, rfl, rfl⟩

variable (config d₀) in
/-- The words that are left are stored, and `update` returns. -/
theorem update_finishes {args : CheckpointData} {k : Nat} (hpc : s.fastPath = .updating)
    (hu : s.checkpoint.updater = .storing args k) (hk : k ≤ 4) :
    ∃ fs t, Steps (system PoolSize N config d₀) s fs t ∧ (∀ x ∈ fs, x.aside = true) ∧
      t.fastPath = .idle ∧ OnlySubscriber s t := by
  obtain ⟨n, hn⟩ : ∃ n, n + k = 4 := ⟨4 - k, by omega⟩
  induction n generalizing s k with
  | zero =>
      obtain rfl : k = 4 := by omega
      have q₁ := (Steps.refl (M := system PoolSize N config d₀) s).tail (.checkpoint (.updated hu))
      have q₂ := q₁.tail (.subscriber (.updated hpc rfl))
      exact ⟨_, _, q₂, by simp, rfl, ⟨rfl, rfl, rfl, rfl⟩⟩
  | succ n ih =>
      have hlt : k < 4 := by omega
      have q₁ := (Steps.refl (M := system PoolSize N config d₀) s).tail
        (.checkpoint (.store (i := ⟨k, hlt⟩) hu))
      obtain ⟨fs, t, q₂, hfs, hidle, hsame⟩ := ih (s := { s with
        checkpoint := { s.checkpoint with
          data_ := s.checkpoint.data_.set ⟨k, hlt⟩ (args.get ⟨k, hlt⟩)
          updater := .storing args (k + 1) } }) hpc rfl (by omega) (by omega)
      refine ⟨_, _, q₁.trans q₂, ?_, hidle, hsame.worker, hsame.main, hsame.subscriber_running_,
        hsame.worker_running_⟩
      exact List.forall_mem_append.mpr ⟨by simp [Event.aside], hfs⟩

variable (d₀) in
/-- The fast path counts the message it has enqueued. -/
theorem enqueued_finishes (hphase : InPhase s) {f : Fragment} {b : Fin PoolSize}
    (hpc : s.fastPath = .enqueued f b) :
    ∃ fs t, Steps (system PoolSize N config d₀) s fs t ∧ (∀ x ∈ fs, x.aside = true) ∧
      t.fastPath = .idle ∧ OnlySubscriber s t := by
  have hidle : s.checkpoint.updater = .idle := by
    cases hu : s.checkpoint.updater with
    | idle => rfl
    | storing args k => cases hpc.symm.trans (hphase.updating args k hu).1
  have q₀ := Steps.refl (M := system PoolSize N config d₀) s
  by_cases hon : config.checkpoint_enabled = true
  · have q₁ := q₀.tail (.subscriber (.countAndUpdate 0 hpc hon hidle))
    obtain ⟨fs, t, q₂, hfs, hidle, hsame⟩ := update_finishes (N := N) config d₀
      (s := { s with
        fastPath := .updating
        stats := _
        checkpoint := { s.checkpoint with updater := .storing _ 0 } }) rfl rfl (Nat.zero_le 4)
    refine ⟨_, _, q₁.trans q₂, ?_, hidle, hsame.worker, hsame.main, hsame.subscriber_running_,
      hsame.worker_running_⟩
    exact List.forall_mem_append.mpr ⟨by simp, hfs⟩
  · have q₁ := q₀.tail (.subscriber (.count hpc (Bool.eq_false_iff.mpr hon)))
    exact ⟨_, _, q₁, by simp, rfl, ⟨rfl, rfl, rfl, rfl⟩⟩

/-- The fast path enqueues the message it has tracked, or drops it. -/
theorem tracked_finishes (r : Run (system PoolSize N config d₀) es s) {f : Fragment}
    {b : Fin PoolSize} (hpc : s.fastPath = .tracked f b) :
    ∃ fs t, Steps (system PoolSize N config d₀) s fs t ∧ (∀ x ∈ fs, x.aside = true) ∧
      t.fastPath = .idle ∧ OnlySubscriber s t := by
  have q₀ := Steps.refl (M := system PoolSize N config d₀) s
  cases henq : enqueue (pointerQueue N PoolSize) s.queue (some b) with
  | mk accepted q =>
    cases accepted with
    | true =>
        have q₁ := q₀.tail (.subscriber (.enqueue hpc henq))
        obtain ⟨fs, t, q₂, hfs, hidle, hsame⟩ :=
          enqueued_finishes d₀ (inPhase_run (r.trans q₁)) rfl
        refine ⟨_, _, q₁.trans q₂, ?_, hidle, hsame.worker, hsame.main,
          hsame.subscriber_running_, hsame.worker_running_⟩
        exact List.forall_mem_append.mpr ⟨by simp [Event.aside], hfs⟩
    | false =>
        have q₁ := q₀.tail (.subscriber (.enqueueFails hpc henq))
        have q₂ := q₁.tail (.subscriber (.dropRefused rfl))
        refine ⟨_, _, q₂, ?_, rfl, ⟨rfl, rfl, rfl, rfl⟩⟩
        exact List.forall_mem_append.mpr ⟨by simp [Event.aside], forall_overflow (by rfl) _⟩

/-- **The fast path can finish with the fragment it has.** -/
theorem fastPath_finishes (r : Run (system PoolSize N config d₀) es s) :
    ∃ fs t, Steps (system PoolSize N config d₀) s fs t ∧ (∀ x ∈ fs, x.aside = true) ∧
      (t.fastPath = .idle ∨ t.fastPath = .exited) ∧ OnlySubscriber s t := by
  have q₀ := Steps.refl (M := system PoolSize N config d₀) s
  have hnone : ∀ x ∈ ([] : List (Event PoolSize)), x.aside = true := by simp
  cases hpc : s.fastPath with
  | idle => exact ⟨_, _, q₀, hnone, .inl hpc, .refl s⟩
  | exited => exact ⟨_, _, q₀, hnone, .inr hpc, .refl s⟩
  | allocated f recv b =>
      by_cases hdup : (verdict config s (received s f recv b)).duplicate = true
      · have q₁ := q₀.tail (.subscriber (.trackDuplicate hpc rfl rfl hdup))
        have q₂ := q₁.tail (.subscriber (.dropDuplicate rfl))
        refine ⟨_, _, q₂, ?_, .inl rfl, ⟨rfl, rfl, rfl, rfl⟩⟩
        simp only [List.forall_mem_append]
        exact ⟨⟨by simp, forall_gaps (fun _ => rfl) _, by simp [Event.aside]⟩,
          forall_overflow (by rfl) _⟩
      · have q₁ := q₀.tail (.subscriber (.track hpc rfl rfl (Bool.eq_false_iff.mpr hdup)))
        obtain ⟨fs, t, q₂, hfs, hidle, hsame⟩ := tracked_finishes (r.trans q₁) rfl
        refine ⟨_, _, q₁.trans q₂, ?_, .inl hidle, hsame.worker, hsame.main,
          hsame.subscriber_running_, hsame.worker_running_⟩
        simp only [List.forall_mem_append]
        exact ⟨⟨by simp, forall_gaps (fun _ => rfl) _⟩, hfs⟩
  | duplicate f b =>
      have q₁ := q₀.tail (.subscriber (.dropDuplicate hpc))
      exact ⟨_, _, q₁, forall_overflow (by rfl) _, .inl rfl, ⟨rfl, rfl, rfl, rfl⟩⟩
  | refused f b =>
      have q₁ := q₀.tail (.subscriber (.dropRefused hpc))
      exact ⟨_, _, q₁, forall_overflow (by rfl) _, .inl rfl, ⟨rfl, rfl, rfl, rfl⟩⟩
  | tracked f b =>
      obtain ⟨fs, t, q, hfs, hidle, hsame⟩ := tracked_finishes r hpc
      exact ⟨fs, t, q, hfs, .inl hidle, hsame⟩
  | enqueued f b =>
      obtain ⟨fs, t, q, hfs, hidle, hsame⟩ := enqueued_finishes d₀ (inPhase_run r) hpc
      exact ⟨fs, t, q, hfs, .inl hidle, hsame⟩
  | updating =>
      cases hu : s.checkpoint.updater with
      | idle =>
          have q₁ := q₀.tail (.subscriber (.updated hpc hu))
          exact ⟨_, _, q₁, by simp, .inl rfl, ⟨rfl, rfl, rfl, rfl⟩⟩
      | storing args k =>
          obtain ⟨fs, t, q, hfs, hidle, hsame⟩ :=
            update_finishes config d₀ hpc hu ((inPhase_run r).updating args k hu).2
          exact ⟨fs, t, q, hfs, .inl hidle, hsame⟩

/-! ## The worker -/

theorem OnlyWorker.trans {u : State PoolSize} (h : OnlyWorker s t) (h' : OnlyWorker t u) :
    OnlyWorker s u :=
  ⟨h'.fastPath.trans h.fastPath, h'.checkpoint.trans h.checkpoint, h'.main.trans h.main,
    h'.subscriber_running_.trans h.subscriber_running_,
    h'.worker_running_.trans h.worker_running_⟩

variable (config d₀) in
/-- The worker finishes its round. -/
theorem worker_comes_round {l : List (Fin PoolSize)} (hstores : Stores N s.queue (l.map some))
    (hpc : s.worker ≠ .exited) :
    ∃ fs t, ∃ l' : List (Fin PoolSize), Steps (system PoolSize N config d₀) s fs t ∧
      (∀ x ∈ fs, x.aside = true) ∧ t.worker = .testing ∧ Stores N t.queue (l'.map some) ∧
      OnlyWorker s t := by
  have q₀ := Steps.refl (M := system PoolSize N config d₀) s
  cases hworker : s.worker with
  | exited => exact absurd hworker hpc
  | testing =>
      exact ⟨_, _, l, q₀, by simp, hworker, hstores, rfl, rfl, rfl, rfl, rfl⟩
  | polling =>
      cases l with
      | nil =>
          obtain ⟨-, hempty⟩ | ⟨a, l', hl, -⟩ := dequeue_spec (pointerQueue N PoolSize) hstores
          · have q₁ := q₀.tail (.worker (.queueEmpty hworker hempty))
            exact ⟨_, _, [], q₁, by simp, rfl, hstores, rfl, rfl, rfl, rfl, rfl⟩
          · cases hl
      | cons b l =>
          obtain ⟨fs, t, q, hfs, htesting, hqueue, hsame⟩ :=
            worker_takes (N := N) config d₀ hstores hworker
          exact ⟨fs, t, l, q, hfs, htesting, hqueue, hsame⟩
  | dequeued b =>
      obtain ⟨fs, t, q, hfs, htesting, hqueue, hsame⟩ :=
        worker_finishes (N := N) config d₀ hworker
      exact ⟨fs, t, l, q, hfs, htesting, hqueue ▸ hstores, hsame⟩
  | rejected b =>
      have q₁ := q₀.tail (.worker (.returnRejected hworker))
      exact ⟨_, _, l, q₁, forall_overflow (by rfl) _, rfl, hstores, rfl, rfl, rfl, rfl, rfl⟩
  | processed b =>
      have q₁ := q₀.tail (.worker (.returnProcessed hworker))
      have q₂ := q₁.tail (.worker (.countProcessed rfl))
      refine ⟨_, _, l, q₂, ?_, rfl, hstores, rfl, rfl, rfl, rfl, rfl⟩
      exact List.forall_mem_append.mpr ⟨forall_overflow (by rfl) _, by simp⟩
  | counting =>
      have q₁ := q₀.tail (.worker (.countProcessed hworker))
      exact ⟨_, _, l, q₁, by simp, rfl, hstores, rfl, rfl, rfl, rfl, rfl⟩

variable (config d₀) in
/-- While it is not told to stop, the worker empties the queue. -/
theorem queue_drains {l : List (Fin PoolSize)} (hstores : Stores N s.queue (l.map some))
    (hworker : s.worker = .testing) (hrun : s.worker_running_ = true) :
    ∃ fs t, Steps (system PoolSize N config d₀) s fs t ∧ (∀ x ∈ fs, x.aside = true) ∧
      t.worker = .testing ∧ Stores N t.queue [] ∧ OnlyWorker s t := by
  induction l generalizing s with
  | nil => exact ⟨[], s, .refl s, by simp, hworker, hstores, rfl, rfl, rfl, rfl, rfl⟩
  | cons b l ih =>
      have q₁ := (Steps.refl (M := system PoolSize N config d₀) s).tail
        (.worker (.testRunning hworker hrun))
      obtain ⟨fs, t, q₂, hfs, htesting, hqueue, hsame⟩ := worker_takes (N := N) config d₀
        (s := { s with worker := .polling }) hstores rfl
      obtain ⟨gs, u, q₃, hgs, hdone, hempty, hrest⟩ :=
        ih hqueue htesting (hsame.worker_running_.trans hrun)
      have hall := hsame.trans hrest
      refine ⟨_, u, (q₁.trans q₂).trans q₃, ?_, hdone, hempty, hall.fastPath, hall.checkpoint,
        hall.main, hall.subscriber_running_, hall.worker_running_⟩
      exact List.forall_mem_append.mpr ⟨hfs, hgs⟩

/-! ## Both threads -/

/-- Nothing is in the hands of the threads, and the worker is still running. -/
structure Drained (N : Ring.Size) (s : State PoolSize) : Prop where
  fastPath : s.fastPath = .idle ∨ s.fastPath = .exited
  worker : s.worker = .testing
  running : s.worker_running_ = true
  empty : Stores N s.queue []

/-- **From every reachable state the process can be drained** while the worker is not told to
stop. -/
theorem can_drain (hsize : PoolSize < N.val) (r : Run (system PoolSize N config d₀) es s)
    (hrun : s.worker_running_ = true) :
    ∃ fs t, Steps (system PoolSize N config d₀) s fs t ∧ (∀ x ∈ fs, x.aside = true) ∧
      Drained N t ∧ t.main = s.main := by
  obtain ⟨fs₁, s₁, q₁, hfs₁, hidle, hsub⟩ := fastPath_finishes r
  obtain ⟨l₁, hl₁⟩ := custody_run hsize (r.trans q₁)
  have hrun₁ := hsub.worker_running_.trans hrun
  have hnot : s₁.worker ≠ .exited := fun hexit => by
    rw [(inPhase_run (r.trans q₁)).exited hexit] at hrun₁
    cases hrun₁
  obtain ⟨fs₂, s₂, l₂, q₂, hfs₂, htesting₂, hqueue₂, hsame₂⟩ :=
    worker_comes_round config d₀ hl₁.custody.stores hnot
  obtain ⟨fs₃, s₃, q₃, hfs₃, htesting₃, hempty₃, hsame₃⟩ :=
    queue_drains config d₀ hqueue₂ htesting₂
      (hsame₂.worker_running_.trans hrun₁)
  have hsame := hsame₂.trans hsame₃
  refine ⟨_, s₃, (q₁.trans q₂).trans q₃, ?_, ⟨?_, htesting₃, ?_, hempty₃⟩, ?_⟩
  · simp only [List.forall_mem_append]
    exact ⟨⟨hfs₁, hfs₂⟩, hfs₃⟩
  · rw [hsame.fastPath]
    exact hidle
  · rw [hsame.worker_running_, hrun₁]
  · rw [hsame.main, hsub.main]

/-! ## Shutdown -/

variable (config d₀) in
/-- A drained process whose subscriber has been joined comes to its end. -/
theorem Drained.stopWorker (h : Drained N s) (hmain : s.main = .subscriberJoined)
    (hexit : s.fastPath = .exited) :
    ∃ fs t, Steps (system PoolSize N config d₀) s fs t ∧ arrivals fs = [] ∧
      t.main = .done ∧ Stopping N [] t := by
  have q₁ := (Steps.refl (M := system PoolSize N config d₀) s).tail (.main (.stopWorker hmain))
  have q₂ := q₁.tail (.worker (.exit h.worker rfl))
  have q₃ := q₂.tail (.main (.joinWorker rfl rfl))
  exact ⟨_, _, q₃, rfl, rfl, hexit, rfl, fun _ => rfl, .inr rfl, [], h.empty, rfl⟩

variable (config d₀) in
/-- A drained process whose subscriber has been told to stop comes to its end. -/
theorem Drained.joinSubscriber (h : Drained N s) (hmain : s.main = .subscriberStopped)
    (hstop : s.subscriber_running_ = false) :
    ∃ fs t, Steps (system PoolSize N config d₀) s fs t ∧ arrivals fs = [] ∧
      t.main = .done ∧ Stopping N [] t := by
  have q₀ := Steps.refl (M := system PoolSize N config d₀) s
  rcases h.fastPath with hidle | hexit
  · have q₁ := q₀.tail (.subscriber (.exit hidle hstop))
    have q₂ := q₁.tail (.main (.joinSubscriber hmain rfl))
    obtain ⟨fs, t, q, hfs, hdone, hstopping⟩ := Drained.stopWorker (N := N) config d₀
      (s := { s with fastPath := .exited, main := .subscriberJoined })
      ⟨.inr rfl, h.worker, h.running, h.empty⟩ rfl rfl
    exact ⟨_, t, q₂.trans q, hfs, hdone, hstopping⟩
  · have q₁ := q₀.tail (.main (.joinSubscriber hmain hexit))
    obtain ⟨fs, t, q, hfs, hdone, hstopping⟩ := Drained.stopWorker (N := N) config d₀
      (s := { s with main := .subscriberJoined })
      ⟨.inr hexit, h.worker, h.running, h.empty⟩ rfl hexit
    exact ⟨_, t, q₁.trans q, hfs, hdone, hstopping⟩

/-- A drained process can be shut down, and leaves nothing behind. -/
theorem Drained.shutDown (h : Drained N s) (r : Run (system PoolSize N config d₀) es s) :
    ∃ fs t, Steps (system PoolSize N config d₀) s fs t ∧ arrivals fs = [] ∧
      t.main = .done ∧ Stopping N [] t := by
  have hphase := inPhase_run r
  cases hmain : s.main with
  | running =>
      have q₁ := (Steps.refl (M := system PoolSize N config d₀) s).tail
        (.main (.shutdownSubscriber hmain))
      obtain ⟨fs, t, q, hfs, hdone, hstopping⟩ := Drained.joinSubscriber (N := N) config d₀
        (s := { s with subscriber_running_ := false, main := .subscriberStopped })
        ⟨h.fastPath, h.worker, h.running, h.empty⟩ rfl rfl
      exact ⟨_, t, q₁.trans q, hfs, hdone, hstopping⟩
  | subscriberStopped =>
      refine h.joinSubscriber config d₀ hmain (Bool.eq_false_iff.mpr fun hrun => ?_)
      cases hmain.symm.trans (hphase.subscriber.mp hrun)
  | subscriberJoined =>
      exact h.stopWorker config d₀ hmain (exited_of_joined r (by simp [hmain]) (by simp [hmain]))
  | workerStopped => exact absurd hmain (hphase.worker.mp h.running).1
  | done => exact absurd hmain (hphase.worker.mp h.running).2

/-- A worker that has been told to stop comes to its end. -/
theorem stopped_comes_to_end (hsize : PoolSize < N.val)
    (r : Run (system PoolSize N config d₀) es s) (hmain : s.main = .workerStopped) :
    ∃ fs t, Steps (system PoolSize N config d₀) s fs t ∧ arrivals fs = [] ∧ t.main = .done := by
  have hphase := inPhase_run r
  have hstop : s.worker_running_ = false := by
    rw [Bool.eq_false_iff, ne_eq, hphase.worker]
    exact fun h => h.1 hmain
  by_cases hexit : s.worker = .exited
  · have q₁ := (Steps.refl (M := system PoolSize N config d₀) s).tail
      (.main (.joinWorker hmain hexit))
    exact ⟨_, _, q₁, rfl, rfl⟩
  · obtain ⟨l, hl⟩ := custody_run hsize r
    obtain ⟨fs, t, l', q, hfs, htesting, -, hsame⟩ :=
      worker_comes_round config d₀ hl.custody.stores hexit
    have q₁ := q.tail (.worker (.exit htesting (hsame.worker_running_.trans hstop)))
    have q₂ := q₁.tail (.main (.joinWorker (hsame.main.trans hmain) rfl))
    refine ⟨_, _, q₂, ?_, rfl⟩
    rw [List.append_nil, List.append_nil]
    exact arrivals_of_aside hfs

/-- With single steps, every reachable state can be shut down without a further fragment, and so
that nothing is lost as long as the worker has not been told to stop. -/
theorem shuts_down {es : List (Event poolSize)} {s : State poolSize}
    (r : Run (subscriberProcess config d₀) es s) :
    ∃ fs t, Steps (subscriberProcess config d₀) s fs t ∧ arrivals fs = [] ∧ t.main = .done ∧
      (s.worker_running_ = true → Lossless (es ++ fs) t) := by
  have hphase := inPhase_run r
  by_cases hrun : s.worker_running_ = true
  · obtain ⟨fs₁, t₁, q₁, hfs₁, hdrained, -⟩ := can_drain poolSize_lt r hrun
    obtain ⟨fs₂, t₂, q₂, hfs₂, hdone, hstopping⟩ := hdrained.shutDown (r.trans q₁)
    have hlossless : Lossless (es ++ fs₁ ++ fs₂) t₂ :=
      (hstopping.lossless_iff poolSize_lt ((r.trans q₁).trans q₂) hdone).mpr rfl
    refine ⟨fs₁ ++ fs₂, t₂, q₁.trans q₂, ?_, hdone, fun _ => ?_⟩
    · rw [arrivals_append, arrivals_of_aside hfs₁, hfs₂]
      rfl
    · rwa [← List.append_assoc]
  · have hmain : s.main = .workerStopped ∨ s.main = .done := by
      rw [hphase.worker] at hrun
      tauto
    rcases hmain with hmain | hmain
    · obtain ⟨fs, t, q, hfs, hdone⟩ := stopped_comes_to_end poolSize_lt r hmain
      exact ⟨fs, t, q, hfs, hdone, fun h => absurd h hrun⟩
    · exact ⟨[], s, .refl s, rfl, hmain, fun h => absurd h hrun⟩

/-- **Every state can be shut down** that a run which respects `SlotOrder` has reached, access by
access and without a further fragment, and as long as the worker has not been told to stop, so that
nothing is lost: there is no deadlock, every message that has been accepted can still be judged,
and every buffer gets back to the pool. -/
theorem can_shut_down {as : List (Accesses.Event poolSize)} {a : Accesses.State poolSize}
    (r : Run (orderedProcess config d₀) as a) :
    ∃ bs b, Steps (orderedProcess config d₀) a bs b ∧ Accesses.polls bs = [] ∧
      b.process.main = .done ∧
      (a.process.worker_running_ = true → Lossless (Accesses.history (as ++ bs)) b.process) := by
  -- the calls in progress come to their end, and from there the process shuts down
  obtain ⟨_, b, ⟨as₁, q₁, hpolls₁, -⟩, hquiet, hsame⟩ :=
    Accesses.exists_quiescent config d₀ poolSize_lt (Accesses.ready_run poolSize_lt r)
  have r₁ := r.trans q₁
  obtain ⟨m, hm, hr⟩ := Accesses.process_run_of_ordered poolSize_lt r₁
  rw [hm.process_eq hquiet.subscriber hquiet.worker] at hr
  obtain ⟨fs, t, q, hfs, hdone, hlossless⟩ := shuts_down hr
  obtain ⟨as₂, c, q₂, hpolls₂, hhistory, rfl⟩ :=
    Accesses.exists_ordered_steps poolSize_lt r₁ hquiet q
  refine ⟨as₁ ++ as₂, c, q₁.trans q₂, ?_, hdone, fun hrun => ?_⟩
  · rw [Accesses.polls_append, hpolls₁, hpolls₂, hfs]
    rfl
  · rw [← List.append_assoc, Accesses.history_append, hhistory]
    exact hlossless (hsame.worker_running_.trans hrun)

set_option maxRecDepth 20000 in
/-- With a message in the queue, and the next one in the middle of `allocate`. -/
theorem can_shut_down_queued : ∃ as a,
    Run (orderedProcess { checkpoint_enabled := false } .zero) as a ∧
    acceptances (Accesses.history as) = [⟨[], 64⟩] ∧
    a.subscriberCall = .allocate ⟨[], 128⟩ 9 (.loaded 1023) ∧
    ∃ bs b, Steps (orderedProcess { checkpoint_enabled := false } .zero) a bs b ∧
      Accesses.polls bs = [] ∧ b.process.main = .done ∧
      (a.process.worker_running_ = true → Lossless (Accesses.history (as ++ bs)) b.process) := by
  obtain ⟨es, s, r, haccepted, hidle, hcount⟩ : ∃ es s,
      Run (subscriberProcess { checkpoint_enabled := false } .zero) es s ∧
        acceptances es = [⟨[], 64⟩] ∧ s.fastPath = .idle ∧ s.pool.free_count_ = 1023 :=
    ⟨_, _, firstQueued_run.step (.subscriber (.count rfl rfl)), rfl, rfl, rfl⟩
  obtain ⟨as, a, r₀, hquiet, rfl, -, rfl⟩ :=
    Accesses.exists_ordered_of_process (M := statsQueueSize) r
  have r₁ := r₀.step ⟨.subscriber (.poll ⟨[], 128⟩ 9 hquiet.subscriber hidle),
    Accesses.slotOrder_of_notMem (by simp) (by simp)⟩
  have r₂ := r₁.silent ⟨.subscriber (.load rfl (.inl rfl) (by rw [hcount]; decide)),
    Accesses.slotOrder_of_notMem (by simp) (by simp)⟩
  rw [hcount] at r₂
  refine ⟨_, _, r₂, ?_, rfl, can_shut_down r₂⟩
  rw [Accesses.history_append, acceptances_append, haccepted]
  rfl

end AeronReplay.System
