import AeronReplay.System.Accounting
import AeronReplay.System.Histories

set_option autoImplicit false

/-! # Shutdown

`main` stops the subscriber, joins its thread, stops the worker and joins its thread.
`MessageWorker::stop` clears `running_` without looking at the message queue, and the worker
tests `running_` before it looks there, so that the worker leaves behind whatever is queued but
for one message it may be about to dequeue. With single steps this is `StoppedIn.lossless_iff`;
`shutdown_lossless_iff` says it of all runs, access by access, that respect `SlotOrder`. -/

namespace AeronReplay.System

open Transition CheckpointManager RingQueue

variable {PoolSize : Nat} {N : Ring.Size} {config : Config} {d₀ : CheckpointData}
  {es fs : List (Event PoolSize)} {s t : State PoolSize}

/-! ## After `running_` has been cleared -/

/-- What the worker leaves in the queue, from the queue `l` and its place in the loop at the
moment `running_` is cleared. -/
def WorkerPc.leaves (pc : WorkerPc PoolSize) (l : List (Fin PoolSize)) : List (Fin PoolSize) :=
  match pc with
  | .polling => l.tail
  | _ => l

/-- Both threads are told to stop, the subscriber has exited, and the worker will leave `rest`
in the queue. -/
structure Stopping (N : Ring.Size) (rest : List (Fin PoolSize)) (s : State PoolSize) : Prop where
  fastPath : s.fastPath = .exited
  stopped : s.worker_running_ = false
  done : s.main = .done → s.worker = .exited
  main : s.main = .workerStopped ∨ s.main = .done
  queue : ∃ l, Stores N s.queue (l.map some) ∧ s.worker.leaves l = rest

theorem Stopping.worker {rest : List (Fin PoolSize)} (h : Stopping N rest s)
    {e : List (Event PoolSize)} (hstep : WorkerStep N s e t) : Stopping N rest t := by
  obtain ⟨l, hstores, hrest⟩ := h.queue
  have hbusy : s.worker ≠ .exited → s.main ≠ .done := fun hne hdone => hne (h.done hdone)
  cases hstep with
  | testRunning hpc hrun =>
      rw [h.stopped] at hrun
      cases hrun
  | exit hpc hstop =>
      rw [hpc] at hrest
      exact ⟨h.fastPath, h.stopped, fun _ => rfl, h.main, l, hstores, hrest⟩
  | queueEmpty hpc hdeq =>
      rw [hpc] at hrest hbusy
      refine ⟨h.fastPath, h.stopped, fun hdone => absurd hdone (hbusy (by simp)), h.main, l, ?_⟩
      obtain ⟨hnil, hsame⟩ | ⟨a, l', -, hsome, -⟩ :=
        dequeue_spec (pointerQueue N PoolSize) hstores
      · obtain rfl : l = [] := List.map_eq_nil_iff.mp hnil
        rw [hdeq] at hsame
        cases hsame
        exact ⟨hstores, hrest⟩
      · rw [hdeq] at hsome
        cases hsome
  | dequeue now hpc hdeq =>
      rw [hpc] at hrest hbusy
      refine ⟨h.fastPath, h.stopped, fun hdone => absurd hdone (hbusy (by simp)), h.main,
        l.tail, ?_, hrest⟩
      -- the one message that a worker past its test still takes
      obtain ⟨-, hnone⟩ | ⟨a, l', hl, -, hrest'⟩ :=
        dequeue_spec (pointerQueue N PoolSize) hstores
      · rw [hdeq] at hnone
        cases hnone
      · rw [hdeq] at hrest'
        rw [List.map_tail, hl]
        exact hrest'
  | rejectInvalid hpc | rejectDuplicate hpc | process hpc | returnRejected hpc
    | returnProcessed hpc | countProcessed hpc =>
      rw [hpc] at hrest hbusy
      exact ⟨h.fastPath, h.stopped, fun hdone => absurd hdone (hbusy (by simp)), h.main, l,
        hstores, hrest⟩

theorem Stopping.step {rest : List (Fin PoolSize)} (h : Stopping N rest s)
    {e : List (Event PoolSize)} (hstep : Step N config s e t) : Stopping N rest t := by
  cases hstep with
  | subscriber hstep =>
      have hfast := h.fastPath
      cases hstep with
      | arrive _ _ hpc | allocationFails _ hpc | trackDuplicate hpc | track hpc
        | dropDuplicate hpc | enqueue hpc | enqueueFails hpc | dropRefused hpc | count hpc
        | countAndUpdate _ hpc | updated hpc | exit hpc =>
          cases hfast.symm.trans hpc
  | worker hstep => exact h.worker hstep
  | main hstep =>
      cases hstep with
      | shutdownSubscriber hpc | joinSubscriber hpc | stopWorker hpc =>
          rcases h.main with hmain | hmain <;> rw [hpc] at hmain <;> cases hmain
      | joinWorker hpc hexit =>
          exact ⟨h.fastPath, h.stopped, fun _ => hexit, .inr rfl, h.queue⟩
  | checkpoint _ => exact ⟨h.fastPath, h.stopped, h.done, h.main, h.queue⟩

/-! ## The moment of `stop` -/

/-- The run with the events `es` to `t` has cleared the `running_` of the worker in state `s`. -/
structure StoppedIn (N : Ring.Size) (config : Config) (d₀ : CheckpointData)
    (es : List (Event PoolSize)) (t s : State PoolSize) : Prop where
  split : ∃ before after u, es = before ++ .workerStopped :: after ∧
    Run (system PoolSize N config d₀) before s ∧ MainStep s [.workerStopped] u ∧
    Steps (system PoolSize N config d₀) u after t

theorem StoppedIn.step {e : List (Event PoolSize)} {u : State PoolSize}
    (h : StoppedIn N config d₀ es t s) (hstep : Step N config t e u) :
    StoppedIn N config d₀ (es ++ e) u s := by
  obtain ⟨before, after, v, rfl, r, hstop, q⟩ := h.split
  exact ⟨before, after ++ e, v, by simp, r, hstop, q.tail hstep⟩

/-- Once `main` is past `stop`'s store, some state is the one it was made in. -/
theorem exists_stoppedIn (r : Run (system PoolSize N config d₀) es t) :
    t.main = .workerStopped ∨ t.main = .done → ∃ s, StoppedIn N config d₀ es t s := by
  induction r with
  | init hinit =>
      rw [hinit.running.2.2]
      rintro (h | h) <;> cases h
  | @step es e t u r hstep ih =>
      intro hmain
      have hkept : (t.main = .workerStopped ∨ t.main = .done) →
          ∃ s, StoppedIn N config d₀ (es ++ e) u s := fun h => by
        obtain ⟨s, hs⟩ := ih h
        exact ⟨s, hs.step hstep⟩
      cases hstep with
      | subscriber h =>
          refine hkept ?_
          cases h <;> exact hmain
      | worker h =>
          refine hkept ?_
          cases h <;> exact hmain
      | checkpoint h => exact hkept hmain
      | main h =>
          cases h with
          | shutdownSubscriber | joinSubscriber => rcases hmain with h | h <;> cases h
          | stopWorker hpc =>
              exact ⟨t, es, [], _, rfl, r, .stopWorker hpc, .refl _⟩
          | joinWorker hpc => exact hkept (.inl hpc)

/-- The subscriber thread has exited when `main` is past joining it. -/
theorem exited_of_joined (r : Run (system PoolSize N config d₀) es s) :
    s.main ≠ .running → s.main ≠ .subscriberStopped → s.fastPath = .exited := by
  refine Run.invariant (I := fun _ s => s.main ≠ .running → s.main ≠ .subscriberStopped →
    s.fastPath = .exited) ?_ ?_ r
  · intro s h hrunning
    exact absurd h.running.2.2 hrunning
  · intro _ s e t ih hstep
    cases hstep with
    | subscriber h =>
        intro hrunning hstopped
        have hexited : s.fastPath = .exited := ih (by cases h <;> exact hrunning)
          (by cases h <;> exact hstopped)
        cases h with
        | arrive _ _ hpc | allocationFails _ hpc | trackDuplicate hpc | track hpc
          | dropDuplicate hpc | enqueue hpc | enqueueFails hpc | dropRefused hpc | count hpc
          | countAndUpdate _ hpc | updated hpc | exit hpc =>
            cases hexited.symm.trans hpc
    | worker h => cases h <;> exact ih
    | checkpoint h => exact ih
    | main h =>
        cases h with
        | shutdownSubscriber => exact fun _ h => absurd rfl h
        | joinSubscriber hpc hexit => exact fun _ _ => hexit
        | stopWorker hpc | joinWorker hpc =>
            exact fun _ _ => ih (by simp [hpc]) (by simp [hpc])

/-- What the worker leaves behind is decided when `running_` is cleared. -/
theorem StoppedIn.stopping (h : StoppedIn N config d₀ es t s) {l : List (Fin PoolSize)}
    (hstores : Stores N s.queue (l.map some)) : Stopping N (s.worker.leaves l) t := by
  obtain ⟨before, after, u, -, r, hstop, q⟩ := h.split
  cases hstop with
  | stopWorker hpc =>
      -- the subscriber has been joined before, so that nothing more is enqueued
      have hexited := exited_of_joined r (by simp [hpc]) (by simp [hpc])
      have hstart : Stopping N (s.worker.leaves l) { s with
          worker_running_ := false
          main := .workerStopped } :=
        ⟨hexited, rfl, fun hdone => (by cases hdone), .inl rfl, l, hstores, rfl⟩
      exact Steps.invariant (I := fun _ t => Stopping N (s.worker.leaves l) t)
        (fun _ _ _ _ ih hstep => ih.step hstep) q hstart

/-! ## What is lost -/

/-- Every accepted message has been dequeued and counted, and every buffer is back. -/
structure Lossless (es : List (Event PoolSize)) (t : State PoolSize) : Prop where
  dequeued : dequeues es = enqueues es
  judged : judgements es = acceptances es
  counted : t.stats.messages_processed_ + t.stats.messages_invalid_ + t.stats.messages_duplicate_
    = .ofNat (acceptances es).length
  queue : t.queue.head_ = t.queue.tail_
  pool : Places.Each t.pool.freeList

theorem Stopping.lossless_iff {rest : List (Fin PoolSize)} (h : Stopping N rest t)
    (hsize : PoolSize < N.val) (r : Run (system PoolSize N config d₀) es t)
    (hdone : t.main = .done) : Lossless es t ↔ rest = [] := by
  obtain ⟨l, hl⟩ := custody_run hsize r
  have hworker := h.done hdone
  obtain ⟨l', hstores, hrest⟩ := h.queue
  have hsame : l' = l :=
    List.map_injective_iff.mpr (Option.some_injective _) (hstores.unique hl.custody.stores)
  rw [hworker] at hrest
  obtain rfl : l = rest := hsame ▸ hrest
  constructor
  · intro hlossless
    exact List.map_eq_nil_iff.mp (hl.custody.stores.empty_iff.mp hlossless.queue)
  · rintro rfl
    have hdequeued : enqueues es = dequeues es := by
      rw [hl.delivered]
      exact List.append_nil _
    have hjudged : acceptances es = judgements es := by
      rw [hl.judged, waiting, hworker]
      exact List.append_nil _
    refine ⟨hdequeued.symm, hjudged.symm, ?_, hl.custody.stores.empty_iff.mpr rfl, ?_⟩
    · have hcount := (accounting_run r).judged
      rw [hworker, ← hdequeued, length_enqueues] at hcount
      rw [hcount]
      exact (UInt64.add_zero _).symm
    · have hplaces := hl.custody.pool.places
      rw [out, h.fastPath, hworker] at hplaces
      simpa [FastPathPc.held, WorkerPc.held] using hplaces

theorem leaves_eq_nil_iff (pc : WorkerPc PoolSize) (l : List (Fin PoolSize)) :
    pc.leaves l = [] ↔ l.length = 0 ∨ l.length = 1 ∧ pc = .polling := by
  cases pc with
  | polling =>
      match l with
      | [] => simp [WorkerPc.leaves]
      | [a] => simp [WorkerPc.leaves]
      | a :: b :: l => simp [WorkerPc.leaves]
  | _ => simp [WorkerPc.leaves]

/-- The worker has exited when `main` is past joining it. -/
theorem exited_of_done (hsize : PoolSize < N.val) (r : Run (system PoolSize N config d₀) es t)
    (hdone : t.main = .done) : t.worker = .exited := by
  obtain ⟨s, h⟩ := exists_stoppedIn r (.inr hdone)
  obtain ⟨_, _, _, -, rs, -⟩ := h.split
  obtain ⟨l, hl⟩ := custody_run hsize rs
  exact (h.stopping hl.custody.stores).done hdone

/-- With single steps, what is lost is decided by the queue at the moment `running_` is cleared. -/
theorem StoppedIn.lossless_iff (h : StoppedIn N config d₀ es t s) (hsize : PoolSize < N.val)
    (r : Run (system PoolSize N config d₀) es t) (hdone : t.main = .done) : Lossless es t ↔
      MessageQueue.size N s.queue.head_ s.queue.tail_ = 0 ∨
      MessageQueue.size N s.queue.head_ s.queue.tail_ = 1 ∧ s.worker = .polling := by
  obtain ⟨_, _, _, -, rs, -⟩ := h.split
  obtain ⟨l, hl⟩ := custody_run hsize rs
  have hlength : MessageQueue.size N s.queue.head_ s.queue.tail_ = l.length := by
    rw [← List.length_map some]
    exact hl.custody.stores.size_eq (pointerQueue N PoolSize)
  rw [(h.stopping hl.custody.stores).lossless_iff hsize r hdone, hlength, leaves_eq_nil_iff]

/-! ## Access by access -/

namespace Accesses

variable {M : Ring.Size} {a b c : State PoolSize} {as e : List (Event PoolSize)}

/-- Only `main` moves `main`. -/
theorem Step.main_cases (h : Step N M config a e b) : b.process.main = a.process.main ∨
    ∃ es p, MainStep a.process es p ∧ e = shown es ∧ b = { a with monitored.process := p } := by
  cases h with
  | subscriber h =>
      left
      cases h with
      | onItsOwn _ h => cases h <;> rfl
      | _ => rfl
  | worker h =>
      left
      cases h with
      | onItsOwn _ _ _ _ h => cases h <;> rfl
      | _ => rfl
  | monitor h =>
      left
      cases h with
      | _ => rfl
  | main h => exact .inr ⟨_, _, h, rfl, rfl⟩
  | stopMonitoring | joinMonitoring | checkpoint => exact .inl rfl

/-- The run with the events `as` to `a` has cleared the `running_` of the worker in state `c`. -/
structure StoppedIn (N M : Ring.Size) (config : Config) (d₀ : CheckpointData)
    (as : List (Event PoolSize)) (a c : State PoolSize) : Prop where
  split : ∃ before after p, as = before ++ shown [.workerStopped] ++ after ∧
    Run ((system PoolSize N M config d₀).only SlotOrder) before c ∧
    MainStep c.process [.workerStopped] p ∧
    Steps ((system PoolSize N M config d₀).only SlotOrder) { c with monitored.process := p } after a

theorem exists_stoppedIn (r : Run ((system PoolSize N M config d₀).only SlotOrder) as a) :
    a.process.main = .workerStopped ∨ a.process.main = .done →
      ∃ c, StoppedIn N M config d₀ as a c := by
  induction r with
  | init hinit =>
      rw [show State.process _ = _ from rfl, hinit.monitored.process.running.2.2]
      rintro (h | h) <;> cases h
  | @step as e a b r hstep ih =>
      intro hmain
      have hkept : (a.process.main = .workerStopped ∨ a.process.main = .done) →
          ∃ c, StoppedIn N M config d₀ (as ++ e) b c := fun h => by
        obtain ⟨c, before, after, p, rfl, hr, hstop, q⟩ := ih h
        exact ⟨c, before, after ++ e, p, by simp, hr, hstop, q.tail hstep⟩
      obtain hsame | ⟨es, p, h, rfl, rfl⟩ := hstep.1.main_cases
      · exact hkept (hsame ▸ hmain)
      · cases h with
        | shutdownSubscriber | joinSubscriber => rcases hmain with h | h <;> cases h
        | stopWorker hpc =>
            exact ⟨a, as, [], _, by simp, r, .stopWorker hpc, .refl _⟩
        | joinWorker hpc => exact hkept (.inl hpc)

/-- When `main` is done neither thread is in a call. -/
theorem StandsFor.process_eq_of_done {m : Monitored PoolSize} (h : StandsFor N M a m)
    (hsize : PoolSize < N.val) {es : List (System.Event PoolSize)}
    (r : Run (System.system PoolSize N config d₀) es m.process)
    (hdone : m.process.main = .done) : m.process = a.process := by
  have hfast := exited_of_joined r (by simp [hdone]) (by simp [hdone])
  have hworker := exited_of_done hsize r hdone
  have hsame := h.process_eq
  obtain ⟨q, k, l, waiting, rfl, h⟩ := h
  exact hsame (h.none_of_exited.1 hfast) (h.none_of_exited.2 hworker)

/-- The moment of `stop`, when every call is one step. -/
theorem StoppedIn.single (h : StoppedIn N M config d₀ as a c) (hsize : PoolSize < N.val)
    (hdone : a.process.main = .done) : ∃ s, System.StoppedIn N config d₀ (history as) a.process s ∧
      s.queue.head_ = c.process.queue.head_ ∧ s.queue.tail_ = c.process.queue.tail_ ∧
      (s.worker = .polling ↔ c.process.worker = .polling) := by
  obtain ⟨before, after, p, rfl, r, hstop, q⟩ := h.split
  obtain ⟨_, ⟨q₀, k, l, waiting, rfl, hl⟩, r⟩ := run_of_ordered hsize r
  have r₀ := monitored_conservative.toExtension.run r
  cases hstop with
  | stopWorker hpc =>
      have hstands : StandsFor N M { c with monitored.process := { c.process with
          worker_running_ := false
          main := .workerStopped } } _ :=
        ⟨q₀, k, l, waiting, rfl, hl.sound, hl.queue, hl.stats_queue, hl.subscriber, hl.worker,
          hl.duty⟩
      have hsim : Simulation _ (monitoredSystem PoolSize N M config d₀) _ _ :=
        ordered_simulates hsize
      obtain ⟨m, hm, q⟩ := hsim.steps hstands q
      have q₁ := monitored_conservative.toExtension.steps q
      have hstop : MainStep (c.atomic q₀ k).process [.workerStopped] _ := .stopWorker hpc
      have hmain : m.process.main = .done := by
        obtain ⟨_, _, _, _, rfl, -⟩ := hm
        exact hdone
      have hsame := hm.process_eq_of_done hsize ((r₀.step (.main hstop)).trans q₁) hmain
      refine ⟨(c.atomic q₀ k).process, ⟨history before, history after, _, ?_, r₀, hstop,
        hsame ▸ q₁⟩, hl.queue.head, hl.queue.tail, hl.polling_iff⟩
      rw [history_append, history_append, history_shown, List.append_assoc]
      rfl

end Accesses

open Accesses in
/-- **A shutdown loses nothing exactly when the queue is empty at the moment `running_` is
cleared**, or holds one message that the worker is just about to dequeue. -/
theorem shutdown_lossless_iff {as : List (Accesses.Event poolSize)} {a : Accesses.State poolSize}
    (r : Run (orderedProcess config d₀) as a) (hdone : a.process.main = .done) :
    (∃ c, Accesses.StoppedIn queueSize statsQueueSize config d₀ as a c) ∧
    ∀ c, Accesses.StoppedIn queueSize statsQueueSize config d₀ as a c →
      (Lossless (history as) a.process ↔
        MessageQueue.size queueSize c.process.queue.head_ c.process.queue.tail_ = 0 ∨
        MessageQueue.size queueSize c.process.queue.head_ c.process.queue.tail_ = 1 ∧
          c.process.worker = .polling) := by
  refine ⟨Accesses.exists_stoppedIn r (.inr hdone), fun c h => ?_⟩
  obtain ⟨m, hm, hr⟩ := process_run_of_ordered poolSize_lt r
  have hmain : m.process.main = .done := by
    obtain ⟨_, _, _, _, rfl, -⟩ := hm
    exact hdone
  rw [hm.process_eq_of_done poolSize_lt hr hmain] at hr
  obtain ⟨s, hs, hhead, htail, hpolling⟩ := h.single poolSize_lt hdone
  rw [hs.lossless_iff poolSize_lt hr hdone, hhead, htail, hpolling]

/-! ## One message -/

set_option maxRecDepth 20000 in
/-- The worker has passed its test of `running_` when it is told to stop, and takes the message. -/
theorem exists_taken : ∃ es t, Run (subscriberProcess { checkpoint_enabled := false } .zero) es t ∧
    t.main = .done ∧ acceptances es = [⟨[], 64⟩] ∧ handlerCalls es = [⟨[], 64⟩] := by
  have r₁ := firstQueued_run.step (.subscriber (.count rfl rfl))
  have r₂ := r₁.step (.worker (.testRunning rfl rfl))
  have r₃ := r₂.step (.main (.shutdownSubscriber rfl))
  have r₄ := r₃.step (.subscriber (.exit rfl rfl))
  have r₅ := r₄.step (.main (.joinSubscriber rfl rfl))
  have r₆ := r₅.step (.main (.stopWorker rfl))
  have r₇ := r₆.step (.worker (.dequeue 8 rfl rfl))
  have r₈ := r₇.step (.worker (.process rfl rfl rfl))
  have r₉ := r₈.step (.worker (.returnProcessed rfl))
  have r₁₀ := r₉.step (.worker (.countProcessed rfl))
  have r₁₁ := r₁₀.step (.worker (.exit rfl rfl))
  have r₁₂ := r₁₁.step (.main (.joinWorker rfl rfl))
  exact ⟨_, _, r₁₂, rfl, rfl, rfl⟩

/-- With a message that is handled after `running_` has been cleared. -/
theorem shutdown_lossless_iff_taken : ∃ as a,
    Run (orderedProcess { checkpoint_enabled := false } .zero) as a ∧ a.process.main = .done ∧
    handlerCalls (Accesses.history as) = [⟨[], 64⟩] ∧
    (∃ c, Accesses.StoppedIn queueSize statsQueueSize { checkpoint_enabled := false } .zero
      as a c) ∧
    ∀ c, Accesses.StoppedIn queueSize statsQueueSize { checkpoint_enabled := false } .zero as a c →
      (Lossless (Accesses.history as) a.process ↔
        MessageQueue.size queueSize c.process.queue.head_ c.process.queue.tail_ = 0 ∨
        MessageQueue.size queueSize c.process.queue.head_ c.process.queue.tail_ = 1 ∧
          c.process.worker = .polling) := by
  obtain ⟨es, t, r, hdone, -, hhandled⟩ := exists_taken
  obtain ⟨as, a, hr, -, rfl, -, rfl⟩ := Accesses.exists_ordered_of_process (M := statsQueueSize) r
  exact ⟨as, a, hr, hdone, hhandled, shutdown_lossless_iff hr hdone⟩

set_option maxRecDepth 20000 in
/-- The worker is about to test `running_` when it is told to stop, and leaves the message. -/
theorem exists_left : ∃ es t, Run (subscriberProcess { checkpoint_enabled := false } .zero) es t ∧
    t.main = .done ∧ arrivals es = [⟨[], 64⟩] ∧ acceptances es = [⟨[], 64⟩] ∧ judgements es = [] ∧
    t.queue.head_ ≠ t.queue.tail_ := by
  have r₁ := firstQueued_run.step (.subscriber (.count rfl rfl))
  have r₂ := r₁.step (.main (.shutdownSubscriber rfl))
  have r₃ := r₂.step (.subscriber (.exit rfl rfl))
  have r₄ := r₃.step (.main (.joinSubscriber rfl rfl))
  have r₅ := r₄.step (.main (.stopWorker rfl))
  have r₆ := r₅.step (.worker (.exit rfl rfl))
  have r₇ := r₆.step (.main (.joinWorker rfl rfl))
  exact ⟨_, _, r₇, rfl, rfl, rfl, rfl, by decide⟩

/-- A message that is accepted while the worker is about to test `running_` stays in the queue
for good. -/
theorem shutdown_leaves_message : ∃ as a,
    Run (accessProcess { checkpoint_enabled := false } .zero) as a ∧ a.process.main = .done ∧
    acceptances (Accesses.history as) = [⟨[], 64⟩] ∧ judgements (Accesses.history as) = [] ∧
    a.process.queue.head_ ≠ a.process.queue.tail_ := by
  obtain ⟨es, t, r, hdone, -, haccepted, hjudged, hqueue⟩ := exists_left
  obtain ⟨as, a, hr, -, rfl, -, rfl⟩ := Accesses.exists_ordered_of_process (M := statsQueueSize) r
  exact ⟨as, a, hr.of_only, hdone, haccepted, hjudged, hqueue⟩

end AeronReplay.System
