import AeronReplay.Lib.Generations
import AeronReplay.System.EndToEnd

set_option autoImplicit false

/-! # How often the handler is called

The worker's set of seen sequence numbers is emptied whenever it has grown past its limit, so that
the calls of the handler fall into generations of `seenLimit + 1` calls. In every run that respects
`SlotOrder`, whatever the interleaving and whether or not buffers have been missing, the handler is
called for the accepted messages in their order, at most once for each sequence number and
generation, and at least once for each number that the worker has judged (`handled_once`). -/

namespace AeronReplay

open Transition CheckpointManager MessageWorker

/-! ## The worker as a filter -/

namespace Pipeline

theorem checkSequence_eq : checkSequence = Generations.check seenLimit := rfl

/-- The sequence numbers pass the worker as they pass the filter. -/
theorem worker_eq_filter (fs : List Fragment) :
    (worker fs).seen_sequences_
        = (Generations.filter seenLimit (fs.map Fragment.sequence_number)).seen ∧
      (worker fs).processed.map Fragment.sequence_number
        = (Generations.filter seenLimit (fs.map Fragment.sequence_number)).passed := by
  induction fs using List.reverseRecOn with
  | nil => exact ⟨rfl, rfl⟩
  | append_singleton fs f ih =>
      rw [List.map_append, List.map_singleton, worker_snoc, Generations.filter_snoc,
        WorkerRun.next, Generations.Filter.next, ← ih.1, ← ih.2, checkSequence_eq]
      generalize Generations.check seenLimit (worker fs).seen_sequences_ f.sequence_number = r
      obtain ⟨old, seen⟩ := r
      cases old with
      | true => exact ⟨rfl, rfl⟩
      | false => exact ⟨rfl, List.map_append⟩

end Pipeline

namespace System

variable {PoolSize : Nat} {N : Ring.Size} {config : Config} {d₀ : CheckpointData}
  {s t : State PoolSize} {l : List (Fin PoolSize)} {es e : List (Event PoolSize)}

/-- The worker has done what it does on its own. -/
def Judged (es : List (Event PoolSize)) (s : State PoolSize) : Prop :=
  Pipeline.worker (judgements es) = ⟨s.seen_sequences_, handlerCalls es⟩

/-- A step that judges nothing. -/
theorem Judged.frame (h : Judged es s) (hjudged : judgements e = [])
    (hcalls : handlerCalls e = []) (hseen : t.seen_sequences_ = s.seen_sequences_) :
    Judged (es ++ e) t := by
  rw [Judged, judgements_append, handlerCalls_append, hjudged, hcalls, List.append_nil,
    List.append_nil, hseen]
  exact h

/-- One more message has been judged. -/
theorem Judged.checked (h : Judged es s) (hcustody : Custody N s l) {b : Fin PoolSize}
    {duplicate : Bool} (hpc : s.worker = .dequeued b)
    (hcheck : checkDuplicate s.seen_sequences_ (s.pool.buffers_ b)
      = (duplicate, t.seen_sequences_))
    (hjudged : judgements e = [s.origin b])
    (hcalls : handlerCalls e = if duplicate then [] else [s.origin b]) : Judged (es ++ e) t := by
  have hseq := (hcustody.carries b (by simp [hpc, WorkerPc.held])).1
  rw [checkDuplicate, hseq] at hcheck
  rw [Judged, judgements_append, handlerCalls_append, hjudged, hcalls, Pipeline.worker_snoc, h,
    Pipeline.WorkerRun.next, hcheck]
  cases duplicate <;> simp

theorem judged_subscriber (h : SubscriberStep N config s e t) :
    (∀ x ∈ e, x.judged? = none ∧ x.processed? = none) ∧
      t.seen_sequences_ = s.seen_sequences_ := by
  cases h with
  | trackDuplicate =>
      refine ⟨List.forall_mem_append.mpr ⟨forall_gaps (fun _ => ⟨rfl, rfl⟩) _, ?_⟩, rfl⟩
      simp [Event.judged?, Event.processed?]
  | track => exact ⟨forall_gaps (fun _ => ⟨rfl, rfl⟩) _, rfl⟩
  | dropDuplicate | dropRefused => exact ⟨forall_overflow ⟨rfl, rfl⟩ _, rfl⟩
  | _ => exact ⟨by simp [Event.judged?, Event.processed?], rfl⟩

theorem Judged.step (h : Judged es s) (hcustody : Custody N s l) (hstep : Step N config s e t) :
    Judged (es ++ e) t := by
  cases hstep with
  | subscriber hstep =>
      obtain ⟨hnone, hseen⟩ := judged_subscriber hstep
      exact h.frame (filterMap_eq_nil fun x hx => (hnone x hx).1)
        (filterMap_eq_nil fun x hx => (hnone x hx).2) hseen
  | worker hstep =>
      cases hstep with
      | returnRejected | returnProcessed =>
          exact h.frame (filterMap_eq_nil (forall_overflow (by rfl) _))
            (filterMap_eq_nil (forall_overflow (by rfl) _)) rfl
      -- `validateMessage` refuses nothing but a null pointer
      | rejectInvalid hpc hvalid => cases hvalid
      | rejectDuplicate hpc hvalid hdup | process hpc hvalid hdup =>
          exact h.checked hcustody hpc hdup rfl rfl
      | _ => exact h.frame rfl rfl rfl
  | main hstep =>
      cases hstep with
      | _ => exact h.frame rfl rfl rfl
  | checkpoint _ =>
      exact h.frame (filterMap_eq_nil (by simp [Event.judged?]))
        (filterMap_eq_nil (by simp [Event.processed?])) rfl

theorem judged_run (hsize : PoolSize < N.val) (r : Run (system PoolSize N config d₀) es s) :
    Judged es s := by
  refine (Run.invariant (I := fun es s => (∃ l, InCustody N es s l) ∧ Judged es s) ?_ ?_ r).2
  · intro s h
    refine ⟨custody_run hsize (.init h), ?_⟩
    rw [Judged, h.seen_sequences_]
    rfl
  · rintro es s e t ⟨⟨l, hl⟩, h⟩ hstep
    obtain ⟨l', hnext⟩ := hl.custody.step hsize hstep
    exact ⟨⟨l', hl.step hnext⟩, h.step hl.custody hstep⟩

/-- **The handler is called in order, and once for each number in a generation.** In every run
that respects `SlotOrder` the messages that the handler has been called for are accepted ones, in
the order of their acceptance; two calls for the same sequence number belong to different
generations of `seenLimit + 1` calls, so that the first million numbers are handled at most once;
and each number of a message that the worker has judged has been handled. -/
theorem handled_once {as : List (Accesses.Event poolSize)} {a : Accesses.State poolSize}
    (r : Run (orderedProcess config d₀) as a) :
    (handlerCalls (Accesses.history as)).Sublist (acceptances (Accesses.history as)) ∧
    (∀ i j f g, i < j → (handlerCalls (Accesses.history as))[i]? = some f →
      (handlerCalls (Accesses.history as))[j]? = some g →
      f.sequence_number = g.sequence_number → i / (seenLimit + 1) < j / (seenLimit + 1)) ∧
    ∀ f ∈ judgements (Accesses.history as), ∃ g ∈ handlerCalls (Accesses.history as),
      g.sequence_number = f.sequence_number := by
  obtain ⟨m, -, r⟩ := Accesses.process_run_of_ordered poolSize_lt r
  generalize Accesses.history as = es at r ⊢
  obtain ⟨l, hl⟩ := custody_run poolSize_lt r
  have hworker : Pipeline.worker (judgements es) = ⟨_, handlerCalls es⟩ :=
    judged_run poolSize_lt r
  obtain ⟨-, hnumbers⟩ := Pipeline.worker_eq_filter (judgements es)
  have hsublist := Pipeline.processed_sublist (judgements es)
  rw [hworker] at hnumbers hsublist
  refine ⟨?_, fun i j f g hij hf hg hsame => ?_, fun f hf => ?_⟩
  · rw [hl.judged]
    exact hsublist.trans (List.sublist_append_left _ _)
  · have hapart := Generations.next_generation seenLimit
      ((judgements es).map Fragment.sequence_number)
    rw [← hnumbers] at hapart
    refine hapart i j f.sequence_number hij ?_ ?_
    · rw [List.getElem?_map, hf]
      rfl
    · rw [List.getElem?_map, hg, hsame]
      rfl
  · have hpassed := Generations.mem_passed seenLimit
      (List.mem_map_of_mem (f := Fragment.sequence_number) hf)
    rw [← hnumbers] at hpassed
    exact List.mem_map.mp hpassed

set_option maxRecDepth 20000 in
/-- A message that arrives twice. -/
theorem handled_once_repeated : ∃ as a,
    Run (orderedProcess { duplicate_check_enabled := false } .zero) as a ∧
    handlerCalls (Accesses.history as) = [bareMessage 1 7] ∧
    acceptances (Accesses.history as) = [bareMessage 1 7, bareMessage 1 7] ∧
    ∀ f ∈ judgements (Accesses.history as), ∃ g ∈ handlerCalls (Accesses.history as),
      g.sequence_number = f.sequence_number := by
  obtain ⟨as, a, h, hpolls⟩ := exists_orderedCompleteRun { duplicate_check_enabled := false } .zero
    [bareMessage 1 7, bareMessage 1 7]
  refine ⟨as, a, h.run, ?_, ?_, (handled_once h.run).2.2⟩
  · rw [h.handlerCalls, hpolls]
    decide
  · have haccepted : (Pipeline.fastPath _ (arrivals (Accesses.history as))).accepted
        = acceptances (Accesses.history as) :=
      congrArg Pipeline.FastPathRun.accepted h.single.fastPath
    rw [← haccepted, ← h.polls_eq, hpolls]
    decide

end System

end AeronReplay
