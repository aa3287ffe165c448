import AeronReplay.Subscriber.Pipeline
import AeronReplay.System.Custody

set_option autoImplicit false

/-! # The threads together

Whatever the interleaving, the tracking state of the subscriber and the sequence numbers of the
worker are those of the two filters run one after the other, and once everything has been
handled so is the list of processed messages. -/

namespace AeronReplay.System

open Transition CheckpointManager

variable {PoolSize : Nat} {N : Ring.Size} {config : Config} {s : State PoolSize}
  {l : List (Fin PoolSize)} {es : List (Event PoolSize)}

/-- The fragment that has arrived and is not yet tracked. -/
def FastPathPc.untracked : FastPathPc PoolSize → List Fragment
  | .allocated f _ _ => [f]
  | _ => []

/-- The message that has been tracked and is going to be enqueued. -/
def FastPathPc.toEnqueue : FastPathPc PoolSize → List Fragment
  | .tracked f _ => [f]
  | _ => []

structure Sequential (config : Config) (es : List (Event PoolSize)) (s : State PoolSize) :
    Prop where
  fastPath : ∃ fs, arrivals es = fs ++ s.fastPath.untracked ∧
    Pipeline.fastPath config.toSubscriberConfig fs
      = ⟨s.tracking, acceptances es ++ s.fastPath.toEnqueue, gaps es⟩
  worker : Pipeline.worker (judgements es) = ⟨s.seen_sequences_, handlerCalls es⟩

theorem sequential_init {d₀ : CheckpointData} (h : Initial config d₀ s) :
    Sequential config [] s := by
  refine ⟨⟨[], ?_, ?_⟩, ?_⟩
  · rw [h.fastPath]
    rfl
  · rw [h.fastPath, h.tracking]
    rfl
  · rw [h.seen_sequences_]
    rfl

/-- Neither an arrival nor a decision about a message. -/
def Event.neutral : Event PoolSize → Bool
  | .arrived _ | .accepted _ _ | .gap _ => false
  | .invalid _ | .workerDuplicate _ | .processed _ => false
  | _ => true

theorem Event.of_neutral {x : Event PoolSize} (h : x.neutral = true) :
    x.arrived? = none ∧ x.accepted? = none ∧ x.gap? = none ∧ x.judged? = none ∧
      x.processed? = none := by
  cases x with
  | arrived | accepted | gap | invalid | workerDuplicate | processed => cases h
  | _ => exact ⟨rfl, rfl, rfl, rfl, rfl⟩

theorem Sequential.neutral (h : Sequential config es s) {e : List (Event PoolSize)}
    {t : State PoolSize} (he : ∀ x ∈ e, x.neutral = true) (htracking : t.tracking = s.tracking)
    (huntracked : t.fastPath.untracked = s.fastPath.untracked)
    (htoEnqueue : t.fastPath.toEnqueue = s.fastPath.toEnqueue)
    (hseen : t.seen_sequences_ = s.seen_sequences_) : Sequential config (es ++ e) t := by
  have harrived : arrivals e = [] := filterMap_eq_nil fun x hx => (Event.of_neutral (he x hx)).1
  have haccepted : acceptances e = [] :=
    filterMap_eq_nil fun x hx => (Event.of_neutral (he x hx)).2.1
  have hgaps : gaps e = [] := filterMap_eq_nil fun x hx => (Event.of_neutral (he x hx)).2.2.1
  have hjudged : judgements e = [] :=
    filterMap_eq_nil fun x hx => (Event.of_neutral (he x hx)).2.2.2.1
  have hprocessed : handlerCalls e = [] :=
    filterMap_eq_nil fun x hx => (Event.of_neutral (he x hx)).2.2.2.2
  refine ⟨?_, ?_⟩
  · rw [arrivals_append, acceptances_append, gaps_append, harrived, haccepted, hgaps, htracking,
      huntracked, htoEnqueue]
    simpa using h.fastPath
  · rw [judgements_append, handlerCalls_append, hjudged, hprocessed, hseen]
    simpa using h.worker

/-- The verdict is about the number that the fragment carries. -/
theorem Custody.verdict (h : Custody N s l) {f : Fragment} {recv : Int64} {b : Fin PoolSize}
    {m : MessageBuffer} {v : AeronSubscriber.Verdict} (hpc : s.fastPath = .allocated f recv b)
    (hm : received s f recv b = m) (hv : verdict config s m = v) :
    AeronSubscriber.track config.toSubscriberConfig s.tracking f.message_number = v := by
  rw [← hv, ← hm, System.verdict, received, ← h.reset f recv b hpc,
    AeronSubscriber.receive_sequence_number]
  rfl

/-- A step that decides nothing on the side of the worker. -/
theorem Sequential.ofFastPath (h : Sequential config es s) {e : List (Event PoolSize)}
    {t : State PoolSize} (hnone : ∀ x ∈ e, x.judged? = none ∧ x.processed? = none)
    (hseen : t.seen_sequences_ = s.seen_sequences_)
    (hfast : ∃ fs, arrivals (es ++ e) = fs ++ t.fastPath.untracked ∧
      Pipeline.fastPath config.toSubscriberConfig fs
        = ⟨t.tracking, acceptances (es ++ e) ++ t.fastPath.toEnqueue, gaps (es ++ e)⟩) :
    Sequential config (es ++ e) t where
  fastPath := hfast
  worker := by
    have hjudged : judgements e = [] := filterMap_eq_nil fun x hx => (hnone x hx).1
    have hprocessed : handlerCalls e = [] := filterMap_eq_nil fun x hx => (hnone x hx).2
    rw [judgements_append, handlerCalls_append, hjudged, hprocessed, List.append_nil,
      List.append_nil, h.worker, hseen]

/-- The events of a step that tracks a message: its gap, if any, and perhaps its rejection. -/
structure Tracks (gap : Option (Int64 × Int64)) (e : List (Event PoolSize)) : Prop where
  gaps : gaps e = gap.toList
  silent : ∀ x ∈ e, x.arrived? = none ∧ x.accepted? = none ∧ x.judged? = none ∧
    x.processed? = none

theorem tracks_gap (gap : Option (Int64 × Int64)) :
    Tracks gap (gap.toList.map .gap : List (Event PoolSize)) where
  gaps := by cases gap <;> rfl
  silent := forall_gaps (fun _ => ⟨rfl, rfl, rfl, rfl⟩) gap

theorem tracks_duplicate (gap : Option (Int64 × Int64)) (f : Fragment) :
    Tracks gap (gap.toList.map .gap ++ [.subscriberDuplicate f] : List (Event PoolSize)) where
  gaps := by cases gap <;> rfl
  silent := List.forall_mem_append.mpr
    ⟨forall_gaps (fun _ => ⟨rfl, rfl, rfl, rfl⟩) gap, by
      rintro x hx
      obtain rfl := List.mem_singleton.mp hx
      exact ⟨rfl, rfl, rfl, rfl⟩⟩

/-- One more fragment has been tracked. -/
theorem Sequential.tracked (h : Sequential config es s) {f : Fragment} {recv : Int64}
    {b : Fin PoolSize} {v : AeronSubscriber.Verdict} {e : List (Event PoolSize)}
    {t : State PoolSize} (hpc : s.fastPath = .allocated f recv b)
    (hv : AeronSubscriber.track config.toSubscriberConfig s.tracking f.message_number = v)
    (he : Tracks v.gap e) (htracking : t.tracking = v.tracking)
    (huntracked : t.fastPath.untracked = [])
    (htoEnqueue : t.fastPath.toEnqueue = if v.duplicate then [] else [f])
    (hseen : t.seen_sequences_ = s.seen_sequences_) : Sequential config (es ++ e) t := by
  obtain ⟨fs, harrivals, hrun⟩ := h.fastPath
  have harrived : arrivals e = [] := filterMap_eq_nil fun x hx => (he.silent x hx).1
  have haccepted : acceptances e = [] := filterMap_eq_nil fun x hx => (he.silent x hx).2.1
  refine h.ofFastPath (fun x hx => (he.silent x hx).2.2) hseen ⟨fs ++ [f], ?_, ?_⟩
  · rw [arrivals_append, harrived, harrivals, huntracked, hpc]
    rfl
  · rw [Pipeline.fastPath_snoc, hrun, Pipeline.FastPathRun.next, hpc, hv, acceptances_append,
      haccepted, gaps_append, he.gaps, htracking, htoEnqueue]
    cases v.duplicate <;> simp [FastPathPc.toEnqueue]

theorem Sequential.subscriberStep (h : Sequential config es s) (hcustody : Custody N s l)
    {e : List (Event PoolSize)} {t : State PoolSize} (hstep : SubscriberStep N config s e t)
    (hpool : ∀ f, .allocationFailed f ∉ e) (hroom : ∀ x ∈ e, x.failure = false) :
    Sequential config (es ++ e) t := by
  cases hstep with
  | arrive f recv hpc halloc =>
      obtain ⟨fs, harrivals, hrun⟩ := h.fastPath
      rw [hpc] at harrivals hrun
      refine h.ofFastPath (by simp [Event.judged?, Event.processed?]) rfl ⟨fs, ?_, ?_⟩
      · rw [arrivals_append, harrivals, List.append_assoc]
        rfl
      · have hgaps : gaps [(.arrived f : Event PoolSize)] = [] := rfl
        rw [hrun, acceptances_append, gaps_append, hgaps, List.append_nil, List.append_assoc]
        rfl
  | allocationFails f hpc halloc => exact absurd (by simp) (hpool f)
  | @trackDuplicate f recv b m v hpc hb hv hdup =>
      refine h.tracked hpc (hcustody.verdict hpc hb hv) (tracks_duplicate v.gap f) rfl rfl ?_ rfl
      rw [hdup]
      rfl
  | @track f recv b m v hpc hb hv hdup =>
      refine h.tracked hpc (hcustody.verdict hpc hb hv) (tracks_gap v.gap) rfl rfl ?_ rfl
      rw [hdup]
      rfl
  | dropDuplicate hpc | dropRefused hpc =>
      refine h.neutral (forall_overflow (by rfl) _) rfl ?_ ?_ rfl <;> rw [hpc] <;> rfl
  | @enqueue f b q hpc henq =>
      obtain ⟨fs, harrivals, hrun⟩ := h.fastPath
      rw [hpc] at harrivals hrun
      refine h.ofFastPath (by simp [Event.judged?, Event.processed?]) rfl ⟨fs, ?_, ?_⟩
      · rw [arrivals_append, harrivals, List.append_assoc]
        rfl
      · have hgaps : gaps [.accepted f b] = [] := rfl
        rw [hrun, acceptances_append, gaps_append, hgaps, List.append_nil, List.append_assoc]
        rfl
  | enqueueFails hpc henq => cases hroom _ (List.mem_singleton_self _)
  | count hpc hoff | countAndUpdate _ hpc hon hidle | updated hpc hidle | exit hpc hstop =>
      refine h.neutral (by simp) rfl ?_ ?_ rfl <;> rw [hpc] <;> rfl

/-- One more message has been judged. -/
theorem Sequential.checked (h : Sequential config es s) (hcustody : Custody N s l)
    {b : Fin PoolSize} {e : List (Event PoolSize)} {t : State PoolSize} {duplicate : Bool}
    (hpc : s.worker = .dequeued b)
    (hcheck : MessageWorker.checkDuplicate s.seen_sequences_ (s.pool.buffers_ b)
      = (duplicate, t.seen_sequences_))
    (hnone : ∀ x ∈ e, x.arrived? = none ∧ x.accepted? = none ∧ x.gap? = none)
    (hjudged : judgements e = [s.origin b])
    (hprocessed : handlerCalls e = if duplicate then [] else [s.origin b])
    (htracking : t.tracking = s.tracking) (hfast : t.fastPath = s.fastPath) :
    Sequential config (es ++ e) t := by
  have hseq := (hcustody.carries b (by simp [hpc, WorkerPc.held])).1
  rw [MessageWorker.checkDuplicate, hseq] at hcheck
  refine ⟨?_, ?_⟩
  · have harrived : arrivals e = [] := filterMap_eq_nil fun x hx => (hnone x hx).1
    have haccepted : acceptances e = [] := filterMap_eq_nil fun x hx => (hnone x hx).2.1
    have hgaps : gaps e = [] := filterMap_eq_nil fun x hx => (hnone x hx).2.2
    rw [arrivals_append, acceptances_append, gaps_append, harrived, haccepted, hgaps, htracking,
      hfast]
    simpa using h.fastPath
  · rw [judgements_append, handlerCalls_append, hjudged, hprocessed, Pipeline.worker_snoc,
      h.worker, Pipeline.WorkerRun.next, hcheck]
    cases duplicate <;> simp

theorem Sequential.workerStep (h : Sequential config es s) (hcustody : Custody N s l)
    {e : List (Event PoolSize)} {t : State PoolSize} (hstep : WorkerStep N s e t) :
    Sequential config (es ++ e) t := by
  cases hstep with
  | testRunning | exit | queueEmpty | countProcessed =>
      exact h.neutral (by simp) rfl rfl rfl rfl
  | dequeue => exact h.neutral (by simp [Event.neutral]) rfl rfl rfl rfl
  | returnRejected | returnProcessed =>
      exact h.neutral (forall_overflow (by rfl) _) rfl rfl rfl rfl
  -- `validateMessage` refuses nothing but a null pointer
  | rejectInvalid hpc hvalid => cases hvalid
  | rejectDuplicate hpc hvalid hdup | process hpc hvalid hdup =>
      exact h.checked hcustody hpc hdup
        (by simp [Event.arrived?, Event.accepted?, Event.gap?]) rfl rfl rfl rfl

theorem Sequential.step (h : Sequential config es s) (hcustody : Custody N s l)
    {e : List (Event PoolSize)} {t : State PoolSize} (hstep : Step N config s e t)
    (hpool : ∀ f, .allocationFailed f ∉ e) (hroom : ∀ x ∈ e, x.failure = false) :
    Sequential config (es ++ e) t := by
  cases hstep with
  | subscriber hstep => exact h.subscriberStep hcustody hstep hpool hroom
  | worker hstep => exact h.workerStep hcustody hstep
  | main hstep =>
      cases hstep with
      | _ => exact h.neutral (by simp [Event.neutral]) rfl rfl rfl rfl
  | checkpoint _ => exact h.neutral (by simp [Event.neutral]) rfl rfl rfl rfl

theorem sequential_run (hsize : PoolSize < N.val) {d₀ : CheckpointData}
    (r : Run (system PoolSize N config d₀) es s) (hpool : ∀ f, .allocationFailed f ∉ es) :
    Sequential config es s := by
  refine (Run.invariant (I := fun es s => (∃ l, InCustody N es s l) ∧
    ((∀ f, .allocationFailed f ∉ es) → Sequential config es s)) ?_ ?_ r).2 hpool
  · intro s h
    exact ⟨custody_run hsize (.init h), fun _ => sequential_init h⟩
  · rintro es s e t ⟨⟨l, hl⟩, ih⟩ hstep
    obtain ⟨l', hnext⟩ := hl.custody.step hsize hstep
    refine ⟨⟨l', hl.step hnext⟩, fun hpool => ?_⟩
    have hbefore := ih fun f hf => hpool f (List.mem_append_left _ hf)
    exact hbefore.step hl.custody hstep (fun f hf => hpool f (List.mem_append_right _ hf))
      hnext.noFailure

/-! ## When everything has been handled -/

/-- Neither thread is busy with a message, and none is queued. -/
structure State.Settled (s : State PoolSize) : Prop where
  between : s.BetweenMessages
  empty : s.queue.head_ = s.queue.tail_

/-- In a settled state the worker has judged all that has been accepted. -/
theorem acceptances_of_settled (hsize : PoolSize < N.val) {d₀ : CheckpointData}
    (r : Run (system PoolSize N config d₀) es s) (hsettled : s.Settled) :
    acceptances es = judgements es := by
  obtain ⟨l, hl⟩ := custody_run hsize r
  have hempty : l = [] :=
    List.map_eq_nil_iff.mp (hl.custody.stores.empty_iff.mp hsettled.empty)
  have hunjudged : s.worker.unjudged = [] := by
    rcases hsettled.between.2 with h | h | h <;> rw [h] <;> rfl
  rw [hl.judged, waiting, hempty, hunjudged]
  exact List.append_nil _

/-- **In a settled state the run has done what the two filters do in sequence**, whatever the
interleaving of the threads was. -/
theorem settled_run (hsize : PoolSize < N.val) {d₀ : CheckpointData}
    (r : Run (system PoolSize N config d₀) es s) (hpool : ∀ f, .allocationFailed f ∉ es)
    (hsettled : s.Settled) :
    Pipeline.fastPath config.toSubscriberConfig (arrivals es)
        = ⟨s.tracking, acceptances es, gaps es⟩ ∧
      handlerCalls es = Pipeline.processed config.toSubscriberConfig (arrivals es) := by
  obtain ⟨⟨fs, harrivals, hfast⟩, hworker⟩ := sequential_run hsize r hpool
  have hnone : s.fastPath.untracked = [] ∧ s.fastPath.toEnqueue = [] := by
    rcases hsettled.between.1 with h | h <;> rw [h] <;> exact ⟨rfl, rfl⟩
  rw [hnone.1, List.append_nil] at harrivals
  rw [hnone.2, List.append_nil, ← harrivals] at hfast
  refine ⟨hfast, ?_⟩
  rw [Pipeline.processed, hfast, acceptances_of_settled hsize r hsettled, hworker]

end AeronReplay.System
