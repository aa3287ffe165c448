import AeronReplay.System.Threads

set_option autoImplicit false

/-! # Who has which buffer

The ownership invariant of the subscriber process: every buffer is in exactly one place (free
list, message queue, with the subscriber, with the worker), `in_use` says which of the first is
the case, and a buffer that carries a message keeps it unchanged until it is returned. The
places move one buffer at a time, along every exit path of the two loops. -/

namespace AeronReplay.System

open Transition CheckpointManager Places RingQueue

variable {PoolSize : Nat} {N : Ring.Size} {config : Config}

/-! ## Places and contents -/

/-- The buffer that the subscriber has allocated and not yet passed on. -/
def FastPathPc.held : FastPathPc PoolSize → List (Fin PoolSize)
  | .allocated _ _ b => [b]
  | .duplicate _ b => [b]
  | .tracked _ b => [b]
  | .refused _ b => [b]
  | _ => []

/-- The buffer that the worker has dequeued and not yet returned. -/
def WorkerPc.held : WorkerPc PoolSize → List (Fin PoolSize)
  | .dequeued b => [b]
  | .rejected b => [b]
  | .processed b => [b]
  | _ => []

/-- The buffer whose message the worker has still to judge. -/
def WorkerPc.unjudged : WorkerPc PoolSize → List (Fin PoolSize)
  | .dequeued b => [b]
  | _ => []

theorem WorkerPc.held_of_unjudged {pc : WorkerPc PoolSize} {b : Fin PoolSize}
    (h : b ∈ pc.unjudged) : b ∈ pc.held := by
  cases pc with
  | dequeued b' => exact h
  | _ => cases h

/-- The buffer that the fast path is going to enqueue. -/
def FastPathPc.filled : FastPathPc PoolSize → List (Fin PoolSize)
  | .tracked _ b => [b]
  | _ => []

theorem FastPathPc.held_of_filled {pc : FastPathPc PoolSize} {b : Fin PoolSize}
    (h : b ∈ pc.filled) : b ∈ pc.held := by
  cases pc with
  | tracked f b' => exact h
  | _ => cases h

/-- The buffer holds the message of the fragment. -/
def Carries (f : Fragment) (b : MessageBuffer) : Prop :=
  b.header.sequence_number = f.sequence_number ∧ b.payloadBytes = f.payload

/-- The buffers that are out while the message queue holds `l`. -/
def out (s : State PoolSize) (l : List (Fin PoolSize)) : List (Fin PoolSize) :=
  l ++ s.fastPath.held ++ s.worker.held

/-- The message queue holds the buffers `l`, and all that follows. -/
structure Custody (N : Ring.Size) (s : State PoolSize) (l : List (Fin PoolSize)) : Prop where
  stores : Stores N s.queue (l.map some)
  pool : s.pool.Lends (out s l)
  /-- A buffer that has just been allocated is as `reset` leaves it. -/
  reset : ∀ f recv b, s.fastPath = .allocated f recv b →
    (s.pool.buffers_ b).reset = s.pool.buffers_ b
  origin : ∀ f b, s.fastPath = .tracked f b → s.origin b = f
  carries : ∀ b ∈ l ++ s.fastPath.filled ++ s.worker.held,
    Carries (s.origin b) (s.pool.buffers_ b)

theorem custody_init {d₀ : CheckpointData} {s : State PoolSize} (h : Initial config d₀ s) :
    Custody N s [] := by
  refine ⟨⟨?_, N.val_pos, ?_, rfl⟩, ?_, ?_, ?_, ?_⟩
  · rw [h.queue.1]
    exact N.val_pos
  · rw [h.queue.1, h.queue.2]
    exact (Nat.zero_mod _).symm
  · rw [out, h.fastPath, h.worker]
    exact h.pool.lends
  · intro f recv b hpc
    rw [h.fastPath] at hpc
    cases hpc
  · intro f b hpc
    rw [h.fastPath] at hpc
    cases hpc
  · intro b hb
    rw [h.fastPath, h.worker] at hb
    cases hb

variable {s : State PoolSize} {l : List (Fin PoolSize)}

/-! ## The steps of the fast path -/

theorem Custody.arrive (h : Custody N s l) {p : BufferPool PoolSize} {b : Fin PoolSize}
    (f : Fragment) (recv : Int64) (hpc : s.fastPath = .idle)
    (halloc : s.pool.allocate = (some b, p)) :
    Custody N { s with
      pool := p
      fastPath := .allocated f recv b } l := by
  obtain ⟨hpool, hself, hother⟩ := h.pool.allocate halloc
  have hnew : b ∉ out s l := (List.nodup_cons.mp (List.nodup_append.mp hpool.places.nodup).2.1).1
  refine ⟨h.stores, hpool.of_count_eq fun a => ?_, ?_, ?_, ?_⟩
  · simp only [out, hpc, FastPathPc.held, List.count_append, List.count_cons, List.count_nil]
    omega
  · intro f' recv' b' hpc'
    cases hpc'
    show (p.buffers_ b).reset = p.buffers_ b
    rw [hself]
    rfl
  · intro f' b' hpc'
    cases hpc'
  · -- the other buffers keep their messages, since `allocate` resets only the one it returns
    intro a ha
    have hout : a ∈ out s l := by
      simp only [out, hpc, FastPathPc.held, FastPathPc.filled] at ha ⊢
      exact ha
    have hne : a ≠ b := fun heq => hnew (heq ▸ hout)
    show Carries (s.origin a) (p.buffers_ a)
    rw [hother a hne]
    refine h.carries a ?_
    rw [hpc]
    exact ha

/-- The fast path keeps the buffer it holds, empty-handed or not. -/
theorem Custody.fastPath (h : Custody N s l) {pc : FastPathPc PoolSize}
    (hheld : pc.held = s.fastPath.held) (hfilled : pc.filled = [])
    (hpc : ∀ f recv b, pc ≠ .allocated f recv b ∧ pc ≠ .tracked f b) (st : Statistics)
    (c : Snapshot) :
    Custody N { s with
      fastPath := pc
      stats := st
      checkpoint := c } l := by
  refine ⟨h.stores, ?_, fun f recv b heq => absurd heq (hpc f recv b).1,
    fun f b heq => absurd heq (hpc f 0 b).2, fun b hb => h.carries b ?_⟩
  · rw [out, hheld]
    exact h.pool
  · rw [hfilled] at hb
    simp only [List.mem_append] at hb ⊢
    tauto

/-- The message is copied into the buffer of the fast path. -/
theorem Custody.receive (h : Custody N s l) {f : Fragment} {recv : Int64} {b : Fin PoolSize}
    {m : MessageBuffer} {pc : FastPathPc PoolSize} (hpc : s.fastPath = .allocated f recv b)
    (hm : received s f recv b = m) (hnew : pc = .duplicate f b ∨ pc = .tracked f b)
    (tracking : Tracking) (st : Statistics) :
    Custody N { s with
      pool := s.pool.write b m
      tracking := tracking
      fastPath := pc
      stats := st
      origin := Function.update s.origin b f } l := by
  have hheld : pc.held = s.fastPath.held := by
    rw [hpc]
    rcases hnew with rfl | rfl <;> rfl
  have hreset := h.reset f recv b hpc
  have hflag : m.in_use = (s.pool.buffers_ b).in_use := by
    rw [← hm]
    exact AeronSubscriber.receive_in_use _ _ _
  -- after `reset` the copy depends on the fragment alone
  have hcarries : Carries f m := by
    rw [← hm, received, ← hreset]
    exact ⟨AeronSubscriber.receive_sequence_number _ f recv,
      AeronSubscriber.receive_payloadBytes _ f recv⟩
  obtain ⟨hpool, hself, hother⟩ := h.pool.write b hflag
  refine ⟨h.stores, ?_, ?_, ?_, fun a ha => ?_⟩
  · rw [out, hheld]
    exact hpool
  · rintro f' recv' b' heq
    rcases hnew with rfl | rfl <;> cases heq
  · rintro f' b' heq
    rcases hnew with rfl | rfl
    · cases heq
    · cases heq
      exact Function.update_self _ _ _
  · show Carries (Function.update s.origin b f a) ((s.pool.write b m).buffers_ a)
    by_cases hab : a = b
    · rw [hab, Function.update_self, hself]
      exact hcarries
    · rw [Function.update_of_ne hab, hother a hab]
      refine h.carries a ?_
      rcases hnew with rfl | rfl <;>
        simpa [FastPathPc.filled, hpc, hab] using ha

/-- The fast path returns the buffer of a message that it drops. -/
theorem Custody.drop (h : Custody N s l) {b : Fin PoolSize} (hheld : s.fastPath.held = [b])
    (st : Statistics) :
    Custody N { s with
      pool := s.pool.deallocate (.buffer b)
      fastPath := .idle
      stats := st } l := by
  have hout : s.pool.Lends (b :: (l ++ s.worker.held)) := by
    refine h.pool.of_count_eq fun a => ?_
    rw [out, hheld]
    simp only [List.count_append, List.count_cons, List.count_nil]
    omega
  obtain ⟨hpool, hother⟩ := hout.deallocate
  refine ⟨h.stores, hpool.of_count_eq fun a => ?_, fun _ _ _ heq => (by cases heq),
    fun _ _ heq => (by cases heq), fun a ha => ?_⟩
  · simp only [out, FastPathPc.held, List.append_nil]
  · have hmem : a ∈ l ++ s.worker.held := by
      simpa [FastPathPc.filled] using ha
    -- the buffer that is returned is in no other place
    have hne : a ≠ b := by
      rintro rfl
      exact (List.nodup_cons.mp (List.nodup_append.mp hout.places.nodup).2.1).1 hmem
    show Carries (s.origin a) ((s.pool.deallocate (.buffer b)).buffers_ a)
    rw [hother a hne]
    refine h.carries a ?_
    simp only [List.mem_append] at hmem ⊢
    tauto

/-- The message queue has room for every buffer of the pool. -/
theorem Custody.enqueue (h : Custody N s l) (hsize : PoolSize < N.val) {f : Fragment}
    {b : Fin PoolSize} {ok : Bool} {q : RingQueue (Option (Fin PoolSize))}
    (hpc : s.fastPath = .tracked f b)
    (henq : RingQueue.enqueue (pointerQueue N PoolSize) s.queue (some b) = (ok, q)) :
    ok = true ∧ Custody N { s with
      queue := q
      fastPath := .enqueued f b } (l ++ [b]) := by
  have hplaces := h.pool.places.length_eq
  rw [out, hpc] at hplaces
  simp only [FastPathPc.held, List.length_append, List.length_singleton] at hplaces
  rcases enqueue_spec (pointerQueue N PoolSize) h.stores
      (rfl : (pointerQueue N PoolSize).refuses (some b) = false) with
    ⟨-, hok, hstores⟩ | ⟨hfull, -⟩
  · rw [henq] at hok hstores
    refine ⟨hok, ?_, h.pool.of_count_eq fun a => ?_, fun _ _ _ heq => (by cases heq),
      fun _ _ heq => (by cases heq), fun a ha => h.carries a ?_⟩
    · rwa [List.map_append]
    · simp only [out, hpc, FastPathPc.held, List.append_nil]
    · rw [hpc]
      simpa [FastPathPc.filled] using ha
  · -- a full queue would hold more buffers than there are
    rw [List.length_map] at hfull
    omega

/-- The buffer that the fast path has just allocated is not waiting for the worker. -/
theorem Custody.ne_allocated (h : Custody N s l) {f : Fragment} {recv : Int64}
    {b : Fin PoolSize} (hpc : s.fastPath = .allocated f recv b) {a : Fin PoolSize}
    (ha : a ∈ s.worker.unjudged ++ l) : a ≠ b := by
  have hnodup := (List.nodup_append.mp h.pool.places.nodup).2.1
  simp only [out, hpc, FastPathPc.held, List.append_assoc, List.nodup_append,
    List.singleton_append, List.nodup_cons] at hnodup
  obtain ⟨-, ⟨hworker, -⟩, hqueue⟩ := hnodup
  rcases List.mem_append.mp ha with ha | ha
  · rintro rfl
    exact hworker (WorkerPc.held_of_unjudged ha)
  · exact hqueue a ha b List.mem_cons_self

/-! ## The steps of the worker -/

theorem Custody.dequeue (h : Custody N s l) {b : Fin PoolSize}
    {q : RingQueue (Option (Fin PoolSize))} (now : Int64) (hpc : s.worker = .polling)
    (hdeq : RingQueue.dequeue (pointerQueue N PoolSize) s.queue = (some (some b), q)) :
    ∃ l', l = b :: l' ∧ Custody N { s with
      pool := s.pool.write b { s.pool.buffers_ b with worker_dequeue_time_ns := now }
      queue := q
      worker := .dequeued b } l' := by
  obtain ⟨-, hnone⟩ | ⟨x, xs, hl, hx, hstores⟩ :=
    dequeue_spec (pointerQueue N PoolSize) h.stores
  · rw [hnone] at hdeq
    cases hdeq
  rw [hdeq] at hx hstores
  cases l with
  | nil => cases hl
  | cons b' l' =>
      rw [List.map_cons] at hl
      cases hx
      cases hl
      obtain ⟨hpool, hself, hother⟩ :=
        h.pool.write b (b := { s.pool.buffers_ b with worker_dequeue_time_ns := now }) rfl
      have hcarries : ∀ a, Carries (s.origin a) (s.pool.buffers_ a) → Carries (s.origin a)
          ((s.pool.write b
            { s.pool.buffers_ b with worker_dequeue_time_ns := now }).buffers_ a) := by
        intro a ha
        by_cases hab : a = b
        · rw [hab, hself]
          exact hab ▸ ha
        · rwa [hother a hab]
      -- what the fast path has just allocated is not what was queued
      have hreset : ∀ f recv a, s.fastPath = .allocated f recv a → a ≠ b := by
        rintro f recv a hfast rfl
        have hnodup := (List.nodup_append.mp h.pool.places.nodup).2.1
        simp [out, hfast, FastPathPc.held] at hnodup
      refine ⟨l', rfl, hstores, hpool.of_count_eq fun a => ?_, fun f recv a hfast => ?_,
        h.origin, fun a ha => hcarries a (h.carries a ?_)⟩
      · simp only [out, hpc, WorkerPc.held, List.count_append, List.count_cons, List.count_nil]
        omega
      · show (((s.pool.write b _).buffers_ a)).reset = (s.pool.write b _).buffers_ a
        rw [hother a (hreset f recv a hfast)]
        exact h.reset f recv a hfast
      · rw [hpc]
        simp only [WorkerPc.held, List.mem_append, List.mem_cons, List.not_mem_nil,
          or_false] at ha ⊢
        tauto

/-- The worker keeps the buffer it holds, empty-handed or not. -/
theorem Custody.worker (h : Custody N s l) {pc : WorkerPc PoolSize}
    (hheld : pc.held = s.worker.held) (seen : Finset UInt64) (st : Statistics) :
    Custody N { s with
      worker := pc
      seen_sequences_ := seen
      stats := st } l := by
  refine ⟨h.stores, ?_, h.reset, h.origin, ?_⟩
  · rw [out, hheld]
    exact h.pool
  · rw [hheld]
    exact h.carries

theorem Custody.return (h : Custody N s l) {b : Fin PoolSize} {pc : WorkerPc PoolSize}
    (hheld : s.worker.held = [b]) (hpc : pc.held = []) :
    Custody N { s with
      pool := s.pool.deallocate (.buffer b)
      worker := pc } l := by
  have hout : s.pool.Lends (b :: (l ++ s.fastPath.held)) := by
    refine h.pool.of_count_eq fun a => ?_
    rw [out, hheld]
    simp only [List.count_append, List.count_cons, List.count_nil]
    omega
  obtain ⟨hpool, hother⟩ := hout.deallocate
  have hnew : b ∉ l ++ s.fastPath.held :=
    (List.nodup_cons.mp (List.nodup_append.mp hout.places.nodup).2.1).1
  refine ⟨h.stores, ?_, fun f recv a hfast => ?_, h.origin, fun a ha => ?_⟩
  · rw [out, hpc, List.append_nil]
    exact hpool
  · have hheld' : s.fastPath.held = [a] := by
      rw [show s.fastPath = .allocated f recv a from hfast]
      rfl
    have hne : a ≠ b := by
      rintro rfl
      exact hnew (by simp [hheld'])
    show ((s.pool.deallocate (.buffer b)).buffers_ a).reset
      = (s.pool.deallocate (.buffer b)).buffers_ a
    rw [hother a hne]
    exact h.reset f recv a hfast
  · rw [hpc, List.append_nil] at ha
    have hne : a ≠ b := by
      rintro rfl
      refine hnew ?_
      rcases List.mem_append.mp ha with hl | hfilled
      · exact List.mem_append_left _ hl
      · exact List.mem_append_right _ (FastPathPc.held_of_filled hfilled)
    show Carries (s.origin a) ((s.pool.deallocate (.buffer b)).buffers_ a)
    rw [hother a hne]
    exact h.carries a (List.mem_append_left _ ha)

/-! ## One step of the process -/

/-- The message in a buffer, as it was when it was copied there. -/
def State.message (s : State PoolSize) (b : Fin PoolSize) : Fin PoolSize × UInt64 × List UInt8 :=
  (b, (s.origin b).sequence_number, (s.origin b).payload)

/-- The messages that have been accepted and not yet judged, while the queue holds `l`. -/
def waiting (s : State PoolSize) (l : List (Fin PoolSize)) : List Fragment :=
  (s.worker.unjudged ++ l).map s.origin

/-- A step from `s` to `t` keeps custody and hands messages on in order. -/
structure Handover (N : Ring.Size) (s : State PoolSize) (l : List (Fin PoolSize))
    (e : List (Event PoolSize)) (t : State PoolSize) (l' : List (Fin PoolSize)) : Prop where
  custody : Custody N t l'
  delivered : l.map s.message ++ enqueues e = dequeues e ++ l'.map t.message
  judged : waiting s l ++ acceptances e = judgements e ++ waiting t l'
  noFailure : ∀ x ∈ e, x.failure = false

/-- A step that hands on no message. -/
theorem Handover.quiet {t : State PoolSize} {e : List (Event PoolSize)} (h : Custody N t l)
    (he : ∀ x ∈ e, x.quiet = true) (hworker : t.worker.unjudged = s.worker.unjudged)
    (horigin : ∀ b ∈ s.worker.unjudged ++ l, t.origin b = s.origin b) :
    Handover N s l e t l where
  custody := h
  delivered := by
    have hmessage : l.map t.message = l.map s.message := by
      refine List.map_congr_left fun b hb => ?_
      rw [State.message, horigin b (List.mem_append_right _ hb)]
      rfl
    have henq : enqueues e = [] :=
      filterMap_eq_nil fun x hx => (Event.of_quiet (he x hx)).2.1
    have hdeq : dequeues e = [] :=
      filterMap_eq_nil fun x hx => (Event.of_quiet (he x hx)).2.2.1
    rw [henq, hdeq, hmessage, List.append_nil, List.nil_append]
  judged := by
    have hwaiting : waiting t l = waiting s l := by
      rw [waiting, hworker]
      exact List.map_congr_left horigin
    have hacc : acceptances e = [] :=
      filterMap_eq_nil fun x hx => (Event.of_quiet (he x hx)).1
    have hjudged : judgements e = [] :=
      filterMap_eq_nil fun x hx => (Event.of_quiet (he x hx)).2.2.2.1
    rw [hacc, hjudged, hwaiting, List.append_nil, List.nil_append]
  noFailure x hx := (Event.of_quiet (he x hx)).2.2.2.2

/-- While a buffer is out, returning one does not overflow the free list. -/
theorem Custody.overflow_eq_nil (h : Custody N s l) {b : Fin PoolSize}
    (hb : b ∈ s.fastPath.held ∨ b ∈ s.worker.held) : overflow s.pool = [] := by
  have hout : b ∈ out s l := by
    simp only [out, List.mem_append]
    tauto
  exact if_pos (h.pool.count_lt hout)

theorem Custody.subscriberStep (h : Custody N s l) (hsize : PoolSize < N.val)
    {e : List (Event PoolSize)} {t : State PoolSize} (hstep : SubscriberStep N config s e t) :
    ∃ l', Handover N s l e t l' := by
  cases hstep with
  | arrive f recv hpc halloc =>
      exact ⟨l, .quiet (h.arrive f recv hpc halloc) (by simp [Event.quiet]) rfl fun _ _ => rfl⟩
  | allocationFails f hpc halloc =>
      obtain ⟨-, hnone⟩ | ⟨b, hsome, -⟩ := s.pool.allocate_spec
      · rw [hnone] at halloc
        cases halloc
        refine ⟨l, .quiet ?_ (by simp [Event.quiet]) rfl fun _ _ => rfl⟩
        exact ⟨h.stores, h.pool, h.reset, h.origin, h.carries⟩
      · rw [halloc] at hsome
        cases hsome
  | @trackDuplicate f recv b m v hpc hb hv hdup =>
      refine ⟨l, .quiet (h.receive hpc hb (.inl rfl) _ _) ?_ rfl fun a ha => ?_⟩
      · exact List.forall_mem_append.mpr ⟨forall_gaps (fun _ => rfl) v.gap, by simp [Event.quiet]⟩
      · exact Function.update_of_ne (h.ne_allocated hpc ha) _ _
  | @track f recv b m v hpc hb hv hdup =>
      refine ⟨l, .quiet (h.receive hpc hb (.inr rfl) _ _) (forall_gaps (fun _ => rfl) v.gap) rfl
        fun a ha => ?_⟩
      exact Function.update_of_ne (h.ne_allocated hpc ha) _ _
  | dropDuplicate hpc | dropRefused hpc =>
      have hheld := congrArg FastPathPc.held hpc
      rw [h.overflow_eq_nil (.inl (by rw [hheld]; exact List.mem_singleton_self _))]
      exact ⟨l, .quiet (h.drop hheld _) (by simp) rfl fun _ _ => rfl⟩
  | @enqueue f b q hpc henq =>
      refine ⟨l ++ [b], (h.enqueue hsize hpc henq).2, ?_, ?_, by simp [Event.failure]⟩
      · show l.map s.message ++ [(b, f.sequence_number, f.payload)] = (l ++ [b]).map s.message
        rw [List.map_append, ← h.origin f b hpc]
        rfl
      · show waiting s l ++ [f] = waiting s (l ++ [b])
        simp only [waiting, List.map_append, List.append_assoc]
        rw [← h.origin f b hpc]
        rfl
  | enqueueFails hpc henq => cases (h.enqueue hsize hpc henq).1
  | count hpc hoff | countAndUpdate _ hpc hon hidle | updated hpc hidle | exit hpc hstop =>
      refine ⟨l, .quiet (h.fastPath ?_ rfl ?_ _ _) (by simp) rfl fun _ _ => rfl⟩
      · rw [hpc]
        rfl
      · simp

theorem Custody.workerStep (h : Custody N s l) {e : List (Event PoolSize)} {t : State PoolSize}
    (hstep : WorkerStep N s e t) : ∃ l', Handover N s l e t l' := by
  cases hstep with
  | testRunning hpc hrun | exit hpc hrun | countProcessed hpc =>
      refine ⟨l, .quiet (h.worker ?_ _ _) (by simp) ?_ fun _ _ => rfl⟩ <;> rw [hpc] <;> rfl
  | queueEmpty hpc hdeq =>
      obtain ⟨-, hnone⟩ | ⟨a, l', -, hsome, -⟩ :=
        dequeue_spec (pointerQueue N PoolSize) h.stores
      · rw [hnone] at hdeq
        cases hdeq
        refine ⟨l, .quiet (h.worker ?_ _ _) (by simp) ?_ fun _ _ => rfl⟩ <;> rw [hpc] <;> rfl
      · rw [hdeq] at hsome
        cases hsome
  | @dequeue b q now hpc hdeq =>
      obtain ⟨l', rfl, hcustody⟩ := h.dequeue now hpc hdeq
      obtain ⟨hseq, hpayload⟩ := h.carries b (by simp)
      refine ⟨l', hcustody, ?_, ?_, by simp [Event.failure]⟩
      · rw [hseq, hpayload]
        exact List.append_nil _
      · show waiting s (b :: l') ++ [] = (b :: l').map s.origin
        rw [waiting, hpc, List.append_nil]
        rfl
  | rejectInvalid hpc hvalid | rejectDuplicate hpc hvalid hdup | process hpc hvalid hdup =>
      refine ⟨l, h.worker ?_ _ _, ?_, ?_, by simp [Event.failure]⟩
      · rw [hpc]
        rfl
      · exact List.append_nil _
      · show waiting s l ++ [] = _
        rw [waiting, hpc, List.append_nil]
        rfl
  | returnRejected hpc | returnProcessed hpc =>
      have hheld := congrArg WorkerPc.held hpc
      rw [h.overflow_eq_nil (.inr (by rw [hheld]; exact List.mem_singleton_self _))]
      refine ⟨l, .quiet (h.return hheld rfl) (by simp) ?_ fun _ _ => rfl⟩
      rw [hpc]
      rfl

theorem Custody.step (h : Custody N s l) (hsize : PoolSize < N.val)
    {e : List (Event PoolSize)} {t : State PoolSize} (hstep : Step N config s e t) :
    ∃ l', Handover N s l e t l' := by
  -- `main` and the checkpoint do not touch the buffers
  have hsame : ∀ t : State PoolSize, t.pool = s.pool → t.queue = s.queue →
      t.fastPath = s.fastPath → t.worker = s.worker → t.origin = s.origin → Custody N t l := by
    rintro ⟨⟩ rfl rfl rfl rfl rfl
    exact ⟨h.stores, h.pool, h.reset, h.origin, h.carries⟩
  cases hstep with
  | subscriber hstep => exact h.subscriberStep hsize hstep
  | worker hstep => exact h.workerStep hstep
  | main hstep =>
      cases hstep with
      | _ => exact ⟨l, .quiet (hsame _ rfl rfl rfl rfl rfl) (by simp [Event.quiet]) rfl
          fun _ _ => rfl⟩
  | checkpoint _ =>
      exact ⟨l, .quiet (hsame _ rfl rfl rfl rfl rfl) (by simp [Event.quiet]) rfl fun _ _ => rfl⟩

/-! ## Whole runs -/

/-- What is true of a run with the events `es` to `s`, where the message queue holds `l`. -/
structure InCustody (N : Ring.Size) (es : List (Event PoolSize)) (s : State PoolSize)
    (l : List (Fin PoolSize)) : Prop where
  custody : Custody N s l
  delivered : enqueues es = dequeues es ++ l.map s.message
  judged : acceptances es = judgements es ++ waiting s l
  noFailure : ∀ x ∈ es, x.failure = false

theorem InCustody.step {es e : List (Event PoolSize)} {t : State PoolSize}
    {l' : List (Fin PoolSize)} (h : InCustody N es s l) (hstep : Handover N s l e t l') :
    InCustody N (es ++ e) t l' where
  custody := hstep.custody
  delivered := by
    calc enqueues (es ++ e)
        = dequeues es ++ (l.map s.message ++ enqueues e) := by
          rw [enqueues_append, h.delivered, List.append_assoc]
      _ = dequeues es ++ (dequeues e ++ l'.map t.message) := by rw [hstep.delivered]
      _ = dequeues (es ++ e) ++ l'.map t.message := by rw [dequeues_append, List.append_assoc]
  judged := by
    calc acceptances (es ++ e)
        = judgements es ++ (waiting s l ++ acceptances e) := by
          rw [acceptances_append, h.judged, List.append_assoc]
      _ = judgements es ++ (judgements e ++ waiting t l') := by rw [hstep.judged]
      _ = judgements (es ++ e) ++ waiting t l' := by rw [judgements_append, List.append_assoc]
  noFailure := List.forall_mem_append.mpr ⟨h.noFailure, hstep.noFailure⟩

/-- **A pool smaller than the message queue is always in custody.** -/
theorem custody_run (hsize : PoolSize < N.val) {d₀ : CheckpointData}
    {es : List (Event PoolSize)} {s : State PoolSize}
    (r : Run (system PoolSize N config d₀) es s) : ∃ l, InCustody N es s l := by
  refine Run.invariant (I := fun es s => ∃ l, InCustody N es s l) ?_ ?_ r
  · intro s hinit
    refine ⟨[], custody_init hinit, rfl, ?_, fun _ hx => by cases hx⟩
    rw [waiting, hinit.worker]
    rfl
  · rintro es s e t ⟨l, h⟩ hstep
    obtain ⟨l', hnext⟩ := h.custody.step hsize hstep
    exact ⟨l', h.step hnext⟩

end AeronReplay.System
