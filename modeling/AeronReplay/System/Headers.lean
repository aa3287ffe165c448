import AeronReplay.System.Custody

set_option autoImplicit false

/-! # What becomes of a header

A buffer that carries a message keeps the header it has been filled with, on its way through the
queue and until the worker returns it: what the worker reads from the buffer is what the fragment
said, but for the receive time that the fast path has stored (`stamped_run`). -/

namespace AeronReplay.System

open Transition CheckpointManager RingQueue

variable {PoolSize : Nat} {N : Ring.Size} {config : Config} {s t : State PoolSize}
  {l l' : List (Fin PoolSize)} {e : List (Event PoolSize)}

/-- The header of the fragment with some receive time. -/
def Stamped (f : Fragment) (b : MessageBuffer) : Prop :=
  ∃ recv_timestamp : Int64, b.header = { f.header with recv_time_ns := recv_timestamp.toUInt64 }

/-- The buffers that carry a message: those in the queue, the one that is going to be enqueued
and the one the worker has. -/
def carrying (s : State PoolSize) (l : List (Fin PoolSize)) : List (Fin PoolSize) :=
  l ++ s.fastPath.filled ++ s.worker.held

theorem mem_carrying {b : Fin PoolSize} :
    b ∈ carrying s l ↔ b ∈ l ∨ b ∈ s.fastPath.filled ∨ b ∈ s.worker.held := by
  simp only [carrying, List.mem_append, or_assoc]

theorem mem_out_of_carrying {b : Fin PoolSize} (h : b ∈ carrying s l) : b ∈ out s l := by
  simp only [out, List.mem_append, or_assoc]
  rcases mem_carrying.mp h with h | h | h
  · exact Or.inl h
  · exact Or.inr (Or.inl (FastPathPc.held_of_filled h))
  · exact Or.inr (Or.inr h)

/-- Every buffer that carries a message has the header of its fragment. -/
def AllStamped (s : State PoolSize) (l : List (Fin PoolSize)) : Prop :=
  ∀ b ∈ carrying s l, Stamped (s.origin b) (s.pool.buffers_ b)

/-- The buffers that carry a message afterwards carried it before, with the same header. -/
theorem AllStamped.frame (h : AllStamped s l) (hmem : ∀ b ∈ carrying t l', b ∈ carrying s l)
    (horigin : ∀ b ∈ carrying t l', t.origin b = s.origin b)
    (hheader : ∀ b ∈ carrying t l', (t.pool.buffers_ b).header = (s.pool.buffers_ b).header) :
    AllStamped t l' := by
  intro b hb
  obtain ⟨recv, hrecv⟩ := h b (hmem b hb)
  exact ⟨recv, by rw [hheader b hb, hrecv, horigin b hb]⟩

/-- The message queue is not touched. -/
theorem Custody.same_queue (h : Custody N s l) (h' : Custody N t l') (hq : t.queue = s.queue) :
    l' = l := by
  have hstores := h'.stores
  rw [hq] at hstores
  exact List.map_injective_iff.mpr (Option.some_injective _) (hstores.unique h.stores)

/-- The fast path holds a buffer that no one else has. -/
theorem Custody.ne_held (h : Custody N s l) {b : Fin PoolSize} (hheld : s.fastPath.held = [b])
    {a : Fin PoolSize} (ha : a ∈ l ∨ a ∈ s.worker.held) : a ≠ b := by
  have hnodup := (List.nodup_append.mp h.pool.places.nodup).2.1
  rw [out, hheld] at hnodup
  simp only [List.append_assoc, List.nodup_append, List.singleton_append, List.nodup_cons,
    List.mem_cons] at hnodup
  obtain ⟨-, ⟨hworker, -⟩, hqueue⟩ := hnodup
  rintro rfl
  rcases ha with ha | ha
  · exact hqueue a ha a (Or.inl rfl) rfl
  · exact hworker ha

/-- The worker holds a buffer that no one else has. -/
theorem Custody.ne_worker (h : Custody N s l) {b : Fin PoolSize} (hheld : s.worker.held = [b])
    {a : Fin PoolSize} (ha : a ∈ l ∨ a ∈ s.fastPath.held) : a ≠ b := by
  have hnodup := (List.nodup_append.mp h.pool.places.nodup).2.1
  rw [out, hheld, List.nodup_append] at hnodup
  rintro rfl
  refine hnodup.2.2 a ?_ a List.mem_cons_self rfl
  exact List.mem_append.mpr ha

@[simp] theorem buffers_write_self (p : BufferPool PoolSize) (b : Fin PoolSize)
    (m : MessageBuffer) : (p.write b m).buffers_ b = m := Function.update_self _ _ _

theorem buffers_write_of_ne (p : BufferPool PoolSize) {a b : Fin PoolSize} (m : MessageBuffer)
    (h : a ≠ b) : (p.write b m).buffers_ a = p.buffers_ a := Function.update_of_ne h _ _

/-- Returning a buffer leaves the others alone. -/
theorem Custody.header_deallocate (h : Custody N s l) {a b : Fin PoolSize} (hb : b ∈ out s l)
    (hne : a ≠ b) :
    ((s.pool.deallocate (.buffer b)).buffers_ a).header = (s.pool.buffers_ a).header := by
  rw [(BufferPool.deallocate_spec (h.pool.count_lt hb) b).2, Function.update_of_ne hne]

/-! ## One step -/

theorem header_received (b : MessageBuffer) (f : Fragment) (recv_timestamp : Int64) :
    Stamped f (AeronSubscriber.receive b.reset f.bytes recv_timestamp) := by
  refine ⟨recv_timestamp, ?_⟩
  show { (b.reset.copyFromAeron f.bytes).header with
    recv_time_ns := recv_timestamp.toUInt64 } = _
  rw [AeronSubscriber.header_copyFromAeron_reset]

/-- The fast path fills the buffer it holds. -/
theorem AllStamped.receive (h : AllStamped s l) (hcustody : Custody N s l) {f : Fragment}
    {recv : Int64} {b : Fin PoolSize} {m : MessageBuffer} {pc : FastPathPc PoolSize}
    (hpc : s.fastPath = .allocated f recv b) (hm : received s f recv b = m)
    (hnew : pc.filled = [] ∨ pc.filled = [b]) (tracking : Tracking) (st : Statistics) :
    AllStamped { s with
      pool := s.pool.write b m
      tracking := tracking
      fastPath := pc
      stats := st
      origin := Function.update s.origin b f } l := by
  have hstamped : Stamped f m := by
    rw [← hm, received, ← hcustody.reset f recv b hpc]
    exact header_received _ f recv
  intro a ha
  show Stamped (Function.update s.origin b f a) ((s.pool.write b m).buffers_ a)
  by_cases hab : a = b
  · rw [hab, Function.update_self, buffers_write_self]
    exact hstamped
  · rw [Function.update_of_ne hab, buffers_write_of_ne _ _ hab]
    refine h a (mem_carrying.mpr ?_)
    rcases mem_carrying.mp ha with ha | ha | ha
    · exact Or.inl ha
    · replace ha : a ∈ pc.filled := ha
      rcases hnew with hnew | hnew <;> rw [hnew] at ha
      · cases ha
      · exact absurd (List.mem_singleton.mp ha) hab
    · exact Or.inr (Or.inr ha)

theorem AllStamped.subscriberStep (h : AllStamped s l) (hcustody : Custody N s l)
    (hcustody' : Custody N t l') (hstep : SubscriberStep N config s e t) : AllStamped t l' := by
  cases hstep with
  | @arrive p b f recv hpc halloc =>
      obtain rfl := hcustody.same_queue hcustody' rfl
      obtain ⟨hpool, -, hother⟩ := hcustody.pool.allocate halloc
      have hnew : b ∉ out s l' :=
        (List.nodup_cons.mp (List.nodup_append.mp hpool.places.nodup).2.1).1
      have hmem : ∀ a ∈ l' ++ [] ++ s.worker.held, a ∈ carrying s l' := fun a ha => by
        rw [carrying, hpc]
        exact ha
      refine h.frame hmem (fun _ _ => rfl) fun a ha => ?_
      have hne : a ≠ b := fun heq => hnew (heq ▸ mem_out_of_carrying (hmem a ha))
      exact congrArg MessageBuffer.header (hother a hne)
  | allocationFails f hpc halloc =>
      obtain rfl := hcustody.same_queue hcustody' rfl
      obtain ⟨-, hnone⟩ | ⟨b, hsome, -⟩ := s.pool.allocate_spec
      · rw [hnone] at halloc
        cases halloc
        exact h.frame (fun _ ha => ha) (fun _ _ => rfl) fun _ _ => rfl
      · rw [halloc] at hsome
        cases hsome
  | trackDuplicate hpc hb hv hdup =>
      obtain rfl := hcustody.same_queue hcustody' rfl
      exact h.receive hcustody hpc hb (Or.inl rfl) _ _
  | track hpc hb hv hdup =>
      obtain rfl := hcustody.same_queue hcustody' rfl
      exact h.receive hcustody hpc hb (Or.inr rfl) _ _
  | @dropDuplicate f b hpc | @dropRefused f b hpc =>
      obtain rfl := hcustody.same_queue hcustody' rfl
      have hheld : s.fastPath.held = [b] := congrArg FastPathPc.held hpc
      have hmem : ∀ a ∈ l' ++ [] ++ s.worker.held, a ∈ l' ∨ a ∈ s.worker.held := by simp
      refine h.frame (fun a ha => mem_carrying.mpr ?_) (fun _ _ => rfl) fun a ha => ?_
      · rcases hmem a ha with ha | ha
        · exact Or.inl ha
        · exact Or.inr (Or.inr ha)
      · have hne := hcustody.ne_held hheld (hmem a ha)
        exact hcustody.header_deallocate (by simp [out, hheld]) hne
  | @enqueue f b q hpc henq =>
      have hl : l' = l ++ [b] := by
        obtain ⟨-, -, hpush⟩ | ⟨-, hfalse⟩ :=
          enqueue_spec (pointerQueue N PoolSize) hcustody.stores
            (rfl : (pointerQueue N PoolSize).refuses (some b) = false)
        · rw [henq, show [some b] = [b].map some from rfl, ← List.map_append] at hpush
          exact List.map_injective_iff.mpr (Option.some_injective _)
            (hcustody'.stores.unique hpush)
        · rw [henq] at hfalse
          cases hfalse
      refine h.frame (fun a ha => mem_carrying.mpr ?_) (fun _ _ => rfl) fun _ _ => rfl
      rw [hpc]
      rcases mem_carrying.mp ha with ha | ha | ha
      · rcases List.mem_append.mp (hl ▸ ha) with ha | ha
        · exact Or.inl ha
        · exact Or.inr (Or.inl ha)
      · cases ha
      · exact Or.inr (Or.inr ha)
  | @enqueueFails f b q hpc henq =>
      obtain ⟨-, hok, -⟩ | ⟨-, hfalse⟩ :=
        enqueue_spec (pointerQueue N PoolSize) hcustody.stores
          (rfl : (pointerQueue N PoolSize).refuses (some b) = false)
      · rw [henq] at hok
        cases hok
      · rw [henq] at hfalse
        cases hfalse
        obtain rfl := hcustody.same_queue hcustody' rfl
        refine h.frame (fun a ha => mem_carrying.mpr ?_) (fun _ _ => rfl) fun _ _ => rfl
        rcases mem_carrying.mp ha with ha | ha | ha
        · exact Or.inl ha
        · cases ha
        · exact Or.inr (Or.inr ha)
  | count hpc hoff | countAndUpdate _ hpc hon hidle | updated hpc hidle | exit hpc hstop =>
      obtain rfl := hcustody.same_queue hcustody' rfl
      refine h.frame (fun a ha => mem_carrying.mpr ?_) (fun _ _ => rfl) fun _ _ => rfl
      rcases mem_carrying.mp ha with ha | ha | ha
      · exact Or.inl ha
      · cases ha
      · exact Or.inr (Or.inr ha)

theorem AllStamped.workerStep (h : AllStamped s l) (hcustody : Custody N s l)
    (hcustody' : Custody N t l') (hstep : WorkerStep N s e t) : AllStamped t l' := by
  cases hstep with
  | testRunning hpc hrun | exit hpc hrun | countProcessed hpc | rejectInvalid hpc hvalid
    | rejectDuplicate hpc hvalid hdup | process hpc hvalid hdup =>
      obtain rfl := hcustody.same_queue hcustody' rfl
      refine h.frame (fun a ha => mem_carrying.mpr ?_) (fun _ _ => rfl) fun _ _ => rfl
      rw [hpc]
      exact mem_carrying.mp ha
  | queueEmpty hpc hdeq =>
      obtain ⟨-, hnone⟩ | ⟨a, l₁, -, hsome, -⟩ :=
        dequeue_spec (pointerQueue N PoolSize) hcustody.stores
      · rw [hnone] at hdeq
        cases hdeq
        obtain rfl := hcustody.same_queue hcustody' rfl
        refine h.frame (fun a ha => mem_carrying.mpr ?_) (fun _ _ => rfl) fun _ _ => rfl
        rw [hpc]
        exact mem_carrying.mp ha
      · rw [hdeq] at hsome
        cases hsome
  | @dequeue b q now hpc hdeq =>
      obtain ⟨l₁, rfl, hnext⟩ := hcustody.dequeue now hpc hdeq
      obtain rfl := hnext.same_queue hcustody' rfl
      refine h.frame (fun a ha => mem_carrying.mpr ?_) (fun _ _ => rfl) fun a _ => ?_
      · rcases mem_carrying.mp ha with ha | ha | ha
        · exact Or.inl (List.mem_cons_of_mem _ ha)
        · exact Or.inr (Or.inl ha)
        · exact Or.inl (List.mem_singleton.mp ha ▸ List.mem_cons_self)
      · show ((s.pool.write b _).buffers_ a).header = _
        by_cases hab : a = b
        · rw [hab, buffers_write_self]
        · rw [buffers_write_of_ne _ _ hab]
  | @returnRejected b hpc | @returnProcessed b hpc =>
      obtain rfl := hcustody.same_queue hcustody' rfl
      have hheld : s.worker.held = [b] := congrArg WorkerPc.held hpc
      have hmem : ∀ a ∈ l' ++ s.fastPath.filled ++ [], a ∈ l' ∨ a ∈ s.fastPath.filled := by simp
      refine h.frame (fun a ha => mem_carrying.mpr ?_) (fun _ _ => rfl) fun a ha => ?_
      · rcases hmem a ha with ha | ha
        · exact Or.inl ha
        · exact Or.inr (Or.inl ha)
      · have hne := hcustody.ne_worker hheld ((hmem a ha).imp_right FastPathPc.held_of_filled)
        exact hcustody.header_deallocate (by simp [out, hheld]) hne

theorem AllStamped.step (h : AllStamped s l) (hcustody : Custody N s l)
    (hcustody' : Custody N t l') (hstep : Step N config s e t) : AllStamped t l' := by
  cases hstep with
  | subscriber hstep => exact h.subscriberStep hcustody hcustody' hstep
  | worker hstep => exact h.workerStep hcustody hcustody' hstep
  | main hstep =>
      cases hstep with
      | _ =>
          obtain rfl := hcustody.same_queue hcustody' rfl
          exact h.frame (fun _ ha => ha) (fun _ _ => rfl) fun _ _ => rfl
  | checkpoint _ =>
      obtain rfl := hcustody.same_queue hcustody' rfl
      exact h.frame (fun _ ha => ha) (fun _ _ => rfl) fun _ _ => rfl

/-! ## Whole runs -/

/-- **Every buffer that carries a message has the header of its fragment** and a receive time. -/
theorem stamped_run (hsize : PoolSize < N.val) {d₀ : CheckpointData}
    {es : List (Event PoolSize)} (r : Run (system PoolSize N config d₀) es s) :
    ∃ l, InCustody N es s l ∧ AllStamped s l := by
  refine Run.invariant (I := fun es s => ∃ l, InCustody N es s l ∧ AllStamped s l) ?_ ?_ r
  · intro s hinit
    obtain ⟨l, hl⟩ := custody_run hsize (.init hinit)
    obtain rfl := hl.custody.same_queue (custody_init hinit) rfl
    refine ⟨_, hl, fun b hb => ?_⟩
    rw [carrying, hinit.fastPath, hinit.worker] at hb
    cases hb
  · rintro es s e t ⟨l, hl, hstamped⟩ hstep
    obtain ⟨l', hnext⟩ := hl.custody.step hsize hstep
    exact ⟨l', hl.step hnext, hstamped.step hl.custody hnext.custody hstep⟩

end AeronReplay.System
