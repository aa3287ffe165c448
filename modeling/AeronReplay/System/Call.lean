import AeronReplay.Subscriber.Delivery
import AeronReplay.System.Threads

set_option autoImplicit false

/-! # The fast path undisturbed

`handleMessageFastPath` as one function is what the subscriber thread does step by step while the
other threads stand still (`fastPath_call`). The results about single calls and about feeds are
therefore about the threads' system as well. -/

namespace AeronReplay.System

open Transition CheckpointManager AeronSubscriber

variable {PoolSize : Nat} {N : Ring.Size} (config : Config) (d₀ : CheckpointData)

/-- The members of `AeronSubscriber` in a state of the threads. -/
def State.subscriber (s : State PoolSize) : AeronSubscriber where
  tracking := s.tracking
  zc_messages_received_ := s.stats.zc_messages_received_
  zc_buffer_allocation_failures_ := s.stats.zc_buffer_allocation_failures_
  zc_queue_full_failures_ := s.stats.zc_queue_full_failures_
  gaps_detected_ := s.stats.gaps_detected_
  duplicates_detected_ := s.stats.duplicates_detected_
  checkpoint_ := if config.checkpoint_enabled then some s.checkpoint.data_ else none

/-- The fragment `f` arrives in the state `s`. -/
def State.delivery (s : State PoolSize) (f : Fragment) (recv_timestamp timestamp_ns : Int64) :
    Delivery PoolSize (Fin PoolSize) :=
  ⟨f, s.pool, s.queue, recv_timestamp, timestamp_ns⟩

/-- A state that a call with this outcome may end in. -/
structure State.Shows (t : State PoolSize) (o : Outcome PoolSize (Fin PoolSize)) : Prop where
  fastPath : t.fastPath = .idle
  updater : t.checkpoint.updater = .idle
  pool : t.pool = o.buffer_pool_
  queue : t.queue = o.message_queue_
  subscriber : t.subscriber config = o.subscriber

/-- Steps 8 and 9 with a checkpoint. -/
theorem update_steps {s t : State PoolSize} {es : List (Event PoolSize)} {f : Fragment}
    {b : Fin PoolSize} (q : Steps (system PoolSize N config d₀) s es t)
    (hpc : t.fastPath = .enqueued f b) (hon : config.checkpoint_enabled = true)
    (hidle : t.checkpoint.updater = .idle) (timestamp_ns : Int64) :
    ∃ es, Steps (system PoolSize N config d₀) s es { t with
      fastPath := .idle
      stats := { t.stats with zc_messages_received_ := t.stats.zc_messages_received_ + 1 }
      checkpoint := { t.checkpoint with
        data_ := {
          last_sequence_number := (t.pool.buffers_ b).header.sequence_number.toInt64
          last_position := f.position
          message_count := (t.stats.zc_messages_received_ + 1).toInt64
          timestamp_ns := timestamp_ns }
        updater := .idle } } := by
  have q₁ := q.tail (.subscriber (.countAndUpdate timestamp_ns hpc hon hidle))
  -- the tuple is stored word by word
  have q₂ := q₁.tail (.checkpoint (@Access.store _ _ 0 rfl))
  have q₃ := q₂.tail (.checkpoint (@Access.store _ _ 1 rfl))
  have q₄ := q₃.tail (.checkpoint (@Access.store _ _ 2 rfl))
  have q₅ := q₄.tail (.checkpoint (@Access.store _ _ 3 rfl))
  have q₆ := q₅.tail (.checkpoint (.updated rfl))
  exact ⟨_, q₆.tail (.subscriber (.updated rfl rfl))⟩

/-- **A call is the steps of the subscriber thread.** -/
theorem fastPath_call {s : State PoolSize} (hidle : s.fastPath = .idle)
    (hupdater : s.checkpoint.updater = .idle) (f : Fragment)
    (recv_timestamp timestamp_ns : Int64) :
    ∃ es t, Steps (system PoolSize N config d₀) s es t ∧
      t.Shows config (handleMessageFastPath N id config.toSubscriberConfig (s.subscriber config)
        (s.delivery f recv_timestamp timestamp_ns)) := by
  have q₀ := Steps.refl (M := system PoolSize N config d₀) s
  unfold handleMessageFastPath State.delivery
  dsimp only
  cases halloc : s.pool.allocate with
  | mk msg_buf p =>
    cases msg_buf with
    | none =>
        have q₁ := q₀.tail (.subscriber (.allocationFails f hidle halloc))
        exact ⟨_, _, q₁, hidle, hupdater, rfl, rfl, rfl⟩
    | some b =>
        have q₁ := q₀.tail (.subscriber (.arrive f recv_timestamp hidle halloc))
        dsimp only
        split
        · next hdup =>
            have q₂ := q₁.tail (.subscriber (.trackDuplicate rfl rfl rfl hdup))
            have q₃ := q₂.tail (.subscriber (.dropDuplicate rfl))
            exact ⟨_, _, q₃, rfl, hupdater, rfl, rfl, rfl⟩
        · next hdup =>
            have q₂ := q₁.tail (.subscriber (.track rfl rfl rfl (Bool.eq_false_iff.mpr hdup)))
            cases henq : RingQueue.enqueue (messageQueue N (Fin PoolSize)) s.queue (some b) with
            | mk accepted q =>
              rw [show some (id b) = some b from rfl, henq]
              cases accepted with
              | false =>
                  have q₃ := q₂.tail (.subscriber (.enqueueFails rfl henq))
                  have q₄ := q₃.tail (.subscriber (.dropRefused rfl))
                  exact ⟨_, _, q₄, rfl, hupdater, rfl, rfl, rfl⟩
              | true =>
                  have q₃ := q₂.tail (.subscriber (.enqueue rfl henq))
                  by_cases hon : config.checkpoint_enabled = true
                  · obtain ⟨es, q₄⟩ := update_steps config d₀ q₃ rfl hon hupdater timestamp_ns
                    refine ⟨_, _, q₄, rfl, rfl, rfl, rfl, ?_⟩
                    simp only [State.subscriber, hon, BufferPool.write, Function.update_self]
                    rfl
                  · have q₄ := q₃.tail (.subscriber (.count rfl (Bool.eq_false_iff.mpr hon)))
                    refine ⟨_, _, q₄, rfl, hupdater, rfl, rfl, ?_⟩
                    unfold State.subscriber
                    rw [if_neg hon]
                    rfl

end AeronReplay.System
