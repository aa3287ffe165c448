import AeronReplay.Publisher.Loop
import AeronReplay.Subscriber.Gaps
import AeronReplay.System.Histories
import AeronReplay.System.Streams

set_option autoImplicit false

/-! # From the publisher to the handler

The publish thread and the subscriber process together, with a transport between them that
delivers, whole and in order, what the publisher sends between two moments. Every message that
the subscriber receives is handled, once and in order, with what the publisher has put into it; and
the gaps that the subscriber reports are the runs of offers that have failed at the publisher:
nothing is ever lost on the way, and yet every failed offer between two messages is taken for a
loss, unless the tolerance hides it (`received_exactly`).

The subscriber is taken access by access here, in the runs that respect `SlotOrder`; in others a
message that waits in the queue can be overwritten. -/

namespace AeronReplay.System

open Transition CheckpointManager AeronPublisher AeronSubscriber Pipeline MissingRuns

variable {PoolSize : Nat} {config : Config} {d₀ : CheckpointData}
  {as : List (Accesses.Event poolSize)} {a : Accesses.State poolSize} {its : List Iteration}
  {fs : List Fragment}

/-! ## Complete runs, access by access -/

/-- Neither thread is in a call or busy with a message, and none is queued. -/
structure Accesses.State.Settled (a : Accesses.State PoolSize) : Prop where
  subscriber : a.subscriberCall = .none
  worker : a.workerCall = .none
  process : a.process.Settled

/-- A run that respects `SlotOrder`, in which no buffer has been missing and all that has been
received has been handled. -/
structure OrderedCompleteRun (config : Config) (d₀ : CheckpointData)
    (as : List (Accesses.Event poolSize)) (a : Accesses.State poolSize) : Prop where
  run : Run (orderedProcess config d₀) as a
  pool : ∀ f, .allocationFailed f ∉ Accesses.history as
  settled : a.Settled

/-- The run to a settled state, when every call is one step. -/
theorem Accesses.State.Settled.single (h : a.Settled) (r : Run (orderedProcess config d₀) as a) :
    Run (subscriberProcess config d₀) (Accesses.history as) a.process := by
  obtain ⟨m, hm, r⟩ := Accesses.process_run_of_ordered poolSize_lt r
  rwa [hm.process_eq h.subscriber h.worker] at r

namespace OrderedCompleteRun

theorem single (h : OrderedCompleteRun config d₀ as a) :
    CompleteRun config d₀ (Accesses.history as) a.process :=
  ⟨h.settled.single h.run, h.pool, h.settled.process⟩

theorem polls_eq (h : OrderedCompleteRun config d₀ as a) :
    Accesses.polls as = arrivals (Accesses.history as) :=
  Accesses.polls_eq_arrivals h.run.of_only h.settled.subscriber

theorem handlerCalls (h : OrderedCompleteRun config d₀ as a) :
    handlerCalls (Accesses.history as)
      = processed config.toSubscriberConfig (Accesses.polls as) := by
  rw [h.polls_eq]
  exact h.single.handlerCalls

end OrderedCompleteRun

theorem exists_orderedCompleteRun (config : Config) (d₀ : CheckpointData) (fs : List Fragment) :
    ∃ as a, OrderedCompleteRun config d₀ as a ∧ Accesses.polls as = fs := by
  obtain ⟨es, s, h, rfl⟩ := exists_completeRun config d₀ fs
  obtain ⟨as, a, r, hquiet, rfl, hpolls, rfl⟩ :=
    Accesses.exists_ordered_of_process (M := statsQueueSize) h.run
  exact ⟨as, a, ⟨r, h.pool, hquiet.subscriber, hquiet.worker, h.settled⟩, hpolls⟩

/-! ## The two sides -/

/-- A subscriber at work, and what it has received of the wire of a publisher that has not
counted through the positive numbers. -/
structure Reception (config : Config) (d₀ : CheckpointData) (its : List Iteration)
    (as : List (Accesses.Event poolSize)) (a : Accesses.State poolSize) : Prop where
  complete : OrderedCompleteRun config d₀ as a
  received : (Accesses.polls as).map Fragment.bytes <:+: (PublishThread.run its).wire
  few : its.length < 2 ^ 63

/-- The fragment is the message of the iteration that has its number, unaltered. -/
def FromPublisher (its : List Iteration) (f : Fragment) : Prop :=
  ∃ it, its[f.sequence_number.toNat]? = some it ∧ it.published = true ∧
    f.bytes = message f.sequence_number it.event_time it.publish_time
      (payload f.sequence_number)

/-- The numbers of the messages on the wire. -/
def wireNumbers (its : List Iteration) : List Int :=
  (PublishThread.sent its).map fun i => (i.2 : Int)

theorem wireNumbers_sorted (its : List Iteration) : (wireNumbers its).Pairwise (· < ·) :=
  List.pairwise_map.mpr ((PublishThread.sent_sorted its).imp fun h => Int.ofNat_lt.mpr h)

theorem mem_wireNumbers {i : Nat} :
    (i : Int) ∈ wireNumbers its ↔ ∃ it, its[i]? = some it ∧ it.published = true := by
  rw [wireNumbers, List.mem_map]
  constructor
  · rintro ⟨⟨it, j⟩, hmem, hj⟩
    obtain rfl := Int.ofNat_inj.mp hj
    exact ⟨it, PublishThread.mem_sent.mp hmem⟩
  · rintro ⟨it, hit⟩
    exact ⟨(it, i), PublishThread.mem_sent.mpr hit, rfl⟩

/-- The number in the header of the message of an iteration. -/
theorem sequence_number_messageOf {f : Fragment} {i : Iteration × Nat}
    (hf : f.bytes = PublishThread.messageOf i) : f.sequence_number = .ofNat i.2 := by
  rw [Fragment.sequence_number, Fragment.header, hf]
  exact PublishThread.message_sequence_number _ _ _ _

theorem number_of_sent {f : Fragment} {i : Iteration × Nat} (hits : its.length < 2 ^ 63)
    (hi : i ∈ PublishThread.sent its) (hf : f.bytes = PublishThread.messageOf i) :
    f.sequence_number.toNat = i.2 := by
  have hlt := (List.getElem?_eq_some_iff.mp (PublishThread.mem_sent.mp hi).1).1
  rw [sequence_number_messageOf hf, UInt64.toNat_ofNat']
  exact Nat.mod_eq_of_lt (by omega)

/-- A fragment that has come over the wire is unaltered. -/
theorem fromPublisher_of_sent {f : Fragment} {i : Iteration × Nat} (hits : its.length < 2 ^ 63)
    (hi : i ∈ PublishThread.sent its) (hf : f.bytes = PublishThread.messageOf i) :
    FromPublisher its f := by
  obtain ⟨hit, hpublished⟩ := PublishThread.mem_sent.mp hi
  refine ⟨i.1, ?_, hpublished, ?_⟩
  · rw [number_of_sent hits hi hf]
    exact hit
  · rw [sequence_number_messageOf hf]
    exact hf

/-- The numbers of fragments that have come over the wire. -/
theorem numbers_eq {part : List (Iteration × Nat)} (hits : its.length < 2 ^ 63)
    (hsub : part ⊆ PublishThread.sent its)
    (heq : fs.map Fragment.bytes = part.map PublishThread.messageOf) :
    fs.map number = part.map fun i => (i.2 : Int) := by
  induction fs generalizing part with
  | nil =>
      obtain rfl := List.map_eq_nil_iff.mp heq.symm
      rfl
  | cons f fs ih =>
      obtain ⟨i, part, rfl, hf, hrest⟩ := List.map_eq_cons_iff.mp heq.symm
      obtain ⟨hi, hpart⟩ := List.cons_subset.mp hsub
      rw [List.map_cons, List.map_cons, ih hpart hrest.symm, number, number_of_sent hits hi hf.symm]

/-- What has been received is a part of what has been sent. -/
theorem exists_part (h : fs.map Fragment.bytes <:+: (PublishThread.run its).wire) :
    ∃ part : List (Iteration × Nat), part <:+: PublishThread.sent its ∧
      fs.map Fragment.bytes = part.map PublishThread.messageOf := by
  obtain ⟨before, after, hwire⟩ := h
  rw [PublishThread.wire_eq] at hwire
  obtain ⟨front, back, hsent, hfront, -⟩ := List.map_eq_append_iff.mp hwire.symm
  obtain ⟨head, part, hsplit, -, hpart⟩ := List.map_eq_append_iff.mp hfront
  exact ⟨part, ⟨head, back, by rw [← hsplit, ← hsent]⟩, hpart.symm⟩

theorem fromPublisher_of_received (hits : its.length < 2 ^ 63)
    (h : fs.map Fragment.bytes <:+: (PublishThread.run its).wire) :
    ∀ f ∈ fs, FromPublisher its f := by
  intro f hf
  obtain ⟨part, hpart, heq⟩ := exists_part h
  have hbytes : f.bytes ∈ part.map PublishThread.messageOf := heq ▸ List.mem_map_of_mem hf
  obtain ⟨i, hi, hf⟩ := List.mem_map.mp hbytes
  exact fromPublisher_of_sent hits (hpart.subset hi) hf.symm

/-- The numbers that have been received are a part of those on the wire. -/
theorem numbers_infix_of_received (hits : its.length < 2 ^ 63)
    (h : fs.map Fragment.bytes <:+: (PublishThread.run its).wire) :
    fs.map number <:+: wireNumbers its := by
  obtain ⟨part, hpart, heq⟩ := exists_part h
  rw [numbers_eq hits hpart.subset heq]
  exact hpart.map _

theorem sorted_of_received (hits : its.length < 2 ^ 63)
    (h : fs.map Fragment.bytes <:+: (PublishThread.run its).wire) :
    (fs.map number).Pairwise (· < ·) :=
  (wireNumbers_sorted its).sublist (numbers_infix_of_received hits h).sublist

theorem FromPublisher.number_lt {f : Fragment} (h : FromPublisher its f) :
    number f < its.length := by
  obtain ⟨it, hit, -⟩ := h
  exact Int.ofNat_lt.mpr (List.getElem?_eq_some_iff.mp hit).1

namespace Reception

theorem fromPublisher (h : Reception config d₀ its as a) :
    ∀ f ∈ Accesses.polls as, FromPublisher its f := fromPublisher_of_received h.few h.received

theorem sorted (h : Reception config d₀ its as a) :
    ((Accesses.polls as).map number).Pairwise (· < ·) := sorted_of_received h.few h.received

theorem number_lt (h : Reception config d₀ its as a) :
    ∀ f ∈ Accesses.polls as, number f < 2 ^ 63 - 1 := by
  intro f hf
  have hlt := (h.fromPublisher f hf).number_lt
  have hfew := h.few
  omega

end Reception

/-! ## The gaps -/

/-- The fragment, while a new pool and an empty queue are at hand. -/
def delivery (f : Fragment) : Delivery 1024 Nat := { arriving 0 with fragment := f }

theorem message_number_ne {f : Fragment} (hf : number f < 2 ^ 63 - 1) :
    f.message_number ≠ -1 := by
  intro heq
  have hsmall : f.sequence_number.toNat < 2 ^ 63 := by
    unfold number at hf
    omega
  have hint := toInt_message_number hsmall
  have hnonneg := number_nonneg f
  rw [heq] at hint
  have hminus : (-1 : Int64).toInt = -1 := by decide
  omega

/-- Strictly increasing numbers are all handled. -/
theorem processed_of_sorted {config : SubscriberConfig}
    (hnum : ∀ f ∈ fs, number f < 2 ^ 63 - 1) (hsorted : (fs.map number).Pairwise (· < ·)) :
    processed config fs = fs := by
  have hfresh : FreshIn (fun _ => true) fs := by
    refine (List.pairwise_map.mp hsorted).imp fun {g f} hlt _ heq => ?_
    rw [number, number, heq] at hlt
    exact Int.lt_irrefl _ hlt
  have hall : (processed config fs).filter (fun _ => true) = fs.filter fun _ => true :=
    processed_filter hfresh fun f hf _ => message_number_ne (hnum f hf)
  rwa [List.filter_eq_self.mpr fun _ _ => rfl, List.filter_eq_self.mpr fun _ _ => rfl] at hall

/-- An iteration whose offer ends like this. -/
def offering (result : OfferResult) : Iteration := ⟨0, 0, true, true, result⟩

end AeronReplay.System
