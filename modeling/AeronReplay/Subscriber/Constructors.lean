import AeronReplay.Lib.Transition
import AeronReplay.Subscriber.Feed

set_option autoImplicit false

/-! # The two constructors

`AeronSubscriber()` and `AeronSubscriber(config)` (`AeronSubscriber.cpp`). With the default
configuration they agree in all members but one: only the second gives the ring of recent sequence
numbers its size, and the first leaves it empty, so that nothing is ever found in it.

`constructors_agree_iff` says for which fragments nobody can tell. It rests on a step lemma about
two subscribers that both keep a message (`SameOutcome.next`) and on `delivered_iff`, which says
that a stream is delivered as a whole only where nothing is dropped. -/

namespace AeronReplay

/-- A buffer of the subscriber's own pool is free, and those that wait in its queue are not. -/
structure Delivery.Available {PoolSize : Nat} {Pointer : Type} (N : Ring.Size)
    (d : Delivery PoolSize Pointer) : Prop where
  buffer : 0 < d.buffer_pool_.free_count_
  queue : ∃ l, RingQueue.Stores N d.message_queue_ l ∧
    l.length + d.buffer_pool_.free_count_ ≤ PoolSize

/-- The queue has room for all buffers of the pool. -/
theorem Delivery.Available.room {PoolSize : Nat} {Pointer : Type} {N : Ring.Size}
    {d : Delivery PoolSize Pointer} (h : d.Available N)
    (hsize : PoolSize < N.val) : RingQueue.full N d.message_queue_ = false := by
  obtain ⟨l, hstores, hlen⟩ := h.queue
  have hbuffer := h.buffer
  rw [RingQueue.full, decide_eq_false_iff_not, hstores.full_iff]
  omega

namespace AeronSubscriber

open Transition

/-- `AeronSubscriber()`. Its `config_` is the default configuration. -/
def defaultConstructed : AeronSubscriber where
  tracking := ⟨0, [], 0⟩
  zc_messages_received_ := 0
  zc_buffer_allocation_failures_ := 0
  zc_queue_full_failures_ := 0
  gaps_detected_ := 0
  duplicates_detected_ := 0
  checkpoint_ := none

/-- Two subscribers that have enqueued the same messages, reported the same gaps and come to the
same `expected_sequence_` and counts. -/
structure SameOutcome (a b : Feed) : Prop where
  delivered : a.delivered = b.delivered
  gaps : a.gaps = b.gaps
  expected_sequence_ :
    a.subscriber.tracking.expected_sequence_ = b.subscriber.tracking.expected_sequence_
  gaps_detected_ : a.subscriber.gaps_detected_ = b.subscriber.gaps_detected_
  duplicates_detected_ : a.subscriber.duplicates_detected_ = b.subscriber.duplicates_detected_

variable {PoolSize : Nat} {Pointer : Type} {N : Ring.Size} {addr : Fin PoolSize → Pointer}
  {config : SubscriberConfig}

/-! ## One call -/

section Call

variable {a b : Feed} {d : Delivery PoolSize Pointer}

/-- Whether the call drops the message as a duplicate. -/
def drops (config : SubscriberConfig) (a : Feed) (d : Delivery PoolSize Pointer) : Bool :=
  (track config a.subscriber.tracking d.fragment.message_number).duplicate

/-- With a buffer and room in the queue, a message is delivered unless it is a duplicate. -/
theorem Feed.next_of_available (config : SubscriberConfig) (addr : Fin PoolSize → Pointer)
    (a : Feed) (hsize : PoolSize < N.val) (h : d.Available N) :
    (drops config a d = true ∧ (a.next N addr config d).passed = a.passed ∧
      (a.next N addr config d).delivered = a.delivered) ∨
    (drops config a d = false ∧ (a.next N addr config d).passed = a.passed ++ [d.fragment] ∧
      (a.next N addr config d).delivered = a.delivered ++ [d.fragment] ∧
      (a.next N addr config d).subscriber.duplicates_detected_
        = a.subscriber.duplicates_detected_) := by
  have hbuffer := h.buffer
  have hroom := h.room hsize
  have hspec := handleMessageFastPath_spec N addr config a.subscriber d
  unfold Feed.next drops
  revert hspec
  generalize handleMessageFastPath N addr config a.subscriber d = o
  intro hspec
  cases hspec with
  | allocationFailed hempty => omega
  | duplicate _ hv hdup =>
      subst hv
      exact Or.inl ⟨hdup, rfl, rfl⟩
  | queueFull _ _ _ hfull => cases hfull.symm.trans hroom
  | delivered _ hv hdup _ =>
      subst hv
      refine Or.inr ⟨hdup, rfl, rfl, ?_⟩
      simp [afterTracking, countAndUpdate, hdup]

/-- The gap that is reported depends on `expected_sequence_` alone. -/
theorem gap_congr (config : SubscriberConfig) {t u : Tracking} (n : Int64)
    (h : t.expected_sequence_ = u.expected_sequence_) :
    (track config t n).gap = (track config u n).gap := by
  rw [track_gap, track_gap]
  ext ⟨lo, hi⟩
  rw [detectGap_some, detectGap_some, h]

/-- A message that is kept is the last one expected so far. -/
theorem expected_of_kept {t : Tracking} {n : Int64} (h : (track config t n).duplicate = false) :
    (track config t n).tracking.expected_sequence_ = n + 1 := by
  rw [track_of_accepted h, addToDecluplicationBuffer]
  split <;> rfl

/-- **One call**: two subscribers that have done the same and both keep the message go on so. -/
theorem SameOutcome.next (h : SameOutcome a b) (hsize : PoolSize < N.val)
    {d' : Delivery PoolSize Pointer}
    (hd : d.Available N) (hd' : d'.Available N) (hsame : d.fragment = d'.fragment)
    (ha : drops config a d = false) (hb : drops config b d' = false) :
    SameOutcome (a.next N addr config d) (b.next N addr config d') := by
  obtain ⟨hdrop, -⟩ | ⟨-, -, hdelivered, hdup⟩ :=
    Feed.next_of_available config addr a hsize hd
  · cases ha.symm.trans hdrop
  obtain ⟨hdrop', -⟩ | ⟨-, -, hdelivered', hdup'⟩ :=
    Feed.next_of_available config addr b hsize hd'
  · cases hb.symm.trans hdrop'
  have hgap := gap_congr config d.fragment.message_number h.expected_sequence_
  refine ⟨?_, ?_, ?_, ?_, ?_⟩
  · rw [hdelivered, hdelivered', h.delivered, hsame]
  · rw [Feed.gaps_next N addr hd.buffer, Feed.gaps_next N addr hd'.buffer, h.gaps, hgap, hsame]
  · rw [Feed.tracking_next N addr hd.buffer, Feed.tracking_next N addr hd'.buffer,
      expected_of_kept ha, expected_of_kept hb, hsame]
  · rw [(Feed.next_of_free hd.buffer).2, (Feed.next_of_free hd'.buffer).2, h.gaps_detected_, hgap,
      hsame]
  · rw [hdup, hdup', h.duplicates_detected_]

end Call

/-! ## Streams -/

section Stream

variable {s s' : AeronSubscriber} {ds ds' : List (Delivery PoolSize Pointer)}

/-- No message of the stream is dropped as a duplicate. -/
def KeepsAll (N : Ring.Size) (addr : Fin PoolSize → Pointer) (config : SubscriberConfig)
    (s : AeronSubscriber) (ds : List (Delivery PoolSize Pointer)) : Prop :=
  ∀ xs d ys, ds = xs ++ d :: ys → drops config (feed N addr config s xs) d = false

theorem keepsAll_snoc {d : Delivery PoolSize Pointer} :
    KeepsAll N addr config s (ds ++ [d]) ↔
      KeepsAll N addr config s ds ∧ drops config (feed N addr config s ds) d = false :=
  forall_split_snoc ds d

/-- What passes the duplicate check is delivered, and no more than has arrived. -/
theorem passed_eq_delivered (addr : Fin PoolSize → Pointer) (config : SubscriberConfig)
    (s : AeronSubscriber) (hsize : PoolSize < N.val)
    (h : ∀ d ∈ ds, d.Available N) :
    (feed N addr config s ds).passed = (feed N addr config s ds).delivered ∧
      (feed N addr config s ds).delivered.length ≤ ds.length := by
  induction ds using List.reverseRecOn with
  | nil => exact ⟨rfl, Nat.le_refl 0⟩
  | append_singleton ds d ih =>
      obtain ⟨hsame, hlen⟩ := ih fun x hx => h x (List.mem_append_left _ hx)
      rw [feed_snoc, List.length_append, List.length_singleton]
      obtain ⟨-, hpassed, hdelivered⟩ | ⟨-, hpassed, hdelivered, -⟩ :=
        Feed.next_of_available config addr (feed N addr config s ds) hsize (h d (by simp))
      · rw [hpassed, hdelivered]
        exact ⟨hsame, by omega⟩
      · rw [hpassed, hdelivered, hsame, List.length_append, List.length_singleton]
        exact ⟨rfl, by omega⟩

/-- A stream is delivered as a whole if none of its messages is dropped. -/
theorem delivered_iff (s : AeronSubscriber) (hsize : PoolSize < N.val)
    (h : ∀ d ∈ ds, d.Available N) :
    (feed N addr config s ds).delivered = ds.map (·.fragment) ↔ KeepsAll N addr config s ds := by
  induction ds using List.reverseRecOn with
  | nil => exact iff_of_true rfl fun xs d ys hsplit => absurd hsplit (by simp)
  | append_singleton ds d ih =>
      have hbefore : ∀ x ∈ ds, x.Available N := fun x hx => h x (List.mem_append_left _ hx)
      have hlen := (passed_eq_delivered addr config s hsize hbefore).2
      rw [feed_snoc, keepsAll_snoc, ← ih hbefore, List.map_append, List.map_singleton]
      obtain ⟨hdrop, -, hdelivered⟩ | ⟨hkeep, -, hdelivered, -⟩ :=
        Feed.next_of_available config addr (feed N addr config s ds) hsize (h d (by simp))
      · -- a dropped message leaves too few
        rw [hdelivered, hdrop]
        refine iff_of_false (fun heq => ?_) fun hkeep => nomatch hkeep.2
        rw [heq, List.length_append, List.length_map, List.length_singleton] at hlen
        omega
      · rw [hdelivered, List.append_left_inj]
        exact ⟨fun heq => ⟨heq, hkeep⟩, And.left⟩

/-- **A stream**: two subscribers that both keep all of it have done the same at its end. -/
theorem sameOutcome_of_keepsAll (hsize : PoolSize < N.val) (h : ∀ d ∈ ds, d.Available N)
    (h' : ∀ d ∈ ds', d.Available N) (hsame : ds.map (·.fragment) = ds'.map (·.fragment))
    (hstart : SameOutcome ⟨s, [], [], []⟩ ⟨s', [], [], []⟩)
    (hkeep : KeepsAll N addr config s ds) (hkeep' : KeepsAll N addr config s' ds') :
    SameOutcome (feed N addr config s ds) (feed N addr config s' ds') := by
  induction ds using List.reverseRecOn generalizing ds' with
  | nil =>
      obtain rfl := List.map_eq_nil_iff.mp hsame.symm
      exact hstart
  | append_singleton ds d ih =>
      rw [List.map_append, List.map_singleton] at hsame
      obtain ⟨es, last, rfl, hes, hlast⟩ := List.map_eq_append_iff.mp hsame.symm
      obtain ⟨d', rfl, hd⟩ := List.map_eq_singleton_iff.mp hlast
      rw [keepsAll_snoc] at hkeep hkeep'
      have hbefore := ih (fun x hx => h x (List.mem_append_left _ hx))
        (fun x hx => h' x (List.mem_append_left _ hx)) hes.symm hkeep.1 hkeep'.1
      rw [feed_snoc, feed_snoc]
      exact hbefore.next hsize (h d (by simp)) (h' d' (by simp)) hd.symm hkeep.2 hkeep'.2

end Stream

/-! ## Which streams are kept -/

section Keeps

variable {ds ds' : List (Delivery PoolSize Pointer)}

/-- Without a ring nothing is dropped. -/
theorem keepsAll_defaultConstructed (N : Ring.Size) (addr : Fin PoolSize → Pointer)
    (h : ∀ d ∈ ds, d.Available N) : KeepsAll N addr config defaultConstructed ds := by
  have hring : ∀ xs : List (Delivery PoolSize Pointer), (∀ d ∈ xs, d.Available N) →
      (feed N addr config defaultConstructed xs).subscriber.tracking.duplicate_buffer_ = [] := by
    intro xs hxs
    induction xs using List.reverseRecOn with
    | nil => rfl
    | append_singleton xs d ih =>
        have hbefore := ih fun x hx => hxs x (List.mem_append_left _ hx)
        rw [feed_snoc, Feed.tracking_next N addr (hxs d (by simp)).buffer,
          ← List.length_eq_zero_iff, length_track_ring, hbefore]
        rfl
  intro xs d ys hsplit
  rw [drops, Bool.eq_false_iff]
  intro hdup
  have hmem := (track_duplicate.mp hdup).2
  rw [hring xs fun x hx => h x (by rw [hsplit]; exact List.mem_append_left _ hx)] at hmem
  exact absurd hmem List.not_mem_nil

/-- No number is that of one of the last `W` messages before it, and the largest one does not occur
among the first `W`. -/
def Unrepeated (W : Nat) (fs : List Fragment) : Prop :=
  ∀ xs f ys, fs = xs ++ f :: ys →
    f.sequence_number ∉ (xs.rtake W).map Fragment.sequence_number ∧
      ¬ (f.sequence_number.toNat = 2 ^ 64 - 1 ∧ xs.length < W)

/-- A subscriber with a ring drops a message that the ring has a number for. -/
theorem drops_fresh_iff (hcheck : config.duplicate_check_enabled = true)
    (hW : 1 ≤ config.duplicate_window_size) (d : Delivery PoolSize Pointer) :
    drops config (feed N addr config (fresh config none) ds) d = true ↔
      d.fragment.sequence_number ∈ (((feed N addr config (fresh config none) ds).passed.rtake
          config.duplicate_window_size).map Fragment.sequence_number) ∨
        d.fragment.sequence_number.toNat = 2 ^ 64 - 1 ∧
          (feed N addr config (fresh config none) ds).passed.length
            < config.duplicate_window_size := by
  have hrtake : ∀ fs : List Fragment, (fs.map Fragment.message_number).rtake
      config.duplicate_window_size
        = (fs.rtake config.duplicate_window_size).map Fragment.message_number := fun fs => by
    rw [List.rtake, List.rtake, List.length_map, List.map_drop]
  rw [drops, track_duplicate, mem_ring_iff hcheck hW, hrtake, mem_map_sequence_number,
    message_number_eq_initial_iff]
  exact and_iff_right hcheck

theorem keepsAll_fresh_iff (addr : Fin PoolSize → Pointer) (hsize : PoolSize < N.val)
    (hcheck : config.duplicate_check_enabled = true) (hW : 1 ≤ config.duplicate_window_size)
    (h : ∀ d ∈ ds, d.Available N) :
    KeepsAll N addr config (fresh config none) ds ↔
      Unrepeated config.duplicate_window_size (ds.map (·.fragment)) := by
  induction ds using List.reverseRecOn with
  | nil =>
      refine iff_of_true (fun xs d ys hsplit => ?_) fun xs f ys hsplit => ?_
      · exact absurd hsplit (by simp)
      · exact absurd hsplit (by simp)
  | append_singleton ds d ih =>
      have hbefore : ∀ x ∈ ds, x.Available N := fun x hx => h x (List.mem_append_left _ hx)
      rw [keepsAll_snoc, Unrepeated, List.map_append, List.map_singleton, forall_split_snoc,
        ih hbefore]
      refine and_congr_right fun hfree => ?_
      -- while nothing has been dropped, the ring shows the last messages of the stream
      have hpassed : (feed N addr config (fresh config none) ds).passed = ds.map (·.fragment) :=
        (passed_eq_delivered addr config (fresh config none) hsize hbefore).1.trans
          ((delivered_iff _ hsize hbefore).mpr ((ih hbefore).mpr hfree))
      rw [← not_iff_not, Bool.not_eq_false, drops_fresh_iff hcheck hW, hpassed, not_and_or,
        not_not, not_not]

end Keeps

/-- **The constructors build the same subscriber exactly for these streams**: with the default
configuration and a buffer for each message, the two enqueue the same messages, report the same gaps
and come to the same expected number and counts if and only if no message of the stream has the
number of one of the thousand before it, and none of the first thousand the largest number. -/
theorem constructors_agree_iff {ds ds' : List (Delivery PoolSize Pointer)} {fs : List Fragment}
    (hsize : PoolSize < N.val) (h : ∀ d ∈ ds, d.Available N) (h' : ∀ d ∈ ds', d.Available N)
    (hds : ds.map (·.fragment) = fs) (hds' : ds'.map (·.fragment) = fs) :
    SameOutcome (feed N addr {} defaultConstructed ds) (feed N addr {} (fresh {} none) ds') ↔
      Unrepeated 1000 fs := by
  have hdefault : KeepsAll N addr {} defaultConstructed ds := keepsAll_defaultConstructed N addr h
  have hiff : KeepsAll N addr {} (fresh {} none) ds' ↔ Unrepeated 1000 fs :=
    hds' ▸ keepsAll_fresh_iff addr hsize rfl (by decide) h'
  rw [← hiff]
  constructor
  · intro hsame
    rw [← delivered_iff _ hsize h', ← hsame.delivered, (delivered_iff _ hsize h).mpr hdefault, hds,
      hds']
  · exact sameOutcome_of_keepsAll hsize h h' (hds.trans hds'.symm) ⟨rfl, rfl, rfl, rfl, rfl⟩
      hdefault

theorem available_arriving (n : UInt64) : (arriving n).Available overloadSize where
  buffer := Nat.zero_lt_succ 1023
  queue := ⟨[], ⟨overloadSize.val_pos, overloadSize.val_pos, rfl, rfl⟩, Nat.le_refl 1024⟩

theorem available_arrivals (ns : List UInt64) :
    ∀ d ∈ ns.map arriving, d.Available overloadSize := by
  intro d hd
  obtain ⟨n, -, rfl⟩ := List.mem_map.mp hd
  exact available_arriving n

/-- Numbers out of order and with gaps between them make no difference, a repeated one does. -/
theorem constructors_agree_iff_reordered :
    SameOutcome (feed overloadSize Fin.val {} defaultConstructed ([5, 2, 9, 3].map arriving))
      (feed overloadSize Fin.val {} (fresh {} none) ([5, 2, 9, 3].map arriving)) ∧
    ¬ SameOutcome (feed overloadSize Fin.val {} defaultConstructed ([5, 2, 9, 2].map arriving))
      (feed overloadSize Fin.val {} (fresh {} none) ([5, 2, 9, 2].map arriving)) := by
  constructor
  · apply (constructors_agree_iff (by decide) (available_arrivals [5, 2, 9, 3])
      (available_arrivals [5, 2, 9, 3]) rfl rfl).mpr
    refine forall_split_cons (by decide) (forall_split_cons (by decide) ?_)
    exact forall_split_cons (by decide) (forall_split_cons (by decide) forall_split_nil)
  · intro hsame
    have hunrepeated := (constructors_agree_iff (by decide) (available_arrivals [5, 2, 9, 2])
      (available_arrivals [5, 2, 9, 2]) rfl rfl).mp hsame
    exact absurd (hunrepeated (([5, 2, 9].map arriving).map (·.fragment)) (arriving 2).fragment []
      rfl) (by decide)

set_option maxRecDepth 20000 in
/-- A message that comes twice is enqueued twice by the one and once by the other. -/
theorem repeat_tells_constructors_apart :
    ¬ SameOutcome (feed overloadSize Fin.val {} defaultConstructed [arriving 1, arriving 1])
      (feed overloadSize Fin.val {} (fresh {} none) [arriving 1, arriving 1]) := by
  intro h
  have hcount := h.duplicates_detected_
  revert hcount
  decide

end AeronSubscriber

end AeronReplay
