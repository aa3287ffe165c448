import AeronReplay.Lib.Window
import AeronReplay.Subscriber.Delivery
import AeronReplay.Subscriber.Pipeline

set_option autoImplicit false

/-! # Call after call of the fast path

A subscriber that is fed with deliveries one after the other. Between two calls pool and queue
change in any way. `feed_pipeline` says that what it tracks is what the first filter of the
pipeline tracks on the fragments for which a buffer was free, and `duplicate_window` that the
ring of recent sequence numbers is a sliding window over those of them that it let through. -/

namespace AeronReplay.AeronSubscriber

open Pipeline

variable {PoolSize : Nat} {Pointer : Type} (N : Ring.Size) (addr : Fin PoolSize → Pointer)
  (config : SubscriberConfig)

/-! ## Histories -/

/-- The message has passed the duplicate check. -/
def Exit.passed : Exit → Bool
  | .queueFull | .delivered => true
  | .allocationFailed | .duplicate => false

/-- A subscriber with the messages that have passed the duplicate check, those of them that
have been enqueued, and the ranges passed to `triggerImmediateGapRecovery`. -/
structure Feed where
  subscriber : AeronSubscriber
  passed : List Fragment
  delivered : List Fragment
  gaps : List (Int64 × Int64)

def Feed.next (a : Feed) (d : Delivery PoolSize Pointer) : Feed :=
  let o := handleMessageFastPath N addr config a.subscriber d
  { subscriber := o.subscriber
    passed := if o.exit.passed then a.passed ++ [d.fragment] else a.passed
    delivered := if o.exit = .delivered then a.delivered ++ [d.fragment] else a.delivered
    gaps := a.gaps ++ o.gap.toList }

def feed (s : AeronSubscriber) (ds : List (Delivery PoolSize Pointer)) : Feed :=
  ds.foldl (Feed.next N addr config) ⟨s, [], [], []⟩

theorem feed_snoc (s : AeronSubscriber) (ds : List (Delivery PoolSize Pointer))
    (d : Delivery PoolSize Pointer) :
    feed N addr config s (ds ++ [d]) = (feed N addr config s ds).next N addr config d :=
  List.foldl_append

/-- What the pipeline knows of a history. -/
def Feed.tracked (a : Feed) : FastPathRun := ⟨a.subscriber.tracking, a.passed, a.gaps⟩

/-! ## The pipeline -/

section Pipeline

variable {N addr config} {a : Feed} {d : Delivery PoolSize Pointer}

/-- A call without a free buffer leaves no trace in the history. -/
theorem Feed.next_of_empty (hpool : d.buffer_pool_.free_count_ = 0) :
    (a.next N addr config d).tracked = a.tracked ∧
      (a.next N addr config d).subscriber.gaps_detected_ = a.subscriber.gaps_detected_ := by
  have hspec := handleMessageFastPath_spec N addr config a.subscriber d
  unfold Feed.next Feed.tracked
  revert hspec
  generalize handleMessageFastPath N addr config a.subscriber d = o
  intro hspec
  cases hspec with
  | allocationFailed _ => exact ⟨by simp [Exit.passed], rfl⟩
  | duplicate hpos | queueFull hpos | delivered hpos => omega

/-- A call with a free buffer is a step of the pipeline, and counts its gap. -/
theorem Feed.next_of_free (hpool : 0 < d.buffer_pool_.free_count_) :
    (a.next N addr config d).tracked = a.tracked.next config d.fragment ∧
      (a.next N addr config d).subscriber.gaps_detected_
        = if (track config a.subscriber.tracking d.fragment.message_number).gap.isSome
          then a.subscriber.gaps_detected_ + 1 else a.subscriber.gaps_detected_ := by
  have hspec := handleMessageFastPath_spec N addr config a.subscriber d
  unfold Feed.next Feed.tracked FastPathRun.next
  revert hspec
  generalize handleMessageFastPath N addr config a.subscriber d = o
  intro hspec
  cases hspec with
  | allocationFailed hempty => omega
  | duplicate _ hv hdup | queueFull _ hv hdup _ | delivered _ hv hdup _ =>
      subst hv
      exact ⟨by simp [hdup, Exit.passed, afterTracking, countAndUpdate], rfl⟩

/-- With a free buffer, what is tracked and the ranges that are recovered are the verdict's. -/
theorem Feed.tracking_next (N : Ring.Size) (addr : Fin PoolSize → Pointer)
    (hpool : 0 < d.buffer_pool_.free_count_) :
    (a.next N addr config d).subscriber.tracking
      = (track config a.subscriber.tracking d.fragment.message_number).tracking :=
  congrArg FastPathRun.tracking (Feed.next_of_free hpool).1

theorem Feed.gaps_next (N : Ring.Size) (addr : Fin PoolSize → Pointer)
    (hpool : 0 < d.buffer_pool_.free_count_) :
    (a.next N addr config d).gaps = a.gaps ++
      (track config a.subscriber.tracking d.fragment.message_number).gap.toList :=
  congrArg FastPathRun.gaps (Feed.next_of_free hpool).1

/-- A message that the duplicate check drops. -/
theorem Feed.passed_next_of_duplicate (N : Ring.Size) (addr : Fin PoolSize → Pointer)
    (hpool : 0 < d.buffer_pool_.free_count_)
    (hdup : (track config a.subscriber.tracking d.fragment.message_number).duplicate = true) :
    (a.next N addr config d).passed = a.passed :=
  (congrArg FastPathRun.accepted (Feed.next_of_free hpool).1).trans (if_pos hdup)

/-- A message that gets a buffer and past the duplicate check. -/
theorem Feed.next_of_accepted (N : Ring.Size) (addr : Fin PoolSize → Pointer)
    (hpool : 0 < d.buffer_pool_.free_count_)
    (hnew : (track config a.subscriber.tracking d.fragment.message_number).duplicate = false) :
    (a.next N addr config d).passed = a.passed ++ [d.fragment] ∧
    (a.next N addr config d).gaps = a.gaps ++
      (track config a.subscriber.tracking d.fragment.message_number).gap.toList ∧
    (a.next N addr config d).subscriber.tracking
      = (track config a.subscriber.tracking d.fragment.message_number).tracking := by
  have hpassed : (a.next N addr config d).passed = _ :=
    congrArg FastPathRun.accepted (Feed.next_of_free hpool).1
  exact ⟨hpassed.trans (if_neg (Bool.eq_false_iff.mp hnew)), Feed.gaps_next N addr hpool,
    Feed.tracking_next N addr hpool⟩

/-- The fragments for which a buffer was free. -/
def received (ds : List (Delivery PoolSize Pointer)) : List Fragment :=
  (ds.filter (0 < ·.buffer_pool_.free_count_)).map (·.fragment)

theorem received_snoc_of_empty (ds : List (Delivery PoolSize Pointer))
    (hpool : d.buffer_pool_.free_count_ = 0) : received (ds ++ [d]) = received ds := by
  simp [received, hpool]

theorem received_snoc_of_free (ds : List (Delivery PoolSize Pointer))
    (hpool : 0 < d.buffer_pool_.free_count_) :
    received (ds ++ [d]) = received ds ++ [d.fragment] := by
  simp [received, hpool]

/-- **The history of a new subscriber is that of the pipeline** on the fragments for which a
buffer was free. -/
theorem feed_pipeline (c : Option CheckpointData) (ds : List (Delivery PoolSize Pointer)) :
    (feed N addr config (fresh config c) ds).tracked = fastPath config (received ds) := by
  induction ds using List.reverseRecOn with
  | nil => rfl
  | append_singleton ds d ih =>
      rw [feed_snoc]
      obtain hpool | hpool := Nat.eq_zero_or_pos d.buffer_pool_.free_count_
      · rw [(Feed.next_of_empty hpool).1, ih, received_snoc_of_empty ds hpool]
      · rw [(Feed.next_of_free hpool).1, ih, received_snoc_of_free ds hpool, fastPath_snoc]

end Pipeline

/-! ## The window of recent numbers -/

section Ring

variable {N addr config} {fs : List Fragment} {c : Option CheckpointData}
  {ds : List (Delivery PoolSize Pointer)}

/-- The ring of the pipeline shows the numbers of the accepted messages. -/
theorem fastPath_shows (hcheck : config.duplicate_check_enabled = true)
    (hW : 1 ≤ config.duplicate_window_size) (fs : List Fragment) :
    Window.Shows config.duplicate_window_size (-1)
      ((fastPath config fs).accepted.map Fragment.message_number)
      (fastPath config fs).tracking.duplicate_buffer_
      (fastPath config fs).tracking.duplicate_buffer_pos_ := by
  induction fs using List.reverseRecOn with
  | nil =>
      have hring : (initialTracking config).duplicate_buffer_
          = List.replicate config.duplicate_window_size (-1) := if_pos hcheck
      show Window.Shows _ _ [] (initialTracking config).duplicate_buffer_ 0
      rw [hring]
      exact Window.shows_init hW
  | append_singleton fs f ih =>
      rw [fastPath_snoc, FastPathRun.next]
      dsimp only
      cases hdup : (track config (fastPath config fs).tracking f.message_number).duplicate with
      | true =>
          rw [track_of_duplicate hdup, if_pos rfl, detectGap_tracking]
          split
          · exact ih
          · exact ih
      | false =>
          -- the ring has slots, so that the accepted number is written
          have hring : (fastPath config fs).tracking.duplicate_buffer_ ≠ [] := by
            intro hnil
            have hlen := ih.length_eq
            rw [hnil] at hlen
            simp at hlen
            omega
          have hadd : addToDecluplicationBuffer config { (fastPath config fs).tracking with
              expected_sequence_ := f.message_number + 1 } f.message_number
                = { (fastPath config fs).tracking with
                  expected_sequence_ := f.message_number + 1
                  duplicate_buffer_ := (fastPath config fs).tracking.duplicate_buffer_.set
                    (fastPath config fs).tracking.duplicate_buffer_pos_ f.message_number
                  duplicate_buffer_pos_ :=
                    ((fastPath config fs).tracking.duplicate_buffer_pos_ + 1)
                      % (fastPath config fs).tracking.duplicate_buffer_.length } := by
            unfold addToDecluplicationBuffer
            simp [hcheck, hring]
          rw [track_of_accepted hdup, hadd, if_neg Bool.false_ne_true, List.map_append]
          exact ih.write f.message_number

/-- So does the ring of a subscriber. -/
theorem feed_shows (hcheck : config.duplicate_check_enabled = true)
    (hW : 1 ≤ config.duplicate_window_size) (c : Option CheckpointData)
    (ds : List (Delivery PoolSize Pointer)) :
    Window.Shows config.duplicate_window_size (-1)
      ((feed N addr config (fresh config c) ds).passed.map Fragment.message_number)
      (feed N addr config (fresh config c) ds).subscriber.tracking.duplicate_buffer_
      (feed N addr config (fresh config c) ds).subscriber.tracking.duplicate_buffer_pos_ := by
  have hrun : (feed N addr config (fresh config c) ds).tracked = fastPath config (received ds) :=
    feed_pipeline c ds
  have hshows := fastPath_shows hcheck hW (received ds)
  rw [← hrun] at hshows
  exact hshows

/-- The initial value of the ring is the largest `uint64_t`. -/
theorem message_number_eq_initial_iff {f : Fragment} :
    f.message_number = -1 ↔ f.sequence_number.toNat = 2 ^ 64 - 1 := by
  have hinitial : (-1 : Int64).toUInt64.toNat = 2 ^ 64 - 1 := by decide
  rw [← hinitial, UInt64.toNat_inj]
  exact ⟨congrArg Int64.toUInt64, congrArg UInt64.toInt64⟩

/-- A number below `2 ^ 63` is not the initial value of the ring. -/
theorem message_number_ne {f : Fragment} (h : f.sequence_number.toNat < 2 ^ 63) :
    f.message_number ≠ -1 := by
  rw [ne_eq, message_number_eq_initial_iff]
  omega

theorem mem_map_sequence_number {f : Fragment} :
    f.message_number ∈ fs.map Fragment.message_number ↔
      f.sequence_number ∈ fs.map Fragment.sequence_number := by
  simp only [List.mem_map]
  refine exists_congr fun g => and_congr_right fun _ => ?_
  exact ⟨Fragment.sequence_number_of_message_number, congrArg UInt64.toInt64⟩

theorem passed_sublist (c : Option CheckpointData) (ds : List (Delivery PoolSize Pointer)) :
    (feed N addr config (fresh config c) ds).passed.Sublist (received ds) := by
  have hpassed : (feed N addr config (fresh config c) ds).passed
      = (fastPath config (received ds)).accepted :=
    congrArg FastPathRun.accepted (feed_pipeline c ds)
  rw [hpassed]
  exact accepted_sublist config (received ds)

/-- What the ring holds: numbers of messages that have passed the check, and the initial value
while it has not been filled. -/
theorem mem_ring_iff (hcheck : config.duplicate_check_enabled = true)
    (hW : 1 ≤ config.duplicate_window_size) {n : Int64} :
    n ∈ (feed N addr config (fresh config c) ds).subscriber.tracking.duplicate_buffer_ ↔
      n ∈ ((feed N addr config (fresh config c) ds).passed.map Fragment.message_number).rtake
        config.duplicate_window_size ∨
      n = -1 ∧ (feed N addr config (fresh config c) ds).passed.length
        < config.duplicate_window_size := by
  have hmem := (@feed_shows _ _ N addr config hcheck hW c ds).mem_iff (y := n)
  rwa [List.length_map] at hmem

/-- The ring keeps its size. -/
theorem length_track_ring {t : Tracking} {n : Int64} :
    (track config t n).tracking.duplicate_buffer_.length = t.duplicate_buffer_.length := by
  cases hdup : (track config t n).duplicate with
  | true => rw [track_of_duplicate hdup, detectGap_ring]
  | false =>
      rw [track_of_accepted hdup]
      unfold addToDecluplicationBuffer
      split
      · rfl
      · exact List.length_set

theorem length_fastPath_ring (config : SubscriberConfig) (fs : List Fragment) :
    (fastPath config fs).tracking.duplicate_buffer_.length
      = (initialTracking config).duplicate_buffer_.length := by
  induction fs using List.reverseRecOn with
  | nil => rfl
  | append_singleton fs f ih =>
      rw [fastPath_snoc, ← ih]
      exact length_track_ring

/-- What the duplicate check drops is a number that has passed it, or the initial value of a ring
that has not been filled. -/
theorem passed_of_duplicate {f : Fragment} (hdup : (track config
      (feed N addr config (fresh config c) ds).subscriber.tracking
      f.message_number).duplicate = true) :
    f.sequence_number ∈
        (feed N addr config (fresh config c) ds).passed.map Fragment.sequence_number ∨
      f.sequence_number.toNat = 2 ^ 64 - 1 ∧
        (feed N addr config (fresh config c) ds).passed.length < config.duplicate_window_size := by
  obtain ⟨hcheck, hmem⟩ := track_duplicate.mp hdup
  have hrun : (feed N addr config (fresh config c) ds).tracked = fastPath config (received ds) :=
    feed_pipeline c ds
  -- a ring without slots would be empty
  have hW : 1 ≤ config.duplicate_window_size := by
    have hlen := length_fastPath_ring config (received ds)
    rw [← hrun, initialTracking, hcheck] at hlen
    rw [← hlen.trans List.length_replicate]
    exact List.length_pos_of_mem hmem
  obtain hlast | ⟨hinitial, hroom⟩ := (mem_ring_iff hcheck hW).mp hmem
  · exact Or.inl (mem_map_sequence_number.mp (List.mem_of_mem_drop hlast))
  · exact Or.inr ⟨message_number_eq_initial_iff.mp hinitial, hroom⟩

end Ring

section Duplicate

variable {N addr config}

/-- With a free buffer, the duplicate check decides alone whether the message is dropped as a
duplicate. -/
theorem exit_duplicate_iff {s : AeronSubscriber} {d : Delivery PoolSize Pointer}
    (hpool : 0 < d.buffer_pool_.free_count_) :
    (handleMessageFastPath N addr config s d).exit = .duplicate ↔
      (track config s.tracking d.fragment.message_number).duplicate = true := by
  have hspec := handleMessageFastPath_spec N addr config s d
  revert hspec
  generalize handleMessageFastPath N addr config s d = o
  intro hspec
  cases hspec with
  | allocationFailed hempty => omega
  | duplicate _ hv hdup =>
      subst hv
      exact iff_of_true rfl hdup
  | queueFull _ hv hdup _ | delivered _ hv hdup _ =>
      subst hv
      exact iff_of_false (fun h => nomatch h) (Bool.eq_false_iff.mp hdup)

/-- **The ring is an exact sliding window.** With the duplicate check enabled and a window size
of at least 1, a message for which a buffer is free is dropped as a duplicate if and only if its
number is among those of the last messages that have passed the check, as many as the window is
wide; a message that is dropped moves nothing; and the write position stays in the ring. -/
theorem duplicate_window (hcheck : config.duplicate_check_enabled = true)
    (hW : 1 ≤ config.duplicate_window_size) (c : Option CheckpointData)
    (ds : List (Delivery PoolSize Pointer)) {d : Delivery PoolSize Pointer}
    (hpool : 0 < d.buffer_pool_.free_count_) (hnum : d.fragment.sequence_number.toNat < 2 ^ 63) :
    let a := feed N addr config (fresh config c) ds
    let b := a.next N addr config d
    ((handleMessageFastPath N addr config a.subscriber d).exit = .duplicate ↔
      d.fragment.sequence_number ∈
        (a.passed.rtake config.duplicate_window_size).map Fragment.sequence_number) ∧
    ((handleMessageFastPath N addr config a.subscriber d).exit = .duplicate →
      b.passed = a.passed ∧
      b.subscriber.tracking.duplicate_buffer_ = a.subscriber.tracking.duplicate_buffer_ ∧
      b.subscriber.tracking.duplicate_buffer_pos_ = a.subscriber.tracking.duplicate_buffer_pos_) ∧
    b.subscriber.tracking.duplicate_buffer_pos_ < config.duplicate_window_size := by
  intro a b
  -- before and after the call the ring shows the last numbers that have passed
  have hshows := @feed_shows _ _ N addr config hcheck hW c ds
  have hshows' := @feed_shows _ _ N addr config hcheck hW c (ds ++ [d])
  rw [feed_snoc] at hshows'
  refine ⟨?_, fun hdup => ?_, hshows'.pos_lt⟩
  · have hmem : d.fragment.message_number ∈ a.subscriber.tracking.duplicate_buffer_ ↔ _ :=
      hshows.mem_iff
    have hrtake : (a.passed.map Fragment.message_number).rtake config.duplicate_window_size
        = (a.passed.rtake config.duplicate_window_size).map Fragment.message_number := by
      rw [List.rtake, List.rtake, List.length_map, List.map_drop]
    rw [exit_duplicate_iff hpool, track_duplicate, hmem, ← mem_map_sequence_number, ← hrtake]
    simp [hcheck, message_number_ne hnum]
    rfl
  · rw [exit_duplicate_iff hpool] at hdup
    have htracking : b.subscriber.tracking = _ :=
      (Feed.tracking_next N addr hpool).trans (track_of_duplicate hdup)
    refine ⟨Feed.passed_next_of_duplicate N addr hpool hdup, ?_, ?_⟩
    · rw [htracking, detectGap_ring]
    · rw [htracking, detectGap_tracking]
      split <;> rfl

/-- A message that has passed the check and found the queue full is a duplicate when it comes
again. -/
theorem duplicate_window_repeat :
    (handleMessageFastPath overloadSize Fin.val { duplicate_window_size := 2 }
      (feed overloadSize Fin.val { duplicate_window_size := 2 }
        (fresh { duplicate_window_size := 2 } none) [overload]).subscriber overload).exit
      = .duplicate :=
  (duplicate_window (d := overload) rfl (by decide) none [overload] (by decide)
    (by decide)).1.mpr (by decide)

end Duplicate

end AeronReplay.AeronSubscriber
