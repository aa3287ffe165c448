import AeronReplay.Lib.Checked
import AeronReplay.Subscriber.Feed

set_option autoImplicit false

/-! # The ends of the sequence space

The sequence number of a message is a `uint64_t` of the sender's choice; the fast path takes it for
an `int64_t` and calculates with it. `trackChecked` is the tracking of the fast path with
arithmetic that notices overflow. `sequence_space_iff` says on which streams nothing overflows and
no new message is taken for a duplicate. -/

namespace AeronReplay.AeronSubscriber

open Checked Pipeline

/-! ## Tracking with checked arithmetic -/

/-- `checkForGaps`; `none` is an overflow. -/
def checkForGapsChecked (config : SubscriberConfig) (t : Tracking) (message_number : Int64) :
    Option (Bool × Tracking) :=
  if t.expected_sequence_ = 0 then
    (add? message_number 1).map fun next => (false, { t with expected_sequence_ := next })
  else if message_number < t.expected_sequence_ then some (false, t)
  else if message_number > t.expected_sequence_ then
    (sub? message_number t.expected_sequence_).map fun gap_size =>
      if gap_size ≤ config.max_gap_tolerance then (true, t) else (false, t)
  else some (false, t)

/-- What `triggerImmediateGapRecovery` adds to `gaps_recovered_`. -/
def gapLengthChecked (gap_start gap_end : Int64) : Option Int64 :=
  (sub? gap_end gap_start).bind fun distance => add? distance 1

/-- Step 4 of the fast path. -/
def detectGapChecked (config : SubscriberConfig) (t : Tracking) (message_number : Int64) :
    Option (Option (Int64 × Int64) × Tracking) :=
  if config.gap_recovery_enabled then do
    let (found, t) ← checkForGapsChecked config t message_number
    if found then
      let gap_end ← sub? message_number 1
      let _ ← gapLengthChecked t.expected_sequence_ gap_end
      return (some (t.expected_sequence_, gap_end), t)
    else return (none, t)
  else return (none, t)

/-- Steps 4 to 6 of the fast path. -/
def trackChecked (config : SubscriberConfig) (t : Tracking) (message_number : Int64) :
    Option Verdict := do
  let (gap, t) ← detectGapChecked config t message_number
  if config.duplicate_check_enabled && isDuplicate config t message_number then
    return ⟨gap, true, t⟩
  else
    let next ← add? message_number 1
    let t := { t with expected_sequence_ := next }
    let t := if config.duplicate_check_enabled
      then addToDecluplicationBuffer config t message_number else t
    return ⟨gap, false, t⟩

/-! ## Where it goes through -/

section Track

variable {config : SubscriberConfig} {t : Tracking} {n : Int64}

/-- The first message has a successor, and the number of a later one is not too far away from the
one expected. -/
def Reaches (t : Tracking) (n : Int64) : Prop :=
  (t.expected_sequence_ = 0 → n.toInt ≠ 2 ^ 63 - 1) ∧
  (t.expected_sequence_ ≠ 0 → n.toInt - t.expected_sequence_.toInt < 2 ^ 63)

theorem checkForGapsChecked_eq (h : Reaches t n) :
    checkForGapsChecked config t n = some (checkForGaps config t n) := by
  unfold checkForGapsChecked checkForGaps
  by_cases hzero : t.expected_sequence_ = 0
  · rw [if_pos hzero, if_pos hzero, add?_one, if_neg (h.1 hzero), Option.map_some]
  · rw [if_neg hzero, if_neg hzero]
    split
    · rfl
    split
    next hgt =>
      rw [sub?_of_lt (Int64.lt_iff_toInt_lt.mp hgt), if_pos (h.2 hzero), Option.map_some]
    · rfl

theorem checkForGapsChecked_eq_none (h : ¬ Reaches t n) :
    checkForGapsChecked config t n = none := by
  unfold checkForGapsChecked
  by_cases hzero : t.expected_sequence_ = 0
  · have hmax : n.toInt = 2 ^ 63 - 1 := by
      by_contra hne
      exact h ⟨fun _ => hne, fun hne => absurd hzero hne⟩
    rw [if_pos hzero, add?_one, if_pos hmax, Option.map_none]
  · have hfar : ¬ n.toInt - t.expected_sequence_.toInt < 2 ^ 63 := fun hnear =>
      h ⟨fun hz => absurd hz hzero, fun _ => hnear⟩
    have hgt : t.expected_sequence_.toInt < n.toInt := by omega
    have hlt : ¬ n < t.expected_sequence_ := by
      rw [Int64.lt_iff_toInt_lt]
      omega
    rw [if_neg hzero, if_neg hlt, if_pos (Int64.lt_iff_toInt_lt.mpr hgt), sub?_of_lt hgt,
      if_neg hfar, Option.map_none]

/-- A gap is found behind what is expected. -/
theorem checkForGaps_found (h : (checkForGaps config t n).1 = true) :
    (checkForGaps config t n).2 = t ∧ t.expected_sequence_ ≠ 0 ∧
      t.expected_sequence_.toInt < n.toInt := by
  rw [← Int64.lt_iff_toInt_lt]
  unfold checkForGaps at h ⊢
  grind

/-- The calculations with a gap that has been found do not overflow. -/
theorem gapLengthChecked_eq {e : Int64} (hlt : e.toInt < n.toInt)
    (hnear : n.toInt - e.toInt < 2 ^ 63) :
    sub? n 1 = some (n - 1) ∧ gapLengthChecked e (n - 1) = some (n - 1 - e + 1) := by
  have hlo := e.le_toInt
  have hhi := n.toInt_lt
  have hone : (1 : Int64).toInt = 1 := Int64.toInt_one
  have hpred : Fits (n.toInt - (1 : Int64).toInt) := ⟨by omega, by omega⟩
  have hpredInt := toInt_sub_of_fits hpred
  have hdist : Fits ((n - 1).toInt - e.toInt) := ⟨by omega, by omega⟩
  have hdistInt := toInt_sub_of_fits hdist
  refine ⟨sub?_of_fits hpred, ?_⟩
  rw [gapLengthChecked, sub?_of_fits hdist, Option.bind_some, add?_one, if_neg (by omega)]

/-- No operation of step 4 overflows. -/
def GapFits (config : SubscriberConfig) (t : Tracking) (n : Int64) : Prop :=
  config.gap_recovery_enabled = true → Reaches t n

theorem detectGapChecked_eq (h : GapFits config t n) :
    detectGapChecked config t n = some (detectGap config t n) := by
  unfold detectGapChecked detectGap
  by_cases henabled : config.gap_recovery_enabled = true
  · rw [if_pos henabled, if_pos henabled, checkForGapsChecked_eq (h henabled)]
    have hfound := @checkForGaps_found config t n
    revert hfound
    generalize checkForGaps config t n = r
    obtain ⟨found, t'⟩ := r
    intro hfound
    cases found with
    | false => rfl
    | true =>
        obtain ⟨rfl, hne, hlt⟩ := hfound rfl
        obtain ⟨hpred, hlength⟩ := gapLengthChecked_eq hlt ((h henabled).2 hne)
        show ((sub? n 1).bind fun gap_end => _) = _
        rw [hpred, Option.bind_some, hlength]
        rfl
  · rw [if_neg henabled, if_neg henabled]
    rfl

theorem detectGapChecked_eq_none (h : ¬ GapFits config t n) :
    detectGapChecked config t n = none := by
  obtain ⟨henabled, hfar⟩ := Classical.not_imp.mp h
  unfold detectGapChecked
  rw [if_pos henabled, checkForGapsChecked_eq_none hfar]
  rfl

/-- Behind step 4 only the next expected number is calculated, if the message is not dropped. -/
theorem trackChecked_eq (h : GapFits config t n) : trackChecked config t n =
    if (track config t n).duplicate = false ∧ n.toInt = 2 ^ 63 - 1 then none
    else some (track config t n) := by
  unfold trackChecked track
  rw [detectGapChecked_eq h]
  generalize detectGap config t n = r
  obtain ⟨gap, t'⟩ := r
  show (if _ then _ else (add? n 1).bind _) = _
  dsimp only
  by_cases hdup : (config.duplicate_check_enabled && isDuplicate config t' n) = true
  · simp only [if_pos hdup, Bool.true_eq_false, false_and, if_false]
    rfl
  · simp only [if_neg hdup, true_and]
    rw [add?_one]
    split
    · rfl
    · rfl

/-- **Steps 4 to 6 go through** exactly where step 4 does and the number of a message that is not
dropped has a successor. -/
theorem trackChecked_isSome_iff : (trackChecked config t n).isSome = true ↔
    GapFits config t n ∧ ((track config t n).duplicate = false → n.toInt ≠ 2 ^ 63 - 1) := by
  by_cases hgap : GapFits config t n
  · rw [trackChecked_eq hgap]
    by_cases hmax : (track config t n).duplicate = false ∧ n.toInt = 2 ^ 63 - 1
    · rw [if_pos hmax]
      exact iff_of_false (fun h => nomatch h) fun h => h.2 hmax.1 hmax.2
    · rw [if_neg hmax]
      exact iff_of_true rfl ⟨hgap, fun hnew heq => hmax ⟨hnew, heq⟩⟩
  · unfold trackChecked
    rw [detectGapChecked_eq_none hgap]
    exact iff_of_false (fun h => nomatch h) fun h => hgap h.1

/-- What goes through is what the fast path computes. -/
theorem eq_track_of_trackChecked {v : Verdict} (h : trackChecked config t n = some v) :
    v = track config t n := by
  have hgap := (trackChecked_isSome_iff.mp (by rw [h]; rfl)).1
  rw [trackChecked_eq hgap] at h
  split at h
  · cases h
  · exact (Option.some.inj h).symm

end Track

/-! ## Streams -/

section Stream

variable {PoolSize : Nat} {Pointer : Type} (N : Ring.Size) (addr : Fin PoolSize → Pointer)
  (config : SubscriberConfig)

/-- The call for `d`, after the calls for `ds`, does not overflow, and drops the message as a
duplicate only if its number has been received before. -/
structure HandlesNumber (c : Option CheckpointData) (ds : List (Delivery PoolSize Pointer))
    (d : Delivery PoolSize Pointer) : Prop where
  goesThrough : (trackChecked config (feed N addr config (fresh config c) ds).subscriber.tracking
    d.fragment.message_number).isSome = true
  duplicate : (handleMessageFastPath N addr config
      (feed N addr config (fresh config c) ds).subscriber d).exit = .duplicate →
    d.fragment.sequence_number ∈ (received ds).map Fragment.sequence_number

/-- The number of the message is not the largest `int64_t`, it is not `2 ^ 63` or more ahead of
the one expected, and if it is the largest `uint64_t` and new then so many messages have passed the
duplicate check that the initial value is no longer in the ring. -/
structure InRange (c : Option CheckpointData) (ds : List (Delivery PoolSize Pointer))
    (d : Delivery PoolSize Pointer) : Prop where
  successor : d.fragment.sequence_number.toNat ≠ 2 ^ 63 - 1
  distance : config.gap_recovery_enabled = true →
    (feed N addr config (fresh config c) ds).subscriber.tracking.expected_sequence_ ≠ 0 →
      d.fragment.message_number.toInt
        - (feed N addr config (fresh config c) ds).subscriber.tracking.expected_sequence_.toInt
          < 2 ^ 63
  initial : config.duplicate_check_enabled = true →
    d.fragment.sequence_number.toNat = 2 ^ 64 - 1 →
      d.fragment.sequence_number ∈ (received ds).map Fragment.sequence_number ∨
        config.duplicate_window_size ≤ (feed N addr config (fresh config c) ds).passed.length

variable {N addr config} {c : Option CheckpointData} {ds : List (Delivery PoolSize Pointer)}
  {d : Delivery PoolSize Pointer}

/-- The largest `int64_t` and the initial value of the ring, as sequence numbers. -/
theorem toInt_message_number_eq_max_iff {f : Fragment} :
    f.message_number.toInt = 2 ^ 63 - 1 ↔ f.sequence_number.toNat = 2 ^ 63 - 1 := by
  have hmax : Int64.maxValue.toInt = 2 ^ 63 - 1 := Int64.toInt_maxValue
  have hmax' : Int64.maxValue.toUInt64.toNat = 2 ^ 63 - 1 := by decide
  rw [← hmax, ← hmax', Int64.toInt_inj, UInt64.toNat_inj]
  exact ⟨congrArg Int64.toUInt64, congrArg UInt64.toInt64⟩

/-- What the duplicate check drops is a number that has been received, or the initial value of a
ring that has not been filled. -/
theorem received_of_duplicate (hdup : (track config
      (feed N addr config (fresh config c) ds).subscriber.tracking
      d.fragment.message_number).duplicate = true) :
    d.fragment.sequence_number ∈ (received ds).map Fragment.sequence_number ∨
      d.fragment.sequence_number.toNat = 2 ^ 64 - 1 ∧
        (feed N addr config (fresh config c) ds).passed.length < config.duplicate_window_size := by
  obtain hpassed | hinitial := passed_of_duplicate hdup
  · exact Or.inl (((passed_sublist c ds).map _).subset hpassed)
  · exact Or.inr hinitial

/-- While the ring has not been filled it drops the largest `uint64_t`. -/
theorem duplicate_of_initial (hcheck : config.duplicate_check_enabled = true)
    (hnum : d.fragment.sequence_number.toNat = 2 ^ 64 - 1)
    (hroom : (feed N addr config (fresh config c) ds).passed.length
      < config.duplicate_window_size) :
    (track config (feed N addr config (fresh config c) ds).subscriber.tracking
      d.fragment.message_number).duplicate = true :=
  track_duplicate.mpr ⟨hcheck, (mem_ring_iff hcheck (by omega)).mpr
    (Or.inr ⟨message_number_eq_initial_iff.mpr hnum, hroom⟩)⟩

/-- What one more delivery adds to the messages that have passed the check. -/
theorem passed_snoc (N : Ring.Size) (addr : Fin PoolSize → Pointer) (config : SubscriberConfig)
    (c : Option CheckpointData) (ds : List (Delivery PoolSize Pointer))
    (d : Delivery PoolSize Pointer) :
    (feed N addr config (fresh config c) (ds ++ [d])).passed
        = (feed N addr config (fresh config c) ds).passed ∨
      0 < d.buffer_pool_.free_count_ ∧
        (track config (feed N addr config (fresh config c) ds).subscriber.tracking
          d.fragment.message_number).duplicate = false ∧
        (feed N addr config (fresh config c) (ds ++ [d])).passed
          = (feed N addr config (fresh config c) ds).passed ++ [d.fragment] := by
  rw [feed_snoc]
  obtain hpool | hpool := Nat.eq_zero_or_pos d.buffer_pool_.free_count_
  · exact Or.inl (congrArg FastPathRun.accepted (Feed.next_of_empty hpool).1)
  · cases hdup : (track config (feed N addr config (fresh config c) ds).subscriber.tracking
        d.fragment.message_number).duplicate with
    | true =>
        exact Or.inl (Feed.passed_next_of_duplicate N addr hpool hdup)
    | false =>
        exact Or.inr ⟨hpool, rfl, (Feed.next_of_accepted N addr hpool hdup).1⟩

/-- While all calls go through, no message without a successor passes the check. -/
theorem passed_ne_max (hthrough : ∀ xs d ys, ds = xs ++ d :: ys → 0 < d.buffer_pool_.free_count_ →
      HandlesNumber N addr config c xs d) :
    ∀ f ∈ (feed N addr config (fresh config c) ds).passed,
      f.sequence_number.toNat ≠ 2 ^ 63 - 1 := by
  induction ds using List.reverseRecOn with
  | nil => exact fun f hf => nomatch hf
  | append_singleton ds d ih =>
      have hbefore := ih fun xs x ys hsplit =>
        hthrough xs x (ys ++ [d]) (by rw [hsplit, List.append_assoc, List.cons_append])
      obtain hsame | ⟨hpool, hnew, hpassed⟩ := passed_snoc N addr config c ds d
      · rw [hsame]
        exact hbefore
      · rw [hpassed]
        intro f hf
        obtain hold | hlast := List.mem_append.mp hf
        · exact hbefore f hold
        · obtain rfl := List.mem_singleton.mp hlast
          have hcall := (hthrough ds d [] rfl hpool).goesThrough
          exact toInt_message_number_eq_max_iff.not.mp
            ((trackChecked_isSome_iff.mp hcall).2 hnew)

/-- **On which streams the whole sequence space is handled**: nothing overflows and no new message
is dropped as a duplicate exactly where every number that is received is in range. -/
theorem sequence_space_iff (N : Ring.Size) (addr : Fin PoolSize → Pointer)
    (config : SubscriberConfig) (c : Option CheckpointData)
    (ds : List (Delivery PoolSize Pointer)) :
    (∀ xs d ys, ds = xs ++ d :: ys → 0 < d.buffer_pool_.free_count_ →
      HandlesNumber N addr config c xs d) ↔
    ∀ xs d ys, ds = xs ++ d :: ys → 0 < d.buffer_pool_.free_count_ →
      InRange N addr config c xs d := by
  constructor
  · intro h xs d ys hsplit hpool
    have hcall := h xs d ys hsplit hpool
    obtain ⟨hgap, hsuccessor⟩ := trackChecked_isSome_iff.mp hcall.goesThrough
    refine ⟨fun hmax => ?_, fun henabled hne => (hgap henabled).2 hne, fun hcheck hnum => ?_⟩
    · -- such a message is dropped, so that one like it has passed before
      have hdup : (track config (feed N addr config (fresh config c) xs).subscriber.tracking
          d.fragment.message_number).duplicate = true := by
        by_contra hnew
        exact hsuccessor (Bool.eq_false_iff.mpr hnew) (toInt_message_number_eq_max_iff.mpr hmax)
      obtain hpassed | ⟨hinitial, -⟩ := passed_of_duplicate hdup
      · obtain ⟨f, hf, hn⟩ := List.mem_map.mp hpassed
        have hbefore : ∀ f ∈ (feed N addr config (fresh config c) xs).passed,
            f.sequence_number.toNat ≠ 2 ^ 63 - 1 :=
          passed_ne_max fun ws w vs hws => h ws w (vs ++ d :: ys) (by
            rw [hsplit, hws, List.append_assoc, List.cons_append])
        exact hbefore f hf (by rw [hn, hmax])
      · omega
    · by_cases hroom : (feed N addr config (fresh config c) xs).passed.length
          < config.duplicate_window_size
      · left
        exact hcall.duplicate ((exit_duplicate_iff hpool).mpr
          (duplicate_of_initial hcheck hnum hroom))
      · exact Or.inr (Nat.le_of_not_lt hroom)
  · intro h xs d ys hsplit hpool
    obtain ⟨hsuccessor, hdistance, hinitial⟩ := h xs d ys hsplit hpool
    have hmax : d.fragment.message_number.toInt ≠ 2 ^ 63 - 1 :=
      toInt_message_number_eq_max_iff.not.mpr hsuccessor
    refine ⟨trackChecked_isSome_iff.mpr ⟨fun henabled => ⟨fun _ => hmax, hdistance henabled⟩,
      fun _ => hmax⟩, fun hexit => ?_⟩
    have hdup := (exit_duplicate_iff hpool).mp hexit
    obtain hold | ⟨hnum, hroom⟩ := received_of_duplicate hdup
    · exact hold
    · obtain hold | hfull := hinitial (track_duplicate.mp hdup).1 hnum
      · exact hold
      · omega

/-- The largest `int64_t` has no successor, a small number is too far ahead of one that is taken
for a negative one, and the largest `uint64_t` is dropped before it has ever been received. -/
theorem ends_of_sequence_space :
    let config : SubscriberConfig := { duplicate_window_size := 2 }
    let s := fresh config none
    (trackChecked config s.tracking (arriving 0x7FFFFFFFFFFFFFFF).fragment.message_number).isSome
      = false ∧
    (trackChecked config
      (feed overloadSize Fin.val config s [arriving 0x8000000000000000]).subscriber.tracking
      (arriving 5).fragment.message_number).isSome = false ∧
    (handleMessageFastPath overloadSize Fin.val config s (arriving 0xFFFFFFFFFFFFFFFF)).exit
      = .duplicate := by
  refine ⟨?_, ?_, ?_⟩
  · decide +kernel
  · decide +kernel
  · decide +kernel

end Stream

end AeronReplay.AeronSubscriber
