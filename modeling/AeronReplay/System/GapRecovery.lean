import AeronReplay.Subscriber.Gaps
import AeronReplay.Subscriber.SequenceSpace
import AeronReplay.System.Resume
import Mathlib.Algebra.Ring.Int.Defs

set_option autoImplicit false

/-! # Gap recovery and the archive

Gap recovery and automatic replay ask `findLatestRecording` for the newest recording of the stream
and test what it returns: `startReplayMergeAuto` for `< 0`, `triggerImmediateGapRecovery` for
`≤ 0`. The archive counts recordings from 0 on. `gap_recovery_iff` says on which archives and
ordered streams the two agree. -/

namespace AeronReplay.GapRecovery

open AeronSubscriber Checked Pipeline Resume

/-! ## Recovering a gap -/

/-- `triggerImmediateGapRecovery`; `archive_` is what the archive is, if there is a client of it,
and `answers` says whether it answers or throws. -/
def triggerImmediateGapRecovery (stream : StreamConfig) (archive_ : Option Archive)
    (answers : Bool) (gaps_recovered_ : UInt64) (gap_start gap_end : Int64) : Bool × UInt64 :=
  match archive_ with
  | none => (false, gaps_recovered_)
  | some a =>
    let recording_id := findLatestRecording a answers stream.channel stream.subscription_stream_id
    if recording_id ≤ 0 then (false, gaps_recovered_)
    else (true, gaps_recovered_ + (gap_end - gap_start + 1).toUInt64)

/-- What the calls for the gaps of a stream have returned, and the counter behind them. -/
structure Recovery where
  returned : List Bool
  gaps_recovered_ : UInt64

variable (stream : StreamConfig) (archive_ : Option Archive) (answers : Bool)

def Recovery.next (r : Recovery) (gap : Int64 × Int64) : Recovery :=
  let (accepted, gaps_recovered_) :=
    triggerImmediateGapRecovery stream archive_ answers r.gaps_recovered_ gap.1 gap.2
  ⟨r.returned ++ [accepted], gaps_recovered_⟩

/-- The calls that the fast path of a new subscriber makes for these ranges, one after the other. -/
def recover (gaps : List (Int64 × Int64)) : Recovery :=
  gaps.foldl (Recovery.next stream archive_ answers) ⟨[], 0⟩

/-- How many sequence numbers there are in a range. -/
def rangeLength (gap : Int64 × Int64) : Int := gap.2.toInt - gap.1.toInt + 1

def totalLength (gaps : List (Int64 × Int64)) : Int := (gaps.map rangeLength).sum

section Recover

variable {stream answers} {a : Archive}

theorem totalLength_snoc (gaps : List (Int64 × Int64)) (gap : Int64 × Int64) :
    totalLength (gaps ++ [gap]) = totalLength gaps + rangeLength gap := by
  simp [totalLength]

theorem toUInt64_rangeLength (gap : Int64 × Int64) :
    (gap.2 - gap.1 + 1).toUInt64 = UInt64.ofInt (rangeLength gap) := by
  calc (gap.2 - gap.1 + 1).toUInt64
      = gap.2.toUInt64 + -gap.1.toUInt64 + 1 := by
        rw [Int64.toUInt64_add, Int64.toUInt64_sub, UInt64.sub_eq_add_neg]
        rfl
    _ = UInt64.ofInt gap.2.toInt + -UInt64.ofInt gap.1.toInt + UInt64.ofInt 1 := by
        rw [ofInt_toInt, ofInt_toInt, UInt64.ofInt_one]
    _ = UInt64.ofInt (rangeLength gap) := by
        rw [← UInt64.ofInt_neg, ← UInt64.ofInt_add, ← UInt64.ofInt_add, rangeLength,
          Int.sub_eq_add_neg]

/-- A call succeeds where the recording id is positive, and counts the numbers of the gap, modulo
`2 ^ 64`. -/
theorem triggerImmediateGapRecovery_eq (gaps_recovered_ : UInt64) (gap : Int64 × Int64) :
    triggerImmediateGapRecovery stream (some a) answers gaps_recovered_ gap.1 gap.2 =
      if 0 < findLatestRecording a answers stream.channel stream.subscription_stream_id then
        (true, gaps_recovered_ + UInt64.ofInt (rangeLength gap))
      else (false, gaps_recovered_) := by
  unfold triggerImmediateGapRecovery
  dsimp only
  by_cases hid : 0 < findLatestRecording a answers stream.channel stream.subscription_stream_id
  · rw [if_pos hid, if_neg (Int64.not_le.mpr hid), toUInt64_rangeLength]
  · rw [if_neg hid, if_pos (Int64.not_lt.mp hid)]

/-- **All calls return the same**, and the counter is the total of the gaps, modulo `2 ^ 64`, or
has not moved. -/
theorem recover_eq (gaps : List (Int64 × Int64)) : recover stream (some a) answers gaps =
    if 0 < findLatestRecording a answers stream.channel stream.subscription_stream_id then
      ⟨gaps.map fun _ => true, UInt64.ofInt (totalLength gaps)⟩
    else ⟨gaps.map fun _ => false, 0⟩ := by
  induction gaps using List.reverseRecOn with
  | nil =>
      split
      · rfl
      · rfl
  | append_singleton gaps gap ih =>
      have hsnoc : recover stream (some a) answers (gaps ++ [gap])
          = (recover stream (some a) answers gaps).next stream (some a) answers gap :=
        List.foldl_append
      rw [hsnoc, ih, Recovery.next, triggerImmediateGapRecovery_eq, totalLength_snoc,
        UInt64.ofInt_add, List.map_append, List.map_append]
      by_cases hid :
          0 < findLatestRecording a answers stream.channel stream.subscription_stream_id
      · simp only [if_pos hid, List.map_singleton]
      · simp only [if_neg hid, List.map_singleton]

end Recover

/-! ## Gaps of an ordered stream -/

section Ordered

variable {PoolSize : Nat} {Pointer : Type} {N : Ring.Size} {addr : Fin PoolSize → Pointer}
  {config : SubscriberConfig} {f : Fragment} {m : Int} {ns : List Int} {a : Feed}

/-- Between the numbers `m` and `n` some are missing, not more than the tolerance admits, and none
of `m + 1` to `n` is the end of `int64_t`. -/
def Hole (config : SubscriberConfig) (m n : Int) : Prop :=
  m + 1 < n ∧ (n < 2 ^ 63 ∨ 2 ^ 63 ≤ m + 1) ∧ n - (m + 1) ≤ config.max_gap_tolerance.toInt

/-- The distance to what is expected, as the code calculates it, and as it is. -/
theorem ahead_iff {e : Int64} (hexp : (e.toUInt64.toNat : Int) = m + 1) (hlt : m < number f) :
    e < f.message_number ∧ f.message_number - e ≤ config.max_gap_tolerance ↔
      Hole config m (number f) := by
  have hseq : number f = f.message_number.toUInt64.toNat := rfl
  have hsize := f.message_number.toUInt64.toNat_lt
  rw [Int64.lt_iff_toInt_lt, Int64.le_iff_toInt_le, Hole]
  obtain ⟨hE, he⟩ | ⟨hE, he⟩ := toInt_eq_or e
  · obtain ⟨hF, hf⟩ | ⟨hF, hf⟩ := toInt_eq_or f.message_number
    · have hsub : Fits (f.message_number.toInt - e.toInt) := ⟨by omega, by omega⟩
      rw [toInt_sub_of_fits hsub]
      omega
    · -- the number is taken for a negative one
      omega
  · obtain ⟨hF, hf⟩ | ⟨hF, hf⟩ := toInt_eq_or f.message_number
    · omega
    · have hsub : Fits (f.message_number.toInt - e.toInt) := ⟨by omega, by omega⟩
      rw [toInt_sub_of_fits hsub]
      omega

/-- The range that is recovered holds the missing numbers. -/
theorem rangeLength_of_hole {e : Int64} (hexp : (e.toUInt64.toNat : Int) = m + 1)
    (hhole : Hole config m (number f)) :
    rangeLength (e, f.message_number - 1) = number f - (m + 1) := by
  have hseq : number f = f.message_number.toUInt64.toNat := rfl
  have hone : (1 : Int64).toInt = 1 := Int64.toInt_one
  have hlo := e.le_toInt
  have hhi := f.message_number.toInt_lt
  obtain ⟨hlt, hhalf, -⟩ := hhole
  have hints : f.message_number.toInt - e.toInt = number f - (m + 1) := by
    obtain ⟨hE, he⟩ | ⟨hE, he⟩ := toInt_eq_or e <;>
      obtain ⟨hF, hf⟩ | ⟨hF, hf⟩ := toInt_eq_or f.message_number <;> omega
  have hpred : Fits (f.message_number.toInt - (1 : Int64).toInt) := ⟨by omega, by omega⟩
  rw [rangeLength, toInt_sub_of_fits hpred]
  dsimp only
  omega

/-- What gap detection finds behind the number `m`. -/
theorem detectGap_ordered {t : Tracking}
    (hexp : (t.expected_sequence_.toUInt64.toNat : Int) = m + 1) (hm : 0 ≤ m)
    (hlt : m < number f) :
    (config.gap_recovery_enabled = true ∧ Hole config m (number f) ∧
      (detectGap config t f.message_number).1
        = some (t.expected_sequence_, f.message_number - 1)) ∨
    (¬ (config.gap_recovery_enabled = true ∧ Hole config m (number f)) ∧
      (detectGap config t f.message_number).1 = none) := by
  have hne : t.expected_sequence_ ≠ 0 := by
    intro hzero
    rw [hzero] at hexp
    have hnone : m + 1 = 0 := hexp.symm
    omega
  cases hgap : (detectGap config t f.message_number).1 with
  | none =>
      refine Or.inr ⟨fun ⟨henabled, hhole⟩ => ?_, rfl⟩
      obtain ⟨hahead, hsize⟩ := (ahead_iff hexp hlt).mpr hhole
      have hsome := detectGap_some.mpr ⟨henabled, hne, hahead, hsize, rfl, rfl⟩
      cases hgap.symm.trans hsome
  | some range =>
      obtain ⟨henabled, -, hahead, hsize, hlo, hhi⟩ := detectGap_some.mp hgap
      exact Or.inl ⟨henabled, (ahead_iff hexp hlt).mp ⟨hahead, hsize⟩,
        congrArg some (Prod.ext hlo hhi)⟩

/-- The history of a subscriber that has been fed an ordered stream with the numbers `ns`. -/
structure InOrder (config : SubscriberConfig) (ns : List Int) (a : Feed) : Prop where
  first : ns = [] → a.subscriber.tracking.expected_sequence_ = 0
  /-- Behind the largest `uint64_t` no number follows. -/
  expected : ∀ m ∈ ns.getLast?, 0 ≤ m ∧ (m < 2 ^ 64 - 1 →
    (a.subscriber.tracking.expected_sequence_.toUInt64.toNat : Int) = m + 1)
  gaps : a.gaps = [] ↔
    (config.gap_recovery_enabled = true → ns.IsChain fun m n => ¬ Hole config m n)
  nonneg : 0 ≤ totalLength a.gaps
  le : totalLength a.gaps ≤ ns.getLast?.getD 0

theorem inOrder_start (c : Option CheckpointData) :
    InOrder config [] ⟨fresh config c, [], [], []⟩ where
  first _ := rfl
  expected _ hm := nomatch hm
  gaps := iff_of_true rfl fun _ => List.isChain_nil
  nonneg := Int.le_refl 0
  le := Int.le_refl 0

/-- What gap detection finds behind an ordered stream. -/
theorem InOrder.gap (h : InOrder config ns a) (hlarger : ∀ m ∈ ns, m < number f) :
    (∃ m ∈ ns.getLast?, ∃ range, config.gap_recovery_enabled = true ∧
      Hole config m (number f) ∧
      (track config a.subscriber.tracking f.message_number).gap = some range ∧
      rangeLength range = number f - (m + 1)) ∨
    ((track config a.subscriber.tracking f.message_number).gap = none ∧
      (config.gap_recovery_enabled = true → ∀ m ∈ ns.getLast?, ¬ Hole config m (number f))) := by
  rw [track_gap]
  cases hlast : ns.getLast? with
  | none =>
      right
      refine ⟨?_, fun _ m hm => nomatch hm⟩
      have hzero := h.first (List.getLast?_eq_none_iff.mp hlast)
      rw [Option.eq_none_iff_forall_ne_some]
      intro range hrange
      exact (detectGap_some.mp hrange).2.1 hzero
  | some m =>
      have hlt := hlarger m (List.mem_of_getLast? hlast)
      have hsize := f.sequence_number.toNat_lt
      obtain ⟨hm, hexp⟩ := h.expected m hlast
      have hexp := hexp (by unfold number at hlt; omega)
      obtain ⟨henabled, hhole, hsome⟩ | ⟨hno, hnone⟩ := detectGap_ordered hexp hm hlt
      · exact Or.inl ⟨m, rfl, _, henabled, hhole, hsome, rangeLength_of_hole hexp hhole⟩
      · refine Or.inr ⟨hnone, fun henabled m' hm' hhole => ?_⟩
        obtain rfl := Option.some.inj hm'
        exact hno ⟨henabled, hhole⟩

/-- One more message of an ordered stream. -/
theorem InOrder.step (h : InOrder config ns a) {d : Delivery PoolSize Pointer}
    (hpool : 0 < d.buffer_pool_.free_count_) (hlarger : ∀ m ∈ ns, m < number d.fragment)
    (hring : (track config a.subscriber.tracking d.fragment.message_number).duplicate = true →
      number d.fragment = 2 ^ 64 - 1) :
    InOrder config (ns ++ [number d.fragment]) (a.next N addr config d) := by
  have hgaps : (a.next N addr config d).gaps = _ := Feed.gaps_next N addr hpool
  have hchain : (ns ++ [number d.fragment]).IsChain (fun m n => ¬ Hole config m n) ↔
      ns.IsChain (fun m n => ¬ Hole config m n) ∧
        ∀ m ∈ ns.getLast?, ¬ Hole config m (number d.fragment) := by
    rw [List.isChain_append]
    simp
  refine ⟨fun hnil => absurd hnil (by simp), fun m hm => ?_, ?_, ?_, ?_⟩
  · rw [List.getLast?_concat] at hm
    obtain rfl := Option.some.inj hm
    refine ⟨number_nonneg _, fun hsmall => ?_⟩
    have hnew : (track config a.subscriber.tracking d.fragment.message_number).duplicate = false :=
      Bool.eq_false_iff.mpr fun hdup => by
        have := hring hdup
        omega
    have hsucc : (d.fragment.message_number + 1).toUInt64 = d.fragment.sequence_number + 1 := rfl
    have hroom : d.fragment.sequence_number.toNat + 1 < 2 ^ 64 := by
      unfold number at hsmall
      omega
    rw [Feed.tracking_next N addr hpool, track_expected hnew, hsucc, UInt64.toNat_add]
    exact congrArg Nat.cast (Nat.mod_eq_of_lt hroom)
  · rw [hgaps, hchain]
    obtain ⟨m, hm, range, henabled, hhole, hsome, -⟩ | ⟨hnone, hno⟩ := h.gap hlarger
    · rw [hsome]
      refine iff_of_false (by simp) fun hall => ?_
      exact (hall henabled).2 m hm hhole
    · rw [hnone, Option.toList_none, List.append_nil, h.gaps]
      exact ⟨fun hold henabled => ⟨hold henabled, hno henabled⟩,
        fun hall henabled => (hall henabled).1⟩
  · rw [hgaps]
    obtain ⟨m, hm, range, -, hhole, hsome, hlength⟩ | ⟨hnone, -⟩ := h.gap hlarger
    · have hnonneg := h.nonneg
      have hlt := hhole.1
      rw [hsome, Option.toList_some, totalLength_snoc, hlength]
      omega
    · rw [hnone, Option.toList_none, List.append_nil]
      exact h.nonneg
  · have hle := h.le
    rw [hgaps, List.getLast?_concat, Option.getD_some]
    obtain ⟨m, hm, range, -, hhole, hsome, hlength⟩ | ⟨hnone, -⟩ := h.gap hlarger
    · rw [Option.mem_def.mp hm, Option.getD_some] at hle
      rw [hsome, Option.toList_some, totalLength_snoc, hlength]
      omega
    · rw [hnone, Option.toList_none, List.append_nil]
      cases hlast : ns.getLast? with
      | none =>
          rw [hlast, Option.getD_none] at hle
          exact hle.trans (number_nonneg _)
      | some m =>
          rw [hlast, Option.getD_some] at hle
          exact hle.trans (hlarger m (List.mem_of_getLast? hlast)).le

theorem InOrder.of_tracked {b : Feed} (h : InOrder config ns a) (hsame : b.tracked = a.tracked) :
    InOrder config ns b := by
  have htracking : b.subscriber.tracking = a.subscriber.tracking :=
    congrArg FastPathRun.tracking hsame
  have hgaps : b.gaps = a.gaps := congrArg FastPathRun.gaps hsame
  obtain ⟨hfirst, hexpected, hchain, hnonneg, hle⟩ := h
  rw [← htracking] at hfirst hexpected
  rw [← hgaps] at hchain hnonneg hle
  exact ⟨hfirst, hexpected, hchain, hnonneg, hle⟩

/-- The numbers of a stream that are received. -/
theorem number_mem_received {ds : List (Delivery PoolSize Pointer)} {m : Int}
    (hm : m ∈ (received ds).map number) : ∃ d ∈ ds, number d.fragment = m := by
  obtain ⟨f, hf, rfl⟩ := List.mem_map.mp hm
  obtain ⟨d, hd, rfl⟩ := List.mem_map.mp hf
  exact ⟨d, List.mem_of_mem_filter hd, rfl⟩

/-- On an ordered stream nothing but the largest `uint64_t` is dropped as a duplicate. -/
theorem number_of_duplicate {c : Option CheckpointData} {ds : List (Delivery PoolSize Pointer)}
    {d : Delivery PoolSize Pointer}
    (hlarger : ∀ m ∈ (received ds).map number, m < number d.fragment)
    (hdup : (track config (feed N addr config (fresh config c) ds).subscriber.tracking
      d.fragment.message_number).duplicate = true) : number d.fragment = 2 ^ 64 - 1 := by
  obtain hold | ⟨hinitial, -⟩ := received_of_duplicate hdup
  · obtain ⟨f, hf, hseq⟩ := List.mem_map.mp hold
    have hlt : number f < number d.fragment := hlarger _ (List.mem_map_of_mem hf)
    unfold number at hlt
    rw [hseq] at hlt
    omega
  · unfold number
    omega

/-- **Every ordered stream**, whatever is received of it. -/
theorem inOrder_feed (c : Option CheckpointData) {ds : List (Delivery PoolSize Pointer)}
    (hinc : (ds.map fun d => number d.fragment).Pairwise (· < ·)) :
    InOrder config ((received ds).map number) (feed N addr config (fresh config c) ds) := by
  induction ds using List.reverseRecOn with
  | nil => exact inOrder_start c
  | append_singleton ds d ih =>
      rw [List.map_append] at hinc
      obtain ⟨hbefore, -, hlarger⟩ := List.pairwise_append.mp hinc
      have hlast : ∀ m ∈ (received ds).map number, m < number d.fragment := by
        intro m hm
        obtain ⟨x, hx, rfl⟩ := number_mem_received hm
        exact hlarger _ (List.mem_map_of_mem hx) _ (by simp)
      rw [feed_snoc]
      obtain hpool | hpool := Nat.eq_zero_or_pos d.buffer_pool_.free_count_
      · rw [received_snoc_of_empty ds hpool]
        exact (ih hbefore).of_tracked (Feed.next_of_empty hpool).1
      · rw [received_snoc_of_free ds hpool, List.map_append]
        exact (ih hbefore).step hpool hlast (number_of_duplicate hlast)

/-- The total of the gaps fits into the counter. -/
theorem totalLength_lt {c : Option CheckpointData} {ds : List (Delivery PoolSize Pointer)}
    (hinc : (ds.map fun d => number d.fragment).Pairwise (· < ·)) :
    totalLength (feed N addr config (fresh config c) ds).gaps < 2 ^ 64 := by
  have hle := (@inOrder_feed _ _ N addr config c ds hinc).le
  cases hlast : ((received ds).map number).getLast? with
  | none =>
      rw [hlast, Option.getD_none] at hle
      omega
  | some m =>
      rw [hlast, Option.getD_some] at hle
      obtain ⟨d, -, rfl⟩ := number_mem_received (List.mem_of_getLast? hlast)
      have hsize := d.fragment.sequence_number.toNat_lt
      unfold number at hle
      omega

end Ordered

/-! ## The two tests -/

section Agree

variable {stream answers} {a : Archive} {position : Int64} {gaps : List (Int64 × Int64)}

/-- Gap recovery and automatic replay agree: where replay would accept the recording, every call
succeeds and the counter is the total of the gaps, and where the archive names none, the counter
stays 0. -/
structure Agrees (stream : StreamConfig) (a : Archive) (answers : Bool) (position : Int64)
    (gaps : List (Int64 × Int64)) : Prop where
  recovers : (startReplayMergeAuto stream a answers position).isSome = true →
    (∀ accepted ∈ (recover stream (some a) answers gaps).returned, accepted = true) ∧
    ((recover stream (some a) answers gaps).gaps_recovered_.toNat : Int) = totalLength gaps
  stays : (answers = true → a.ofStream 0 stream.channel stream.subscription_stream_id = []) →
    (recover stream (some a) answers gaps).gaps_recovered_ = 0

theorem startReplayMergeAuto_isSome_iff :
    (startReplayMergeAuto stream a answers position).isSome = true ↔
      0 ≤ findLatestRecording a answers stream.channel stream.subscription_stream_id := by
  unfold startReplayMergeAuto
  dsimp only
  split
  next hneg => exact iff_of_false (fun h => nomatch h) (Int64.not_le.mpr hneg)
  next hpos => exact iff_of_true rfl (Int64.not_lt.mp hpos)

/-- Where the archive names no recording, the answer is `NULL_VALUE`. -/
theorem findLatestRecording_of_none {channel : String} {streamId : Int32}
    (hnone : answers = true → a.ofStream 0 channel streamId = []) :
    findLatestRecording a answers channel streamId = -1 := by
  unfold findLatestRecording
  split
  next hanswers => rw [Archive.findLastMatchingRecording, hnone hanswers]; rfl
  next => rfl

theorem findLatestRecording_eq_zero_iff {channel : String} {streamId : Int32} :
    findLatestRecording a answers channel streamId = 0 ↔
      answers = true ∧ a.findLastMatchingRecording 0 channel streamId = 0 := by
  unfold findLatestRecording
  cases answers with
  | true => simp
  | false => exact iff_of_false (by simp) fun h => nomatch h.1

/-- **The two tests differ at the recording with the id 0**: gap recovery and automatic replay
agree unless it is the newest of the stream and there is a gap. -/
theorem agrees_iff (hnonneg : 0 ≤ totalLength gaps) (hsize : totalLength gaps < 2 ^ 64) :
    Agrees stream a answers position gaps ↔
      (answers = true ∧
        a.findLastMatchingRecording 0 stream.channel stream.subscription_stream_id = 0 →
          gaps = []) := by
  have hcounter : ((UInt64.ofInt (totalLength gaps)).toNat : Int) = totalLength gaps := by
    rw [UInt64.ofInt, UInt64.toNat_ofNat']
    omega
  rw [← findLatestRecording_eq_zero_iff]
  constructor
  · intro h hzero
    have hreturned := (h.recovers (startReplayMergeAuto_isSome_iff.mpr (by rw [hzero]; decide))).1
    rw [recover_eq, hzero, if_neg (by decide)] at hreturned
    cases gaps with
    | nil => rfl
    | cons gap gaps => cases hreturned false (List.mem_cons_self ..)
  · intro h
    refine ⟨fun hsome => ?_, fun hnone => ?_⟩
    · rw [startReplayMergeAuto_isSome_iff] at hsome
      obtain hpos | hzero := Int64.lt_or_eq_of_le hsome
      · rw [recover_eq, if_pos hpos]
        refine ⟨fun accepted hmem => ?_, hcounter⟩
        obtain ⟨_, _, rfl⟩ := List.mem_map.mp hmem
        rfl
      · obtain rfl := h hzero.symm
        exact ⟨fun accepted hmem => (nomatch hmem), rfl⟩
    · rw [recover_eq, findLatestRecording_of_none hnone, if_neg (by decide)]

/-- **When gap recovery and automatic replay agree.** After an ordered stream, of which anything is
received, they do unless the archive names the recording with the id 0, gap recovery is enabled
and between two numbers received in a row there is a hole. -/
theorem gap_recovery_iff {PoolSize : Nat} {Pointer : Type} (N : Ring.Size)
    (addr : Fin PoolSize → Pointer) (config : SubscriberConfig) (stream : StreamConfig)
    (a : Archive) (answers : Bool) (position : Int64) (c : Option CheckpointData)
    {ds : List (Delivery PoolSize Pointer)}
    (hinc : (ds.map fun d => number d.fragment).Pairwise (· < ·)) :
    Agrees stream a answers position (feed N addr config (fresh config c) ds).gaps ↔
      (answers = true ∧
        a.findLastMatchingRecording 0 stream.channel stream.subscription_stream_id = 0 →
          config.gap_recovery_enabled = true →
            ((received ds).map number).IsChain fun m n => ¬ Hole config m n) := by
  have hordered : InOrder config ((received ds).map number)
      (feed N addr config (fresh config c) ds) := inOrder_feed c hinc
  rw [agrees_iff hordered.nonneg (totalLength_lt hinc), hordered.gaps]

/-- An archive with one recording, on the default channel. -/
def recordedAs (recordingId : Int64) (hnonneg : 0 ≤ recordingId) : Archive :=
  noRecordings.startRecording SUBSCRIPTION_CHANNEL 10
    ⟨recordingId, 7, 100, hnonneg, List.not_mem_nil, List.not_mem_nil⟩

/-- Messages 0 and 3, while recording 1 is the newest. -/
theorem gap_recovery_iff_recording_one :
    Agrees ⟨"", 10⟩ (recordedAs 1 (by decide)) true 0
      (feed overloadSize Fin.val { duplicate_window_size := 2 }
        (fresh { duplicate_window_size := 2 } none) [arriving 0, arriving 3]).gaps := by
  have hnumbers : ([arriving 0, arriving 3].map fun d => number d.fragment) = [0, 3] := by decide
  have hinc : ([arriving 0, arriving 3].map fun d => number d.fragment).Pairwise (· < ·) := by
    rw [hnumbers]
    decide
  exact (gap_recovery_iff overloadSize Fin.val { duplicate_window_size := 2 } ⟨"", 10⟩
    (recordedAs 1 (by decide)) true 0 none hinc).mpr fun h => absurd h.2 (by decide)

/-- Messages 0 and 3, while recording 0 is the newest: replay would accept it, and the gap is not
recovered. -/
theorem recording_zero_unrecovered :
    let gaps := (feed overloadSize Fin.val { duplicate_window_size := 2 }
      (fresh { duplicate_window_size := 2 } none) [arriving 0, arriving 3]).gaps
    ([arriving 0, arriving 3].map fun d => number d.fragment) = [0, 3] ∧ gaps = [(1, 2)] ∧
      ¬ Agrees ⟨"", 10⟩ (recordedAs 0 (by decide)) true 0 gaps := by
  have hgaps : (feed overloadSize Fin.val { duplicate_window_size := 2 }
      (fresh { duplicate_window_size := 2 } none) [arriving 0, arriving 3]).gaps = [(1, 2)] := by
    decide
  dsimp only
  rw [hgaps]
  refine ⟨by decide, rfl, fun h => ?_⟩
  have hreturned := (h.recovers (by decide)).1
  exact absurd (hreturned false (by decide)) (by decide)

end Agree

end AeronReplay.GapRecovery
