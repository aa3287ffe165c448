import AeronReplay.Lib.MissingRuns
import AeronReplay.Subscriber.Feed

set_option autoImplicit false

/-! # Gap detection

What `expected_sequence_` is worth. As long as no late message gets past the duplicate check it
is one more than the largest number accepted so far, and the ranges passed to
`triggerImmediateGapRecovery` are runs of missing numbers (`gap_tracking_sound_iff`); on an
ordered stream they are all of them that the tolerance admits (`gaps_exact`). A late message
sets `expected_sequence_` back. -/

namespace AeronReplay.AeronSubscriber

open MissingRuns Pipeline

/-! ## Sequence numbers as integers -/

/-- The sequence number of a fragment as an integer. -/
def number (f : Fragment) : Int := f.sequence_number.toNat

theorem toInt_message_number {f : Fragment} (h : f.sequence_number.toNat < 2 ^ 63) :
    f.message_number.toInt = number f :=
  BitVec.toInt_eq_toNat_of_lt (by
    show 2 * f.sequence_number.toNat < 2 ^ 64
    omega)

theorem number_nonneg (f : Fragment) : 0 ≤ number f := Int.natCast_nonneg _

theorem toInt_succ {x : Int64} (h : x.toInt < 2 ^ 63 - 1) : (x + 1).toInt = x.toInt + 1 := by
  have hlo := x.le_toInt
  rw [Int64.toInt_add, Int64.toInt_one]
  exact Int.bmod_eq_of_le (by omega) (by omega)

theorem toInt_pred {x : Int64} (h : 0 ≤ x.toInt) : (x - 1).toInt = x.toInt - 1 := by
  have hhi := x.toInt_lt
  rw [Int64.toInt_sub, Int64.toInt_one]
  exact Int.bmod_eq_of_le (by omega) (by omega)

theorem toInt_gap {x y : Int64} (hx : 0 ≤ x.toInt) (hy : 0 ≤ y.toInt) :
    (x - y).toInt = x.toInt - y.toInt := by
  have hxhi := x.toInt_lt
  have hyhi := y.toInt_lt
  rw [Int64.toInt_sub]
  exact Int.bmod_eq_of_le (by omega) (by omega)

/-! ## What is expected -/

section Expected

variable {config : SubscriberConfig} {t : Tracking} {ns : List Int} {n : Int64}

/-- Nothing has been accepted, or `expected_sequence_` is one more than the largest of the
accepted numbers `ns`. -/
def Expects (t : Tracking) (ns : List Int) : Prop :=
  (ns = [] ∧ t.expected_sequence_ = 0) ∨
    ∃ m, IsMax ns m ∧ 0 ≤ m ∧ t.expected_sequence_.toInt = m + 1

/-- The range that is recovered: from behind the largest number to the one before this. -/
theorem Expects.gap_iff (h : Expects t ns) (hn : 0 ≤ n.toInt) {lo hi : Int64} :
    (detectGap config t n).1 = some (lo, hi) ↔
      config.gap_recovery_enabled = true ∧ ∃ m, IsMax ns m ∧ m + 1 < n.toInt ∧
        n.toInt - (m + 1) ≤ config.max_gap_tolerance.toInt ∧
        lo.toInt = m + 1 ∧ hi.toInt = n.toInt - 1 := by
  rw [detectGap_some, Int64.lt_iff_toInt_lt, Int64.le_iff_toInt_le]
  refine and_congr_right fun _ => ?_
  rcases h with ⟨rfl, hzero⟩ | ⟨m, hmax, hm, hexp⟩
  · -- the sentinel 0 stops the test before the first message
    refine iff_of_false (fun h => h.1 hzero) ?_
    rintro ⟨m, hmax, -⟩
    exact List.not_mem_nil hmax.1
  · have hnonneg : 0 ≤ t.expected_sequence_.toInt := by omega
    have hne : t.expected_sequence_ ≠ 0 := by
      intro heq
      rw [heq, Int64.toInt_zero] at hexp
      omega
    rw [toInt_gap hn hnonneg, hexp, ← Int64.toInt_inj, ← Int64.toInt_inj, toInt_pred hn, hexp]
    constructor
    · rintro ⟨-, hlt, hle, hlo, hhi⟩
      exact ⟨m, hmax, hlt, hle, hlo, hhi⟩
    · rintro ⟨m', hmax', hrange⟩
      obtain rfl := hmax.unique hmax'
      exact ⟨hne, hrange⟩

theorem Expects.le_of_mem (h : Expects t ns) {x : Int} (hx : x ∈ ns) :
    x + 1 ≤ t.expected_sequence_.toInt := by
  rcases h with ⟨rfl, -⟩ | ⟨m, hmax, -, hexp⟩
  · cases hx
  · have := hmax.2 x hx
    omega

theorem track_expected (hnew : (track config t n).duplicate = false) :
    (track config t n).tracking.expected_sequence_ = n + 1 := by
  rw [track_of_accepted hnew]
  unfold addToDecluplicationBuffer
  split <;> rfl

/-- A message that is accepted and is not late becomes the largest one. -/
theorem Expects.accepted (h : Expects t ns) (hn : 0 ≤ n.toInt) (hlate :
    t.expected_sequence_.toInt ≤ n.toInt + 1) (hmax : n.toInt < 2 ^ 63 - 1)
    (hnew : (track config t n).duplicate = false) :
    IsMax (ns ++ [n.toInt]) n.toInt ∧ Expects (track config t n).tracking (ns ++ [n.toInt]) := by
  have hlargest : IsMax (ns ++ [n.toInt]) n.toInt := IsMax.snoc fun x hx => by
    have := h.le_of_mem hx
    omega
  refine ⟨hlargest, Or.inr ⟨n.toInt, hlargest, hn, ?_⟩⟩
  rw [track_expected hnew, toInt_succ hmax]

/-- A duplicate of an accepted message is not ahead of what is expected. -/
theorem Expects.duplicate (h : Expects t ns) (hn : n.toInt ∈ ns)
    (hdup : (track config t n).duplicate = true) :
    (track config t n).gap = none ∧ (track config t n).tracking = t := by
  have hle := h.le_of_mem hn
  obtain ⟨m, -, hm, hexp⟩ := h.resolve_left (by rintro ⟨rfl, -⟩; cases hn)
  rw [track_gap, track_of_duplicate hdup, detectGap_tracking]
  constructor
  · rw [Option.eq_none_iff_forall_ne_some]
    rintro ⟨lo, hi⟩ hgap
    have hlt := (detectGap_some.mp hgap).2.2.1
    rw [Int64.lt_iff_toInt_lt] at hlt
    omega
  · -- `expected_sequence_` is positive, so that this is not taken for the first message
    refine if_neg fun hfirst => ?_
    rw [hfirst.2, Int64.toInt_zero] at hexp
    omega

end Expected

/-! ## Streams in any order -/

section AnyOrder

variable {PoolSize : Nat} {Pointer : Type} {N : Ring.Size} {addr : Fin PoolSize → Pointer}
  {config : SubscriberConfig} {a : Feed} {d : Delivery PoolSize Pointer}

/-- What the call for the message `f` promises, after the history `a`: an accepted message
leaves `expected_sequence_` one behind the largest accepted number, `expected_sequence_` does
not decrease, no accepted number is in the range that is recovered, and a duplicate is not
counted as a gap. -/
structure TracksSoundly (a : Feed) (f : Fragment) (o : Outcome PoolSize Pointer) : Prop where
  expected : o.exit.passed = true →
    IsMax ((a.passed ++ [f]).map number) (o.subscriber.tracking.expected_sequence_.toInt - 1)
  mono : a.subscriber.tracking.expected_sequence_.toInt
    ≤ o.subscriber.tracking.expected_sequence_.toInt
  gap : ∀ lo hi, o.gap = some (lo, hi) → ∀ g ∈ a.passed,
    ¬ (lo.toInt ≤ number g ∧ number g ≤ hi.toInt)
  duplicate : o.exit = .duplicate → o.subscriber.gaps_detected_ = a.subscriber.gaps_detected_

/-- If the message gets past the duplicate check, then it is not older than the last one, and
its number has a successor. -/
def NotLate (config : SubscriberConfig) (a : Feed) (d : Delivery PoolSize Pointer) : Prop :=
  0 < d.buffer_pool_.free_count_ →
    isDuplicate config a.subscriber.tracking d.fragment.message_number = false →
      a.subscriber.tracking.expected_sequence_.toInt ≤ number d.fragment + 1 ∧
        number d.fragment < 2 ^ 63 - 1

theorem isDuplicate_eq (t : Tracking) (n : Int64) :
    isDuplicate config t n = (track config t n).duplicate := by
  rw [Bool.eq_iff_iff, isDuplicate_iff, track_duplicate]

/-- What a feed has in its ring has been accepted. -/
theorem number_mem_of_duplicate (c : Option CheckpointData)
    (ds : List (Delivery PoolSize Pointer)) {f : Fragment}
    (hnum : f.sequence_number.toNat < 2 ^ 63)
    (hdup : (track config (feed N addr config (fresh config c) ds).subscriber.tracking
      f.message_number).duplicate = true) :
    number f ∈ (feed N addr config (fresh config c) ds).passed.map number := by
  obtain hpassed | ⟨hinitial, -⟩ := passed_of_duplicate hdup
  · obtain ⟨g, hg, hseq⟩ := List.mem_map.mp hpassed
    refine List.mem_map.mpr ⟨g, hg, ?_⟩
    rw [number, number, hseq]
  · omega

/-- One call for a message that is not late. -/
theorem Expects.step (h : Expects a.subscriber.tracking (a.passed.map number))
    (hnum : d.fragment.sequence_number.toNat < 2 ^ 63)
    (hring : (track config a.subscriber.tracking d.fragment.message_number).duplicate = true →
      number d.fragment ∈ a.passed.map number)
    (hlate : NotLate config a d) :
    TracksSoundly a d.fragment (handleMessageFastPath N addr config a.subscriber d) ∧
      Expects (a.next N addr config d).subscriber.tracking
        ((a.next N addr config d).passed.map number) := by
  have hint := toInt_message_number hnum
  have hn : 0 ≤ d.fragment.message_number.toInt := hint ▸ number_nonneg _
  have hspec := handleMessageFastPath_spec N addr config a.subscriber d
  unfold Feed.next
  revert hspec
  generalize handleMessageFastPath N addr config a.subscriber d = o
  intro hspec
  -- a range that is recovered begins behind the largest accepted number
  have hgap : ∀ lo hi,
      (track config a.subscriber.tracking d.fragment.message_number).gap = some (lo, hi) →
        ∀ g ∈ a.passed, ¬ (lo.toInt ≤ number g ∧ number g ≤ hi.toInt) := by
    rintro lo hi hrange g hg ⟨hlo, -⟩
    rw [track_gap, h.gap_iff hn] at hrange
    obtain ⟨-, m, hmax, -, -, hm, -⟩ := hrange
    have := hmax.2 _ (List.mem_map_of_mem hg)
    omega
  -- an accepted message is the largest one
  have hnew : ∀ {v : Verdict}, track config a.subscriber.tracking d.fragment.message_number = v →
      v.duplicate = false → 0 < d.buffer_pool_.free_count_ →
        a.subscriber.tracking.expected_sequence_.toInt ≤ v.tracking.expected_sequence_.toInt ∧
        IsMax ((a.passed ++ [d.fragment]).map number)
          (v.tracking.expected_sequence_.toInt - 1) ∧
        Expects v.tracking ((a.passed ++ [d.fragment]).map number) := by
    rintro v rfl hfresh hpos
    obtain ⟨hle, hmax⟩ := hlate hpos (by rw [isDuplicate_eq, hfresh])
    rw [← hint] at hle hmax
    obtain ⟨hlargest, hexpects⟩ := h.accepted hn hle hmax hfresh
    rw [List.map_append, List.map_singleton, ← hint, track_expected hfresh, toInt_succ hmax,
      Int.add_sub_cancel]
    exact ⟨hle, hlargest, hexpects⟩
  cases hspec with
  | allocationFailed _ =>
      exact ⟨⟨fun h => (nomatch h), Int.le_refl _, fun _ _ h => (nomatch h), fun _ => rfl⟩, h⟩
  | @duplicate v _ _ hv hdup =>
      subst hv
      obtain ⟨hnone, hsame⟩ := h.duplicate (hint ▸ hring hdup) hdup
      refine ⟨⟨fun h => (nomatch h), ?_, hgap, fun _ => ?_⟩, ?_⟩
      · show _ ≤ (track config _ _).tracking.expected_sequence_.toInt
        rw [hsame]
      · show (if _ then _ else _ : UInt64) = _
        rw [hnone]
        rfl
      · show Expects (track config _ _).tracking _
        rw [hsame]
        exact h
  | queueFull hpos hv hfresh _ | delivered hpos hv hfresh _ =>
      obtain ⟨hmono, hlargest, hexpects⟩ := hnew hv hfresh hpos
      refine ⟨⟨fun _ => hlargest, hmono, ?_, fun h => (nomatch h)⟩, hexpects⟩
      subst hv
      exact hgap

/-- While no message is late, every history expects the number behind the largest one. -/
theorem expects_feed (c : Option CheckpointData) {ds : List (Delivery PoolSize Pointer)}
    (hnum : ∀ d ∈ ds, d.fragment.sequence_number.toNat < 2 ^ 63)
    (hlate : ∀ xs d ys, ds = xs ++ d :: ys →
      NotLate config (feed N addr config (fresh config c) xs) d) :
    Expects (feed N addr config (fresh config c) ds).subscriber.tracking
      ((feed N addr config (fresh config c) ds).passed.map number) := by
  induction ds using List.reverseRecOn with
  | nil => exact Or.inl ⟨rfl, rfl⟩
  | append_singleton ds d ih =>
      have hbefore := ih (fun x hx => hnum x (List.mem_append_left _ hx))
        fun xs x ys hsplit => hlate xs x (ys ++ [d]) (by rw [hsplit]; simp)
      have hd := hnum d (by simp)
      rw [feed_snoc]
      exact (hbefore.step hd (number_mem_of_duplicate c ds hd) (hlate ds d [] rfl)).2

/-- **Gap tracking is sound exactly while no late message is accepted**: every call of the
stream tracks soundly if and only if no message that gets past the duplicate check is older
than the last one or has the largest number of all. -/
theorem gap_tracking_sound_iff (c : Option CheckpointData)
    {ds : List (Delivery PoolSize Pointer)}
    (hnum : ∀ d ∈ ds, d.fragment.sequence_number.toNat < 2 ^ 63) :
    (∀ xs d ys, ds = xs ++ d :: ys →
      TracksSoundly (feed N addr config (fresh config c) xs) d.fragment
        (handleMessageFastPath N addr config (feed N addr config (fresh config c) xs).subscriber
          d)) ↔
    ∀ xs d ys, ds = xs ++ d :: ys →
      NotLate config (feed N addr config (fresh config c) xs) d := by
  constructor
  · intro hsound xs d ys hsplit hpos hfresh
    have hint := toInt_message_number (hnum d (by rw [hsplit]; simp))
    have hcall := hsound xs d ys hsplit
    have hspec := handleMessageFastPath_spec N addr config
      (feed N addr config (fresh config c) xs).subscriber d
    rw [isDuplicate_eq] at hfresh
    revert hcall hspec
    generalize handleMessageFastPath N addr config
      (feed N addr config (fresh config c) xs).subscriber d = o
    intro hcall hspec
    cases hspec with
    | allocationFailed hempty => omega
    | duplicate _ hv hdup =>
        subst hv
        cases hfresh.symm.trans hdup
    | queueFull _ hv hnew _ | delivered _ hv hnew _ =>
        subst hv
        have hexp := track_expected hnew
        have hlargest : IsMax _ ((track config _ _).tracking.expected_sequence_.toInt - 1) :=
          hcall.expected rfl
        have hmono : _ ≤ (track config _ _).tracking.expected_sequence_.toInt := hcall.mono
        rw [hexp] at hlargest hmono
        -- the number behind this one is not negative, so that it has not wrapped around
        have hle := hlargest.2 (number d.fragment) (by simp)
        have hbound := (d.fragment.message_number + 1).toInt_lt
        have hsmall : number d.fragment < 2 ^ 63 - 1 := by omega
        rw [toInt_succ (hint ▸ hsmall), hint] at hmono
        exact ⟨hmono, hsmall⟩
  · intro hlate xs d ys hsplit
    have hd := hnum d (by rw [hsplit]; simp)
    have hexpects : Expects (feed N addr config (fresh config c) xs).subscriber.tracking _ :=
      expects_feed c (fun x hx => hnum x (by rw [hsplit]; exact List.mem_append_left _ hx))
        fun ws w vs hws => hlate ws w (vs ++ d :: ys) (by rw [hsplit, hws]; simp)
    exact (hexpects.step hd (number_mem_of_duplicate c xs hd) (hlate xs d ys hsplit)).1

/-- An ordered stream with a hole. -/
theorem gap_tracking_sound_iff_ordered :
    (∀ d ∈ [arriving 3, arriving 5], d.fragment.sequence_number.toNat < 2 ^ 63) ∧
    ∀ xs d ys, [arriving 3, arriving 5] = xs ++ d :: ys →
      TracksSoundly (feed overloadSize Fin.val { duplicate_window_size := 2 }
          (fresh { duplicate_window_size := 2 } none) xs) d.fragment
        (handleMessageFastPath overloadSize Fin.val { duplicate_window_size := 2 }
          (feed overloadSize Fin.val { duplicate_window_size := 2 }
            (fresh { duplicate_window_size := 2 } none) xs).subscriber d) := by
  have hnum : ∀ d ∈ [arriving 3, arriving 5], d.fragment.sequence_number.toNat < 2 ^ 63 := by
    simp only [List.forall_mem_cons]
    exact ⟨by decide, by decide, fun d hd => nomatch hd⟩
  refine ⟨hnum, (gap_tracking_sound_iff none hnum).mpr ?_⟩
  intro xs d ys hsplit
  rcases xs with _ | ⟨x, _ | ⟨y, xs⟩⟩
  · obtain ⟨rfl, -⟩ := List.cons.inj hsplit
    exact fun _ _ => ⟨by decide, by decide⟩
  · obtain ⟨rfl, htail⟩ := List.cons.inj hsplit
    obtain ⟨rfl, -⟩ := List.cons.inj htail
    exact fun _ _ => ⟨by decide, by decide⟩
  · simp at hsplit

/-- Message 3 arrives after message 5 and sets `expected_sequence_` back to 4. When message 5
comes again it is dropped as a duplicate, and it is counted as a gap. -/
theorem late_message_unsound :
    ¬ ∀ xs d ys, [arriving 5, arriving 3, arriving 5] = xs ++ d :: ys →
      TracksSoundly (feed overloadSize Fin.val { duplicate_window_size := 2 }
          (fresh { duplicate_window_size := 2 } none) xs) d.fragment
        (handleMessageFastPath overloadSize Fin.val { duplicate_window_size := 2 }
          (feed overloadSize Fin.val { duplicate_window_size := 2 }
            (fresh { duplicate_window_size := 2 } none) xs).subscriber d) := by
  intro h
  have hlast := (h [arriving 5, arriving 3] (arriving 5) [] rfl).duplicate (by decide)
  revert hlast
  decide

end AnyOrder

/-! ## Ordered streams -/

section Ordered

variable {PoolSize : Nat} {Pointer : Type} {N : Ring.Size} {addr : Fin PoolSize → Pointer}
  {config : SubscriberConfig} {a : Feed} {d : Delivery PoolSize Pointer}

/-- A range as integers. -/
def asInts (range : Int64 × Int64) : Int × Int := (range.1.toInt, range.2.toInt)

/-- The range that is recovered, if any, as integers. -/
theorem Expects.mem_gap {t : Tracking} {ns : List Int} {n : Int64} (h : Expects t ns)
    (hgap : config.gap_recovery_enabled = true) (hn : 0 ≤ n.toInt) (lo hi : Int) :
    (lo, hi) ∈ (track config t n).gap.toList.map asInts ↔
      (∃ m, IsMax ns m ∧ lo = m + 1 ∧ hi = n.toInt - 1 ∧ m + 1 < n.toInt) ∧
        hi - lo + 1 ≤ config.max_gap_tolerance.toInt := by
  rw [List.mem_map, track_gap]
  constructor
  · rintro ⟨⟨lo', hi'⟩, hrange, heq⟩
    obtain ⟨rfl, rfl⟩ := Prod.mk.inj heq
    obtain ⟨-, m, hmax, hlt, hle, hlo, hhi⟩ := (h.gap_iff hn).mp (Option.mem_toList.mp hrange)
    exact ⟨⟨m, hmax, hlo, hhi, hlt⟩, by dsimp only; omega⟩
  · rintro ⟨⟨m, hmax, rfl, rfl, hlt⟩, hle⟩
    obtain ⟨rfl, -⟩ | ⟨m', hmax', hm, hexp⟩ := h
    · cases hmax.1
    obtain rfl := hmax.unique hmax'
    have hrange : (detectGap config t n).1 = some (t.expected_sequence_, n - 1) :=
      (Expects.gap_iff (Or.inr ⟨m, hmax, hm, hexp⟩) hn).mpr
        ⟨hgap, m, hmax, hlt, by omega, hexp, toInt_pred hn⟩
    refine ⟨_, Option.mem_toList.mpr hrange, ?_⟩
    rw [asInts, hexp, toInt_pred hn]

/-- The history of a subscriber that has been fed an ordered stream with the numbers `ns`. -/
structure ExactGaps (config : SubscriberConfig) (ns : List Int) (a : Feed) : Prop where
  passed : a.passed.map number = ns
  expects : Expects a.subscriber.tracking ns
  sorted : (a.gaps.map asInts).Pairwise fun r r' => r.2 < r'.1
  mem_gaps : ∀ lo hi, (lo, hi) ∈ a.gaps.map asInts ↔
    MissingRun ns lo hi ∧ hi - lo + 1 ≤ config.max_gap_tolerance.toInt
  few : ∀ n, 0 ≤ n → (∀ x ∈ ns, x < n) → (a.gaps.length : Int) ≤ n
  counted : a.subscriber.gaps_detected_.toNat = a.gaps.length

theorem exactGaps_start (c : Option CheckpointData) :
    ExactGaps config [] ⟨fresh config c, [], [], []⟩ where
  passed := rfl
  expects := Or.inl ⟨rfl, rfl⟩
  sorted := .nil
  mem_gaps _ _ := iff_of_false List.not_mem_nil fun h => nomatch h.1.before
  few _ hn _ := hn
  counted := rfl

/-- One more message of an ordered stream. -/
theorem ExactGaps.step {ns : List Int} (h : ExactGaps config ns a)
    (hgap : config.gap_recovery_enabled = true) (hpool : 0 < d.buffer_pool_.free_count_)
    (hnum : number d.fragment < 2 ^ 63 - 1) (hlarger : ∀ x ∈ ns, x < number d.fragment)
    (hring : (track config a.subscriber.tracking d.fragment.message_number).duplicate = true →
      number d.fragment ∈ a.passed.map number) :
    ExactGaps config (ns ++ [number d.fragment]) (a.next N addr config d) := by
  have hint : d.fragment.message_number.toInt = number d.fragment := by
    refine toInt_message_number ?_
    unfold number at hnum
    omega
  have hn : 0 ≤ d.fragment.message_number.toInt := hint ▸ number_nonneg _
  have hnew : (track config a.subscriber.tracking d.fragment.message_number).duplicate = false := by
    refine Bool.eq_false_iff.mpr fun hdup => ?_
    have hold := hring hdup
    rw [h.passed] at hold
    exact absurd (hlarger _ hold) (Int.lt_irrefl _)
  -- a message of an ordered stream is not late
  have hlate : a.subscriber.tracking.expected_sequence_.toInt ≤ number d.fragment + 1 := by
    rcases h.expects with ⟨-, hzero⟩ | ⟨m, hmax, -, hexp⟩
    · rw [hzero, Int64.toInt_zero]
      have := number_nonneg d.fragment
      omega
    · have := hlarger m hmax.1
      omega
  obtain ⟨hlargest, hexpects⟩ := h.expects.accepted hn (hint ▸ hlate) (hint ▸ hnum) hnew
  have hrange := h.expects.mem_gap hgap hn
  have hfew := h.few _ (number_nonneg d.fragment) hlarger
  rw [hint] at hexpects hrange
  obtain ⟨hpassed, hgaps, htracking⟩ := Feed.next_of_accepted N addr hpool hnew
  have hcount := (Feed.next_of_free hpool : (a.next N addr config d).tracked = _ ∧ _).2
  refine ⟨?_, ?_, ?_, fun lo hi => ?_, fun n _ hall => ?_, ?_⟩
  · rw [hpassed, List.map_append, h.passed, List.map_singleton]
  · rw [htracking]
    exact hexpects
  · rw [hgaps, List.map_append, List.pairwise_append]
    refine ⟨h.sorted, ?_, ?_⟩
    · cases (track config a.subscriber.tracking d.fragment.message_number).gap with
      | none => exact .nil
      | some range => exact List.pairwise_singleton _ _
    · rintro ⟨lo, hi⟩ hr ⟨lo', hi'⟩ hr'
      -- an old range ends before a delivered number, the new one begins behind all of them
      obtain ⟨⟨m, hmax, rfl, -⟩, -⟩ := (hrange lo' hi').mp hr'
      have := hmax.2 _ ((h.mem_gaps lo hi).mp hr).1.after
      dsimp only
      omega
  · rw [hgaps, List.map_append, List.mem_append, h.mem_gaps, hrange,
      missingRun_next (h.expects.imp And.left fun ⟨m, hmax, _⟩ => ⟨m, hmax⟩) hlarger,
      or_and_right]
  · -- each message brings at most one range and a larger number
    have hlast := hall (number d.fragment) (by simp)
    rw [hgaps, List.length_append]
    cases (track config a.subscriber.tracking d.fragment.message_number).gap with
    | none => simp; omega
    | some range => simp; omega
  · rw [hcount, hgaps, List.length_append, ← h.counted]
    cases (track config a.subscriber.tracking d.fragment.message_number).gap with
    | none => rfl
    | some range =>
        -- there are fewer ranges than numbers, so that the counter does not wrap around
        have hroom : a.subscriber.gaps_detected_.toNat + 1 < 2 ^ 64 := by
          rw [h.counted]
          omega
        show (a.subscriber.gaps_detected_ + 1).toNat = a.subscriber.gaps_detected_.toNat + 1
        rw [UInt64.toNat_add]
        exact Nat.mod_eq_of_lt hroom

/-- **Gap detection is exact on ordered streams.** A new subscriber with gap recovery enabled
that is fed strictly increasing numbers below `2 ^ 63 - 1`, with a buffer free for each of them,
recovers, in order, exactly the maximal runs of missing numbers between two of them that the
tolerance admits, and `gaps_detected_` counts them. -/
theorem gaps_exact (hgap : config.gap_recovery_enabled = true) (c : Option CheckpointData)
    {ds : List (Delivery PoolSize Pointer)}
    (hpool : ∀ d ∈ ds, 0 < d.buffer_pool_.free_count_)
    (hnum : ∀ d ∈ ds, number d.fragment < 2 ^ 63 - 1)
    (hinc : (ds.map fun d => number d.fragment).Pairwise (· < ·)) :
    let a := feed N addr config (fresh config c) ds
    (a.gaps.map asInts).Pairwise (fun r r' => r.2 < r'.1) ∧
    (∀ lo hi, (lo, hi) ∈ a.gaps.map asInts ↔
      MissingRun (ds.map fun d => number d.fragment) lo hi ∧
        hi - lo + 1 ≤ config.max_gap_tolerance.toInt) ∧
    a.subscriber.gaps_detected_.toNat = a.gaps.length := by
  intro a
  suffices h : ExactGaps config (ds.map fun d => number d.fragment) a from
    ⟨h.sorted, h.mem_gaps, h.counted⟩
  induction ds using List.reverseRecOn with
  | nil => exact exactGaps_start c
  | append_singleton ds d ih =>
      rw [List.map_append] at hinc
      obtain ⟨hbefore, -, hlarger⟩ := List.pairwise_append.mp hinc
      have hold : ExactGaps config (ds.map fun d => number d.fragment)
          (feed N addr config (fresh config c) ds) :=
        ih (fun x hx => hpool x (List.mem_append_left _ hx))
          (fun x hx => hnum x (List.mem_append_left _ hx)) hbefore
      have hd := hnum d (by simp)
      have hsmall : d.fragment.sequence_number.toNat < 2 ^ 63 := by
        unfold number at hd
        omega
      have hstep : ExactGaps config _
          ((feed N addr config (fresh config c) ds).next N addr config d) :=
        hold.step hgap (hpool d (by simp)) hd (fun x hx => hlarger x hx _ (by simp))
          (number_mem_of_duplicate c ds hsmall)
      rw [← feed_snoc] at hstep
      rw [List.map_append]
      exact hstep

/-- A stream that begins at 0, with a hole of two numbers. -/
theorem gaps_exact_hole :
    ((1 : Int), (2 : Int)) ∈ (feed overloadSize Fin.val { duplicate_window_size := 2 }
      (fresh { duplicate_window_size := 2 } none) [arriving 0, arriving 3]).gaps.map asInts := by
  have hpool : ∀ d ∈ [arriving 0, arriving 3], 0 < d.buffer_pool_.free_count_ := by
    simp only [List.forall_mem_cons]
    exact ⟨by decide, by decide, fun d hd => nomatch hd⟩
  have hnum : ∀ d ∈ [arriving 0, arriving 3], number d.fragment < 2 ^ 63 - 1 := by
    simp only [List.forall_mem_cons]
    exact ⟨by decide, by decide, fun d hd => nomatch hd⟩
  have hnumbers : ([arriving 0, arriving 3].map fun d => number d.fragment) = [0, 3] := by decide
  have hinc : ([arriving 0, arriving 3].map fun d => number d.fragment).Pairwise (· < ·) := by
    rw [hnumbers]
    decide
  have hrun : MissingRun [0, 3] 1 2 := by
    refine ⟨by decide, by decide, by decide, fun x hlo hhi hx => ?_⟩
    simp only [List.mem_cons, List.not_mem_nil, or_false] at hx
    omega
  exact ((gaps_exact rfl none hpool hnum hinc).2.1 1 2).mpr ⟨hnumbers ▸ hrun, by decide⟩

end Ordered

end AeronReplay.AeronSubscriber
