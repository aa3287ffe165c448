import AeronReplay.Subscriber.FastPath
import AeronReplay.Subscriber.Worker

set_option autoImplicit false

/-! # The two duplicate filters, one after the other

What becomes of a list of fragments when no buffer is missing and nothing interferes: the fast
path tracks gaps and drops what its ring of recent sequence numbers knows, the worker drops what
its set of seen sequence numbers knows, and the rest reaches `processMessage`. Neither looks at
anything but the sequence number. -/

namespace AeronReplay.Pipeline

open AeronSubscriber MessageWorker

variable (config : SubscriberConfig)

/-! ## The two filters -/

/-- What the fast path has made of the fragments so far. -/
structure FastPathRun where
  tracking : Tracking
  accepted : List Fragment
  gaps : List (Int64 × Int64)

def FastPathRun.next (a : FastPathRun) (f : Fragment) : FastPathRun :=
  let v := track config a.tracking f.message_number
  { tracking := v.tracking
    accepted := if v.duplicate then a.accepted else a.accepted ++ [f]
    gaps := a.gaps ++ v.gap.toList }

def fastPath (fs : List Fragment) : FastPathRun :=
  fs.foldl (FastPathRun.next config) ⟨initialTracking config, [], []⟩

/-- What the worker has made of the accepted messages so far. -/
structure WorkerRun where
  seen_sequences_ : Finset UInt64
  processed : List Fragment

def WorkerRun.next (a : WorkerRun) (f : Fragment) : WorkerRun :=
  let (duplicate, seen) := checkSequence a.seen_sequences_ f.sequence_number
  { seen_sequences_ := seen
    processed := if duplicate then a.processed else a.processed ++ [f] }

def worker (fs : List Fragment) : WorkerRun := fs.foldl WorkerRun.next ⟨∅, []⟩

/-- The messages that reach `processMessage`. -/
def processed (fs : List Fragment) : List Fragment :=
  (worker (fastPath config fs).accepted).processed

theorem fastPath_snoc (fs : List Fragment) (f : Fragment) :
    fastPath config (fs ++ [f]) = (fastPath config fs).next config f := by
  rw [fastPath, List.foldl_append]
  rfl

theorem worker_snoc (fs : List Fragment) (f : Fragment) :
    worker (fs ++ [f]) = (worker fs).next f := by
  rw [worker, List.foldl_append]
  rfl

/-! ## Nothing is invented -/

theorem accepted_next (a : FastPathRun) (f : Fragment) :
    (a.next config f).accepted = a.accepted ∨ (a.next config f).accepted = a.accepted ++ [f] := by
  unfold FastPathRun.next
  dsimp only
  split
  · exact Or.inl rfl
  · exact Or.inr rfl

theorem accepted_sublist (fs : List Fragment) : (fastPath config fs).accepted.Sublist fs := by
  induction fs using List.reverseRecOn with
  | nil => exact .refl _
  | append_singleton fs f ih =>
      rw [fastPath_snoc]
      rcases accepted_next config (fastPath config fs) f with h | h <;> rw [h]
      · exact ih.trans (List.sublist_append_left _ _)
      · exact ih.append (.refl _)

/-- The ring holds its initial value and numbers of accepted messages. -/
theorem mem_ring (fs : List Fragment) {n : Int64}
    (h : n ∈ (fastPath config fs).tracking.duplicate_buffer_) :
    n = -1 ∨ ∃ f ∈ (fastPath config fs).accepted, f.message_number = n := by
  induction fs using List.reverseRecOn with
  | nil =>
      refine Or.inl ?_
      replace h : n ∈ (initialTracking config).duplicate_buffer_ := h
      unfold initialTracking at h
      dsimp only at h
      split at h
      · exact List.eq_of_mem_replicate h
      · cases h
  | append_singleton fs f ih =>
      rw [fastPath_snoc] at h ⊢
      rcases mem_track h with hold | ⟨rfl, hnew⟩
      · rcases ih hold with hinit | ⟨g, hg, hn⟩
        · exact Or.inl hinit
        · refine Or.inr ⟨g, ?_, hn⟩
          rcases accepted_next config (fastPath config fs) f with hacc | hacc <;> rw [hacc]
          · exact hg
          · exact List.mem_append_left _ hg
      · refine Or.inr ⟨f, ?_, rfl⟩
        have hacc : ((fastPath config fs).next config f).accepted
            = if _ then _ else _ := rfl
        rw [hacc, hnew]
        exact List.mem_append_right _ (List.mem_singleton_self f)

theorem processed_next (a : WorkerRun) (f : Fragment) :
    (a.next f).processed
      = if f.sequence_number ∈ a.seen_sequences_ then a.processed else a.processed ++ [f] := by
  have hdup := checkSequence_duplicate a.seen_sequences_ f.sequence_number
  unfold WorkerRun.next
  grind

theorem processed_sublist (fs : List Fragment) : (worker fs).processed.Sublist fs := by
  induction fs using List.reverseRecOn with
  | nil => exact .refl _
  | append_singleton fs f ih =>
      rw [worker_snoc, processed_next]
      split
      · exact ih.trans (List.sublist_append_left _ _)
      · exact ih.append (.refl _)

/-- The set holds numbers of processed messages. -/
theorem mem_seen (fs : List Fragment) {n : UInt64} (h : n ∈ (worker fs).seen_sequences_) :
    ∃ f ∈ (worker fs).processed, f.sequence_number = n := by
  induction fs using List.reverseRecOn with
  | nil => exact absurd h (Finset.notMem_empty n)
  | append_singleton fs f ih =>
      rw [worker_snoc] at h ⊢
      rw [processed_next]
      rcases Finset.mem_insert.mp (checkSequence_subset _ _ h) with rfl | hold
      · by_cases hseen : f.sequence_number ∈ (worker fs).seen_sequences_
        · rw [if_pos hseen]
          exact ih hseen
        · rw [if_neg hseen]
          exact ⟨f, List.mem_append_right _ (List.mem_singleton_self f), rfl⟩
      · obtain ⟨g, hg, hn⟩ := ih hold
        refine ⟨g, ?_, hn⟩
        split
        · exact hg
        · exact List.mem_append_left _ hg

/-! ## Fresh numbers pass -/

/-- The messages selected by `P` carry numbers that no earlier message carries. -/
def FreshIn (P : Fragment → Bool) (fs : List Fragment) : Prop :=
  fs.Pairwise fun g f => P f = true → g.sequence_number ≠ f.sequence_number

variable {config} {P : Fragment → Bool} {fs : List Fragment}

theorem FreshIn.snoc {f : Fragment} (h : FreshIn P (fs ++ [f])) :
    FreshIn P fs ∧ (P f = true → ∀ g ∈ fs, g.sequence_number ≠ f.sequence_number) := by
  obtain ⟨hfs, -, hf⟩ := List.pairwise_append.mp h
  exact ⟨hfs, fun hP g hg => hf g hg f (List.mem_singleton_self f) hP⟩

/-- The fast path accepts a message whose number no earlier message carries. -/
theorem accepted_fresh {f : Fragment} (hvalue : f.message_number ≠ -1)
    (hfresh : ∀ g ∈ fs, g.sequence_number ≠ f.sequence_number) :
    (fastPath config (fs ++ [f])).accepted = (fastPath config fs).accepted ++ [f] := by
  have hring : f.message_number ∉ (fastPath config fs).tracking.duplicate_buffer_ := by
    intro hmem
    rcases mem_ring config fs hmem with hinit | ⟨g, hg, hn⟩
    · exact hvalue hinit
    · exact hfresh g ((accepted_sublist config fs).subset hg)
        (Fragment.sequence_number_of_message_number hn)
  have hnew : (track config (fastPath config fs).tracking f.message_number).duplicate = false :=
    Bool.eq_false_iff.mpr fun hdup => hring (track_duplicate.mp hdup).2
  rw [fastPath_snoc]
  show (if _ then _ else _ : List Fragment) = _
  rw [hnew]
  rfl

/-- The worker processes a message whose number no earlier message carries. -/
theorem worker_fresh {f : Fragment} (hfresh : ∀ g ∈ fs, g.sequence_number ≠ f.sequence_number) :
    (worker (fs ++ [f])).processed = (worker fs).processed ++ [f] := by
  have hseen : f.sequence_number ∉ (worker fs).seen_sequences_ := by
    intro hmem
    obtain ⟨g, hg, hn⟩ := mem_seen fs hmem
    exact hfresh g ((processed_sublist fs).subset hg) hn
  rw [worker_snoc, processed_next, if_neg hseen]

/-- The fast path accepts all messages with fresh numbers. -/
theorem accepted_filter (hfresh : FreshIn P fs)
    (hvalue : ∀ f ∈ fs, P f = true → f.message_number ≠ -1) :
    (fastPath config fs).accepted.filter P = fs.filter P := by
  induction fs using List.reverseRecOn with
  | nil => rfl
  | append_singleton fs f ih =>
      obtain ⟨hfs, hf⟩ := hfresh.snoc
      have ih := ih hfs fun g hg => hvalue g (List.mem_append_left _ hg)
      rw [List.filter_append, ← ih]
      by_cases hP : P f = true
      · rw [accepted_fresh (hvalue f (by simp) hP) (hf hP), List.filter_append]
      · have hnone : [f].filter P = [] := by simp [hP]
        rw [hnone, List.append_nil, fastPath_snoc]
        rcases accepted_next config (fastPath config fs) f with h | h <;> rw [h]
        rw [List.filter_append, hnone, List.append_nil]

/-- The worker processes all messages with fresh numbers. -/
theorem worker_filter (hfresh : FreshIn P fs) : (worker fs).processed.filter P = fs.filter P := by
  induction fs using List.reverseRecOn with
  | nil => rfl
  | append_singleton fs f ih =>
      obtain ⟨hfs, hf⟩ := hfresh.snoc
      rw [List.filter_append, ← ih hfs]
      by_cases hP : P f = true
      · rw [worker_fresh (hf hP), List.filter_append]
      · have hnone : [f].filter P = [] := by simp [hP]
        rw [hnone, List.append_nil, worker_snoc, processed_next]
        split
        · rfl
        · rw [List.filter_append, hnone, List.append_nil]

/-- **A message with a fresh number reaches `processMessage`**, unless the number is the initial
value of the ring. -/
theorem processed_filter (hfresh : FreshIn P fs)
    (hvalue : ∀ f ∈ fs, P f = true → f.message_number ≠ -1) :
    (processed config fs).filter P = fs.filter P := by
  have haccepted : FreshIn P (fastPath config fs).accepted :=
    List.Pairwise.sublist (accepted_sublist config fs) hfresh
  rw [processed, worker_filter haccepted, accepted_filter hfresh hvalue]

theorem processed_snoc (config : SubscriberConfig) (fs : List Fragment) (f : Fragment) :
    processed config fs <+: processed config (fs ++ [f]) := by
  rw [processed, processed, fastPath_snoc]
  rcases accepted_next config (fastPath config fs) f with h | h
  · rw [h]
  · rw [h, worker_snoc, processed_next]
    split
    · exact List.prefix_rfl
    · exact List.prefix_append _ _

/-- What arrives later takes nothing back. -/
theorem processed_append (config : SubscriberConfig) (fs gs : List Fragment) :
    processed config fs <+: processed config (fs ++ gs) := by
  induction gs using List.reverseRecOn with
  | nil =>
      rw [List.append_nil]
  | append_singleton gs g ih =>
      rw [← List.append_assoc]
      exact ih.trans (processed_snoc config _ g)

/-- A message whose number no earlier message carries reaches `processMessage`, unless the
number is the initial value of the ring. -/
theorem mem_processed {gs : List Fragment} {f : Fragment} (hvalue : f.message_number ≠ -1)
    (hfresh : ∀ g ∈ fs, g.sequence_number ≠ f.sequence_number) :
    f ∈ processed config (fs ++ f :: gs) := by
  have hlast : f ∈ processed config (fs ++ [f]) := by
    have hfresh' : ∀ g ∈ (fastPath config fs).accepted, g.sequence_number ≠ f.sequence_number :=
      fun g hg => hfresh g ((accepted_sublist config fs).subset hg)
    rw [processed, accepted_fresh hvalue hfresh, worker_fresh hfresh']
    exact List.mem_append_right _ (List.mem_singleton_self f)
  have hsplit : fs ++ f :: gs = fs ++ [f] ++ gs := by simp
  rw [hsplit]
  exact (processed_append config (fs ++ [f]) gs).subset hlast

/-! ## Only the numbers matter -/

/-- Both fragments of a pair carry the same sequence number. -/
def SameNumbers (zs : List (Fragment × Fragment)) : Prop :=
  ∀ z ∈ zs, z.1.sequence_number = z.2.sequence_number

theorem SameNumbers.snoc {zs : List (Fragment × Fragment)} {z : Fragment × Fragment}
    (h : SameNumbers (zs ++ [z])) :
    SameNumbers zs ∧ z.1.sequence_number = z.2.sequence_number :=
  ⟨fun y hy => h y (List.mem_append_left _ hy), h z (by simp)⟩

/-- The fast path accepts the same ones of both lists and finds the same gaps. -/
theorem fastPath_same (config : SubscriberConfig) {zs : List (Fragment × Fragment)}
    (h : SameNumbers zs) : ∃ ws : List (Fragment × Fragment), ws.Sublist zs ∧
      (fastPath config (zs.map Prod.fst)).accepted = ws.map Prod.fst ∧
      (fastPath config (zs.map Prod.snd)).accepted = ws.map Prod.snd ∧
      (fastPath config (zs.map Prod.fst)).tracking = (fastPath config (zs.map Prod.snd)).tracking ∧
      (fastPath config (zs.map Prod.fst)).gaps = (fastPath config (zs.map Prod.snd)).gaps := by
  induction zs using List.reverseRecOn with
  | nil => exact ⟨[], .refl _, rfl, rfl, rfl, rfl⟩
  | append_singleton zs z ih =>
      obtain ⟨hzs, hz⟩ := h.snoc
      obtain ⟨ws, hws, hfst, hsnd, htracking, hgaps⟩ := ih hzs
      have hnumber : z.1.message_number = z.2.message_number := congrArg UInt64.toInt64 hz
      simp only [List.map_append, List.map_singleton, fastPath_snoc, FastPathRun.next, hfst, hsnd,
        htracking, hgaps, hnumber]
      by_cases hdup : (track config (fastPath config (zs.map Prod.snd)).tracking
          z.2.message_number).duplicate = true
      · refine ⟨ws, hws.trans (List.sublist_append_left _ _), ?_⟩
        simp [hdup]
      · refine ⟨ws ++ [z], hws.append (.refl _), ?_⟩
        simp [hdup]

/-- The worker processes the same ones of both lists. -/
theorem worker_same {zs : List (Fragment × Fragment)} (h : SameNumbers zs) :
    ∃ ws : List (Fragment × Fragment), ws.Sublist zs ∧
      (worker (zs.map Prod.fst)).processed = ws.map Prod.fst ∧
      (worker (zs.map Prod.snd)).processed = ws.map Prod.snd ∧
      (worker (zs.map Prod.fst)).seen_sequences_ = (worker (zs.map Prod.snd)).seen_sequences_ := by
  induction zs using List.reverseRecOn with
  | nil => exact ⟨[], .refl _, rfl, rfl, rfl⟩
  | append_singleton zs z ih =>
      obtain ⟨hzs, hz⟩ := h.snoc
      obtain ⟨ws, hws, hfst, hsnd, hseen⟩ := ih hzs
      simp only [List.map_append, List.map_singleton, worker_snoc, WorkerRun.next, hfst, hsnd,
        hseen, hz]
      by_cases hdup : (checkSequence (worker (zs.map Prod.snd)).seen_sequences_
          z.2.sequence_number).1 = true
      · refine ⟨ws, hws.trans (List.sublist_append_left _ _), ?_⟩
        simp [hdup]
      · refine ⟨ws ++ [z], hws.append (.refl _), ?_⟩
        simp [hdup]

/-- **Only the sequence numbers decide** which messages reach `processMessage`. -/
theorem processed_same (config : SubscriberConfig) {zs : List (Fragment × Fragment)}
    (h : SameNumbers zs) : ∃ ws : List (Fragment × Fragment), ws.Sublist zs ∧
      processed config (zs.map Prod.fst) = ws.map Prod.fst ∧
      processed config (zs.map Prod.snd) = ws.map Prod.snd := by
  obtain ⟨ws, hws, hfst, hsnd, -⟩ := fastPath_same config h
  obtain ⟨vs, hvs, hfst', hsnd', -⟩ := worker_same fun z hz => h z (hws.subset hz)
  refine ⟨vs, hvs.trans hws, ?_, ?_⟩
  · rw [processed, hfst, hfst']
  · rw [processed, hsnd, hsnd']

/-! ## Insertions that change nothing -/

/-- A fragment with this number, arriving in this tracking state, is dropped as a duplicate and
leaves no trace: its number is in the ring and, where gaps are looked for, it is neither the
first message nor ahead of the expected one. -/
structure Harmless (config : SubscriberConfig) (t : Tracking) (f : Fragment) : Prop where
  enabled : config.duplicate_check_enabled = true
  known : f.message_number ∈ t.duplicate_buffer_
  started : config.gap_recovery_enabled = true → t.expected_sequence_ ≠ 0
  notAhead : config.gap_recovery_enabled = true → f.message_number ≤ t.expected_sequence_

theorem Harmless.track {t : Tracking} {f : Fragment} (h : Harmless config t f) :
    AeronSubscriber.track config t f.message_number = ⟨none, true, t⟩ := by
  have hgap : detectGap config t f.message_number = (none, t) := by
    have hstarted := h.started
    have hle := h.notAhead
    unfold detectGap checkForGaps
    grind
  have hdup : isDuplicate config t f.message_number = true :=
    isDuplicate_iff.mpr ⟨h.enabled, h.known⟩
  unfold AeronSubscriber.track
  rw [hgap]
  simp [h.enabled, hdup]

/-- `gs` is `fs` with harmless fragments inserted, from the tracking state `t` on. -/
inductive Inserted (config : SubscriberConfig) : Tracking → List Fragment → List Fragment → Prop
  | nil (t : Tracking) : Inserted config t [] []
  | keep {t : Tracking} {fs gs : List Fragment} (f : Fragment)
      (h : Inserted config (AeronSubscriber.track config t f.message_number).tracking fs gs) :
      Inserted config t (f :: fs) (f :: gs)
  | insert {t : Tracking} {fs gs : List Fragment} (f : Fragment) (hf : Harmless config t f)
      (h : Inserted config t fs gs) : Inserted config t fs (f :: gs)

theorem Harmless.next {a : FastPathRun} {f : Fragment} (h : Harmless config a.tracking f) :
    a.next config f = a := by
  unfold FastPathRun.next
  rw [h.track]
  simp

theorem Inserted.foldl {t : Tracking} {fs gs : List Fragment} (h : Inserted config t fs gs)
    {a : FastPathRun} (ha : a.tracking = t) :
    gs.foldl (FastPathRun.next config) a = fs.foldl (FastPathRun.next config) a := by
  induction h generalizing a with
  | nil t => rfl
  | keep f h ih => exact ih (by rw [← ha]; rfl)
  | insert f hf h ih =>
      rw [List.foldl_cons, (ha ▸ hf : Harmless config a.tracking f).next]
      exact ih ha

/-- **Harmless insertions change nothing.** -/
theorem fastPath_inserted {fs gs : List Fragment}
    (h : Inserted config (initialTracking config) fs gs) :
    fastPath config gs = fastPath config fs :=
  h.foldl rfl

end AeronReplay.Pipeline
