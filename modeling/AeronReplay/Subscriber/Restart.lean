import AeronReplay.Subscriber.Feed

set_option autoImplicit false

/-! # Restarting from the checkpoint

A subscriber is fed, shut down, and started again on the checkpoint file it has left behind.
The new process reads the tuple, but tracks from the beginning: nothing of the tuple enters
`expected_sequence_`, the ring or the message counter. `restart_continues_iff` says for which
streams this goes unnoticed. -/

namespace AeronReplay.AeronSubscriber

open CheckpointManager Pipeline

variable {PoolSize : Nat} {Pointer : Type} (N : Ring.Size) (addr : Fin PoolSize → Pointer)
  (config : SubscriberConfig)

/-! ## Two processes and one -/

/-- What counts in the checkpoint: sequence number, position and message count. -/
def summary (c : CheckpointData) : Int64 × Int64 × Int64 :=
  (c.last_sequence_number, c.last_position, c.message_count)

/-- A new process on the checkpoint file `file`, after these deliveries. -/
def started (file : Option (List UInt8)) (ds : List (Delivery PoolSize Pointer)) : Feed :=
  feed N addr config (fresh config (some (load file .zero))) ds

/-- The checkpoint file after the final flush, if it succeeds. -/
def flushed (file : Option (List UInt8)) (s : AeronSubscriber) : Option (List UInt8) :=
  match s.checkpoint_ with
  | none => file
  | some c => if c.isEmpty then file else some (record c)

/-- A process with the history `a` and its successor with the history `b` have done together
what one process with the history `u` does. -/
structure Continues (a b u : Feed) : Prop where
  delivered : a.delivered ++ b.delivered = u.delivered
  gaps : a.gaps ++ b.gaps = u.gaps
  checkpoint_ : b.subscriber.checkpoint_.map summary = u.subscriber.checkpoint_.map summary

/-- For each of these deliveries a buffer is free and the queue has room. -/
def NoDrops (ds : List (Delivery PoolSize Pointer)) : Prop :=
  ∀ d ∈ ds, 0 < d.buffer_pool_.free_count_ ∧ RingQueue.full N d.message_queue_ = false

/-- All of these messages carry the initial value of the ring and pass for duplicates. -/
def Silent (ds : List (Delivery PoolSize Pointer)) : Prop :=
  ∀ d ∈ ds, config.duplicate_check_enabled = true ∧ d.fragment.message_number = -1

variable {N addr config} {s : AeronSubscriber} {a : Feed} {d : Delivery PoolSize Pointer}
  {ds xs ys : List (Delivery PoolSize Pointer)} {c₀ : CheckpointData}

theorem NoDrops.of_append (h : NoDrops N (xs ++ ys)) : NoDrops N xs ∧ NoDrops N ys :=
  List.forall_mem_append.mp h

/-! ## Histories -/

/-- A history goes on from the subscriber it has reached. -/
theorem feed_append (s : AeronSubscriber) (xs ys : List (Delivery PoolSize Pointer)) :
    feed N addr config s (xs ++ ys) =
      { subscriber := (feed N addr config (feed N addr config s xs).subscriber ys).subscriber
        passed := (feed N addr config s xs).passed
          ++ (feed N addr config (feed N addr config s xs).subscriber ys).passed
        delivered := (feed N addr config s xs).delivered
          ++ (feed N addr config (feed N addr config s xs).subscriber ys).delivered
        gaps := (feed N addr config s xs).gaps
          ++ (feed N addr config (feed N addr config s xs).subscriber ys).gaps } := by
  induction ys using List.reverseRecOn with
  | nil => simp [feed]
  | append_singleton ys d ih =>
      rw [← List.append_assoc, feed_snoc, feed_snoc, ih]
      unfold Feed.next
      dsimp only
      split <;> split <;> simp

theorem Feed.next_of_duplicate (hpool : 0 < d.buffer_pool_.free_count_)
    (hdup : (track config a.subscriber.tracking d.fragment.message_number).duplicate = true) :
    a.next N addr config d = { a with
      subscriber := a.subscriber.afterTracking
        (track config a.subscriber.tracking d.fragment.message_number)
      gaps := a.gaps
        ++ (track config a.subscriber.tracking d.fragment.message_number).gap.toList } := by
  have hspec := handleMessageFastPath_spec N addr config a.subscriber d
  unfold Feed.next
  revert hspec
  generalize handleMessageFastPath N addr config a.subscriber d = o
  intro hspec
  cases hspec with
  | allocationFailed hempty => omega
  | duplicate _ hv _ =>
      subst hv
      rfl
  | queueFull _ hv hnew _ | delivered _ hv hnew _ =>
      subst hv
      cases hnew.symm.trans hdup

theorem Feed.next_of_new (hpool : 0 < d.buffer_pool_.free_count_)
    (hroom : RingQueue.full N d.message_queue_ = false)
    (hnew : (track config a.subscriber.tracking d.fragment.message_number).duplicate = false) :
    a.next N addr config d =
      { subscriber := (a.subscriber.afterTracking
          (track config a.subscriber.tracking d.fragment.message_number)).countAndUpdate
            d.fragment.sequence_number d.fragment.position d.timestamp_ns
        passed := a.passed ++ [d.fragment]
        delivered := a.delivered ++ [d.fragment]
        gaps := a.gaps
          ++ (track config a.subscriber.tracking d.fragment.message_number).gap.toList } := by
  have hspec := handleMessageFastPath_spec N addr config a.subscriber d
  unfold Feed.next
  revert hspec
  generalize handleMessageFastPath N addr config a.subscriber d = o
  intro hspec
  cases hspec with
  | allocationFailed hempty => omega
  | duplicate _ hv hdup =>
      subst hv
      cases hnew.symm.trans hdup
  | queueFull _ _ _ hfull => cases hroom.symm.trans hfull
  | delivered _ hv _ _ =>
      subst hv
      rfl

/-! ## Silent messages -/

/-- A message that passes for a duplicate because of the initial value of the ring. -/
theorem track_silent {t : Tracking} (hcheck : config.duplicate_check_enabled = true)
    (hring : -1 ∈ t.duplicate_buffer_) :
    track config t (-1) = ⟨(detectGap config t (-1)).1, true, t⟩ := by
  have hdup : (track config t (-1)).duplicate = true := track_duplicate.mpr ⟨hcheck, hring⟩
  have htracking : (track config t (-1)).tracking = t := by
    rw [track_of_duplicate hdup, detectGap_tracking]
    split
    · rename_i hfirst
      -- even as the first message it leaves `expected_sequence_` at 0
      have hzero : (-1 : Int64) + 1 = 0 := by decide
      rw [hzero, ← hfirst.2]
    · rfl
  have hgap : (track config t (-1)).gap = (detectGap config t (-1)).1 := track_gap
  cases hv : track config t (-1) with
  | mk gap duplicate tracking =>
      rw [hv] at hdup htracking hgap
      obtain rfl : gap = _ := hgap
      obtain rfl : duplicate = true := hdup
      obtain rfl : tracking = t := htracking
      rfl

/-- Silent messages change nothing but statistics; each of them may report the same gap. -/
theorem feed_silent (addr : Fin PoolSize → Pointer) (hsilent : Silent config ds)
    (hdrop : NoDrops N ds) (hring : -1 ∈ s.tracking.duplicate_buffer_) :
    (feed N addr config s ds).delivered = [] ∧
      (feed N addr config s ds).subscriber.tracking = s.tracking ∧
      (feed N addr config s ds).subscriber.checkpoint_ = s.checkpoint_ ∧
      (feed N addr config s ds).gaps
        = (List.replicate ds.length (detectGap config s.tracking (-1)).1.toList).flatten := by
  induction ds using List.reverseRecOn with
  | nil => exact ⟨rfl, rfl, rfl, rfl⟩
  | append_singleton ds d ih =>
      obtain ⟨hbefore, hd⟩ := List.forall_mem_append.mp hsilent
      obtain ⟨hdelivered, htracking, hcheckpoint, hgaps⟩ := ih hbefore hdrop.of_append.1
      obtain ⟨hcheck, hnum⟩ := hd d (List.mem_singleton_self d)
      have hv : track config (feed N addr config s ds).subscriber.tracking
          d.fragment.message_number = ⟨(detectGap config s.tracking (-1)).1, true, s.tracking⟩ := by
        rw [htracking, hnum, track_silent hcheck hring]
      have hpool := (hdrop d (by simp)).1
      rw [feed_snoc, Feed.next_of_duplicate hpool (by rw [hv]), hv]
      refine ⟨hdelivered, rfl, hcheckpoint, ?_⟩
      show (feed N addr config s ds).gaps ++ _ = _
      rw [hgaps, List.length_append, List.length_singleton, List.replicate_succ',
        List.flatten_append]
      simp

theorem initialTracking_ring (hcheck : config.duplicate_check_enabled = true) :
    (initialTracking config).duplicate_buffer_
      = List.replicate config.duplicate_window_size (-1) :=
  if_pos hcheck

/-- The first message reports no gap. -/
theorem detectGap_initial (n : Int64) : (detectGap config (initialTracking config) n).1 = none := by
  rw [Option.eq_none_iff_forall_ne_some]
  rintro ⟨lo, hi⟩ hgap
  exact (detectGap_some.mp hgap).2.1 rfl

/-- To a new subscriber silent messages do nothing at all. -/
theorem feed_fresh_silent (addr : Fin PoolSize → Pointer) (c : Option CheckpointData)
    (hsilent : Silent config ds) (hdrop : NoDrops N ds)
    (hW : ds.length ≤ config.duplicate_window_size) :
    (feed N addr config (fresh config c) ds).delivered = [] ∧
      (feed N addr config (fresh config c) ds).subscriber.tracking = initialTracking config ∧
      (feed N addr config (fresh config c) ds).subscriber.checkpoint_ = c ∧
      (feed N addr config (fresh config c) ds).gaps = [] := by
  cases ds with
  | nil => exact ⟨rfl, rfl, rfl, rfl⟩
  | cons d ds =>
      have hcheck := (hsilent d List.mem_cons_self).1
      have hring : -1 ∈ (fresh config c).tracking.duplicate_buffer_ := by
        show -1 ∈ (initialTracking config).duplicate_buffer_
        rw [initialTracking_ring hcheck, List.mem_replicate]
        rw [List.length_cons] at hW
        exact ⟨by omega, rfl⟩
      obtain ⟨hdelivered, htracking, hcheckpoint, hgaps⟩ :=
        feed_silent addr hsilent hdrop hring
      refine ⟨hdelivered, htracking, hcheckpoint, hgaps.trans ?_⟩
      have hnone : (detectGap config (fresh config c).tracking (-1)).1 = none :=
        detectGap_initial (-1)
      simp [hnone]

/-- A new subscriber that has delivered nothing has only seen silent messages. -/
theorem silent_of_delivered_nil (c : Option CheckpointData) (hdrop : NoDrops N ds)
    (hW : ds.length ≤ config.duplicate_window_size)
    (hnone : (feed N addr config (fresh config c) ds).delivered = []) :
    Silent config ds := by
  induction ds using List.reverseRecOn with
  | nil => exact fun d hd => nomatch hd
  | append_singleton ds d ih =>
      obtain ⟨hdrops, hlast⟩ := hdrop.of_append
      obtain ⟨hpool, hroom⟩ := hlast d (List.mem_singleton_self d)
      rw [List.length_append, List.length_singleton] at hW
      rw [feed_append] at hnone
      have hsilent := ih hdrops (by omega) (List.append_eq_nil_iff.mp hnone).1
      have htracking : (feed N addr config (fresh config c) ds).subscriber.tracking = _ :=
        (feed_fresh_silent addr c hsilent hdrops (by omega)).2.1
      rw [← feed_append, feed_snoc] at hnone
      refine List.forall_mem_append.mpr ⟨hsilent, List.forall_mem_singleton.mpr ?_⟩
      cases hdup : (track config (feed N addr config (fresh config c) ds).subscriber.tracking
          d.fragment.message_number).duplicate with
      | false =>
          -- a new number would have been delivered
          rw [Feed.next_of_new hpool hroom hdup] at hnone
          simp at hnone
      | true =>
          -- the ring still holds nothing but its initial value
          rw [htracking] at hdup
          obtain ⟨hcheck, hmem⟩ := track_duplicate.mp hdup
          rw [initialTracking_ring hcheck] at hmem
          exact ⟨hcheck, List.eq_of_mem_replicate hmem⟩

/-! ## Counting -/

/-- What a history without drops has done to the counter and to the checkpoint `c₀`. -/
theorem feed_counted (addr : Fin PoolSize → Pointer) (config : SubscriberConfig)
    (hdrop : NoDrops N ds) (hc : s.checkpoint_ = some c₀) :
    (feed N addr config s ds).subscriber.zc_messages_received_
        = s.zc_messages_received_ + .ofNat (feed N addr config s ds).delivered.length ∧
      ∃ c, (feed N addr config s ds).subscriber.checkpoint_ = some c ∧
        (((feed N addr config s ds).delivered = [] ∧ c = c₀) ∨
          ∃ fs f, (feed N addr config s ds).delivered = fs ++ [f] ∧
            summary c = (f.message_number, f.position,
              (feed N addr config s ds).subscriber.zc_messages_received_.toInt64)) := by
  induction ds using List.reverseRecOn with
  | nil => exact ⟨(UInt64.add_zero _).symm, c₀, hc, Or.inl ⟨rfl, rfl⟩⟩
  | append_singleton ds d ih =>
      obtain ⟨hdrops, hlast⟩ := hdrop.of_append
      obtain ⟨hpool, hroom⟩ := hlast d (List.mem_singleton_self d)
      obtain ⟨hreceived, c, hcheckpoint, hcases⟩ := ih hdrops
      rw [feed_snoc]
      cases hdup : (track config (feed N addr config s ds).subscriber.tracking
          d.fragment.message_number).duplicate with
      | true =>
          rw [Feed.next_of_duplicate hpool hdup]
          exact ⟨hreceived, c, hcheckpoint, hcases⟩
      | false =>
          rw [Feed.next_of_new hpool hroom hdup]
          refine ⟨?_, ⟨d.fragment.message_number, d.fragment.position,
            ((feed N addr config s ds).subscriber.zc_messages_received_ + 1).toInt64,
            d.timestamp_ns⟩, ?_, Or.inr ⟨_, d.fragment, rfl, rfl⟩⟩
          · show (feed N addr config s ds).subscriber.zc_messages_received_ + 1 = _
            rw [hreceived, List.length_append, List.length_singleton, UInt64.ofNat_add]
            exact UInt64.add_assoc _ _ _
          · show Option.map _ (feed N addr config s ds).subscriber.checkpoint_ = _
            rw [hcheckpoint]
            rfl

theorem started_counted (addr : Fin PoolSize → Pointer) (config : SubscriberConfig)
    (file : Option (List UInt8)) (hdrop : NoDrops N ds) :
    (started N addr config file ds).subscriber.zc_messages_received_
        = .ofNat (started N addr config file ds).delivered.length ∧
      ∃ c, (started N addr config file ds).subscriber.checkpoint_ = some c ∧
        (((started N addr config file ds).delivered = [] ∧ c = load file .zero) ∨
          ∃ fs f, (started N addr config file ds).delivered = fs ++ [f] ∧
            summary c = (f.message_number, f.position,
              (started N addr config file ds).subscriber.zc_messages_received_.toInt64)) := by
  obtain ⟨hreceived, hcheckpoint⟩ := feed_counted addr config hdrop
    (rfl : (fresh config (some (load file .zero))).checkpoint_ = some (load file .zero))
  exact ⟨hreceived.trans (UInt64.zero_add _), hcheckpoint⟩

/-- Strictly increasing positions are few. -/
theorem length_le_of_increasing {ps : List Int64} (hinc : ps.Pairwise (· < ·)) {p : Int64}
    (hp : ∀ q ∈ ps, q < p) : (ps.length : Int) ≤ p.toInt + 2 ^ 63 := by
  induction ps using List.reverseRecOn generalizing p with
  | nil =>
      have := p.le_toInt
      simp only [List.length_nil]
      omega
  | append_singleton ps q ih =>
      obtain ⟨hbefore, -, hlast⟩ := List.pairwise_append.mp hinc
      have hlen := ih hbefore fun x hx => hlast x hx q (List.mem_singleton_self q)
      have hlt := Int64.lt_iff_toInt_lt.mp (hp q (by simp))
      rw [List.length_append, List.length_singleton]
      omega

theorem delivered_sublist (s : AeronSubscriber) (ds : List (Delivery PoolSize Pointer)) :
    (feed N addr config s ds).delivered.Sublist (ds.map (·.fragment)) := by
  induction ds using List.reverseRecOn with
  | nil => exact .refl _
  | append_singleton ds d ih =>
      rw [feed_snoc, List.map_append]
      unfold Feed.next
      dsimp only
      split
      · exact ih.append (.refl _)
      · exact ih.trans (List.sublist_append_left _ _)

/-- What a new process loads from the file is, as far as it counts, what the old one had. -/
theorem reload (addr : Fin PoolSize → Pointer) (config : SubscriberConfig)
    (file : Option (List UInt8)) (hdrop : NoDrops N ds)
    (hinc : (ds.map (·.fragment.position)).Pairwise (· < ·)) :
    ∃ c, (started N addr config file ds).subscriber.checkpoint_ = some c ∧
      summary (load (flushed file (started N addr config file ds).subscriber) .zero)
        = summary c := by
  obtain ⟨hreceived, c, hcheckpoint, hcases⟩ := started_counted addr config file hdrop
  refine ⟨c, hcheckpoint, ?_⟩
  have hflushed : flushed file (started N addr config file ds).subscriber
      = if c.isEmpty then file else some (record c) := by
    unfold flushed
    rw [hcheckpoint]
  rw [hflushed]
  split
  · rename_i hempty
    rcases hcases with ⟨-, rfl⟩ | ⟨fs, f, hdelivered, hsummary⟩
    · rfl
    · -- an empty tuple after a delivery would need `2 ^ 64` of them
      exfalso
      have hpositions : ((fs ++ [f]).map Fragment.position).Pairwise (· < ·) := by
        refine List.Pairwise.sublist ?_ hinc
        rw [← hdelivered, ← Function.comp_def, ← List.map_map]
        exact (delivered_sublist _ ds).map _
      rw [List.map_append, List.map_singleton] at hpositions
      obtain ⟨hbefore, -, hlast⟩ := List.pairwise_append.mp hpositions
      have hfew := length_le_of_increasing hbefore fun q hq =>
        hlast q hq f.position (List.mem_singleton_self _)
      obtain ⟨-, hrest⟩ := Prod.mk.inj hsummary
      obtain ⟨hposition, hcount⟩ := Prod.mk.inj hrest
      simp only [CheckpointData.isEmpty, decide_eq_true_eq] at hempty
      rw [hempty.2.2, hreceived, hdelivered] at hcount
      have hzero : UInt64.ofNat (fs ++ [f]).length = 0 := (congrArg Int64.toUInt64 hcount).symm
      have hmod := congrArg UInt64.toNat hzero
      rw [UInt64.toNat_ofNat', List.length_append, List.length_singleton] at hmod
      rw [hposition.symm.trans hempty.2.1, Int64.toInt_zero, List.length_map] at hfew
      have hval : (0 : UInt64).toNat = 0 := rfl
      omega
  · rw [load_record]

/-! ## The restart -/

/-- Two subscribers that differ in statistics and in the age of the checkpoint only. -/
structure Alike (s s' : AeronSubscriber) : Prop where
  tracking : s.tracking = s'.tracking
  received : s.zc_messages_received_ = s'.zc_messages_received_
  checkpoint_ : s.checkpoint_.map summary = s'.checkpoint_.map summary

theorem Alike.counted {s s' : AeronSubscriber} (h : Alike s s') (v : Verdict)
    (sequence_number : UInt64) (position timestamp_ns : Int64) :
    Alike ((s.afterTracking v).countAndUpdate sequence_number position timestamp_ns)
      ((s'.afterTracking v).countAndUpdate sequence_number position timestamp_ns) where
  tracking := rfl
  received := congrArg (· + 1) h.received
  checkpoint_ := by
    obtain ⟨-, hreceived, hcheckpoint⟩ := h
    unfold countAndUpdate afterTracking
    dsimp only
    rw [hreceived]
    cases hs : s.checkpoint_ with
    | none =>
        cases hs' : s'.checkpoint_ with
        | none => rfl
        | some c' =>
            rw [hs, hs'] at hcheckpoint
            cases hcheckpoint
    | some c =>
        cases hs' : s'.checkpoint_ with
        | none =>
            rw [hs, hs'] at hcheckpoint
            cases hcheckpoint
        | some c' => rfl

theorem feed_alike (addr : Fin PoolSize → Pointer) (config : SubscriberConfig)
    {s' : AeronSubscriber} (h : Alike s s') (hdrop : NoDrops N ds) :
    (feed N addr config s ds).delivered = (feed N addr config s' ds).delivered ∧
      (feed N addr config s ds).gaps = (feed N addr config s' ds).gaps ∧
      Alike (feed N addr config s ds).subscriber (feed N addr config s' ds).subscriber := by
  induction ds using List.reverseRecOn with
  | nil => exact ⟨rfl, rfl, h⟩
  | append_singleton ds d ih =>
      obtain ⟨hdrops, hlast⟩ := hdrop.of_append
      obtain ⟨hpool, hroom⟩ := hlast d (List.mem_singleton_self d)
      obtain ⟨hdelivered, hgaps, htracking, hreceived, hcheckpoint⟩ := ih hdrops
      rw [feed_snoc, feed_snoc]
      cases hdup : (track config (feed N addr config s' ds).subscriber.tracking
          d.fragment.message_number).duplicate with
      | true =>
          rw [Feed.next_of_duplicate hpool (htracking ▸ hdup), Feed.next_of_duplicate hpool hdup,
            htracking, hgaps]
          exact ⟨hdelivered, rfl, rfl, hreceived, hcheckpoint⟩
      | false =>
          rw [Feed.next_of_new hpool hroom (htracking ▸ hdup), Feed.next_of_new hpool hroom hdup,
            htracking, hgaps, hdelivered]
          exact ⟨rfl, rfl, Alike.counted ⟨htracking, hreceived, hcheckpoint⟩ _ _ _ _⟩

/-- While the window is not used up, the initial value is still in the ring. -/
theorem initial_mem_ring (c : Option CheckpointData)
    (hcheck : config.duplicate_check_enabled = true)
    (hW : ds.length < config.duplicate_window_size) :
    -1 ∈ (feed N addr config (fresh config c) ds).subscriber.tracking.duplicate_buffer_ := by
  -- there are more slots than accepted messages
  have hlen : (received ds).length ≤ ds.length := by
    rw [received, List.length_map]
    exact List.length_filter_le _ _
  have hpassed := (@passed_sublist _ _ N addr config c ds).length_le
  exact (mem_ring_iff hcheck (by omega)).mpr (Or.inr ⟨rfl, by omega⟩)

variable (N addr config xs ys) in
/-- Only what the second process does is to be compared, with what the first one would do. -/
theorem continues_iff (file : Option (List UInt8)) {b : Feed} :
    Continues (started N addr config file xs) b (started N addr config file (xs ++ ys)) ↔
      b.delivered
          = (feed N addr config (started N addr config file xs).subscriber ys).delivered ∧
        b.gaps = (feed N addr config (started N addr config file xs).subscriber ys).gaps ∧
        b.subscriber.checkpoint_.map summary = (feed N addr config
          (started N addr config file xs).subscriber ys).subscriber.checkpoint_.map summary := by
  unfold started
  rw [feed_append]
  constructor
  · rintro ⟨hdelivered, hgaps, hcheckpoint⟩
    exact ⟨List.append_cancel_left hdelivered, List.append_cancel_left hgaps, hcheckpoint⟩
  · rintro ⟨hdelivered, hgaps, hcheckpoint⟩
    exact ⟨congrArg _ hdelivered, congrArg _ hgaps, hcheckpoint⟩

/-- A second process that delivers something counts from the beginning. -/
theorem not_continues_of_delivered (file file' : Option (List UInt8)) (hxs : NoDrops N xs)
    (hys : NoDrops N ys) (hfew : xs.length < 2 ^ 64)
    (hfirst : (started N addr config file xs).delivered ≠ [])
    (hsecond : (started N addr config file' ys).delivered ≠ []) :
    ¬ Continues (started N addr config file xs) (started N addr config file' ys)
      (started N addr config file (xs ++ ys)) := by
  intro h
  obtain ⟨hdelivered, -, hcheckpoint⟩ := (continues_iff N addr config xs ys file).mp h
  obtain ⟨hreceived, c, hc, -⟩ := started_counted addr config file hxs
  obtain ⟨hreceived', c', hc', hcases'⟩ := started_counted addr config file' hys
  obtain ⟨hreceived'', c'', hc'', hcases''⟩ := feed_counted addr config hys hc
  obtain ⟨-, f', -, hsummary'⟩ := hcases'.resolve_left fun h => hsecond h.1
  obtain ⟨-, f'', -, hsummary''⟩ := hcases''.resolve_left fun h => hsecond (hdelivered.trans h.1)
  -- the counts are the same, although the second process has begun at zero
  have hsummary : summary c' = summary c'' := by
    have heq : Option.map summary (some c') = Option.map summary (some c'') := by
      rw [← hc', ← hc'']
      exact hcheckpoint
    exact Option.some.inj heq
  rw [hsummary', hsummary''] at hsummary
  have hcount : (started N addr config file' ys).subscriber.zc_messages_received_
      = (feed N addr config (started N addr config file xs).subscriber
          ys).subscriber.zc_messages_received_ :=
    congrArg (fun t => Int64.toUInt64 t.2.2) hsummary
  have hzero : UInt64.ofNat (started N addr config file xs).delivered.length = 0 := by
    have hsum := hreceived'.symm.trans (hcount.trans hreceived'')
    rw [hreceived, ← hdelivered] at hsum
    exact UInt64.right_eq_add.mp hsum
  have hlen : (started N addr config file xs).delivered.length ≤ xs.length := by
    have hsublist : (started N addr config file xs).delivered.Sublist (xs.map (·.fragment)) :=
      delivered_sublist _ xs
    have hle := hsublist.length_le
    rwa [List.length_map] at hle
  have hpos := List.length_pos_iff.mpr hfirst
  -- but fewer than `2 ^ 64` deliveries do not count as none
  have hmod := congrArg UInt64.toNat hzero
  rw [UInt64.toNat_ofNat', Nat.mod_eq_of_lt (by omega)] at hmod
  exact absurd hmod hpos.ne'

section Restarted

/-! The second process finds in `file'` what the first one has left in its checkpoint. -/

variable {file file' : Option (List UInt8)} {c : CheckpointData}
  (hc : (started N addr config file xs).subscriber.checkpoint_ = some c)
  (hreload : summary (load file' .zero) = summary c)

include hc hreload

/-- Nothing has happened before the restart. -/
theorem continues_of_silent_first (hsilent : Silent config xs) (hxs : NoDrops N xs)
    (hys : NoDrops N ys) (hW : xs.length ≤ config.duplicate_window_size) :
    Continues (started N addr config file xs) (started N addr config file' ys)
      (started N addr config file (xs ++ ys)) := by
  rw [continues_iff N addr config xs ys file]
  obtain ⟨hdelivered, htracking, -, -⟩ :=
    feed_fresh_silent addr (some (load file .zero)) hsilent hxs hW
  have hreceived := (started_counted addr config file hxs).1
  rw [show (started N addr config file xs).delivered = [] from hdelivered] at hreceived
  have halike : Alike (fresh config (some (load file' .zero)))
      (started N addr config file xs).subscriber := by
    refine ⟨htracking.symm, hreceived.symm, ?_⟩
    rw [hc]
    exact congrArg some hreload
  obtain ⟨hdelivered, hgaps, -, -, hcheckpoint⟩ := feed_alike addr config halike hys
  exact ⟨hdelivered, hgaps, hcheckpoint⟩

/-- Nothing happens after the restart. -/
theorem continues_of_nil :
    Continues (started N addr config file xs) (started N addr config file' [])
      (started N addr config file (xs ++ [])) := by
  rw [continues_iff N addr config xs [] file]
  refine ⟨rfl, rfl, ?_⟩
  show some (summary (load file' .zero)) = _
  rw [hreload]
  exact (congrArg (Option.map summary) hc).symm

/-- Only messages without effect come after the restart. -/
theorem continues_of_silent_second (hsilent : Silent config ys) (hys : NoDrops N ys)
    (hW : xs.length + ys.length ≤ config.duplicate_window_size)
    (hgap : (detectGap config (started N addr config file xs).subscriber.tracking (-1)).1
      = none) :
    Continues (started N addr config file xs) (started N addr config file' ys)
      (started N addr config file (xs ++ ys)) := by
  cases ys with
  | nil => exact continues_of_nil hc hreload
  | cons y ys =>
      rw [continues_iff N addr config xs (y :: ys) file]
      rw [List.length_cons] at hW
      have hb := feed_fresh_silent addr (some (load file' .zero)) hsilent hys
        (by rw [List.length_cons]; omega)
      have hring : -1 ∈ (started N addr config file xs).subscriber.tracking.duplicate_buffer_ :=
        initial_mem_ring _ (hsilent y List.mem_cons_self).1 (by omega)
      have hv := feed_silent addr hsilent hys hring
      refine ⟨hb.1.trans hv.1.symm, ?_, ?_⟩
      · rw [hv.2.2.2, hgap]
        exact hb.2.2.2.trans (by simp)
      · rw [hv.2.2.1, hc]
        show Option.map summary (feed N addr config _ _).subscriber.checkpoint_ = _
        rw [hb.2.2.1]
        exact congrArg some hreload

end Restarted

/-- If both parts have something to say, one process does not do what the two do. -/
theorem silent_of_continues {file file' : Option (List UInt8)} (hxs : NoDrops N xs)
    (hys : NoDrops N ys) (hfew : xs.length < 2 ^ 64) (hnil : ys ≠ [])
    (hW : xs.length + ys.length ≤ config.duplicate_window_size)
    (h : Continues (started N addr config file xs) (started N addr config file' ys)
      (started N addr config file (xs ++ ys))) :
    Silent config xs ∨ Silent config ys ∧
      (detectGap config (started N addr config file xs).subscriber.tracking (-1)).1 = none := by
  by_cases hsilent : Silent config xs
  · exact Or.inl hsilent
  obtain ⟨y, hy⟩ := List.exists_mem_of_ne_nil ys hnil
  have hlen := List.length_pos_iff.mpr hnil
  have hsecond : (started N addr config file' ys).delivered = [] := by
    by_contra hsecond
    refine not_continues_of_delivered file file' hxs hys hfew (fun hfirst => ?_) hsecond h
    exact hsilent (silent_of_delivered_nil _ hxs (by omega) hfirst)
  have hquiet : Silent config ys := silent_of_delivered_nil _ hys (by omega) hsecond
  refine Or.inr ⟨hquiet, ?_⟩
  -- the second process reports no gap, the first one would report one for each message
  have hring : -1 ∈ (started N addr config file xs).subscriber.tracking.duplicate_buffer_ :=
    initial_mem_ring _ (hquiet y hy).1 (by omega)
  obtain ⟨-, -, -, hgaps⟩ := feed_silent addr hquiet hys hring
  have hnone : (started N addr config file' ys).gaps = [] :=
    (feed_fresh_silent addr _ hquiet hys (by omega)).2.2.2
  have hsame := ((continues_iff N addr config xs ys file).mp h).2.1
  obtain ⟨k, hk⟩ : ∃ k, ys.length = k + 1 := ⟨ys.length - 1, by omega⟩
  rw [hnone, hgaps, hk, List.replicate_succ, List.flatten_cons] at hsame
  exact Option.toList_eq_nil_iff.mp (List.append_eq_nil_iff.mp hsame.symm).1

/-- **A restart goes unnoticed exactly when there is nothing to continue**: on a stream without
drops and with increasing positions, shorter than the window, the two processes do what one
process does if and only if the first part or the second part has no message that a new
subscriber accepts, where in the latter case the first part must not make the second report a
gap. -/
theorem restart_continues_iff (file : Option (List UInt8)) (hdrop : NoDrops N (xs ++ ys))
    (hinc : ((xs ++ ys).map (·.fragment.position)).Pairwise (· < ·))
    (hW : (xs ++ ys).length ≤ config.duplicate_window_size) :
    Continues (started N addr config file xs)
      (started N addr config (flushed file (started N addr config file xs).subscriber) ys)
      (started N addr config file (xs ++ ys)) ↔
    (Silent config xs ∨ ys = [] ∨ (Silent config ys ∧
      (detectGap config (started N addr config file xs).subscriber.tracking (-1)).1 = none)) := by
  obtain ⟨hxs, hys⟩ := hdrop.of_append
  rw [List.length_append] at hW
  obtain ⟨hbefore, -, hafter⟩ := List.pairwise_append.mp (List.map_append ▸ hinc)
  obtain ⟨c, hc, hreload⟩ := reload addr config file hxs hbefore
  constructor
  · intro h
    by_cases hnil : ys = []
    · exact Or.inr (Or.inl hnil)
    obtain ⟨y, hy⟩ := List.exists_mem_of_ne_nil ys hnil
    -- there are not enough positions for a longer first part
    have hfew : xs.length < 2 ^ 64 := by
      have hcount := length_le_of_increasing hbefore fun q hq =>
        hafter q hq y.fragment.position (List.mem_map_of_mem hy)
      have hbound := y.fragment.position.toInt_lt
      rw [List.length_map] at hcount
      omega
    exact (silent_of_continues hxs hys hfew hnil hW h).imp_right Or.inr
  · rintro (hsilent | rfl | ⟨hsilent, hgap⟩)
    · exact continues_of_silent_first hc hreload hsilent hxs hys (by omega)
    · exact continues_of_nil hc hreload
    · exact continues_of_silent_second hc hreload hsilent hys hW hgap

/-- After message 1 the second process is given a message with the largest number, which both drop,
or message 2, which the second counts as its first. -/
theorem restart_continues_iff_silent :
    Continues (started overloadSize Fin.val { duplicate_window_size := 2 } none [arriving 1])
      (started overloadSize Fin.val { duplicate_window_size := 2 }
        (flushed none (started overloadSize Fin.val { duplicate_window_size := 2 } none
          [arriving 1]).subscriber) [arriving 18446744073709551615 128])
      (started overloadSize Fin.val { duplicate_window_size := 2 } none
        ([arriving 1] ++ [arriving 18446744073709551615 128])) ∧
    ¬ Continues (started overloadSize Fin.val { duplicate_window_size := 2 } none [arriving 1])
      (started overloadSize Fin.val { duplicate_window_size := 2 }
        (flushed none (started overloadSize Fin.val { duplicate_window_size := 2 } none
          [arriving 1]).subscriber) [arriving 2 128])
      (started overloadSize Fin.val { duplicate_window_size := 2 } none
        ([arriving 1] ++ [arriving 2 128])) := by
  have hroom : ∀ n p, NoDrops overloadSize [arriving n p] := fun n p =>
    List.forall_mem_singleton.mpr ⟨Nat.zero_lt_succ 1023,
      show RingQueue.full overloadSize (arriving 1).message_queue_ = false by decide⟩
  have hdrop : ∀ n, NoDrops overloadSize ([arriving 1] ++ [arriving n 128]) := fun n =>
    List.forall_mem_append.mpr ⟨hroom 1 64, hroom n 128⟩
  constructor
  · refine (restart_continues_iff none (hdrop _) (List.pairwise_pair.mpr (by decide))
      (by decide)).mpr (Or.inr (Or.inr ⟨?_, by decide⟩))
    exact List.forall_mem_singleton.mpr ⟨rfl, by decide⟩
  · intro h
    have hcases := (restart_continues_iff none (hdrop _) (List.pairwise_pair.mpr (by decide))
      (by decide)).mp h
    rcases hcases with hsilent | hnil | ⟨hsilent, -⟩
    · exact absurd (hsilent _ (List.mem_singleton_self _)).2 (by decide)
    · exact List.cons_ne_nil _ _ hnil
    · exact absurd (hsilent _ (List.mem_singleton_self _)).2 (by decide)

/-- Message 1 is delivered, checkpointed and, after the restart, delivered again. -/
theorem restart_repeats_message :
    ¬ Continues (started overloadSize Fin.val { duplicate_window_size := 2 } none [arriving 1])
      (started overloadSize Fin.val { duplicate_window_size := 2 }
        (flushed none (started overloadSize Fin.val { duplicate_window_size := 2 } none
          [arriving 1]).subscriber) [arriving 1 128])
      (started overloadSize Fin.val { duplicate_window_size := 2 } none
        ([arriving 1] ++ [arriving 1 128])) := by
  intro h
  have hdelivered := congrArg List.length h.delivered
  revert hdelivered
  decide

end AeronReplay.AeronSubscriber
