import AeronReplay.System.Custody

set_option autoImplicit false

/-! # The checkpoint and the work

The subscriber thread advances the checkpoint to a message when it has enqueued it; the worker
processes the message later, and a fragment without a buffer is never processed at all. As long
as the position is only stored when the worker has caught up (`CaughtUp`), no position in memory
or in the file covers a message that is not settled (`checkpoint_behind_processing`); otherwise
it can (`checkpoint_ahead_of_processing`). -/

namespace AeronReplay.System

open Transition CheckpointManager

variable {PoolSize : Nat} {N : Ring.Size} {config : Config} {d₀ : CheckpointData}
  {es e : List (Event PoolSize)} {s t : State PoolSize} {l : List (Fin PoolSize)}

/-- The fragment has been processed, or rejected as invalid or as a duplicate. -/
def SettledFragment (es : List (Event PoolSize)) (f : Fragment) : Prop :=
  .processed f ∈ es ∨ .invalid f ∈ es ∨ .workerDuplicate f ∈ es ∨ .subscriberDuplicate f ∈ es

theorem SettledFragment.append {f : Fragment} (h : SettledFragment es f) :
    SettledFragment (es ++ e) f := by
  unfold SettledFragment at h ⊢
  simp only [List.mem_append]
  tauto

theorem settled_of_judged {f : Fragment} (h : f ∈ judgements es) : SettledFragment es f := by
  obtain ⟨x, hx, hf⟩ := List.mem_filterMap.mp h
  cases x with
  | invalid g =>
      cases hf
      exact .inr (.inl hx)
  | workerDuplicate g =>
      cases hf
      exact .inr (.inr (.inl hx))
  | processed g =>
      cases hf
      exact .inl hx
  | _ => cases hf

/-! ## No fragment disappears -/

/-- The fragment that the fast path is working on and has neither dropped nor enqueued. -/
def FastPathPc.inHand : FastPathPc PoolSize → List Fragment
  | .allocated f _ _ => [f]
  | .tracked f _ => [f]
  | _ => []

/-- The fragment whose position goes into the checkpoint next. -/
def FastPathPc.counted : FastPathPc PoolSize → List Fragment
  | .enqueued f _ => [f]
  | _ => []

/-- Where a fragment that has arrived can be. -/
def Accounted (es : List (Event PoolSize)) (s : State PoolSize) (f : Fragment) : Prop :=
  SettledFragment es f ∨ .allocationFailed f ∈ es ∨ .queueFull f ∈ es ∨
    f ∈ s.fastPath.inHand ∨ f ∈ acceptances es

/-- What holds of the fragments of a run. -/
structure Tracked (es : List (Event PoolSize)) (s : State PoolSize) : Prop where
  accounted : ∀ f ∈ arrivals es, Accounted es s f
  inHand : ∀ f ∈ s.fastPath.inHand ++ s.fastPath.counted, f ∈ arrivals es
  updating : ∀ args i, s.checkpoint.updater = .storing args i → s.fastPath = .updating

theorem Accounted.append {f : Fragment} (h : Accounted es s f)
    (hhand : f ∈ s.fastPath.inHand → f ∈ t.fastPath.inHand ∨ SettledFragment (es ++ e) f ∨
      .queueFull f ∈ e ∨ f ∈ acceptances e) : Accounted (es ++ e) t f := by
  rcases h with h | h | h | h | h
  · exact .inl h.append
  · exact .inr (.inl (List.mem_append_left _ h))
  · exact .inr (.inr (.inl (List.mem_append_left _ h)))
  · rcases hhand h with h | h | h | h
    · exact .inr (.inr (.inr (.inl h)))
    · exact .inl h
    · exact .inr (.inr (.inl (List.mem_append_right _ h)))
    · refine .inr (.inr (.inr (.inr ?_)))
      rw [acceptances_append]
      exact List.mem_append_right _ h
  · refine .inr (.inr (.inr (.inr ?_)))
    rw [acceptances_append]
    exact List.mem_append_left _ h

/-- A step in which nothing arrives. -/
theorem Tracked.append (h : Tracked es s) (harrived : arrivals e = [])
    (hhand : ∀ f ∈ s.fastPath.inHand, f ∈ t.fastPath.inHand ∨ SettledFragment (es ++ e) f ∨
      .queueFull f ∈ e ∨ f ∈ acceptances e)
    (hfast : ∀ f ∈ t.fastPath.inHand ++ t.fastPath.counted,
      f ∈ s.fastPath.inHand ++ s.fastPath.counted)
    (hupdating : ∀ args i, t.checkpoint.updater = .storing args i → t.fastPath = .updating) :
    Tracked (es ++ e) t := by
  refine ⟨fun f hf => ?_, fun f hf => ?_, hupdating⟩
  · rw [arrivals_append, harrived, List.append_nil] at hf
    exact (h.accounted f hf).append (hhand f)
  · rw [arrivals_append, harrived, List.append_nil]
    exact h.inHand f (hfast f hf)

/-- A step of the subscriber in which it takes no fragment into its hands. -/
theorem Tracked.fastPath (h : Tracked es s) (harrived : arrivals e = [])
    (hpc : s.fastPath ≠ .updating) (hcheckpoint : t.checkpoint = s.checkpoint)
    (hhand : ∀ f ∈ s.fastPath.inHand, f ∈ t.fastPath.inHand ∨ SettledFragment (es ++ e) f ∨
      .queueFull f ∈ e ∨ f ∈ acceptances e)
    (hfast : ∀ f ∈ t.fastPath.inHand ++ t.fastPath.counted,
      f ∈ s.fastPath.inHand ++ s.fastPath.counted) : Tracked (es ++ e) t :=
  h.append harrived hhand hfast fun args i hu =>
    absurd (h.updating args i (hcheckpoint ▸ hu)) hpc

theorem Tracked.subscriberStep (h : Tracked es s) (hstep : SubscriberStep N config s e t) :
    Tracked (es ++ e) t := by
  cases hstep with
  | arrive f recv hpc halloc =>
      refine ⟨fun g hg => ?_, fun g hg => ?_, fun args i hu => ?_⟩
      · rw [arrivals_append] at hg
        rcases List.mem_append.mp hg with hg | hg
        · refine (h.accounted g hg).append fun hhand => ?_
          rw [hpc] at hhand
          cases hhand
        · exact .inr (.inr (.inr (.inl hg)))
      · rw [arrivals_append]
        obtain rfl : g = f := by simpa [FastPathPc.inHand, FastPathPc.counted] using hg
        exact List.mem_append_right _ (List.mem_singleton_self g)
      · cases hpc.symm.trans (h.updating args i hu)
  | allocationFails f hpc halloc =>
      have hnone : s.fastPath.inHand ++ s.fastPath.counted = [] := by
        rw [hpc]
        rfl
      refine ⟨fun g hg => ?_, fun g hg => ?_, h.updating⟩
      · rw [arrivals_append] at hg
        rcases List.mem_append.mp hg with hg | hg
        · refine (h.accounted g hg).append fun hhand => ?_
          rw [hpc] at hhand
          cases hhand
        · obtain rfl := List.mem_singleton.mp hg
          exact .inr (.inl (by simp))
      · rw [hnone] at hg
        cases hg
  | @trackDuplicate f recv b m v hpc hb hv hdup =>
      refine h.fastPath ?_ (by simp [hpc]) rfl (fun g hg => ?_) (fun g hg => by cases hg)
      · refine filterMap_eq_nil (List.forall_mem_append.mpr ⟨forall_gaps (fun _ => rfl) _, ?_⟩)
        simp [Event.arrived?]
      · rw [hpc] at hg
        obtain rfl := List.mem_singleton.mp hg
        exact .inr (.inl (.inr (.inr (.inr (by simp)))))
  | @track f recv b m v hpc hb hv hdup =>
      refine h.fastPath (filterMap_eq_nil (forall_gaps (fun _ => rfl) _)) (by simp [hpc]) rfl
        (fun g hg => .inl ?_) (fun g hg => ?_)
      · rw [hpc] at hg
        exact hg
      · rw [hpc]
        exact hg
  | dropDuplicate hpc | dropRefused hpc =>
      refine h.fastPath (filterMap_eq_nil (forall_overflow (by rfl) _)) (by simp [hpc]) rfl
        (fun g hg => ?_) (fun g hg => by cases hg)
      rw [hpc] at hg
      cases hg
  | @enqueue f b q hpc henq =>
      refine h.fastPath rfl (by simp [hpc]) rfl (fun g hg => ?_) (fun g hg => ?_)
      · rw [hpc] at hg
        exact .inr (.inr (.inr hg))
      · rw [hpc]
        exact hg
  | @enqueueFails f b q hpc henq =>
      refine h.fastPath rfl (by simp [hpc]) rfl (fun g hg => ?_) (fun g hg => by cases hg)
      rw [hpc] at hg
      obtain rfl := List.mem_singleton.mp hg
      exact .inr (.inr (.inl (List.mem_singleton_self _)))
  | count hpc hoff | exit hpc hstop =>
      refine h.fastPath rfl (by simp [hpc]) rfl (fun g hg => ?_) (fun g hg => by cases hg)
      rw [hpc] at hg
      cases hg
  | countAndUpdate _ hpc hon hidle =>
      refine h.append rfl (fun g hg => ?_) (fun g hg => by cases hg) fun _ _ _ => rfl
      rw [hpc] at hg
      cases hg
  | updated hpc hidle =>
      refine h.append rfl (fun g hg => ?_) (fun g hg => by cases hg) fun args i hu => ?_
      · rw [hpc] at hg
        cases hg
      · cases hidle.symm.trans hu

/-- A step of another thread. -/
theorem Tracked.other (h : Tracked es s) (harrived : arrivals e = [])
    (hfast : t.fastPath = s.fastPath)
    (hupdating : ∀ args i, t.checkpoint.updater = .storing args i →
      ∃ args' i', s.checkpoint.updater = .storing args' i') : Tracked (es ++ e) t := by
  refine h.append harrived (fun f hf => .inl (hfast ▸ hf)) (fun f hf => hfast ▸ hf)
    fun args i hu => ?_
  obtain ⟨args', i', hu'⟩ := hupdating args i hu
  exact hfast.trans (h.updating args' i' hu')

theorem Tracked.step (h : Tracked es s) (hstep : Step N config s e t) : Tracked (es ++ e) t := by
  cases hstep with
  | subscriber hstep => exact h.subscriberStep hstep
  | worker hstep =>
      cases hstep with
      | returnRejected | returnProcessed =>
          exact h.other (filterMap_eq_nil (forall_overflow (by rfl) _)) rfl fun _ _ hu => ⟨_, _, hu⟩
      | _ => exact h.other rfl rfl fun _ _ hu => ⟨_, _, hu⟩
  | main hstep =>
      cases hstep with
      | _ => exact h.other rfl rfl fun _ _ hu => ⟨_, _, hu⟩
  | checkpoint hstep =>
      refine h.other (filterMap_eq_nil (by simp [Event.arrived?])) rfl fun args i hu => ?_
      cases hstep with
      | store hu' => exact ⟨_, _, hu'⟩
      | updated => cases hu
      | flush | load | skip | persist | fail => exact ⟨_, _, hu⟩

theorem tracked_init (h : Initial config d₀ s) : Tracked [] s := by
  refine ⟨fun f hf => absurd hf List.not_mem_nil, fun f hf => ?_, fun args i hu => ?_⟩
  · rw [h.fastPath] at hf
    cases hf
  · rw [h.checkpoint] at hu
    cases hu

/-! ## Positions -/

/-- The fragments arrive in the order of their positions, all of them past the position that
has been loaded. -/
def Increasing (d₀ : CheckpointData) : Guard (State PoolSize) (Event PoolSize) :=
  fun es _ e _ => ∀ f, .arrived f ∈ e →
    d₀.last_position < f.position ∧ ∀ g ∈ arrivals es, g.position < f.position

-- the fields of a checkpoint are numbered from 0 to 3
local instance neZero_four : NeZero 4 := ⟨by decide⟩

/-- **The worker has caught up whenever the position is stored**: nothing is queued, nothing is
dequeued and not yet judged, and no fragment has been dropped for lack of a buffer. -/
def CaughtUp : Guard (State PoolSize) (Event PoolSize) := fun es s e _ =>
  ∀ args, .checkpoint (.store args 1) ∈ e →
    s.queue.head_ = s.queue.tail_ ∧ s.worker.unjudged = [] ∧ ∀ f, .allocationFailed f ∉ es

/-- The position is the loaded one or that of a fragment of this run. -/
def Known (d₀ : CheckpointData) (es : List (Event PoolSize)) (position : Int64) : Prop :=
  position = d₀.last_position ∨ ∃ f ∈ arrivals es, f.position = position

theorem Known.append {position : Int64} (h : Known d₀ es position) :
    Known d₀ (es ++ e) position := by
  refine h.imp_right fun ⟨f, hf, hposition⟩ => ⟨f, ?_, hposition⟩
  rw [arrivals_append]
  exact List.mem_append_left _ hf

/-- A known position, and whatever has arrived up to there is settled. -/
structure Covered (d₀ : CheckpointData) (es : List (Event PoolSize)) (position : Int64) :
    Prop where
  known : Known d₀ es position
  settled : ∀ f ∈ arrivals es, f.position ≤ position → SettledFragment es f

theorem Covered.append {position : Int64} (h : Covered d₀ es position)
    (hincreasing : Increasing d₀ es s e t) : Covered d₀ (es ++ e) position := by
  refine ⟨h.known.append, fun f hf hle => ?_⟩
  rw [arrivals_append] at hf
  rcases List.mem_append.mp hf with hf | hf
  · exact (h.settled f hf hle).append
  · obtain ⟨x, hx, hxf⟩ := List.mem_filterMap.mp hf
    have harrived : .arrived f ∈ e := by
      cases x with
      | arrived g =>
          cases hxf
          exact hx
      | _ => cases hxf
    -- what arrives now lies past every known position
    obtain ⟨hloaded, hearlier⟩ := hincreasing f harrived
    rcases h.known with rfl | ⟨g, hg, rfl⟩
    · exact absurd hle (Int64.not_le.mpr hloaded)
    · exact absurd hle (Int64.not_le.mpr (hearlier g hg))

/-- Every position in memory, on its way to the file or in the file is covered. -/
structure Behind (d₀ : CheckpointData) (es : List (Event PoolSize)) (c : Snapshot) : Prop where
  data : Covered d₀ es c.data_.last_position
  args : ∀ args i, c.updater = .storing args i → Known d₀ es args.last_position
  words : ∀ words n, c.flusher = .loading words n → 2 ≤ n → Covered d₀ es words.last_position
  persisted : ∀ d, c.persisted = some d → Covered d₀ es d.last_position

theorem Behind.append {c : Snapshot} (h : Behind d₀ es c)
    (hincreasing : Increasing d₀ es s e t) : Behind d₀ (es ++ e) c :=
  ⟨h.data.append hincreasing, fun args i hu => (h.args args i hu).append,
    fun words n hf hn => (h.words words n hf hn).append hincreasing,
    fun d hd => (h.persisted d hd).append hincreasing⟩

/-- When the worker has caught up, everything that has arrived is settled. -/
theorem settled_of_caughtUp (htracked : Tracked es s) (hcustody : InCustody N es s l)
    (hupdating : s.fastPath = .updating) (hempty : s.queue.head_ = s.queue.tail_)
    (hworker : s.worker.unjudged = []) (hpool : ∀ f, .allocationFailed f ∉ es) {f : Fragment}
    (hf : f ∈ arrivals es) : SettledFragment es f := by
  obtain rfl : l = [] := List.map_eq_nil_iff.mp (hcustody.custody.stores.empty_iff.mp hempty)
  -- a fragment is settled, or dropped, or in somebody's hands, which the hypotheses exclude
  rcases htracked.accounted f hf with h | h | h | h | h
  · exact h
  · exact absurd h (hpool f)
  · cases hcustody.noFailure _ h
  · rw [hupdating] at h
    cases h
  · rw [hcustody.judged, waiting, hworker, List.append_nil, List.map_nil, List.append_nil] at h
    exact settled_of_judged h

theorem Behind.access {c c' : Snapshot} {e : List SnapshotEvent} (h : Behind d₀ es c)
    (hstep : Access c e c')
    (hstore : ∀ args, .store args 1 ∈ e → c.updater = .storing args 1 →
      Covered d₀ es args.last_position) : Behind d₀ es c' := by
  cases hstep with
  | @store args i hu =>
      refine ⟨?_, fun args' i' hu' => ?_, h.words, h.persisted⟩
      · -- word 1 is the position
        by_cases hi : i = 1
        · subst hi
          exact hstore args (List.mem_singleton_self _) hu
        · have hsame : (c.data_.set i (args.get i)).last_position = c.data_.last_position :=
            CheckpointData.get_set_of_ne c.data_ (Ne.symm hi) _
          rw [hsame]
          exact h.data
      · cases hu'
        exact h.args args _ hu
  | updated hu => exact ⟨h.data, fun _ _ hu' => (by cases hu'), h.words, h.persisted⟩
  | flush hf =>
      refine ⟨h.data, h.args, fun words n hf' hn => ?_, h.persisted⟩
      cases hf'
      omega
  | @load words i hf =>
      refine ⟨h.data, h.args, fun words' n hf' hn => ?_, h.persisted⟩
      cases hf'
      by_cases hi : i = 1
      · subst hi
        exact h.data
      · have hsame : (words.set i (c.data_.get i)).last_position = words.last_position :=
          CheckpointData.get_set_of_ne words (Ne.symm hi) _
        rw [hsame]
        refine h.words words i.val hf ?_
        have hi' : i.val ≠ 1 := fun h => hi (Fin.ext h)
        omega
  | skip hf he => exact ⟨h.data, h.args, fun _ _ hf' => (by cases hf'), h.persisted⟩
  | @persist words hf he =>
      refine ⟨h.data, h.args, fun _ _ hf' => (by cases hf'), fun d hd => ?_⟩
      cases hd
      exact h.words words 4 hf (by omega)
  | fail hf he => exact ⟨h.data, h.args, fun _ _ hf' => (by cases hf'), h.persisted⟩

theorem Behind.step (h : Behind d₀ es s.checkpoint) (htracked : Tracked es s)
    (hcustody : InCustody N es s l) (hstep : Step N config s e t)
    (hincreasing : Increasing d₀ es s e t) (hcaughtUp : CaughtUp es s e t) :
    Behind d₀ (es ++ e) t.checkpoint := by
  have hkept := h.append hincreasing
  cases hstep with
  | subscriber hstep =>
      cases hstep with
      | @countAndUpdate f b now hpc hon hidle =>
          refine ⟨hkept.data, fun args i hu => ?_, hkept.words, hkept.persisted⟩
          cases hu
          have harrived : f ∈ arrivals es := htracked.inHand f (by simp [hpc, FastPathPc.counted])
          exact Known.append (.inr ⟨f, harrived, rfl⟩)
      | _ => exact hkept
  | worker hstep => cases hstep <;> exact hkept
  | main hstep => cases hstep <;> exact hkept
  | @checkpoint e' c hstep =>
      have hstore : ∀ args, .store args 1 ∈ e' → s.checkpoint.updater = .storing args 1 →
          Covered d₀ es args.last_position := fun args hmem hu => by
        obtain ⟨hempty, hworker, hpool⟩ := hcaughtUp args (List.mem_map_of_mem hmem)
        exact ⟨h.args args 1 hu, fun f hf _ => settled_of_caughtUp htracked hcustody
          (htracked.updating args 1 hu) hempty hworker hpool hf⟩
      exact (h.access hstep hstore).append hincreasing

theorem behind_init (h : Initial config d₀ s) :
    Behind d₀ ([] : List (Event PoolSize)) s.checkpoint := by
  rw [h.checkpoint]
  refine ⟨⟨.inl rfl, fun f hf => absurd hf List.not_mem_nil⟩, fun args i hu => ?_,
    fun words n hf => ?_, fun d hd => ?_⟩
  · cases hu
  · cases hf
  · cases hd

theorem behind_run (hsize : PoolSize < N.val)
    (r : RunWhere (system PoolSize N config d₀)
      (fun es s e t => Increasing d₀ es s e t ∧ CaughtUp es s e t) es s) :
    Behind d₀ es s.checkpoint := by
  refine (RunWhere.invariant (I := fun es s => (∃ l, InCustody N es s l) ∧ Tracked es s ∧
    Behind d₀ es s.checkpoint) ?_ ?_ r).2.2
  · intro s h
    exact ⟨custody_run hsize (.init h), tracked_init h, behind_init h⟩
  · rintro es s e t ⟨⟨l, hl⟩, htracked, hbehind⟩ hstep ⟨hincreasing, hcaughtUp⟩
    obtain ⟨l', hnext⟩ := hl.custody.step hsize hstep
    exact ⟨⟨l', hl.step hnext⟩, htracked.step hstep,
      hbehind.step htracked hl hstep hincreasing hcaughtUp⟩

/-- **The checkpoint stays behind the work as long as the position is only stored when the
worker has caught up**: what has arrived up to the position in memory, or up to the position in
the file, has been processed or rejected. -/
theorem checkpoint_behind_processing {es : List (Event poolSize)} {s : State poolSize}
    (r : RunWhere (subscriberProcess config d₀)
      (fun es s e t => Increasing d₀ es s e t ∧ CaughtUp es s e t) es s) :
    (∀ f ∈ arrivals es, f.position ≤ s.checkpoint.data_.last_position → SettledFragment es f) ∧
    ∀ d, s.checkpoint.persisted = some d →
      ∀ f ∈ arrivals es, f.position ≤ d.last_position → SettledFragment es f :=
  ⟨(behind_run poolSize_lt r).data.settled,
    fun d hd => ((behind_run poolSize_lt r).persisted d hd).settled⟩

/-- Neither an arrival nor a store of the position. -/
def Event.unguarded : Event PoolSize → Bool
  | .arrived _ => false
  | .checkpoint (.store _ i) => decide (i ≠ 1)
  | _ => true

theorem guard_of_unguarded (he : ∀ x ∈ e, x.unguarded = true) :
    Increasing d₀ es s e t ∧ CaughtUp es s e t := by
  refine ⟨fun f hf => ?_, fun args hf => ?_⟩
  · cases he _ hf
  · cases he _ hf

set_option maxRecDepth 20000 in
/-- A message is processed before its position is stored. -/
theorem checkpoint_behind_processing_one : ∃ es s,
    RunWhere (subscriberProcess {} .zero)
      (fun es s e t => Increasing .zero es s e t ∧ CaughtUp es s e t) es s ∧
    arrivals es = [⟨[], 64⟩] ∧ s.checkpoint.data_.last_position = 64 ∧
    (∀ f ∈ arrivals es, f.position ≤ s.checkpoint.data_.last_position → SettledFragment es f) ∧
    ∀ d, s.checkpoint.persisted = some d →
      ∀ f ∈ arrivals es, f.position ≤ d.last_position → SettledFragment es f := by
  have r₀ : RunWhere (subscriberProcess {} .zero)
      (fun es s e t => Increasing .zero es s e t ∧ CaughtUp es s e t) [] _ :=
    .init (State.start_init {} .zero)
  have r₁ := r₀.step (.subscriber first_arrives)
    ⟨fun f hf => by
      cases List.mem_singleton.mp hf
      exact ⟨by decide, fun g hg => absurd hg List.not_mem_nil⟩, fun args hf => by simp at hf⟩
  have r₂ := r₁.step (.subscriber first_copied) (guard_of_unguarded (by simp))
  have r₃ := r₂.step (.subscriber first_queued) (guard_of_unguarded (by simp [Event.unguarded]))
  have r₄ := r₃.step (.worker (.testRunning rfl rfl)) (guard_of_unguarded (by simp))
  have r₅ := r₄.step (.worker (.dequeue 0 rfl rfl)) (guard_of_unguarded (by simp [Event.unguarded]))
  have r₆ := r₅.step (.worker (.process rfl rfl rfl))
    (guard_of_unguarded (by simp [Event.unguarded]))
  have r₇ := r₆.step (.subscriber (.countAndUpdate 9 rfl rfl rfl)) (guard_of_unguarded (by simp))
  have r₈ := r₇.step (.checkpoint (@Access.store _ _ 0 rfl))
    (guard_of_unguarded (by simp [Event.unguarded]))
  have r₉ := r₈.step (.checkpoint (@Access.store _ _ 1 rfl))
    ⟨fun f hf => by simp at hf, fun args _ => ⟨rfl, rfl, by simp⟩⟩
  exact ⟨_, _, r₉, rfl, rfl, checkpoint_behind_processing r₉⟩

set_option maxRecDepth 20000 in
/-- `update` and `flush` run before the worker has dequeued anything. -/
theorem exists_flushed_ahead : ∃ es s d, Run (subscriberProcess {} .zero) es s ∧
    arrivals es = [⟨[], 64⟩] ∧ s.checkpoint.persisted = some d ∧ d.last_position = 64 ∧
    s.checkpoint.data_.last_position = 64 ∧ ¬ SettledFragment es ⟨[], 64⟩ := by
  have r₁ := firstQueued_run.step (.subscriber (.countAndUpdate 9 rfl rfl rfl))
  have r₂ := r₁.step (.checkpoint (@Access.store _ _ 0 rfl))
  have r₃ := r₂.step (.checkpoint (@Access.store _ _ 1 rfl))
  have r₄ := r₃.step (.checkpoint (@Access.store _ _ 2 rfl))
  have r₅ := r₄.step (.checkpoint (@Access.store _ _ 3 rfl))
  have r₆ := r₅.step (.checkpoint (.flush rfl))
  have r₇ := r₆.step (.checkpoint (@Access.load _ _ 0 rfl))
  have r₈ := r₇.step (.checkpoint (@Access.load _ _ 1 rfl))
  have r₉ := r₈.step (.checkpoint (@Access.load _ _ 2 rfl))
  have r₁₀ := r₉.step (.checkpoint (@Access.load _ _ 3 rfl))
  have r₁₁ := r₁₀.step (.checkpoint (.persist rfl rfl))
  exact ⟨_, _, _, r₁₁, rfl, rfl, rfl, rfl, by simp [SettledFragment]⟩

/-- The position of a message that waits in the queue is written to the file. -/
theorem checkpoint_ahead_of_processing : ∃ es s d, Run (subscriberProcess {} .zero) es s ∧
    arrivals es = [⟨[], 64⟩] ∧ s.checkpoint.persisted = some d ∧ d.last_position = 64 ∧
    s.checkpoint.data_.last_position = 64 ∧ ¬ SettledFragment es ⟨[], 64⟩ := exists_flushed_ahead

end AeronReplay.System
