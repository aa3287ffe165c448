import AeronReplay.Lib.Transition

set_option autoImplicit false

/-! # Releasing the Aeron objects

`AeronSubscriber::shutdown` runs on the main thread. It clears `running_` and resets
`replay_merge_`, `subscription_`, `archive_` and `aeron_`; `main` joins the subscriber thread
only afterwards. `AeronSubscriber::run` on the subscriber thread tests a pointer and then calls
through it, several times in an iteration of its loop. A step of the model is one test, one
call, one return or one reset.

* `needed_not_reset` : no object is called after its reset if no reset falls between a test and
  the last use that relies on it.
* `poll_after_reset` : a run in which the subscription is polled after its reset.
* `reset_while_needed` : a reset at any such moment is followed by a use of what was reset.
* `join_first` : joining the thread before the resets, as `MessageWorker::stop` does for the
  worker, would exclude all of them. -/

namespace AeronReplay.Release

open Transition

/-! ## The two threads -/

/-- The pointers that `shutdown` resets. -/
inductive Member where
  | replay_merge_
  | subscription_
  | archive_
  | aeron_
  deriving DecidableEq, Repr

/-- The object that an iteration of `run` polls. -/
inductive Polled where
  | replay_merge_
  | subscription_
  deriving DecidableEq, Repr

def Polled.member : Polled → Member
  | .replay_merge_ => .replay_merge_
  | .subscription_ => .subscription_

/-- What the subscriber thread does next. -/
inductive RunPc where
  /-- `if (!subscription_ && !replay_merge_)`, its first test -/
  | entry
  | entryReplayMerge
  /-- `while (running_)` -/
  | loop
  /-- `if (replay_merge_)` -/
  | testReplayMerge
  /-- `else if (subscription_)` -/
  | testSubscription
  | poll (p : Polled)
  /-- Inside `poll`, which calls the fragment handler for each fragment. -/
  | polling (p : Polled)
  /-- The handler is in `triggerImmediateGapRecovery`: `if (!archive_)`. -/
  | testArchive (p : Polled)
  /-- `archive_->findLastMatchingRecording` -/
  | findRecording (p : Polled)
  | finding (p : Polled)
  | isMerged
  | hasFailed
  /-- `replay_merge_.reset()` after the merge -/
  | releaseMerged
  /-- `replay_merge_.reset(); break;` -/
  | releaseFailed
  | returned
  deriving DecidableEq, Repr

/-- What the main thread does next. -/
inductive MainPc where
  /-- `while (g_running.load())` -/
  | waiting
  /-- In `shutdown`, with these members still to reset. -/
  | releasing (rest : List Member)
  | joined
  deriving DecidableEq, Repr

structure State where
  /-- Whether the pointer is not null. -/
  held : Member → Bool
  running_ : Bool
  run : RunPc
  main : MainPc

inductive Event where
  | called (o : Member)
  | reset (o : Member)
  deriving DecidableEq, Repr

/-- The order in which `shutdown` resets the members. -/
def releaseOrder : List Member := [.replay_merge_, .subscription_, .archive_, .aeron_]

def State.reset (s : State) (o : Member) : State := { s with
  held := Function.update s.held o false }

@[simp] theorem State.reset_held_self (s : State) (o : Member) : (s.reset o).held o = false :=
  Function.update_self _ _ _

theorem State.reset_held_ne (s : State) {o p : Member} (h : p ≠ o) :
    (s.reset o).held p = s.held p :=
  Function.update_of_ne h _ _

/-- `AeronSubscriber::run`. What a call answers, and for which fragments `poll` reaches the gap
recovery, is left open. -/
inductive RunStep : State → List Event → State → Prop
  | entrySet {s : State} (hpc : s.run = .entry) (h : s.held .subscription_ = true) :
      RunStep s [] { s with run := .loop }
  | entryNull {s : State} (hpc : s.run = .entry) (h : s.held .subscription_ = false) :
      RunStep s [] { s with run := .entryReplayMerge }
  | entryReplayMergeSet {s : State} (hpc : s.run = .entryReplayMerge)
      (h : s.held .replay_merge_ = true) : RunStep s [] { s with run := .loop }
  | entryReplayMergeNull {s : State} (hpc : s.run = .entryReplayMerge)
      (h : s.held .replay_merge_ = false) : RunStep s [] { s with run := .returned }
  | running {s : State} (hpc : s.run = .loop) (h : s.running_ = true) :
      RunStep s [] { s with run := .testReplayMerge }
  | stopped {s : State} (hpc : s.run = .loop) (h : s.running_ = false) :
      RunStep s [] { s with run := .returned }
  | replayMergeSet {s : State} (hpc : s.run = .testReplayMerge)
      (h : s.held .replay_merge_ = true) : RunStep s [] { s with run := .poll .replay_merge_ }
  | replayMergeNull {s : State} (hpc : s.run = .testReplayMerge)
      (h : s.held .replay_merge_ = false) : RunStep s [] { s with run := .testSubscription }
  | subscriptionSet {s : State} (hpc : s.run = .testSubscription)
      (h : s.held .subscription_ = true) : RunStep s [] { s with run := .poll .subscription_ }
  | subscriptionNull {s : State} (hpc : s.run = .testSubscription)
      (h : s.held .subscription_ = false) : RunStep s [] { s with run := .loop }
  | poll {s : State} (p : Polled) (hpc : s.run = .poll p) :
      RunStep s [.called p.member] { s with run := .polling p }
  | gap {s : State} (p : Polled) (hpc : s.run = .polling p) :
      RunStep s [] { s with run := .testArchive p }
  | archiveSet {s : State} (p : Polled) (hpc : s.run = .testArchive p)
      (h : s.held .archive_ = true) : RunStep s [] { s with run := .findRecording p }
  | archiveNull {s : State} (p : Polled) (hpc : s.run = .testArchive p)
      (h : s.held .archive_ = false) : RunStep s [] { s with run := .polling p }
  | findRecording {s : State} (p : Polled) (hpc : s.run = .findRecording p) :
      RunStep s [.called .archive_] { s with run := .finding p }
  | found {s : State} (p : Polled) (hpc : s.run = .finding p) :
      RunStep s [] { s with run := .polling p }
  | polledReplayMerge {s : State} (hpc : s.run = .polling .replay_merge_) :
      RunStep s [] { s with run := .isMerged }
  | polledSubscription {s : State} (hpc : s.run = .polling .subscription_) :
      RunStep s [] { s with run := .loop }
  | merged {s : State} (hpc : s.run = .isMerged) :
      RunStep s [.called .replay_merge_] { s with run := .releaseMerged }
  | notMerged {s : State} (hpc : s.run = .isMerged) :
      RunStep s [.called .replay_merge_] { s with run := .hasFailed }
  | failed {s : State} (hpc : s.run = .hasFailed) :
      RunStep s [.called .replay_merge_] { s with run := .releaseFailed }
  | notFailed {s : State} (hpc : s.run = .hasFailed) :
      RunStep s [.called .replay_merge_] { s with run := .loop }
  | releaseMerged {s : State} (hpc : s.run = .releaseMerged) :
      RunStep s [.reset .replay_merge_] { s.reset .replay_merge_ with run := .loop }
  | releaseFailed {s : State} (hpc : s.run = .releaseFailed) :
      RunStep s [.reset .replay_merge_] { s.reset .replay_merge_ with run := .returned }

/-- `main` from the end of its wait: `subscriber.shutdown()`, then `subscriber_thread.join()`. -/
inductive MainStep : State → List Event → State → Prop
  | stop {s : State} (hpc : s.main = .waiting) :
      MainStep s [] { s with
        running_ := false
        main := .releasing releaseOrder }
  | reset {s : State} (o : Member) (rest : List Member) (hpc : s.main = .releasing (o :: rest)) :
      MainStep s [.reset o] { s.reset o with main := .releasing rest }
  | join {s : State} (hpc : s.main = .releasing []) (h : s.run = .returned) :
      MainStep s [] { s with main := .joined }

inductive Step : State → List Event → State → Prop
  | run {s t : State} {e : List Event} (h : RunStep s e t) : Step s e t
  | main {s t : State} {e : List Event} (h : MainStep s e t) : Step s e t

/-- `initialize` and `startLive` or `startReplayMergeAuto` have succeeded: only the latter
creates a `ReplayMerge`. -/
structure Initial (s : State) : Prop where
  held : ∀ o, o ≠ .replay_merge_ → s.held o = true
  running : s.running_ = true
  run : s.run = .entry
  main : s.main = .waiting

def system : Lts State Event := ⟨Initial, Step⟩

/-! ## What must not happen -/

/-- A call on `o` is under way: a poll lasts until it returns, whatever its handler does. -/
def RunPc.Inside : RunPc → Member → Prop
  | .polling p, o => o = p.member
  | .testArchive p, o => o = p.member
  | .findRecording p, o => o = p.member
  | .finding p, o => o = p.member ∨ o = .archive_
  | _, _ => False

/-- The next step of `run` is a call on `o`, which it has tested before. -/
def RunPc.Tested : RunPc → Member → Prop
  | .poll p, o => o = p.member
  | .findRecording _, o => o = .archive_
  | .isMerged, o => o = .replay_merge_
  | .hasFailed, o => o = .replay_merge_
  | _, _ => False

/-- `run` relies on `o`: it is inside a call on it or about to make one. -/
def RunPc.Needs (pc : RunPc) (o : Member) : Prop := pc.Inside o ∨ pc.Tested o

/-- No object is called after it has been reset. -/
def NoneReleased (es : List Event) : Prop :=
  ∀ o before after, es = before ++ .called o :: after → .reset o ∉ before

/-- No member is reset while `run` relies on it. -/
def NotNeeded : Guard State Event := fun _ s e _ => ∀ o, .reset o ∈ e → ¬ s.run.Needs o

/-! ## Runs that meet the condition -/

variable {es e : List Event} {s t : State} {o : Member}

theorem RunStep.held_of_needs (h : RunStep s e t) (hheld : ∀ o, s.run.Needs o → s.held o = true)
    (hneeds : t.run.Needs o) : t.held o = true := by
  -- what is needed after the step has just been tested, or has been needed before it
  have hkept : s.run.Needs o → s.held o = true := hheld o
  cases h with
  | replayMergeSet hpc hset | subscriptionSet hpc hset =>
      obtain hinside | rfl := hneeds
      · exact hinside.elim
      · exact hset
  | poll p hpc =>
      obtain hinside | htested := hneeds
      · exact hkept (.inr (by rw [hpc]; exact hinside))
      · exact htested.elim
  | gap p hpc | archiveNull p hpc =>
      obtain hinside | htested := hneeds
      · exact hkept (.inl (by rw [hpc]; exact hinside))
      · exact htested.elim
  | archiveSet p hpc hset =>
      obtain hinside | rfl := hneeds
      · exact hkept (.inl (by rw [hpc]; exact hinside))
      · exact hset
  | findRecording p hpc =>
      obtain (hinside | rfl) | htested := hneeds
      · exact hkept (.inl (by rw [hpc]; exact hinside))
      · exact hkept (.inr (by rw [hpc]; exact rfl))
      · exact htested.elim
  | found p hpc =>
      obtain hinside | htested := hneeds
      · exact hkept (.inl (by rw [hpc]; exact .inl hinside))
      · exact htested.elim
  | polledReplayMerge hpc =>
      obtain hinside | rfl := hneeds
      · exact hinside.elim
      · exact hkept (.inl (by rw [hpc]; exact rfl))
  | notMerged hpc =>
      obtain hinside | rfl := hneeds
      · exact hinside.elim
      · exact hkept (.inr (by rw [hpc]; exact rfl))
  | _ => rcases hneeds with h | h <;> exact h.elim

theorem RunStep.tested_of_called (h : RunStep s e t) (hcalled : .called o ∈ e) :
    s.run.Tested o := by
  cases h with
  | poll p hpc | findRecording p hpc =>
      cases List.mem_singleton.mp hcalled
      rw [hpc]
      exact rfl
  | merged hpc | notMerged hpc | failed hpc | notFailed hpc =>
      cases List.mem_singleton.mp hcalled
      rw [hpc]
      exact rfl
  | releaseMerged | releaseFailed => cases List.mem_singleton.mp hcalled
  | _ => cases hcalled

theorem MainStep.not_called (h : MainStep s e t) : .called o ∉ e := by
  cases h with
  | reset => exact fun hcalled => nomatch List.mem_singleton.mp hcalled
  | _ => exact List.not_mem_nil

/-- `run` itself resets `replay_merge_` only when it is done with it. -/
theorem RunStep.not_needs_of_reset (h : RunStep s e t) (hreset : .reset o ∈ e) :
    ¬ s.run.Needs o := by
  cases h with
  | releaseMerged hpc | releaseFailed hpc =>
      rw [RunPc.Needs, hpc]
      exact fun h => h.elim id id
  | poll | findRecording | merged | notMerged | failed | notFailed =>
      cases List.mem_singleton.mp hreset
  | _ => cases hreset

/-- A step emits at most one event. -/
theorem Step.events (h : Step s e t) : e = [] ∨ ∃ x, e = [x] := by
  cases h with
  | run h => cases h <;> first | exact .inl rfl | exact .inr ⟨_, rfl⟩
  | main h => cases h <;> first | exact .inl rfl | exact .inr ⟨_, rfl⟩

/-- A pointer changes when it is reset and at no other time. -/
theorem Step.held_cases (h : Step s e t) (o : Member) :
    .reset o ∈ e ∧ t.held o = false ∨ .reset o ∉ e ∧ t.held o = s.held o := by
  have hreset : ∀ p, Event.reset o ∈ [Event.reset p] ∧ (s.reset p).held o = false ∨
      Event.reset o ∉ [Event.reset p] ∧ (s.reset p).held o = s.held o := by
    intro p
    by_cases hp : o = p
    · exact .inl ⟨by rw [hp]; exact List.mem_singleton_self _, hp ▸ s.reset_held_self o⟩
    · exact .inr ⟨by simpa using hp, s.reset_held_ne hp⟩
  cases h with
  | run h =>
      cases h with
      | releaseMerged | releaseFailed => exact hreset _
      | poll | findRecording | merged | notMerged | failed | notFailed =>
          exact .inr ⟨by simp, rfl⟩
      | _ => exact .inr ⟨List.not_mem_nil, rfl⟩
  | main h =>
      cases h with
      | reset p => exact hreset p
      | stop | join => exact .inr ⟨List.not_mem_nil, rfl⟩

theorem noneReleased_snoc (es : List Event) (x : Event) :
    NoneReleased (es ++ [x]) ↔ NoneReleased es ∧ ∀ o, x = .called o → .reset o ∉ es := by
  have hsplit : ∀ es, NoneReleased es ↔ ∀ before x after, es = before ++ x :: after →
      ∀ o, x = .called o → .reset o ∉ before := by
    intro es
    constructor
    · rintro h before _ after hes o rfl
      exact h o before after hes
    · intro h o before after hes
      exact h before (.called o) after hes o rfl
  rw [hsplit, hsplit, forall_split_snoc]

/-- What holds of a run in which nothing has been reset while `run` relied on it. -/
structure Intact (es : List Event) (s : State) : Prop where
  reset : ∀ o, .reset o ∈ es → s.held o = false
  held : ∀ o, s.run.Needs o → s.held o = true
  safe : NoneReleased es

theorem Initial.intact (h : Initial s) : Intact [] s where
  reset o hreset := absurd hreset List.not_mem_nil
  held o hneeds := by
    rw [RunPc.Needs, h.run] at hneeds
    exact hneeds.elim False.elim False.elim
  safe o before after hsplit := by cases List.nil_eq_append_iff.mp hsplit |>.2

theorem Intact.step (hI : Intact es s) (h : Step s e t) (hguard : NotNeeded es s e t) :
    Intact (es ++ e) t where
  reset o hreset := by
    obtain ⟨-, hheld⟩ | ⟨hnot, hheld⟩ := h.held_cases o
    · exact hheld
    · obtain hbefore | hnow := List.mem_append.mp hreset
      · exact hheld.trans (hI.reset o hbefore)
      · exact absurd hnow hnot
  held o hneeds := by
    cases h with
    | run h => exact h.held_of_needs hI.held hneeds
    | main h =>
        -- `main` resets nothing that is needed, by the guard
        have hsame : t.run = s.run := by cases h <;> rfl
        rw [hsame] at hneeds
        obtain ⟨hreset, -⟩ | ⟨-, hheld⟩ := (Step.main h).held_cases o
        · exact absurd hneeds (hguard o hreset)
        · exact hheld.trans (hI.held o hneeds)
  safe := by
    obtain rfl | ⟨x, rfl⟩ := h.events
    · rw [List.append_nil]
      exact hI.safe
    · rw [noneReleased_snoc]
      refine ⟨hI.safe, ?_⟩
      rintro o rfl hreset
      cases h with
      | run h =>
          -- what is called has been tested and is held, what has been reset is not
          have htested := h.tested_of_called (List.mem_singleton_self _)
          have hheld := hI.held o (.inr htested)
          rw [hI.reset o hreset] at hheld
          cases hheld
      | main h => exact h.not_called (List.mem_singleton_self _)

/-- **Nothing is used after its reset** in a run in which no member is reset while `run` relies
on it: no object is called after its reset, and none is reset during a call on it. -/
theorem needed_not_reset (r : RunWhere system NotNeeded es s) :
    NoneReleased es ∧ ∀ o, s.run.Inside o → s.held o = true := by
  have hI := RunWhere.invariant (I := Intact) (fun _ h => Initial.intact h)
    (fun _ _ _ _ hI h c => Intact.step hI h c) r
  exact ⟨hI.safe, fun o hinside => hI.held o (.inl hinside)⟩

/-- The state in which `main` starts the subscriber thread in live mode. -/
def live : State where
  held o := o != .replay_merge_
  running_ := true
  run := .entry
  main := .waiting

theorem live_initial : Initial live :=
  ⟨fun _ h => bne_iff_ne.mpr h, rfl, rfl, rfl⟩

/-- One round of live mode with a gap recovery, a shutdown between two rounds. -/
theorem needed_not_reset_between_rounds : ∃ es s, RunWhere system NotNeeded es s ∧
    s.main = .joined ∧ NoneReleased es ∧ ∀ o, s.run.Inside o → s.held o = true := by
  have hquiet : ∀ {es s t}, NotNeeded es s [] t := fun o h => absurd h List.not_mem_nil
  have hcall : ∀ {es s t o}, NotNeeded es s [.called o] t := fun o h =>
    absurd h (by simp)
  have hreset : ∀ {es s t o}, s.run = .returned → NotNeeded es s [.reset o] t := by
    rintro es s t o hpc p -
    rw [RunPc.Needs, hpc]
    exact fun h => h.elim id id
  have r₀ : RunWhere system NotNeeded [] live := .init live_initial
  have r₁ := r₀.step (.run (.entrySet rfl rfl)) hquiet
  have r₂ := r₁.step (.run (.running rfl rfl)) hquiet
  have r₃ := r₂.step (.run (.replayMergeNull rfl rfl)) hquiet
  have r₄ := r₃.step (.run (.subscriptionSet rfl rfl)) hquiet
  have r₅ := r₄.step (.run (.poll .subscription_ rfl)) hcall
  have r₆ := r₅.step (.run (.gap .subscription_ rfl)) hquiet
  have r₇ := r₆.step (.run (.archiveSet .subscription_ rfl rfl)) hquiet
  have r₈ := r₇.step (.run (.findRecording .subscription_ rfl)) hcall
  have r₉ := r₈.step (.run (.found .subscription_ rfl)) hquiet
  have r₁₀ := r₉.step (.run (.polledSubscription rfl)) hquiet
  -- `running_` is cleared between two rounds, and `run` returns before the first reset
  have r₁₁ := r₁₀.step (.main (.stop rfl)) hquiet
  have r₁₂ := r₁₁.step (.run (.stopped rfl rfl)) hquiet
  have r₁₃ := r₁₂.step (.main (.reset _ _ rfl)) (hreset rfl)
  have r₁₄ := r₁₃.step (.main (.reset _ _ rfl)) (hreset rfl)
  have r₁₅ := r₁₄.step (.main (.reset _ _ rfl)) (hreset rfl)
  have r₁₆ := r₁₅.step (.main (.reset _ _ rfl)) (hreset rfl)
  have r₁₇ := r₁₆.step (.main (.join rfl rfl)) hquiet
  exact ⟨_, _, r₁₇, rfl, needed_not_reset r₁₇⟩

/-- The subscriber thread has tested `subscription_`; `shutdown` resets it; the thread polls
it. -/
theorem poll_after_reset : ∃ s, Run system
    [.reset .replay_merge_, .reset .subscription_, .called .subscription_] s ∧
    ¬ NoneReleased [.reset .replay_merge_, .reset .subscription_, .called .subscription_] := by
  have r₀ : Run system [] live := .init live_initial
  have r₁ := r₀.step (.run (.entrySet rfl rfl))
  have r₂ := r₁.step (.run (.running rfl rfl))
  have r₃ := r₂.step (.run (.replayMergeNull rfl rfl))
  have r₄ := r₃.step (.run (.subscriptionSet rfl rfl))
  -- the thread is now between its test of `subscription_` and its call
  have r₅ := r₄.step (.main (.stop rfl))
  have r₆ := r₅.step (.main (.reset _ _ rfl))
  have r₇ := r₆.step (.main (.reset _ _ rfl))
  have r₈ := r₇.step (.run (.poll .subscription_ rfl))
  refine ⟨_, r₈, fun h => ?_⟩
  exact h .subscription_ [.reset .replay_merge_, .reset .subscription_] [] rfl (by simp)

/-! ## The condition is needed, and would be met by joining first -/

theorem RunPc.Tested.call (h : s.run.Tested o) : ∃ t, RunStep s [.called o] t := by
  generalize hpc : s.run = pc at h
  cases pc with
  | poll p =>
      obtain rfl := h
      exact ⟨_, .poll p hpc⟩
  | findRecording p =>
      obtain rfl := h
      exact ⟨_, .findRecording p hpc⟩
  | isMerged =>
      obtain rfl := h
      exact ⟨_, .merged hpc⟩
  | hasFailed =>
      obtain rfl := h
      exact ⟨_, .failed hpc⟩
  | _ => exact h.elim

/-- **A reset of what `run` relies on is a use after reset**: it falls into a call on the object,
or the run can go on with a call on it. -/
theorem reset_while_needed (r : Run system es s) (h : Step s e t) (hreset : .reset o ∈ e)
    (hneeds : s.run.Needs o) : (t.run.Inside o ∧ t.held o = false) ∨
    ∃ u, Run system (es ++ e ++ [.called o]) u ∧ ¬ NoneReleased (es ++ e ++ [.called o]) := by
  -- only `main` resets what `run` needs, so that `run` stays where it is
  have hrun : t.run = s.run := by
    cases h with
    | run h => exact absurd hneeds (h.not_needs_of_reset hreset)
    | main h => cases h <;> rfl
  obtain hinside | htested := hneeds
  · obtain ⟨-, hheld⟩ | ⟨hnot, -⟩ := h.held_cases o
    · exact .inl ⟨hrun ▸ hinside, hheld⟩
    · exact absurd hreset hnot
  · obtain ⟨u, hu⟩ := RunPc.Tested.call (s := t) (hrun ▸ htested)
    refine .inr ⟨u, (r.step h).step (.run hu), fun hsafe => ?_⟩
    exact hsafe o (es ++ e) [] rfl (List.mem_append_right es hreset)

/-- `shutdown` resets only when the subscriber thread has returned. -/
def JoinFirst : Guard State Event := fun _ s e t =>
  MainStep s e t → ∀ o, .reset o ∈ e → s.run = .returned

theorem join_first (r : RunWhere system JoinFirst es s) : RunWhere system NotNeeded es s := by
  refine r.mono ?_
  intro es s e t h hjoin o hreset
  cases h with
  | run h => exact h.not_needs_of_reset hreset
  | main h =>
      rw [RunPc.Needs, hjoin h o hreset]
      exact fun h => h.elim id id

end AeronReplay.Release
