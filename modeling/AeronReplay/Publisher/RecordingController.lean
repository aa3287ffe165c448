import AeronReplay.Archive.Catalog
import AeronReplay.Lib.Transition
import Mathlib.Data.List.Induction
import Mathlib.Data.List.Infix

set_option autoImplicit false

/-! # The recording controller

`RecordingController` (`RecordingController.cpp`) starts a recording of the publisher's stream,
or adopts one that it finds in the catalog, and stops it. It remembers a recording id and a
subscription id. `controls_iff` says for which catalogs and answers of the archive the two belong
to one active recording whenever the controller believes to be recording.

The archive answers every listing; what `startRecording` and `stopRecording` answer is an input.
What is printed and the pauses between the calls are left out. -/

namespace AeronReplay

open Transition

structure RecordingController where
  channel_ : String
  stream_id_ : Int32
  recording_id_ : Int64
  subscription_id_ : Int64
  deriving DecidableEq, Repr

namespace RecordingController

/-- The constructor. -/
def create (channel : String) (streamId : Int32) : RecordingController :=
  ⟨channel, streamId, -1, -1⟩

def isRecording (c : RecordingController) : Bool := c.recording_id_ != -1

/-! ## The consumers of the listings -/

/-- A consumer that uses those descriptors of the stream that pass `test`. -/
def consumer (test : Recording → Bool) (use : RecordingController → Recording → RecordingController)
    (c : RecordingController) (r : Recording) : RecordingController :=
  if r.streamId == c.stream_id_ && test r then use c r else c

def setIds (c : RecordingController) (r : Recording) : RecordingController := { c with
  recording_id_ := r.recordingId
  -- what `stopRecording` is going to pass on as a subscription id
  subscription_id_ := r.sessionId.toInt64 }

def setRecordingId (c : RecordingController) (r : Recording) : RecordingController := { c with
  recording_id_ := r.recordingId }

def checkExistingRecording : RecordingController → Recording → RecordingController :=
  consumer Recording.active setIds

def findAnyRecording : RecordingController → Recording → RecordingController :=
  -- the only one of the three that does not test `stopTimestamp`
  consumer (fun _ => true) setRecordingId

def recordingDescriptorConsumer : RecordingController → Recording → RecordingController :=
  consumer Recording.active setRecordingId

/-- The listing that each of them consumes. -/
def listing (c : RecordingController) (a : Archive) : List Recording :=
  a.listRecordingsForUri 0 10 c.channel_ c.stream_id_

/-! ## Starting and stopping -/

/-- `std::string::find` finds `t` in `s`. -/
def contains (s t : String) : Bool := decide (t.toList <:+: s.toList)

/-- What `archive_->startRecording` does. -/
inductive StartReply (a : Archive) where
  | started (new : a.New)
  | throws (error_msg : String)

/-- What `archive_->stopRecording` does, which throws also where the archive cannot be reached;
`now` is the clock of the archive. -/
inductive StopReply where
  | answers (now : Int64) (hnow : now ≠ 0)
  | throws

/-- The end of `startRecording` after `archive_->startRecording` has thrown. -/
def searchExisting (c : RecordingController) (a : Archive) (error_msg : String) :
    Bool × RecordingController × Archive :=
  if contains error_msg "recording exists" then
    let c := (c.listing a).foldl findAnyRecording c
    if c.recording_id_ != -1 then (true, c, a) else (false, c, a)
  else
    (false, c, a)

/-- The end of `startRecording` after `archive_->startRecording` has returned: two attempts to
find the recording id. -/
def searchStarted (c : RecordingController) (a : Archive) : Bool × RecordingController × Archive :=
  let c := (c.listing a).foldl recordingDescriptorConsumer c
  if c.recording_id_ == -1 then
    -- the same listing once more, after a pause
    let c := (c.listing a).foldl recordingDescriptorConsumer c
    if c.recording_id_ == -1 then (false, c, a) else (true, c, a)
  else
    (true, c, a)

def startRecording (c : RecordingController) (a : Archive) (reply : StartReply a) :
    Bool × RecordingController × Archive :=
  if c.isRecording then
    (false, c, a)
  else
    let c := (c.listing a).foldl checkExistingRecording c
    if c.recording_id_ != -1 then
      (true, c, a)
    else
      match reply with
      | .throws error_msg => c.searchExisting a error_msg
      | .started new =>
        let a := a.startRecording c.channel_ c.stream_id_ new
        let c := { c with subscription_id_ := new.subscriptionId }
        c.searchStarted a

def stopRecording (c : RecordingController) (a : Archive) (reply : StopReply) :
    Bool × RecordingController × Archive :=
  if !c.isRecording then
    (false, c, a)
  else
    match reply with
    | .throws => (false, c, a)
    | .answers now _ =>
      match a.stopRecording c.subscription_id_ now with
      | none => (false, c, a)
      | some a => (true, { c with
          recording_id_ := -1
          subscription_id_ := -1 }, a)

/-! ## Agreement with the archive -/

/-- The controller's recording is an active one of its stream, and a `stopRecording` that
returns true would end exactly that one. -/
structure Controls (c : RecordingController) (a : Archive) : Prop where
  active : ∃ r ∈ a.recordings, r.recordingId = c.recording_id_ ∧ r.active = true ∧
    a.channelMatches c.channel_ r.channel = true ∧ r.streamId = c.stream_id_
  stops : ∀ reply c' a', c.stopRecording a reply = (true, c', a') →
    a.EndsExactly c.recording_id_ a'

/-- `archive_->startRecording` throws because the recording exists. -/
def StartReply.recordingExists {a : Archive} : StartReply a → Bool
  | .started _ => false
  | .throws error_msg => contains error_msg "recording exists"

/-- When a call of `startRecording` ends in agreement: the last active recording that the
listing shows, if there is one, has its session id for a subscription id, or its session id is
no subscription id at all and the archive refuses to stop it; if there is none and the archive
answers that the recording exists, the listing is empty. -/
def Sound (c : RecordingController) (a : Archive) (recordingExists : Bool) : Prop :=
  match ((c.listing a).filter Recording.active).getLast? with
  | some r => r.subscriptionId = r.sessionId.toInt64 ∨ a.stopsUnknown = false ∧
      ∀ q ∈ a.recordings, Archive.recordsUnder r.sessionId.toInt64 q = false
  | none => recordingExists = true → c.listing a = []

/-! ## What the listings lead to -/

variable {c : RecordingController} {a : Archive} {r : Recording}

/-- Of the descriptors that a consumer uses, the last one counts. -/
theorem foldl_consumer_filter (test : Recording → Bool)
    (use : RecordingController → Recording → RecordingController)
    (hstream : ∀ c r, (use c r).stream_id_ = c.stream_id_)
    (huse : ∀ c r q, use (use c r) q = use c q) (l : List Recording) :
    l.foldl (consumer test use) c
      = (l.filter fun r => r.streamId == c.stream_id_ && test r).getLast?.elim c (use c) := by
  induction l using List.reverseRecOn with
  | nil => rfl
  | append_singleton l r ih =>
      rw [List.foldl_append, ih, List.filter_append, List.foldl_cons, List.foldl_nil]
      have hkept : ((l.filter fun r => r.streamId == c.stream_id_ && test r).getLast?.elim c
          (use c)).stream_id_ = c.stream_id_ := by
        cases (l.filter fun r => r.streamId == c.stream_id_ && test r).getLast? with
        | none => rfl
        | some q => exact hstream c q
      unfold consumer
      rw [hkept]
      -- if the last descriptor passes it counts, otherwise the one that has counted so far
      by_cases htest : (r.streamId == c.stream_id_ && test r) = true
      · rw [if_pos htest, List.filter_singleton, htest]
        cases (l.filter fun r => r.streamId == c.stream_id_ && test r).getLast? with
        | none => simp
        | some q => simp [huse]
      · rw [if_neg htest, List.filter_singleton, Bool.eq_false_iff.mpr htest]
        simp

/-- Of descriptors that are all of the stream, the last one that passes counts. -/
theorem foldl_consumer (test : Recording → Bool)
    (use : RecordingController → Recording → RecordingController)
    (hstream : ∀ c r, (use c r).stream_id_ = c.stream_id_)
    (huse : ∀ c r q, use (use c r) q = use c q) {l : List Recording}
    (hl : ∀ r ∈ l, r.streamId = c.stream_id_) :
    l.foldl (consumer test use) c = (l.filter test).getLast?.elim c (use c) := by
  have hfilter : (l.filter fun r => r.streamId == c.stream_id_ && test r) = l.filter test := by
    refine List.filter_congr fun r hr => ?_
    rw [hl r hr, beq_self_eq_true, Bool.true_and]
  rw [foldl_consumer_filter test use hstream huse, hfilter]

theorem streamId_of_listing : ∀ r ∈ c.listing a, r.streamId = c.stream_id_ := fun _ hr =>
  (Archive.mem_of_listed hr).2.2

theorem recordingId_ne (hr : r ∈ a.recordings) : r.recordingId ≠ -1 := by
  intro h
  have := a.nonneg r hr
  rw [h] at this
  exact absurd this (by decide)

/-- The listing after `archive_->startRecording` shows the new recording as the only active one,
or no active one at all. -/
theorem listing_startRecording (new : a.New) (hnone : (c.listing a).filter Recording.active = []) :
    let b := a.startRecording c.channel_ c.stream_id_ new
    let r := new.recording c.channel_ c.stream_id_
    (c.listing b).filter Recording.active = [] ∨
      r ∈ c.listing b ∧ (c.listing b).filter Recording.active = [r] := by
  intro b r
  have hactive : r.active = true := beq_self_eq_true _
  have hlisting : c.listing b = c.listing a ++
      (([r].filter fun r => (0 : Int64) ≤ r.recordingId && a.channelMatches c.channel_ r.channel &&
        r.streamId == c.stream_id_).take (10 - (a.ofStream 0 c.channel_ c.stream_id_).length)) := by
    show (b.ofStream 0 c.channel_ c.stream_id_).take 10 = _
    rw [Archive.ofStream_startRecording, List.take_append]
    rfl
  rw [hlisting, List.filter_append, hnone, List.nil_append, List.filter_singleton]
  generalize (decide ((0 : Int64) ≤ r.recordingId) && _ && _) = shown
  generalize 10 - (a.ofStream 0 c.channel_ c.stream_id_).length = room
  cases shown with
  | false => exact .inl (by rw [cond_false, List.take_nil, List.filter_nil])
  | true =>
      rw [cond_true]
      -- the new recording is the last one, and a full listing does not reach it
      cases room with
      | zero => exact .inl rfl
      | succ n =>
          right
          rw [List.take_succ_cons, List.take_nil, List.filter_singleton, hactive, cond_true]
          exact ⟨List.mem_append_right _ (List.mem_singleton_self r), rfl⟩

/-- The ways through `startRecording`. -/
inductive Starts (c : RecordingController) (a : Archive) :
    StartReply a → Bool × RecordingController × Archive → Prop
  | already {reply : StartReply a} (h : c.isRecording = true) : Starts c a reply (false, c, a)
  | adopted {reply : StartReply a} {r : Recording} (h : c.isRecording = false)
      (hr : ((c.listing a).filter Recording.active).getLast? = some r) :
      Starts c a reply (true, c.setIds r, a)
  | refused {error_msg : String} (h : c.isRecording = false)
      (hnone : (c.listing a).filter Recording.active = [])
      (hmsg : contains error_msg "recording exists" = true → c.listing a = []) :
      Starts c a (.throws error_msg) (false, c, a)
  | fallback {error_msg : String} {r : Recording} (h : c.isRecording = false)
      (hnone : (c.listing a).filter Recording.active = [])
      (hmsg : contains error_msg "recording exists" = true)
      (hr : (c.listing a).getLast? = some r) :
      Starts c a (.throws error_msg) (true, c.setRecordingId r, a)
  | unseen {new : a.New} (h : c.isRecording = false)
      (hnone : (c.listing a).filter Recording.active = []) :
      Starts c a (.started new) (false, { c with subscription_id_ := new.subscriptionId },
        a.startRecording c.channel_ c.stream_id_ new)
  | started {new : a.New} (h : c.isRecording = false)
      (hnone : (c.listing a).filter Recording.active = [])
      (hlisted : new.recording c.channel_ c.stream_id_ ∈
        c.listing (a.startRecording c.channel_ c.stream_id_ new)) :
      Starts c a (.started new) (true, { c with
        recording_id_ := new.recordingId
        subscription_id_ := new.subscriptionId }, a.startRecording c.channel_ c.stream_id_ new)

theorem foldl_checkExistingRecording (c : RecordingController) (a : Archive) :
    (c.listing a).foldl checkExistingRecording c =
      ((c.listing a).filter Recording.active).getLast?.elim c c.setIds :=
  foldl_consumer Recording.active setIds (fun _ _ => rfl) (fun _ _ _ => rfl) streamId_of_listing

theorem foldl_findAnyRecording (c : RecordingController) (a : Archive) :
    (c.listing a).foldl findAnyRecording c = (c.listing a).getLast?.elim c c.setRecordingId := by
  have h := foldl_consumer (fun _ => true) setRecordingId (fun _ _ => rfl) (fun _ _ _ => rfl)
    (streamId_of_listing (c := c) (a := a))
  rwa [List.filter_true] at h

theorem foldl_recordingDescriptorConsumer (c : RecordingController) (a : Archive) :
    (c.listing a).foldl recordingDescriptorConsumer c =
      ((c.listing a).filter Recording.active).getLast?.elim c c.setRecordingId :=
  foldl_consumer Recording.active setRecordingId (fun _ _ => rfl) (fun _ _ _ => rfl)
    streamId_of_listing

theorem searchStarted_spec {new : a.New} (hrec : c.isRecording = false)
    (hnone : (c.listing a).filter Recording.active = []) :
    Starts c a (.started new) (({ c with subscription_id_ := new.subscriptionId } :
      RecordingController).searchStarted (a.startRecording c.channel_ c.stream_id_ new)) := by
  have hid : c.recording_id_ = -1 := by simpa [isRecording] using hrec
  have hfold := foldl_recordingDescriptorConsumer
    ({ c with subscription_id_ := new.subscriptionId } : RecordingController)
    (a.startRecording c.channel_ c.stream_id_ new)
  unfold searchStarted
  rw [hfold]
  obtain hunseen | ⟨hlisted, hseen⟩ := listing_startRecording new hnone
  · have hempty : (({ c with subscription_id_ := new.subscriptionId } :
        RecordingController).listing (a.startRecording c.channel_ c.stream_id_ new)).filter
          Recording.active = [] := hunseen
    rw [hempty] at hfold ⊢
    rw [List.getLast?_nil, Option.elim_none] at hfold ⊢
    dsimp only
    rw [hfold, if_pos (by rw [hid]; rfl), if_pos (by rw [hid]; rfl)]
    exact .unseen hrec hnone
  · have hone : (({ c with subscription_id_ := new.subscriptionId } :
        RecordingController).listing (a.startRecording c.channel_ c.stream_id_ new)).filter
          Recording.active = [new.recording c.channel_ c.stream_id_] := hseen
    have hnew : ((new.recordingId == -1) : Bool) = false :=
      beq_eq_false_iff_ne.mpr (recordingId_ne (Archive.mem_of_listed hlisted).1)
    rw [hone, List.getLast?_singleton, Option.elim_some]
    show Starts c a _ (if (new.recordingId == -1) = true then _ else _)
    rw [hnew]
    exact .started hrec hnone hlisted

theorem searchExisting_spec {error_msg : String} (hrec : c.isRecording = false)
    (hnone : (c.listing a).filter Recording.active = []) :
    Starts c a (.throws error_msg) (c.searchExisting a error_msg) := by
  have hid : c.recording_id_ = -1 := by simpa [isRecording] using hrec
  unfold searchExisting
  split
  · next hmsg =>
      rw [foldl_findAnyRecording]
      cases hlast : (c.listing a).getLast? with
      | none =>
          rw [Option.elim_none, if_neg (by rw [hid]; decide)]
          exact .refused hrec hnone fun _ => List.getLast?_eq_none_iff.mp hlast
      | some r =>
          have hr : r.recordingId ≠ -1 :=
            recordingId_ne (Archive.mem_of_listed (List.mem_of_getLast? hlast)).1
          rw [Option.elim_some, if_pos (show ((c.setRecordingId r).recording_id_ != -1) = true from
            bne_iff_ne.mpr hr)]
          exact .fallback hrec hnone hmsg hlast
  · next hmsg => exact .refused hrec hnone fun h => absurd h hmsg

theorem startRecording_spec (c : RecordingController) (a : Archive) (reply : StartReply a) :
    Starts c a reply (c.startRecording a reply) := by
  unfold startRecording
  by_cases hrec : c.isRecording = true
  · rw [if_pos hrec]
    exact .already hrec
  have hid : c.recording_id_ = -1 := by simpa [isRecording] using hrec
  rw [if_neg hrec]
  replace hrec := Bool.eq_false_iff.mpr hrec
  dsimp only
  rw [foldl_checkExistingRecording]
  cases hactive : ((c.listing a).filter Recording.active).getLast? with
  | some r =>
      have hr : r.recordingId ≠ -1 :=
        recordingId_ne (Archive.mem_of_listed
          (List.mem_of_mem_filter (List.mem_of_getLast? hactive))).1
      rw [Option.elim_some, if_pos (show ((c.setIds r).recording_id_ != -1) = true from
        bne_iff_ne.mpr hr)]
      exact .adopted hrec hactive
  | none =>
      have hnone := List.getLast?_eq_none_iff.mp hactive
      rw [Option.elim_none, if_neg (by rw [hid]; decide)]
      cases reply with
      | throws error_msg => exact searchExisting_spec hrec hnone
      | started new => exact searchStarted_spec hrec hnone

/-! ## Agreement after one call -/

theorem stopRecording_eq_true {reply : StopReply} {c' : RecordingController} {a' : Archive}
    (h : c.stopRecording a reply = (true, c', a')) :
    c'.isRecording = false ∧ ∃ now, now ≠ 0 ∧ a.stopRecording c.subscription_id_ now = some a' := by
  unfold stopRecording at h
  split at h
  · cases h
  · cases reply with
    | throws => cases h
    | answers now hnow =>
        dsimp only at h
        split at h
        · cases h
        · next b hstop =>
            cases h
            exact ⟨rfl, now, hnow, hstop⟩

theorem stops_iff (hrec : c.isRecording = true) (hr : r ∈ a.recordings)
    (hid : r.recordingId = c.recording_id_) (hactive : r.active = true) :
    (∀ reply c' a', c.stopRecording a reply = (true, c', a') →
      a.EndsExactly c.recording_id_ a') ↔
    r.subscriptionId = c.subscription_id_ ∨ a.stopsUnknown = false ∧
      ∀ q ∈ a.recordings, Archive.recordsUnder c.subscription_id_ q = false := by
  rw [← hid]
  constructor
  · intro hstops
    -- one answer of the archive is enough to tell what it would stop
    have hnow : (1 : Int64) ≠ 0 := by decide
    apply (Archive.stopRecording_endsExactly_iff hr hactive c.subscription_id_ hnow).mp
    intro b hstop
    apply hstops (.answers 1 hnow) { c with
      recording_id_ := -1
      subscription_id_ := -1 } b
    unfold stopRecording
    rw [hrec]
    dsimp only
    rw [hstop]
    rfl
  · intro hsound reply c' a' hstop
    obtain ⟨-, now, hnow, hanswer⟩ := stopRecording_eq_true hstop
    exact (Archive.stopRecording_endsExactly_iff hr hactive c.subscription_id_ hnow).mpr hsound
      a' hanswer

theorem isRecording_of_mem (hr : r ∈ a.recordings) (hid : c.recording_id_ = r.recordingId) :
    c.isRecording = true := by
  unfold isRecording
  rw [hid]
  exact bne_iff_ne.mpr (recordingId_ne hr)

/-- One call of `startRecording`, in a controller that is not recording. -/
theorem start_controls_iff (hrec : c.isRecording = false) (reply : StartReply a) :
    ((c.startRecording a reply).2.1.isRecording = true →
      Controls (c.startRecording a reply).2.1 (c.startRecording a reply).2.2) ↔
    Sound c a reply.recordingExists := by
  have hspec := startRecording_spec c a reply
  generalize c.startRecording a reply = o at hspec ⊢
  unfold Sound
  cases hspec with
  | already h => cases h.symm.trans hrec
  | @adopted _ r _ hlast =>
      have hmem := List.mem_of_getLast? hlast
      have hactive := List.of_mem_filter hmem
      obtain ⟨hr, hchannel, hstream⟩ := Archive.mem_of_listed (List.mem_of_mem_filter hmem)
      have hadopted : (c.setIds r).isRecording = true := isRecording_of_mem hr rfl
      have hstops := stops_iff hadopted hr rfl hactive
      rw [hlast]
      constructor
      · intro h
        exact hstops.mp (h hadopted).stops
      · intro hsound _
        exact ⟨⟨r, hr, rfl, hactive, hchannel, hstream⟩, hstops.mpr hsound⟩
  | refused _ hnone hmsg =>
      rw [hnone, List.getLast?_nil]
      refine iff_of_true (fun h => ?_) hmsg
      cases hrec.symm.trans h
  | @fallback error_msg r _ hnone hmsg hlast =>
      have hmem := List.mem_of_getLast? hlast
      have hr := (Archive.mem_of_listed hmem).1
      rw [hnone, List.getLast?_nil]
      refine iff_of_false (fun h => ?_) fun h => ?_
      · -- an active recording with this id would have been among the active ones of the listing
        obtain ⟨q, hq, hid, hactive, -⟩ := (h (isRecording_of_mem hr rfl)).active
        obtain rfl : q = r := Archive.eq_of_recordingId hq hr hid
        exact List.filter_eq_nil_iff.mp hnone q hmem hactive
      · rw [h hmsg] at hlast
        cases hlast
  | unseen _ hnone =>
      rw [hnone, List.getLast?_nil]
      refine iff_of_true (fun h => ?_) fun hexists => by cases hexists
      cases hrec.symm.trans h
  | @started new _ hnone hlisted =>
      obtain ⟨hr, hchannel, hstream⟩ := Archive.mem_of_listed hlisted
      rw [hnone, List.getLast?_nil]
      refine iff_of_true (fun h => ?_) fun hexists => by cases hexists
      exact ⟨⟨_, hr, rfl, rfl, hchannel, hstream⟩, (stops_iff h hr rfl rfl).mpr (.inl rfl)⟩

/-! ## Every sequence of calls -/

structure State where
  controller : RecordingController
  archive : Archive

inductive Event where
  /-- A call, with whether the archive has thrown because the recording exists, and its result. -/
  | startRecording (recordingExists returned : Bool)
  | stopRecording (returned : Bool)
  deriving DecidableEq, Repr

inductive Step : State → List Event → State → Prop
  | start {s : State} (reply : StartReply s.archive) {o : Bool × RecordingController × Archive}
      (h : s.controller.startRecording s.archive reply = o) :
      Step s [.startRecording reply.recordingExists o.1] ⟨o.2.1, o.2.2⟩
  | stop {s : State} (reply : StopReply) {o : Bool × RecordingController × Archive}
      (h : s.controller.stopRecording s.archive reply = o) :
      Step s [.stopRecording o.1] ⟨o.2.1, o.2.2⟩

/-- A new controller on an archive that holds any catalog. -/
def system : Lts State Event where
  Init s := ∃ channel streamId, s.controller = create channel streamId
  Step := Step

/-- `startRecording` has returned true and no `stopRecording` has since. -/
def startedSince (es : List Event) : Bool :=
  es.foldl (fun recording e => match e with
    | .startRecording _ returned => recording || returned
    | .stopRecording returned => recording && !returned) false

/-- After every step the controller agrees with the archive as long as it counts as recording. -/
def Agrees : Guard State Event := fun es _ e t =>
  startedSince (es ++ e) = true → Controls t.controller t.archive

/-- Every `startRecording` of a controller that is not recording ends in agreement. -/
def SoundStart : Guard State Event := fun _ s e _ =>
  ∀ recordingExists returned, e = [.startRecording recordingExists returned] →
    s.controller.isRecording = false → Sound s.controller s.archive recordingExists

variable {es e : List Event} {s t : State}

theorem Starts.isRecording {reply : StartReply a} {o : Bool × RecordingController × Archive}
    (h : Starts c a reply o) : o.2.1.isRecording = (c.isRecording || o.1) := by
  cases h with
  | already h => rw [h, Bool.true_or]
  | adopted h hr =>
      have hmem := List.mem_of_mem_filter (List.mem_of_getLast? hr)
      rw [Bool.or_true]
      exact isRecording_of_mem (Archive.mem_of_listed hmem).1 rfl
  | fallback h _ _ hr =>
      rw [Bool.or_true]
      exact isRecording_of_mem (Archive.mem_of_listed (List.mem_of_getLast? hr)).1 rfl
  | started h _ hlisted =>
      rw [Bool.or_true]
      exact isRecording_of_mem (Archive.mem_of_listed hlisted).1 rfl
  | refused | unseen => exact (Bool.or_false _).symm

/-- A `stopRecording` that fails changes nothing. -/
theorem stopRecording_cases (c : RecordingController) (a : Archive) (reply : StopReply) :
    (∃ c' a', c.stopRecording a reply = (true, c', a')) ∨
      c.stopRecording a reply = (false, c, a) := by
  unfold stopRecording
  split
  · exact .inr rfl
  · cases reply with
    | throws => exact .inr rfl
    | answers now hnow =>
        dsimp only
        split
        · exact .inr rfl
        · exact .inl ⟨_, _, rfl⟩

/-- What the controller believes is what it has told its caller. -/
theorem startedSince_run (r : Run system es s) :
    startedSince es = s.controller.isRecording := by
  refine Run.invariant (I := fun es s => startedSince es = s.controller.isRecording) ?_ ?_ r
  · rintro s ⟨channel, streamId, h⟩
    rw [h]
    rfl
  · rintro es s e t ih hstep
    unfold startedSince at ih ⊢
    rw [List.foldl_append, ih]
    cases hstep with
    | start reply h =>
        subst h
        exact (startRecording_spec _ _ reply).isRecording.symm
    | stop reply h =>
        obtain ⟨c', a', hstop⟩ | hstop := stopRecording_cases s.controller s.archive reply
        · rw [hstop] at h
          subst h
          rw [(stopRecording_eq_true hstop).1]
          exact Bool.and_false _
        · rw [hstop] at h
          subst h
          exact Bool.and_true _

/-- A step keeps the agreement or ends in it under the same condition. -/
theorem Step.agrees_iff (r : Run system es s)
    (hs : s.controller.isRecording = true → Controls s.controller s.archive)
    (h : Step s e t) : Agrees es s e t ↔ SoundStart es s e t := by
  have hsince := startedSince_run (r.step h)
  unfold Agrees SoundStart
  rw [hsince]
  cases h with
  | start reply ho =>
      subst ho
      cases hrec : s.controller.isRecording with
      | true =>
          -- a second start is refused and changes nothing
          have hspec := startRecording_spec s.controller s.archive reply
          generalize s.controller.startRecording s.archive reply = o at hspec ⊢
          cases hspec with
          | already => exact iff_of_true (fun _ => hs hrec) fun _ _ _ h => by cases h
          | adopted h | refused h | fallback h | unseen h | started h => cases h.symm.trans hrec
      | false =>
          rw [start_controls_iff hrec reply]
          constructor
          · rintro hsound _ _ he -
            cases he
            exact hsound
          · intro h
            exact h _ _ rfl rfl
  | stop reply ho =>
      -- after a stop the controller does not count as recording, or nothing has changed
      refine iff_of_true (fun hrec => ?_) fun _ _ he => by cases he
      obtain ⟨c', a', hstop⟩ | hstop := stopRecording_cases s.controller s.archive reply
      · rw [hstop] at ho
        subst ho
        cases (stopRecording_eq_true hstop).1.symm.trans hrec
      · rw [hstop] at ho
        subst ho
        exact hs hrec

/-- What a run that has agreed so far has reached. -/
def Agreeing (es : List Event) (s : State) : Prop :=
  Run system es s ∧ (s.controller.isRecording = true → Controls s.controller s.archive)

theorem agreeing_init (s : State) (h : system.Init s) : Agreeing [] s := by
  obtain ⟨channel, streamId, hc⟩ := h
  refine ⟨.init ⟨channel, streamId, hc⟩, fun hrec => ?_⟩
  rw [hc] at hrec
  cases hrec

theorem Agreeing.step (h : Agreeing es s) (hstep : Step s e t) (hagrees : Agrees es s e t) :
    Agreeing (es ++ e) t := by
  have r := h.1.step hstep
  refine ⟨r, fun hrec => hagrees ?_⟩
  rw [startedSince_run r]
  exact hrec

/-- **When the controller agrees with the archive.** In a run the recording that the controller
holds is always an active one of its stream that it can stop, exactly when every call of
`startRecording` meets the condition `Sound`. -/
theorem controls_iff (es : List Event) (s : State) :
    RunWhere system SoundStart es s ↔ RunWhere system Agrees es s := by
  constructor
  · intro r
    refine (r.transfer (I := Agreeing) agreeing_init ?_).1
    intro es s e t h hstep hsound
    have hagrees := (Step.agrees_iff h.1 h.2 hstep).mpr hsound
    exact ⟨hagrees, h.step hstep hagrees⟩
  · intro r
    refine (r.transfer (I := Agreeing) agreeing_init ?_).1
    intro es s e t h hstep hagrees
    exact ⟨(Step.agrees_iff h.1 h.2 hstep).mp hagrees, h.step hstep hagrees⟩

/-- Ten recordings of the stream have been stopped, an eleventh is active. -/
def elevenRecordings : Archive where
  recordings := (List.range 11).map fun i =>
    ⟨.ofNat i, if i = 10 then 0 else 1, 7, 10, "aeron:udp", .ofNat (i + 100)⟩
  channelMatches fragment channel := fragment == channel
  stopsUnknown := false
  nonneg := by decide
  ids := by decide
  subscriptions := by decide

/-- The listing ends before the active recording, the archive refuses a second one, and the
controller takes a stopped recording for its own. -/
theorem stopped_recording_adopted : ∃ es s, Run system es s ∧ startedSince es = true ∧
    s.controller.recording_id_ = 9 ∧ ¬ Controls s.controller s.archive := by
  have r₀ : Run system [] ⟨create "aeron:udp" 10, elevenRecordings⟩ :=
    .init ⟨"aeron:udp", 10, rfl⟩
  have r₁ := r₀.step (.start (.throws "recording exists for streamId=10") rfl)
  have hstopped : ∀ r ∈ elevenRecordings.recordings, r.recordingId = 9 → r.active = false := by
    decide
  refine ⟨_, _, r₁, by decide, by decide, fun h => ?_⟩
  obtain ⟨r, hr, hid, hactive, -⟩ := h.active
  rw [hstopped r hr hid] at hactive
  cases hactive

end RecordingController

end AeronReplay
