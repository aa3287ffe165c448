import Mathlib.Data.List.Nodup

set_option autoImplicit false

/-! # The archive's catalog

What the publisher and the subscriber use of the Aeron Archive: a catalog of recordings, the
listing of a stream's recordings, the newest of them, and starting and stopping a recording. The
archive is not part of this repository. What is modelled is what the code relies on: an active
recording has `stopTimestamp` 0, a recording starts under a recording id and a subscription id
that no other recording has, and stopping a subscription id ends the recording that was started
under it. How a channel fragment is compared with a channel, and what stopping an unknown
subscription id answers, is left open. -/

namespace AeronReplay

/-- A recording, with those fields of its descriptor that are looked at, and the subscription id
it was started under, which the descriptor does not show. -/
structure Recording where
  recordingId : Int64
  stopTimestamp : Int64
  sessionId : Int32
  streamId : Int32
  channel : String
  subscriptionId : Int64
  deriving DecidableEq, Repr

def Recording.active (r : Recording) : Bool := r.stopTimestamp == 0

/-- The recording once it has been stopped, if `p` says that it is one of those to stop. -/
def Recording.stop (p : Recording → Bool) (now : Int64) (r : Recording) : Recording :=
  if p r then { r with stopTimestamp := now } else r

theorem Recording.stop_of_pos {p : Recording → Bool} {r : Recording} (now : Int64)
    (h : p r = true) : r.stop p now = { r with stopTimestamp := now } :=
  if_pos h

theorem Recording.stop_of_neg {p : Recording → Bool} {r : Recording} (now : Int64)
    (h : p r = false) : r.stop p now = r :=
  if_neg (by rw [h]; decide)

@[simp] theorem Recording.stop_recordingId (p : Recording → Bool) (now : Int64) (r : Recording) :
    (r.stop p now).recordingId = r.recordingId := by
  unfold Recording.stop
  split <;> rfl

@[simp] theorem Recording.stop_streamId (p : Recording → Bool) (now : Int64) (r : Recording) :
    (r.stop p now).streamId = r.streamId := by
  unfold Recording.stop
  split <;> rfl

@[simp] theorem Recording.stop_channel (p : Recording → Bool) (now : Int64) (r : Recording) :
    (r.stop p now).channel = r.channel := by
  unfold Recording.stop
  split <;> rfl

@[simp] theorem Recording.stop_subscriptionId (p : Recording → Bool) (now : Int64)
    (r : Recording) : (r.stop p now).subscriptionId = r.subscriptionId := by
  unfold Recording.stop
  split <;> rfl

structure Archive where
  /-- The catalog, oldest recording first. -/
  recordings : List Recording
  /-- Whether a channel fragment matches a recorded channel. -/
  channelMatches : String → String → Bool
  /-- Whether `stopRecording` returns for an id under which nothing is being recorded. -/
  stopsUnknown : Bool
  nonneg : ∀ r ∈ recordings, 0 ≤ r.recordingId
  ids : (recordings.map Recording.recordingId).Nodup
  subscriptions : (recordings.map Recording.subscriptionId).Nodup

namespace Archive

theorem nonneg_nil : ∀ r ∈ ([] : List Recording), 0 ≤ r.recordingId := by decide

variable {a : Archive} {r q : Recording} {channel : String} {streamId : Int32}

theorem eq_of_recordingId (hr : r ∈ a.recordings) (hq : q ∈ a.recordings)
    (h : r.recordingId = q.recordingId) : r = q :=
  List.inj_on_of_nodup_map a.ids hr hq h

theorem eq_of_subscriptionId (hr : r ∈ a.recordings) (hq : q ∈ a.recordings)
    (h : r.subscriptionId = q.subscriptionId) : r = q :=
  List.inj_on_of_nodup_map a.subscriptions hr hq h

/-! ## Listing -/

/-- The recordings of a stream from `fromRecordingId` on. -/
def ofStream (a : Archive) (fromRecordingId : Int64) (channelFragment : String)
    (streamId : Int32) : List Recording :=
  a.recordings.filter fun r =>
    fromRecordingId ≤ r.recordingId && a.channelMatches channelFragment r.channel &&
      r.streamId == streamId

/-- The descriptors that the consumer of `listRecordingsForUri` is called with. -/
def listRecordingsForUri (a : Archive) (fromRecordingId : Int64) (recordCount : Nat)
    (channelFragment : String) (streamId : Int32) : List Recording :=
  (a.ofStream fromRecordingId channelFragment streamId).take recordCount

theorem mem_of_listed {fromRecordingId : Int64} {recordCount : Nat}
    (h : r ∈ a.listRecordingsForUri fromRecordingId recordCount channel streamId) :
    r ∈ a.recordings ∧ a.channelMatches channel r.channel = true ∧ r.streamId = streamId := by
  have hstream := List.mem_filter.mp (List.mem_of_mem_take h)
  simp only [Bool.and_eq_true, beq_iff_eq] at hstream
  exact ⟨hstream.1, hstream.2.1.2, hstream.2.2⟩

/-- `findLastMatchingRecording` for any session: the newest recording of the stream;
-1 is `NULL_VALUE`. -/
def findLastMatchingRecording (a : Archive) (minRecordingId : Int64) (channelFragment : String)
    (streamId : Int32) : Int64 :=
  ((a.ofStream minRecordingId channelFragment streamId).getLast?.map
    Recording.recordingId).getD (-1)

/-! ## Starting a recording -/

/-- What the archive assigns to a new recording. -/
structure New (a : Archive) where
  recordingId : Int64
  sessionId : Int32
  subscriptionId : Int64
  nonneg : 0 ≤ recordingId
  id_fresh : recordingId ∉ a.recordings.map Recording.recordingId
  subscription_fresh : subscriptionId ∉ a.recordings.map Recording.subscriptionId

def New.recording (new : a.New) (channel : String) (streamId : Int32) : Recording where
  recordingId := new.recordingId
  stopTimestamp := 0
  sessionId := new.sessionId
  streamId := streamId
  channel := channel
  subscriptionId := new.subscriptionId

def startRecording (a : Archive) (channel : String) (streamId : Int32) (new : a.New) :
    Archive := { a with
  recordings := a.recordings ++ [new.recording channel streamId]
  nonneg := by
    intro r hr
    obtain hr | hr := List.mem_append.mp hr
    · exact a.nonneg r hr
    · obtain rfl := List.mem_singleton.mp hr
      exact new.nonneg
  ids := by
    rw [List.map_append, List.nodup_append_comm]
    exact List.nodup_cons.mpr ⟨new.id_fresh, a.ids⟩
  subscriptions := by
    rw [List.map_append, List.nodup_append_comm]
    exact List.nodup_cons.mpr ⟨new.subscription_fresh, a.subscriptions⟩ }

theorem ofStream_startRecording (a : Archive) (channel : String) (streamId : Int32)
    (new : a.New) (fromRecordingId : Int64) (channelFragment : String) (id : Int32) :
    (a.startRecording channel streamId new).ofStream fromRecordingId channelFragment id =
      a.ofStream fromRecordingId channelFragment id ++
        [new.recording channel streamId].filter fun r =>
          fromRecordingId ≤ r.recordingId && a.channelMatches channelFragment r.channel &&
            r.streamId == id :=
  List.filter_append _ _

/-! ## Stopping a recording -/

/-- The catalog after the recordings `p` have been stopped. -/
def stopWhere (a : Archive) (p : Recording → Bool) (now : Int64) : Archive := { a with
  recordings := a.recordings.map (·.stop p now)
  nonneg := by
    intro r hr
    obtain ⟨q, hq, rfl⟩ := List.mem_map.mp hr
    rw [q.stop_recordingId]
    exact a.nonneg q hq
  ids := by
    rw [List.map_map]
    simpa [Function.comp_def] using a.ids
  subscriptions := by
    rw [List.map_map]
    simpa [Function.comp_def] using a.subscriptions }

/-- Stopping leaves the recordings of a stream what they are. -/
theorem ofStream_stopWhere (a : Archive) (p : Recording → Bool) (now : Int64)
    (fromRecordingId : Int64) (channelFragment : String) (streamId : Int32) :
    (a.stopWhere p now).ofStream fromRecordingId channelFragment streamId =
      (a.ofStream fromRecordingId channelFragment streamId).map (·.stop p now) := by
  show (a.recordings.map (·.stop p now)).filter _ = (a.recordings.filter _).map _
  rw [List.filter_map]
  congr 1
  refine List.filter_congr fun r _ => ?_
  simp only [Function.comp_apply, Recording.stop_recordingId, Recording.stop_channel,
    Recording.stop_streamId]
  rfl

/-- What is being recorded under a subscription id. -/
def recordsUnder (subscriptionId : Int64) (r : Recording) : Bool :=
  r.subscriptionId == subscriptionId && r.active

/-- `none` is an exception. -/
def stopRecording (a : Archive) (subscriptionId now : Int64) : Option Archive :=
  if a.stopsUnknown || a.recordings.any (recordsUnder subscriptionId) then
    some (a.stopWhere (recordsUnder subscriptionId) now)
  else
    none

def hasId (recordingId : Int64) (r : Recording) : Bool := r.recordingId == recordingId

theorem hasId_self (r : Recording) : hasId r.recordingId r = true := beq_self_eq_true _

/-- Between `a` and `b` the recording with this id has been stopped and nothing else. -/
def EndsExactly (a : Archive) (recordingId : Int64) (b : Archive) : Prop :=
  ∃ now, now ≠ 0 ∧ b.recordings = a.recordings.map (·.stop (hasId recordingId) now)

theorem stopRecording_eq_some {subscriptionId now : Int64} {b : Archive}
    (h : a.stopRecording subscriptionId now = some b) :
    b = a.stopWhere (recordsUnder subscriptionId) now := by
  unfold stopRecording at h
  split at h
  · exact (Option.some.inj h).symm
  · cases h

theorem stopRecording_eq_none_iff {subscriptionId now : Int64} :
    a.stopRecording subscriptionId now = none ↔
      a.stopsUnknown = false ∧ ∀ q ∈ a.recordings, recordsUnder subscriptionId q = false := by
  unfold stopRecording
  split
  · next h =>
      rw [Bool.or_eq_true, List.any_eq_true] at h
      refine iff_of_false (Option.some_ne_none _) ?_
      rintro ⟨hknown, hnone⟩
      obtain hunknown | ⟨q, hq, hunder⟩ := h
      · rw [hknown] at hunknown
        cases hunknown
      · rw [hnone q hq] at hunder
        cases hunder
  · next h =>
      rw [Bool.not_eq_true, Bool.or_eq_false_iff, List.any_eq_false] at h
      exact iff_of_true rfl ⟨h.1, fun q hq => Bool.eq_false_iff.mpr (h.2 q hq)⟩

/-- Stopping by subscription id ends exactly the active recording `r`, unless the id is that of
another recording or is unknown and stopping it returns all the same. -/
theorem stopRecording_endsExactly_iff (hr : r ∈ a.recordings) (hactive : r.active = true)
    (subscriptionId : Int64) {now : Int64} (hnow : now ≠ 0) :
    (∀ b, a.stopRecording subscriptionId now = some b → a.EndsExactly r.recordingId b) ↔
      r.subscriptionId = subscriptionId ∨ a.stopsUnknown = false ∧
        ∀ q ∈ a.recordings, recordsUnder subscriptionId q = false := by
  constructor
  · intro hends
    by_cases hid : r.subscriptionId = subscriptionId
    · exact .inl hid
    · right
      cases hstop : a.stopRecording subscriptionId now with
      | none => exact stopRecording_eq_none_iff.mp hstop
      | some b =>
          -- `r` should have been stopped and has not
          obtain ⟨t, ht, hb⟩ := hends b hstop
          rw [stopRecording_eq_some hstop] at hb
          have hkept : r.stop (recordsUnder subscriptionId) now = r :=
            r.stop_of_neg now (by simp [recordsUnder, hid])
          have hended : r.stop (hasId r.recordingId) t =
              { r with stopTimestamp := t } :=
            r.stop_of_pos t (hasId_self r)
          have hsame := List.map_inj_left.mp hb r hr
          rw [hkept, hended] at hsame
          have hzero : r.stopTimestamp = 0 := beq_iff_eq.mp hactive
          exact absurd ((congrArg Recording.stopTimestamp hsame).symm.trans hzero) ht
  · rintro (rfl | hunknown) b hstop
    · refine ⟨now, hnow, ?_⟩
      rw [stopRecording_eq_some hstop]
      refine List.map_inj_left.mpr fun q hq => ?_
      -- the recording under the subscription id is the one with the recording id
      by_cases hqr : q = r
      · rw [hqr, r.stop_of_pos now (by simp [recordsUnder, hactive]),
          r.stop_of_pos now (hasId_self r)]
      · have hid : q.recordingId ≠ r.recordingId := fun h => hqr (eq_of_recordingId hq hr h)
        have hsub : q.subscriptionId ≠ r.subscriptionId := fun h =>
          hqr (eq_of_subscriptionId hq hr h)
        rw [q.stop_of_neg now (by simp [recordsUnder, hsub]),
          q.stop_of_neg now (by simp [hasId, hid])]
    · rw [stopRecording_eq_none_iff.mpr hunknown] at hstop
      cases hstop

end Archive

end AeronReplay
