import AeronReplay.Archive.Catalog
import AeronReplay.Lib.Transition
import AeronReplay.Subscriber.Restart

set_option autoImplicit false

/-! # Resuming a replay

Recordings of the subscriber's stream are started and stopped while subscriber processes come and
go. A process that starts in `--replay-auto` mode reads a position from the checkpoint file and
lets the archive name the newest recording. The checkpoint does not say which recording the
position belongs to; `resume_iff` says when it is the newest one.

`origin` and `file_origin` are not in the program: they are the recording of the message whose
position is in the checkpoint and in its file. A message that no recording contains has none. -/

namespace AeronReplay.Resume

open Transition CheckpointManager AeronSubscriber

/-! ## Starting in `--replay-auto` mode -/

/-- `SubscriberConfig`, the fields that name the stream. -/
structure StreamConfig where
  subscription_channel : String
  subscription_stream_id : Int32

def SUBSCRIPTION_CHANNEL : String := "aeron:udp?endpoint=224.0.1.1:40456|interface=0.0.0.0"

def StreamConfig.channel (stream : StreamConfig) : String :=
  if stream.subscription_channel.isEmpty then SUBSCRIPTION_CHANNEL
  else stream.subscription_channel

/-- `findLatestRecording`; `answers` says whether the archive answers or throws. -/
def findLatestRecording (a : Archive) (answers : Bool) (channel : String) (streamId : Int32) :
    Int64 :=
  if answers then a.findLastMatchingRecording 0 channel streamId else -1

/-- The recording id and the start position that `startReplayMergeAuto` passes on to
`startReplayMerge` and this to `ReplayMerge`. -/
def startReplayMergeAuto (stream : StreamConfig) (a : Archive) (answers : Bool)
    (startPosition : Int64) : Option (Int64 × Int64) :=
  let recordingId := findLatestRecording a answers stream.channel stream.subscription_stream_id
  if recordingId < 0 then none else some (recordingId, startPosition)

/-- What `main` passes to `startReplayMergeAuto`, and whether it comes from the checkpoint. -/
def startPosition (checkpoint_position : Int64) (start_position : Int64) : Int64 × Bool :=
  if 0 < checkpoint_position then (checkpoint_position, true) else (start_position, false)

/-! ## Histories -/

structure Process where
  subscriber : AeronSubscriber
  origin : Option Int64
  /-- What the flush thread has read and not yet written. -/
  pending : Option (CheckpointData × Option Int64)

structure World where
  archive : Archive
  checkpoint_file : Option (List UInt8)
  file_origin : Option Int64
  process : Option Process

inductive Event where
  /-- A recording of the subscriber's stream has been started. -/
  | recordingStarted (recordingId : Int64)
  /-- `checkpoint_->update` with the position of a message. -/
  | checkpointed (origin : Option Int64) (position : Int64)
  | processStarted (replay_auto_mode answers : Bool)
  /-- What `ReplayMerge` is given, and whether the position comes from the checkpoint. -/
  | replayMerge (recordingId startPosition : Int64) (fromCheckpoint : Bool)
  deriving DecidableEq

/-- The tuple that a starting process loads. -/
def World.loaded (w : World) : CheckpointData := load w.checkpoint_file .zero

/-- The recordings of the stream. -/
def World.recordings (stream : StreamConfig) (w : World) : List Recording :=
  w.archive.ofStream 0 stream.channel stream.subscription_stream_id

variable {PoolSize : Nat} {Pointer : Type} (N : Ring.Size) (addr : Fin PoolSize → Pointer)
  (config : SubscriberConfig) (stream : StreamConfig)

/-- Whether a recording that is started on this channel and stream id is one of the
subscriber's. -/
def World.listens (w : World) (channel : String) (streamId : Int32) : Bool :=
  w.archive.channelMatches stream.channel channel && streamId == stream.subscription_stream_id

/-- What `main` does, steps 8 and 9, as far as `ReplayMerge` is concerned. -/
def World.startEvents (w : World) (replay_auto_mode answers : Bool) (start_position : Int64) :
    List Event :=
  .processStarted replay_auto_mode answers ::
    if replay_auto_mode then
      let start := startPosition w.loaded.last_position start_position
      match startReplayMergeAuto stream w.archive answers start.1 with
      | none => []
      | some (recordingId, position) => [.replayMerge recordingId position start.2]
    else
      []

/-- The messages of the fast path come from a recording, by replay or while it is being made, or
are not recorded. -/
inductive Step : World → List Event → World → Prop
  | startRecording {w : World} (channel : String) (streamId : Int32) (new : w.archive.New) :
      Step w
        (if w.listens stream channel streamId then [.recordingStarted new.recordingId] else [])
        { w with archive := w.archive.startRecording channel streamId new }
  | stopRecordings {w : World} (p : Recording → Bool) (now : Int64) :
      Step w [] { w with archive := w.archive.stopWhere p now }
  | start {w : World} (hnone : w.process = none) (replay_auto_mode answers : Bool)
      (start_position : Int64) :
      Step w (w.startEvents stream replay_auto_mode answers start_position)
        { w with process := some {
          subscriber := fresh config (some w.loaded)
          origin := w.file_origin
          pending := none } }
  | receive {w : World} {p : Process} (hp : w.process = some p) (d : Delivery PoolSize Pointer)
      (recording : Option Int64)
      (hrecording : ∀ id ∈ recording, id ∈ (w.recordings stream).map Recording.recordingId)
      {o : Outcome PoolSize Pointer}
      (ho : handleMessageFastPath N addr config p.subscriber d = o) :
      Step w
        (if o.exit = .delivered then [.checkpointed recording d.fragment.position] else [])
        { w with process := some { p with
          subscriber := o.subscriber
          origin := if o.exit = .delivered then recording else p.origin } }
  | flushReads {w : World} {p : Process} (hp : w.process = some p) {c : CheckpointData}
      (hc : p.subscriber.checkpoint_ = some c) (hdata : c.isEmpty = false) :
      Step w [] { w with process := some { p with pending := some (c, p.origin) } }
  | flushWrites {w : World} {p : Process} (hp : w.process = some p) {c : CheckpointData}
      {origin : Option Int64} (hpending : p.pending = some (c, origin)) :
      Step w [] { w with
        checkpoint_file := some (record c)
        file_origin := origin
        process := some { p with pending := none } }
  | exit {w : World} {p : Process} (hp : w.process = some p) :
      Step w [] { w with process := none }

/-- Histories begin before the first recording of the stream and the first process. -/
structure Initial (w : World) : Prop where
  recordings : w.recordings stream = []
  checkpoint_file : w.checkpoint_file = none
  process : w.process = none

def system : Lts World Event := ⟨Initial stream, Step N addr config stream⟩

/-! ## The newest recording -/

def Event.recordingStarted? : Event → Option Int64
  | .recordingStarted recordingId => some recordingId
  | _ => none

/-- The recordings of the stream in the order in which they have been started. -/
def startedIds (es : List Event) : List Int64 := es.filterMap Event.recordingStarted?

/-- No recording of the stream has been started after the one called `origin`, or none at all. -/
def Newest (es : List Event) (origin : Option Int64) : Prop :=
  (∀ x, .recordingStarted x ∉ es) ∨
    ∃ id before after, origin = some id ∧ es = before ++ .recordingStarted id :: after ∧
      ∀ x, .recordingStarted x ∉ after

theorem startedIds_eq_nil_iff (es : List Event) :
    startedIds es = [] ↔ ∀ x, .recordingStarted x ∉ es := by
  unfold startedIds
  rw [List.filterMap_eq_nil_iff]
  constructor
  · intro h x hx
    cases h _ hx
  · intro h e he
    cases e with
    | recordingStarted x => exact absurd he (h x)
    | checkpointed | processStarted | replayMerge => rfl

theorem newest_iff (es : List Event) (origin : Option Int64) :
    Newest es origin ↔ ∀ id, (startedIds es).getLast? = some id → origin = some id := by
  constructor
  · rintro (hnone | ⟨id, before, after, rfl, rfl, hafter⟩) id' hlast
    · rw [(startedIds_eq_nil_iff es).mpr hnone] at hlast
      cases hlast
    · have hids : startedIds (before ++ .recordingStarted id :: after) =
          startedIds before ++ [id] := by
        have hnil := (startedIds_eq_nil_iff after).mpr hafter
        unfold startedIds at hnil ⊢
        rw [List.filterMap_append, List.filterMap_cons, hnil]
        rfl
      rw [hids, List.getLast?_concat] at hlast
      exact hlast
  · intro h
    cases hlast : (startedIds es).getLast? with
    | none => exact .inl ((startedIds_eq_nil_iff es).mp (List.getLast?_eq_none_iff.mp hlast))
    | some id =>
        -- the history splits at the event that has started the last recording
        obtain ⟨ids, hids⟩ := List.getLast?_eq_some_iff.mp hlast
        obtain ⟨xs, ys, rfl, -, hys⟩ := List.filterMap_eq_append_iff.mp hids
        obtain ⟨between, e, after, rfl, -, he, hafter⟩ := List.filterMap_eq_cons_iff.mp hys
        cases e with
        | recordingStarted x =>
            cases he
            refine .inr ⟨id, xs ++ between, after, h id hlast, by simp, ?_⟩
            exact (startedIds_eq_nil_iff after).mp hafter
        | checkpointed | processStarted | replayMerge => cases he

variable {N addr config stream} {es e : List Event} {w t : World}

theorem startEvents_eq (w : World) (replay_auto_mode answers : Bool) (start_position : Int64) :
    w.startEvents stream replay_auto_mode answers start_position =
      .processStarted replay_auto_mode answers ::
        if replay_auto_mode && answers then
          (w.recordings stream).getLast?.toList.map fun r => .replayMerge r.recordingId
            (startPosition w.loaded.last_position start_position).1
            (startPosition w.loaded.last_position start_position).2
        else [] := by
  unfold World.startEvents startReplayMergeAuto findLatestRecording
  cases replay_auto_mode with
  | false => rfl
  | true =>
      cases answers with
      | false => rfl
      | true =>
          dsimp only
          rw [if_pos rfl, if_pos rfl, Bool.and_self, if_pos rfl]
          unfold Archive.findLastMatchingRecording
          show _ = _ :: List.map _ (w.archive.ofStream 0 stream.channel
            stream.subscription_stream_id).getLast?.toList
          cases hlast : (w.archive.ofStream 0 stream.channel
              stream.subscription_stream_id).getLast? with
          | none => rfl
          | some r =>
              have hr : r ∈ w.archive.recordings := List.mem_of_mem_filter
                (List.mem_of_getLast? hlast)
              rw [Option.map_some, Option.getD_some,
                if_neg (Int64.not_lt.mpr (w.archive.nonneg r hr))]
              rfl

theorem Step.recordings (h : Step N addr config stream w e t) :
    (t.recordings stream).map Recording.recordingId =
      (w.recordings stream).map Recording.recordingId ++ startedIds e := by
  cases h with
  | startRecording channel streamId new =>
      have hpos : (decide ((0 : Int64) ≤ new.recordingId)) = true := decide_eq_true new.nonneg
      unfold World.recordings
      dsimp only
      rw [Archive.ofStream_startRecording, List.map_append, List.filter_singleton]
      congr 1
      unfold World.listens Archive.New.recording
      dsimp only
      rw [hpos, Bool.true_and]
      split
      · next hlistens =>
          rw [hlistens]
          rfl
      · next hlistens =>
          -- a recording of another stream enters the catalog and not the list
          rw [Bool.eq_false_iff.mpr hlistens]
          rfl
  | stopRecordings p now =>
      unfold World.recordings
      dsimp only
      rw [Archive.ofStream_stopWhere, List.map_map]
      simp [Function.comp_def, startedIds]
  | start hnone auto answers start_position =>
      have hids : startedIds (w.startEvents stream auto answers start_position) = [] := by
        rw [startedIds_eq_nil_iff, startEvents_eq]
        intro x hx
        split at hx <;> simp at hx
      rw [hids, List.append_nil]
      rfl
  | receive hp d recording hrecording ho =>
      split <;> simp [World.recordings, startedIds, Event.recordingStarted?]
  | flushReads | flushWrites | exit => exact (List.append_nil _).symm

theorem startedIds_run (r : Run (system N addr config stream) es w) :
    (w.recordings stream).map Recording.recordingId = startedIds es := by
  refine Run.invariant (I := fun es w =>
    (w.recordings stream).map Recording.recordingId = startedIds es) ?_ ?_ r
  · intro w h
    rw [h.recordings]
    rfl
  · intro es w e t ih hstep
    calc (t.recordings stream).map Recording.recordingId
        = (w.recordings stream).map Recording.recordingId ++ startedIds e := hstep.recordings
      _ = startedIds es ++ startedIds e := by rw [ih]
      _ = startedIds (es ++ e) := List.filterMap_append.symm

/-! ## Where positions come from -/

/-- A positive position has been checkpointed from a message of `origin`. -/
def Known (es : List Event) (origin : Option Int64) (c : CheckpointData) : Prop :=
  0 < c.last_position → .checkpointed origin c.last_position ∈ es

theorem Known.append {origin : Option Int64} {c : CheckpointData} (h : Known es origin c)
    (e : List Event) : Known (es ++ e) origin c := fun hpos =>
  List.mem_append_left e (h hpos)

/-- The positions in the file, in memory and under way between the two are known. -/
structure Traced (es : List Event) (w : World) : Prop where
  file : ∀ bytes, w.checkpoint_file = some bytes →
    ∃ c, bytes = record c ∧ Known es w.file_origin c
  memory : ∀ p, w.process = some p → ∀ c, p.subscriber.checkpoint_ = some c → Known es p.origin c
  pending : ∀ p, w.process = some p → ∀ c origin, p.pending = some (c, origin) →
    Known es origin c

theorem Traced.loaded (h : Traced es w) : Known es w.file_origin w.loaded := by
  unfold World.loaded
  cases hfile : w.checkpoint_file with
  | none => exact fun hpos => absurd hpos (by decide)
  | some bytes =>
      obtain ⟨c, rfl, hc⟩ := h.file bytes hfile
      rw [load_record]
      exact hc

/-- What the fast path leaves in the checkpoint. -/
theorem checkpoint_cases (N : Ring.Size) (addr : Fin PoolSize → Pointer)
    (config : SubscriberConfig) (s : AeronSubscriber) (d : Delivery PoolSize Pointer) :
    (handleMessageFastPath N addr config s d).exit = .delivered ∧
      (∀ c, (handleMessageFastPath N addr config s d).subscriber.checkpoint_ = some c →
        c.last_position = d.fragment.position) ∨
    (handleMessageFastPath N addr config s d).exit ≠ .delivered ∧
      (handleMessageFastPath N addr config s d).subscriber.checkpoint_ = s.checkpoint_ := by
  have hspec := handleMessageFastPath_spec N addr config s d
  generalize handleMessageFastPath N addr config s d = o at hspec ⊢
  cases hspec with
  | allocationFailed | duplicate | queueFull => exact .inr ⟨by simp, rfl⟩
  | delivered =>
      refine .inl ⟨rfl, fun c hc => ?_⟩
      obtain ⟨_, -, rfl⟩ := Option.map_eq_some_iff.mp hc
      rfl

theorem Traced.append (h : Traced es w) (e : List Event) : Traced (es ++ e) w where
  file bytes hbytes := by
    obtain ⟨c, hc, hknown⟩ := h.file bytes hbytes
    exact ⟨c, hc, hknown.append e⟩
  memory p hp c hc := (h.memory p hp c hc).append e
  pending p hp c origin hc := (h.pending p hp c origin hc).append e

theorem Traced.step (hT : Traced es w) (h : Step N addr config stream w e t) :
    Traced (es ++ e) t := by
  have hkept := hT.append e
  cases h with
  | startRecording | stopRecordings => exact ⟨hkept.file, hkept.memory, hkept.pending⟩
  | start =>
      refine ⟨hkept.file, ?_, ?_⟩
      · rintro p hp c hc
        cases hp
        cases hc
        exact hkept.loaded
      · rintro p hp c origin hc
        cases hp
        cases hc
  | @receive p hp d recording _ o ho =>
      refine ⟨hkept.file, ?_, ?_⟩
      · rintro q hq c hc
        cases hq
        subst ho
        -- a delivered message brings its position along, any other leaves the tuple alone
        obtain ⟨hexit, hposition⟩ | ⟨hexit, hsame⟩ :=
          checkpoint_cases N addr config p.subscriber d
        · rw [if_pos hexit, if_pos hexit]
          intro _
          rw [hposition c hc]
          exact List.mem_append_right es (List.mem_singleton_self _)
        · rw [if_neg hexit, if_neg hexit]
          dsimp only at hc
          rw [hsame] at hc
          exact (hT.memory p hp c hc).append _
      · rintro q hq
        cases hq
        exact hkept.pending p hp
  | @flushReads p hp c hc _ =>
      refine ⟨hkept.file, ?_, ?_⟩
      · rintro q hq
        cases hq
        exact hkept.memory p hp
      · rintro q hq _ _ heq
        cases hq
        cases heq
        exact hkept.memory p hp c hc
  | @flushWrites p hp c origin hpending =>
      refine ⟨?_, ?_, ?_⟩
      · rintro bytes hbytes
        cases hbytes
        exact ⟨c, rfl, hkept.pending p hp c origin hpending⟩
      · rintro q hq
        cases hq
        exact hkept.memory p hp
      · rintro q hq _ _ heq
        cases hq
        cases heq
  | exit hp =>
      refine ⟨hkept.file, ?_, ?_⟩
      · rintro q hq
        cases hq
      · rintro q hq
        cases hq

theorem traced_run (r : Run (system N addr config stream) es w) : Traced es w := by
  refine Run.invariant (I := Traced) ?_ (fun _ _ _ _ h hstep => h.step hstep) r
  intro w h
  refine ⟨fun bytes hb => ?_, fun p hp => ?_, fun p hp => ?_⟩
  · rw [h.checkpoint_file] at hb
    cases hb
  · rw [h.process] at hp
    cases hp
  · rw [h.process] at hp
    cases hp

/-! ## Resuming -/

/-- Whenever a checkpointed position is handed to `ReplayMerge`, it is that of a message of the
recording that is handed over with it. -/
def ResumesOwn : Guard World Event := fun es w e _ =>
  ∀ recordingId position, .replayMerge recordingId position true ∈ e →
    w.file_origin = some recordingId ∧ .checkpointed (some recordingId) position ∈ es

/-- Whenever a process starts in `--replay-auto` mode on a checkpoint with a position, and the
archive answers it, no recording of the stream has been started after the one of the message
with that position. -/
def StillNewest : Guard World Event := fun es w e _ =>
  .processStarted true true ∈ e → 0 < w.loaded.last_position → Newest es w.file_origin

theorem Step.resumes_iff (r : Run (system N addr config stream) es w)
    (h : Step N addr config stream w e t) :
    ResumesOwn es w e t ↔ StillNewest es w e t := by
  unfold ResumesOwn StillNewest
  cases h with
  | stopRecordings | flushReads | flushWrites | exit => exact iff_of_true (by simp) (by simp)
  | startRecording | receive => split <;> exact iff_of_true (by simp) (by simp)
  | start hnone auto answers start_position =>
      rw [startEvents_eq]
      cases hauto : auto && answers with
      | false =>
          refine iff_of_true (fun id position h => ?_) fun h => ?_
          · simp at h
          · cases auto <;> cases answers <;> simp at hauto h
      | true =>
          obtain ⟨rfl, rfl⟩ := Bool.and_eq_true_iff.mp hauto
          rw [newest_iff, ← startedIds_run r, List.getLast?_map, if_pos rfl]
          -- the recording that is handed over is the one that has been started last
          cases (w.recordings stream).getLast? with
          | none => simp
          | some q =>
              unfold startPosition
              split
              · next hpos =>
                  constructor
                  · intro h _ _ id hid
                    cases hid
                    exact (h q.recordingId w.loaded.last_position (by simp)).1
                  · intro h id position hevent
                    have horigin := h (by simp) hpos q.recordingId rfl
                    simp only [Option.toList_some, List.map_cons, List.map_nil, List.mem_cons,
                      List.not_mem_nil, or_false, reduceCtorEq, false_or,
                      Event.replayMerge.injEq] at hevent
                    obtain ⟨rfl, rfl, -⟩ := hevent
                    exact ⟨horigin, horigin ▸ (traced_run r).loaded hpos⟩
              · next hpos =>
                  exact iff_of_true (fun id position h => by simp at h) fun _ h => absurd h hpos

/-- **When a resumed position belongs to the recording that is replayed.** In a history every
checkpointed position that is handed to `ReplayMerge` is that of a message of the recording
handed over with it, exactly when no process resumes after a newer recording has been started. -/
theorem resume_iff (N : Ring.Size) (addr : Fin PoolSize → Pointer) (config : SubscriberConfig)
    (stream : StreamConfig) (es : List Event) (w : World) :
    RunWhere (system N addr config stream) StillNewest es w ↔
      RunWhere (system N addr config stream) ResumesOwn es w := by
  constructor
  · intro r
    refine (r.transfer (I := Run (system N addr config stream)) (fun _ h => .init h) ?_).1
    intro es w e t r h hnewest
    exact ⟨(h.resumes_iff r).mpr hnewest, r.step h⟩
  · intro r
    refine (r.transfer (I := Run (system N addr config stream)) (fun _ h => .init h) ?_).1
    intro es w e t r h hresumes
    exact ⟨(h.resumes_iff r).mp hresumes, r.step h⟩

def Event.checkpointed? : Event → Option (Option Int64)
  | .checkpointed origin _ => some origin
  | _ => none

theorem Event.checkpointed?_checkpointed (origin : Option Int64) (position : Int64) :
    (Event.checkpointed origin position).checkpointed? = some origin := rfl

/-- An archive without recordings. -/
def noRecordings : Archive where
  recordings := []
  channelMatches fragment channel := fragment == channel
  stopsUnknown := false
  nonneg := Archive.nonneg_nil
  ids := List.nodup_nil
  subscriptions := List.nodup_nil

/-- The program with a small duplicate window, on the default channel. -/
def smallWindow : Lts World Event :=
  system overloadSize (Fin.val : Fin 1024 → Nat) { duplicate_window_size := 2 } ⟨"", 10⟩

/-- A message of recording 0 at position 4096 is checkpointed. The publisher restarts and records
anew; the subscriber restarts and replays recording 1 from 4096. -/
theorem old_position_in_new_recording : ∃ es w, Run smallWindow es w ∧
    .replayMerge 1 4096 true ∈ es ∧ ∀ position, .checkpointed (some 1) position ∉ es := by
  have r₀ : Run smallWindow [] ⟨noRecordings, none, none, none⟩ := .init ⟨rfl, rfl, rfl⟩
  have r₁ := r₀.step (.startRecording SUBSCRIPTION_CHANNEL 10
    ⟨0, 7, 100, by decide, by decide, by decide⟩)
  -- the first process
  have r₂ := r₁.step (.start rfl true true 0)
  have r₃ := r₂.step (.receive rfl (arriving 1 4096) (some 0)
    (fun id hid => by cases hid; exact List.mem_singleton_self _) rfl)
  have r₄ := r₃.step (.flushReads rfl rfl (by decide))
  have r₅ := r₄.step (.flushWrites rfl rfl)
  have r₆ := r₅.step (.exit rfl)
  -- the publisher goes and comes back
  have r₇ := r₆.step (.stopRecordings (fun _ => true) 1)
  have r₈ := r₇.step (.startRecording SUBSCRIPTION_CHANNEL 10
    ⟨1, 8, 101, by decide, by decide, by decide⟩)
  -- the second process
  have r₉ := r₈.step (.start rfl true true 0)
  refine ⟨_, _, r₉, by decide, fun position hmem => ?_⟩
  have horigin := List.mem_filterMap.mpr ⟨_, hmem, Event.checkpointed?_checkpointed _ _⟩
  exact absurd horigin (by decide)

end AeronReplay.Resume
