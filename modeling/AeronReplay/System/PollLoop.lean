import AeronReplay.System.Resume

set_option autoImplicit false

/-! # Starting and polling

What `main` does with the subscriber up to its thread (steps 6 to 9), and the loop of
`AeronSubscriber::run` on that thread: which object is polled in an iteration, what becomes of
the fragments, and how the loop ends. Whatever Aeron answers, a subscriber that has been started
polls in every iteration, and the fast path is called for the polled fragments one after the
other as if they came from one source, across the change from the replay to the live stream
(`started_receives`).

What Aeron and the archive answer is a parameter. Waiting for `findSubscription` and sleeping are
left out, and so is `shutdown` except that it clears `running_`: what happens when it resets the
pointers while the loop uses them is the subject of `System.Release`. -/

namespace AeronReplay.PollLoop

open CheckpointManager AeronSubscriber

variable {PoolSize : Nat} {Pointer : Type} (N : Ring.Size) (addr : Fin PoolSize → Pointer)
  (config : SubscriberConfig)

/-! ## The subscriber -/

/-- The members of a subscriber that the start and the loop test, and its history. Of a pointer
it is known whether it is null, of `replay_merge_` also what it has been constructed with. -/
structure Receiver where
  running_ : Bool
  buffer_pool_ : Bool
  message_queue_ : Bool
  archive_ : Bool
  subscription_ : Bool
  replay_merge_ : Option (Int64 × Int64)
  feed : Feed

/-- `AeronSubscriber(config)` -/
def Receiver.new : Receiver where
  running_ := false
  buffer_pool_ := false
  message_queue_ := false
  archive_ := false
  subscription_ := false
  replay_merge_ := none
  feed := ⟨fresh config none, [], [], []⟩

/-- What Aeron and the archive answer: whether the calls return, and the catalog. -/
structure Environment where
  archive : Archive
  /-- `Aeron::connect` and `AeronArchive::connect` -/
  connects : Bool
  /-- `findLastMatchingRecording` -/
  answers : Bool
  /-- `addSubscription` in `startReplayMerge` -/
  subscribes : Bool
  /-- the constructor of `ReplayMerge` -/
  merges : Bool
  /-- `addSubscription` in `startLive` -/
  subscribesLive : Bool

namespace Receiver

variable (r : Receiver) (env : Environment)

/-- `initialize` -/
def initialize_ : Bool × Receiver :=
  if env.connects then (true, { r with archive_ := true, running_ := true }) else (false, r)

/-- `initializeZeroCopy` with the addresses of a pool and a queue. -/
def initializeZeroCopy : Receiver := { r with buffer_pool_ := true, message_queue_ := true }

/-- `enableCheckpoint` on this checkpoint file. -/
def enableCheckpoint (file : Option (List UInt8)) : Receiver :=
  { r with feed.subscriber.checkpoint_ := some (load file .zero) }

/-- `startLive`, which returns `true` or lets an exception out. -/
def startLive : Option Receiver :=
  if env.subscribesLive then some { r with subscription_ := true } else none

/-- `startReplayMerge`, which catches all exceptions. -/
def startReplayMerge (recordingId startPosition : Int64) : Bool × Receiver :=
  if !env.subscribes then (false, r)
  else
    let r := { r with subscription_ := true }
    if !env.merges then (false, r)
    else (true, { r with replay_merge_ := some (recordingId, startPosition) })

def startReplayMergeAuto (stream : Resume.StreamConfig) (startPosition : Int64) :
    Bool × Receiver :=
  match Resume.startReplayMergeAuto stream env.archive env.answers startPosition with
  | none => (false, r)
  | some (recordingId, position) => r.startReplayMerge env recordingId position

end Receiver

/-- How the start ends. -/
inductive Started where
  /-- `return 1` -/
  | failed
  /-- An exception leaves `main`. -/
  | terminated
  /-- The subscriber thread is created. -/
  | runs (r : Receiver)

/-- `if (!subscriber.startLive())`, where the call does not return `false`. -/
def Receiver.live (r : Receiver) (env : Environment) : Started :=
  match r.startLive env with
  | none => .terminated
  | some r => .runs r

/-- `main`, steps 6 to 9. -/
def start (stream : Resume.StreamConfig) (env : Environment) (file : Option (List UInt8))
    (replay_auto_mode : Bool) (start_position : Int64) : Started :=
  match (Receiver.new config).initialize_ env with
  | (false, _) => .failed
  | (true, r) =>
    let r := r.initializeZeroCopy.enableCheckpoint file
    let start_position :=
      if replay_auto_mode then
        (Resume.startPosition (load file .zero).last_position start_position).1
      else start_position
    if replay_auto_mode then
      match r.startReplayMergeAuto env stream start_position with
      | (true, r) => .runs r
      | (false, r) => r.live env
    else r.live env

/-! ## The loop -/

/-- What an iteration of the loop meets. -/
structure Iteration (PoolSize : Nat) (Pointer : Type) where
  /-- `shutdown` has cleared `running_`. -/
  stopped : Bool
  /-- What `poll` calls the fragment handler with. -/
  fragments : List (Delivery PoolSize Pointer)
  isMerged : Bool
  hasFailed : Bool

def handleMessage (r : Receiver) (d : Delivery PoolSize Pointer) : Receiver :=
  if r.buffer_pool_ && r.message_queue_ then { r with feed := r.feed.next N addr config d }
  else { r with running_ := false }

/-- One iteration, and whether the loop goes on. -/
def iterate (r : Receiver) (it : Iteration PoolSize Pointer) : Bool × Receiver :=
  let r := if it.stopped then { r with running_ := false } else r
  if !r.running_ then (false, r)
  else
    match r.replay_merge_ with
    | some _ =>
      let r := it.fragments.foldl (handleMessage N addr config) r
      if it.isMerged then (true, { r with replay_merge_ := none })
      else if it.hasFailed then (false, { r with replay_merge_ := none })
      else (true, r)
    | none =>
      if r.subscription_ then (true, it.fragments.foldl (handleMessage N addr config) r)
      else (true, r)

def loop (r : Receiver) : List (Iteration PoolSize Pointer) → Bool × Receiver
  | [] => (true, r)
  | it :: its =>
    match iterate N addr config r it with
    | (false, r) => (false, r)
    | (true, r) => loop r its

/-- `run`: whether it is still in its loop after these iterations, and the subscriber. -/
def run (r : Receiver) (its : List (Iteration PoolSize Pointer)) : Bool × Receiver :=
  if !r.subscription_ && r.replay_merge_.isNone then (false, r) else loop N addr config r its

variable {N addr config} {r : Receiver} {its : List (Iteration PoolSize Pointer)}
  {it : Iteration PoolSize Pointer} {env : Environment} {stream : Resume.StreamConfig}
  {file : Option (List UInt8)} {replay_auto_mode : Bool} {start_position : Int64}

/-! ## What the start leaves -/

/-- A subscriber that is ready to run: running, with pool, queue and subscription. -/
structure Ready (r : Receiver) : Prop where
  running_ : r.running_ = true
  buffer_pool_ : r.buffer_pool_ = true
  message_queue_ : r.message_queue_ = true
  subscription_ : r.subscription_ = true

/-- A new subscriber on the checkpoint file. -/
def newFeed (config : SubscriberConfig) (file : Option (List UInt8)) : Feed :=
  ⟨fresh config (some (load file .zero)), [], [], []⟩

theorem live_eq_runs {r' : Receiver} (h : r.live env = .runs r') :
    r' = { r with subscription_ := true } := by
  unfold Receiver.live Receiver.startLive at h
  cases hlive : env.subscribesLive with
  | false =>
      rw [hlive] at h
      cases h
  | true =>
      rw [hlive] at h
      cases h
      rfl

/-- The replay is set up, or nothing but a subscription is left of the attempt. -/
theorem startReplayMergeAuto_cases {position : Int64} {r' : Receiver} {ok : Bool}
    (h : r.startReplayMergeAuto env stream position = (ok, r')) :
    (ok = true ∧ ∃ replay,
      Resume.startReplayMergeAuto stream env.archive env.answers position = some replay ∧
        r' = { r with
          subscription_ := true
          replay_merge_ := some replay }) ∨
    (ok = false ∧ ∃ b, r' = { r with subscription_ := b }) := by
  unfold Receiver.startReplayMergeAuto at h
  cases hreplay : Resume.startReplayMergeAuto stream env.archive env.answers position with
  | none =>
      rw [hreplay] at h
      cases h
      exact .inr ⟨rfl, r.subscription_, rfl⟩
  | some replay =>
      rw [hreplay] at h
      dsimp only at h
      unfold Receiver.startReplayMerge at h
      cases hsubscribes : env.subscribes with
      | false =>
          rw [hsubscribes] at h
          cases h
          exact .inr ⟨rfl, r.subscription_, rfl⟩
      | true =>
          cases hmerges : env.merges with
          | false =>
              rw [hsubscribes, hmerges] at h
              cases h
              exact .inr ⟨rfl, true, rfl⟩
          | true =>
              rw [hsubscribes, hmerges] at h
              cases h
              exact .inl ⟨rfl, replay, rfl, rfl⟩

/-- A replay is under way only if it has been asked for, on the recording and from the position
that the archive and the checkpoint give. -/
def ReplayOf (stream : Resume.StreamConfig) (env : Environment) (file : Option (List UInt8))
    (replay_auto_mode : Bool) (start_position : Int64) (replay : Int64 × Int64) : Prop :=
  replay_auto_mode = true ∧
    Resume.startReplayMergeAuto stream env.archive env.answers
      (Resume.startPosition (load file .zero).last_position start_position).1 = some replay

theorem ready_of_start
    (h : start config stream env file replay_auto_mode start_position = .runs r) :
    Ready r ∧ r.feed = newFeed config file ∧ ∀ replay, r.replay_merge_ = some replay →
      ReplayOf stream env file replay_auto_mode start_position replay := by
  unfold start Receiver.initialize_ at h
  cases hconnects : env.connects with
  | false =>
      rw [hconnects] at h
      cases h
  | true =>
      rw [hconnects] at h
      cases replay_auto_mode with
      | false =>
          obtain rfl := live_eq_runs h
          exact ⟨⟨rfl, rfl, rfl, rfl⟩, rfl, fun _ hreplay => nomatch hreplay⟩
      | true =>
          simp only [if_true] at h
          split at h
          · next r' hauto =>
              cases h
              obtain ⟨-, replay, hreplay, rfl⟩ | ⟨hfalse, -⟩ := startReplayMergeAuto_cases hauto
              · refine ⟨⟨rfl, rfl, rfl, rfl⟩, rfl, fun replay' heq => ⟨rfl, ?_⟩⟩
                cases heq
                exact hreplay
              · cases hfalse
          · next r' hauto =>
              obtain rfl := live_eq_runs h
              obtain ⟨htrue, -⟩ | ⟨-, b, rfl⟩ := startReplayMergeAuto_cases hauto
              · cases htrue
              · exact ⟨⟨rfl, rfl, rfl, rfl⟩, rfl, fun _ hreplay => nomatch hreplay⟩

/-! ## What the loop does -/

/-- The fragments of these iterations, in the order in which they are polled. -/
def polled (its : List (Iteration PoolSize Pointer)) : List (Delivery PoolSize Pointer) :=
  its.flatMap Iteration.fragments

/-- The subscriber when these fragments have been handled. -/
def Receiver.handled (N : Ring.Size) (addr : Fin PoolSize → Pointer) (config : SubscriberConfig)
    (r : Receiver) (ds : List (Delivery PoolSize Pointer)) : Receiver :=
  { r with feed := ds.foldl (Feed.next N addr config) r.feed }

theorem handled_append (r : Receiver) (ds ds' : List (Delivery PoolSize Pointer)) :
    r.handled N addr config (ds ++ ds')
      = (r.handled N addr config ds).handled N addr config ds' := by
  unfold Receiver.handled
  rw [List.foldl_append]

theorem foldl_handleMessage (hpool : r.buffer_pool_ = true) (hqueue : r.message_queue_ = true)
    (ds : List (Delivery PoolSize Pointer)) :
    ds.foldl (handleMessage N addr config) r = r.handled N addr config ds := by
  induction ds generalizing r with
  | nil => rfl
  | cons d ds ih =>
      rw [List.foldl_cons, handleMessage, if_pos (by rw [hpool, hqueue]; rfl)]
      exact ih hpool hqueue

theorem loop_of_stopped (hstopped : it.stopped = true) (its : List (Iteration PoolSize Pointer)) :
    loop N addr config r (it :: its) = (false, { r with running_ := false }) := by
  rw [loop, iterate, hstopped]
  rfl

variable (N addr config) in
/-- The live loop goes on until it is told to stop. -/
theorem loop_live (hready : Ready r) (hlive : r.replay_merge_ = none)
    (its : List (Iteration PoolSize Pointer)) :
    ∃ live rest, its = live ++ rest ∧ (∀ it ∈ live, it.stopped = false) ∧
      ((rest = [] ∧ loop N addr config r its = (true, r.handled N addr config (polled live))) ∨
        ∃ it rest', rest = it :: rest' ∧ it.stopped = true ∧ loop N addr config r its
          = (false, { r.handled N addr config (polled live) with running_ := false })) := by
  induction its generalizing r with
  | nil => exact ⟨[], [], rfl, by simp, .inl ⟨rfl, rfl⟩⟩
  | cons it its ih =>
      cases hstopped : it.stopped with
      | true =>
          refine ⟨[], it :: its, rfl, by simp, .inr ⟨it, its, rfl, hstopped, ?_⟩⟩
          exact loop_of_stopped hstopped its
      | false =>
          have hnext : iterate N addr config r it
              = (true, r.handled N addr config it.fragments) := by
            simp [iterate, hstopped, hready.running_, hlive, hready.subscription_,
              foldl_handleMessage hready.buffer_pool_ hready.message_queue_]
          obtain ⟨live, rest, rfl, hrunning, hend⟩ :=
            ih (r := r.handled N addr config it.fragments)
              ⟨hready.running_, hready.buffer_pool_, hready.message_queue_,
                hready.subscription_⟩ hlive
          have hpolled : r.handled N addr config (polled (it :: live))
              = (r.handled N addr config it.fragments).handled N addr config (polled live) := by
            rw [polled, List.flatMap_cons, handled_append]
            rfl
          refine ⟨it :: live, rest, rfl, List.forall_mem_cons.mpr ⟨hstopped, hrunning⟩, ?_⟩
          rw [loop, hnext, hpolled]
          exact hend

/-- The iterations of a loop cut in three: those that poll the replay, those that poll the live
subscription, and those that do not take place. Only the last replay iteration may have found
the replay merged, which begins the live phase, or failed. -/
structure Phases (replays : Bool) (its replay live rest : List (Iteration PoolSize Pointer)) :
    Prop where
  split : its = replay ++ (live ++ rest)
  replaying : replays = false → replay = []
  running : ∀ it ∈ replay ++ live, it.stopped = false
  underWay : ∀ it ∈ replay.dropLast, it.isMerged = false ∧ it.hasFailed = false
  merged : replays = true → live ≠ [] → ∃ it, replay.getLast? = some it ∧ it.isMerged = true

/-- How a loop stands after the iterations in these phases: it goes on, or it has been stopped,
or the replay has failed, with `running_` still set. -/
def Stands (o : Bool × Receiver) (replay live rest : List (Iteration PoolSize Pointer)) : Prop :=
  (rest = [] ∧ o.1 = true) ∨
  (∃ it rest', rest = it :: rest' ∧ it.stopped = true ∧ o.1 = false ∧ o.2.running_ = false) ∨
  (live = [] ∧ ∃ it, replay.getLast? = some it ∧ it.hasFailed = true ∧ it.isMerged = false ∧
    o.1 = false ∧ o.2.running_ = true)

theorem Phases.cons {replay live rest : List (Iteration PoolSize Pointer)}
    (h : Phases true its replay live rest) (hstopped : it.stopped = false)
    (hgoes : it.isMerged = false ∧ it.hasFailed = false) :
    Phases true (it :: its) (it :: replay) live rest where
  split := by rw [h.split]; rfl
  replaying := by simp
  running := List.forall_mem_cons.mpr ⟨hstopped, h.running⟩
  underWay := by
    cases replay with
    | nil => simp
    | cons it' replay =>
        rw [List.dropLast_cons_cons]
        exact List.forall_mem_cons.mpr ⟨hgoes, h.underWay⟩
  merged htrue hlive := by
    obtain ⟨last, hlast, hmerged⟩ := h.merged htrue hlive
    exact ⟨last, by rw [List.getLast?_cons, hlast]; rfl, hmerged⟩

theorem Stands.cons {o : Bool × Receiver} {replay live rest : List (Iteration PoolSize Pointer)}
    (h : Stands o replay live rest) (it : Iteration PoolSize Pointer) :
    Stands o (it :: replay) live rest := by
  refine h.imp_right (Or.imp_right fun ⟨hlive, last, hlast, hfailed⟩ => ⟨hlive, last, ?_, hfailed⟩)
  rw [List.getLast?_cons, hlast]
  rfl

/-- The replay loop goes on until the replay is merged, and then as the live loop. -/
theorem loop_replay (hready : Ready r) {x : Int64 × Int64} (hreplay : r.replay_merge_ = some x)
    (its : List (Iteration PoolSize Pointer)) :
    ∃ replay live rest, Phases true its replay live rest ∧
      (loop N addr config r its).2.feed = (r.handled N addr config (polled (replay ++ live))).feed ∧
      Stands (loop N addr config r its) replay live rest := by
  induction its generalizing r with
  | nil => exact ⟨[], [], [], ⟨rfl, by simp, by simp, by simp, by simp⟩, rfl, .inl ⟨rfl, rfl⟩⟩
  | cons it its ih =>
      cases hstopped : it.stopped with
      | true =>
          refine ⟨[], [], it :: its, ⟨rfl, by simp, by simp, by simp, by simp⟩, ?_, ?_⟩
          · rw [loop_of_stopped hstopped]
            rfl
          · rw [loop_of_stopped hstopped]
            exact .inr (.inl ⟨it, its, rfl, hstopped, rfl, rfl⟩)
      | false =>
          have hnext : iterate N addr config r it =
              if it.isMerged then
                (true, { r.handled N addr config it.fragments with replay_merge_ := none })
              else if it.hasFailed then
                (false, { r.handled N addr config it.fragments with replay_merge_ := none })
              else (true, r.handled N addr config it.fragments) := by
            simp [iterate, hstopped, hready.running_, hreplay,
              foldl_handleMessage hready.buffer_pool_ hready.message_queue_]
          have hpolled : ∀ more : List (Iteration PoolSize Pointer),
              r.handled N addr config (polled (it :: more))
                = (r.handled N addr config it.fragments).handled N addr config (polled more) := by
            intro more
            rw [polled, List.flatMap_cons, handled_append]
            rfl
          cases hmerged : it.isMerged with
          | true =>
              rw [hmerged, if_pos rfl] at hnext
              obtain ⟨live, rest, rfl, hrunning, hend⟩ := loop_live N addr config
                (r := { r.handled N addr config it.fragments with replay_merge_ := none })
                ⟨hready.running_, hready.buffer_pool_, hready.message_queue_,
                  hready.subscription_⟩ rfl its
              have hphases : Phases true (it :: (live ++ rest)) [it] live rest :=
                ⟨rfl, by simp, List.forall_mem_cons.mpr ⟨hstopped, hrunning⟩, by simp,
                  fun _ _ => ⟨it, rfl, hmerged⟩⟩
              refine ⟨[it], live, rest, hphases, ?_, ?_⟩
              · rw [loop, hnext, List.singleton_append, hpolled]
                rcases hend with ⟨-, hend⟩ | ⟨_, _, -, -, hend⟩
                · dsimp only
                  rw [hend]
                  rfl
                · dsimp only
                  rw [hend]
                  rfl
              · rw [loop, hnext]
                rcases hend with ⟨hrest, hend⟩ | ⟨it', rest', hrest, hstop, hend⟩
                · dsimp only
                  rw [hend]
                  exact .inl ⟨hrest, rfl⟩
                · dsimp only
                  rw [hend]
                  exact .inr (.inl ⟨it', rest', hrest, hstop, rfl, rfl⟩)
          | false =>
              cases hfailed : it.hasFailed with
              | true =>
                  rw [hmerged, hfailed, if_neg Bool.false_ne_true, if_pos rfl] at hnext
                  refine ⟨[it], [], its, ⟨rfl, by simp, by simp [hstopped], by simp, by simp⟩,
                    ?_, ?_⟩
                  · rw [loop, hnext, List.append_nil, hpolled]
                    rfl
                  · rw [loop, hnext]
                    exact .inr (.inr ⟨rfl, it, rfl, hfailed, hmerged, rfl, hready.running_⟩)
              | false =>
                  rw [hmerged, hfailed, if_neg Bool.false_ne_true, if_neg Bool.false_ne_true]
                    at hnext
                  obtain ⟨replay, live, rest, hphases, hfeed, hstands⟩ :=
                    ih (r := r.handled N addr config it.fragments)
                      ⟨hready.running_, hready.buffer_pool_, hready.message_queue_,
                        hready.subscription_⟩ hreplay
                  refine ⟨it :: replay, live, rest, hphases.cons hstopped ⟨hmerged, hfailed⟩,
                    ?_, ?_⟩
                  · rw [loop, hnext, List.cons_append, hpolled]
                    exact hfeed
                  · rw [loop, hnext]
                    exact hstands.cons it

variable (N addr config) in
/-- The loop of a subscriber that is ready. -/
theorem loop_phases (hready : Ready r) (its : List (Iteration PoolSize Pointer)) :
    ∃ replay live rest, Phases r.replay_merge_.isSome its replay live rest ∧
      (loop N addr config r its).2.feed = (r.handled N addr config (polled (replay ++ live))).feed ∧
      Stands (loop N addr config r its) replay live rest := by
  cases hreplay : r.replay_merge_ with
  | some x => exact loop_replay hready hreplay its
  | none =>
      obtain ⟨live, rest, rfl, hrunning, hend⟩ := loop_live N addr config hready hreplay its
      have hphases : Phases false (live ++ rest) [] live rest :=
        ⟨rfl, fun _ => rfl, hrunning, by simp, by simp⟩
      refine ⟨[], live, rest, hphases, ?_⟩
      rcases hend with ⟨hrest, hend⟩ | ⟨it, rest', hrest, hstop, hend⟩
      · rw [hend]
        exact ⟨rfl, .inl ⟨hrest, rfl⟩⟩
      · rw [hend]
        exact ⟨rfl, .inr (.inl ⟨it, rest', hrest, hstop, rfl, rfl⟩)⟩

variable (N addr) in
/-- **What a started subscriber receives.** Whatever Aeron answers, a subscriber that `main` has
started polls the replay, if it has been asked for and could be set up, until this is merged,
and then the live subscription; its history is that of the polled fragments handled one after the
other by a new subscriber on the checkpoint, however they were divided among the polls and
between replay and live stream. The loop ends only when it is told to stop or when the replay has
failed; then `running_` is still set and nothing is received any more. -/
theorem started_receives
    (h : start config stream env file replay_auto_mode start_position = .runs r)
    (its : List (Iteration PoolSize Pointer)) :
    (∀ replay, r.replay_merge_ = some replay →
      ReplayOf stream env file replay_auto_mode start_position replay) ∧
    ∃ replay live rest, Phases r.replay_merge_.isSome its replay live rest ∧
      (run N addr config r its).2.feed
        = feed N addr config (fresh config (some (load file .zero))) (polled (replay ++ live)) ∧
      Stands (run N addr config r its) replay live rest := by
  obtain ⟨hready, hfeed, hreplay⟩ := ready_of_start h
  obtain ⟨replay, live, rest, hphases, hhandled, hstands⟩ :=
    loop_phases N addr config hready its
  have hrun : run N addr config r its = loop N addr config r its := by
    rw [run, hready.subscription_]
    rfl
  rw [hrun, hhandled, Receiver.handled, hfeed]
  exact ⟨hreplay, replay, live, rest, hphases, rfl, hstands⟩

/-- A recording of the default channel. -/
def oneRecording : Archive :=
  Resume.noRecordings.startRecording Resume.SUBSCRIPTION_CHANNEL 10
    ⟨2, 9, 64, by decide, by decide, by decide⟩

/-- A message from the replay, which is then merged, and one from the live stream. -/
def replayThenLive : List (Iteration 1024 Nat) :=
  [⟨false, [arriving 1], true, false⟩, ⟨false, [arriving 2], false, false⟩,
    ⟨true, [], false, false⟩]

/-- A replay from the beginning that is merged after one message. -/
theorem started_receives_replay : ∃ r,
    start {} ⟨"", 10⟩ ⟨oneRecording, true, true, true, true, true⟩ none true 0 = .runs r ∧
    r.replay_merge_ = some (2, 0) ∧
    ∃ replay live rest, Phases true replayThenLive replay live rest ∧
      (run overloadSize Fin.val {} r replayThenLive).2.feed
        = feed overloadSize Fin.val {} (fresh {} (some (load none .zero)))
          (polled (replay ++ live)) ∧
      Stands (run overloadSize Fin.val {} r replayThenLive) replay live rest := by
  obtain ⟨r, h, hreplay⟩ : ∃ r,
      start {} ⟨"", 10⟩ ⟨oneRecording, true, true, true, true, true⟩ none true 0 = .runs r ∧
        r.replay_merge_ = some (2, 0) := ⟨_, rfl, by decide⟩
  have hreceives := (started_receives overloadSize Fin.val h replayThenLive).2
  rw [hreplay] at hreceives
  exact ⟨r, h, hreplay, hreceives⟩

end AeronReplay.PollLoop
