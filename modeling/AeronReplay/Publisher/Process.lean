import AeronReplay.Config.Programs
import AeronReplay.Lib.Extension
import AeronReplay.Publisher.Loop
import AeronReplay.Publisher.RecordingController

set_option autoImplicit false

/-! # The publisher process

The two threads of the publisher (`AeronPublisher.cpp`, `main.cpp`): the publish thread of `run`,
and the main thread, which initializes the publisher, creates that thread, executes the commands
of the console, joins the thread and destroys the publisher. One step is one access of what the
threads share.

* `publisher_refines`: in every interleaving the thread is the loop `PublishThread.run` and the
  controller makes a run of `RecordingController.system`.
* `publisher_ends_safely`: what the threads do around `quit` and the release of the pointers.
* `can_end_iff`: the process can only end through `quit`.

The archive is changed by the calls of the controller only. Sleeping and what is printed are left
out, so is what the publish thread reads in order to print, and `archive_` and `aeron_`, which
nothing reads after `initialize`. -/

namespace AeronReplay.PublisherProcess

open Transition AeronPublisher

/-! ## The publish thread -/

/-- Where the publish thread is. -/
inductive PublishPc where
  | notStarted
  /-- `while (running_)` -/
  | loop
  | build
  /-- `publish`, at `!running_` -/
  | publish (event_time publish_time : Int64) (buffer : List UInt8)
  /-- `publish`, at `!publication_` -/
  | publication (event_time publish_time : Int64) (buffer : List UInt8)
  /-- `publish`, at `publication_->offer` -/
  | offer (event_time publish_time : Int64) (buffer : List UInt8)
  | exited

/-- The variables of the thread and its place. -/
structure Worker where
  thread : PublishThread
  pc : PublishPc

inductive Event where
  /-- `publication_->offer`, with whether the pointer is held. -/
  | offer (publication_ : Bool)
  /-- The publish thread is done with an iteration. -/
  | iterated (it : Iteration)
  | read (command : String)
  /-- The console clears `running_`. -/
  | quit
  /-- A call of the controller. -/
  | call (e : RecordingController.Event)

/-- `header->sequence_number = sequence_number++` -/
def numbered (p : PublishThread) : PublishThread :=
  { p with sequence_number := p.sequence_number + 1 }

/-- The message that an iteration builds. -/
def nextMessage (p : PublishThread) (event_time publish_time : Int64) : List UInt8 :=
  message p.sequence_number event_time publish_time (payload (p.sequence_number + 1 - 1))

/-- A step of the publish thread, which sees these members of the publisher. -/
inductive PublishStep (running_ publication_ : Bool) : Worker → List Event → Worker → Prop
  | enter {p : PublishThread} (h : running_ = true) :
      PublishStep running_ publication_ ⟨p, .loop⟩ [] ⟨p, .build⟩
  | exit {p : PublishThread} (h : running_ = false) :
      PublishStep running_ publication_ ⟨p, .loop⟩ [] ⟨p, .exited⟩
  | build {p : PublishThread} (event_time publish_time : Int64) :
      PublishStep running_ publication_ ⟨p, .build⟩ []
        ⟨numbered p, .publish event_time publish_time (nextMessage p event_time publish_time)⟩
  | stopped {p : PublishThread} {event_time publish_time : Int64} {buffer : List UInt8}
      (h : running_ = false) :
      PublishStep running_ publication_ ⟨p, .publish event_time publish_time buffer⟩
        [.iterated ⟨event_time, publish_time, running_, publication_, .other⟩] ⟨p, .loop⟩
  | testRunning {p : PublishThread} {event_time publish_time : Int64} {buffer : List UInt8}
      (h : running_ = true) :
      PublishStep running_ publication_ ⟨p, .publish event_time publish_time buffer⟩ []
        ⟨p, .publication event_time publish_time buffer⟩
  | null {p : PublishThread} {event_time publish_time : Int64} {buffer : List UInt8}
      (h : publication_ = false) :
      PublishStep running_ publication_ ⟨p, .publication event_time publish_time buffer⟩
        [.iterated ⟨event_time, publish_time, true, publication_, .other⟩] ⟨p, .loop⟩
  | testPublication {p : PublishThread} {event_time publish_time : Int64} {buffer : List UInt8}
      (h : publication_ = true) :
      PublishStep running_ publication_ ⟨p, .publication event_time publish_time buffer⟩ []
        ⟨p, .offer event_time publish_time buffer⟩
  | accepted {p : PublishThread} {event_time publish_time : Int64} {buffer : List UInt8} :
      PublishStep running_ publication_ ⟨p, .offer event_time publish_time buffer⟩
        [.offer publication_, .iterated ⟨event_time, publish_time, true, true, .position⟩]
        ⟨{ p with
            message_count_ := p.message_count_ + 1
            wire := p.wire ++ [buffer] }, .loop⟩
  | refused {p : PublishThread} {event_time publish_time : Int64} {buffer : List UInt8}
      (result : OfferResult) (h : result ≠ .position) :
      PublishStep running_ publication_ ⟨p, .offer event_time publish_time buffer⟩
        [.offer publication_, .iterated ⟨event_time, publish_time, true, true, result⟩] ⟨p, .loop⟩

/-! ## The main thread -/

/-- Where the main thread is. -/
inductive ConsolePc where
  | initialize_
  | autoRecord
  /-- `std::thread publish_thread` -/
  | create
  /-- `while (running_)` -/
  | loop
  | read
  | execute
  | join
  /-- `shutdown` at `running_ = false`, and at the lines after it -/
  | shutdown
  | stop
  | controller
  | publication
  | done
  deriving DecidableEq

structure State where
  running_ : Bool
  publication_ : Bool
  recording_controller_ : Option RecordingController
  archive : Archive
  worker : Worker
  console : ConsolePc
  /-- The `command` of the console. -/
  command : String
  /-- Whether `std::cin` is good. -/
  good : Bool
  /-- The `running` of `main.cpp`, which `signalHandler` clears. -/
  running : Bool

/-- The process at `initialize`, with any catalog in the archive. -/
def State.start (archive : Archive) : State where
  running_ := false
  publication_ := false
  recording_controller_ := none
  archive := archive
  worker := ⟨PublishThread.start, .notStarted⟩
  console := .initialize_
  command := ""
  good := true
  running := true

/-- What a call of the controller leaves behind. -/
def State.called (s : State) (o : Bool × RecordingController × Archive) (console : ConsolePc) :
    State := { s with
  recording_controller_ := some o.2.1
  archive := o.2.2
  console := console }

/-- `RecordingController(archive_, config_.publication_channel, config_.publication_stream_id)` -/
def controllerOf (config : PublisherConfig) : RecordingController :=
  .create (String.ofList config.publication_channel) config.publication_stream_id

inductive ConsoleStep (config : PublisherConfig) (s : State) : List Event → State → Prop
  /-- An exception in `initialize`; `main` returns 1, and the publisher is destroyed. -/
  | failed (publication_ : Bool) (hpc : s.console = .initialize_) :
      ConsoleStep config s [] { s with publication_ := publication_, console := .shutdown }
  | initialized (hpc : s.console = .initialize_) :
      ConsoleStep config s [] { s with
        publication_ := true
        recording_controller_ := some (controllerOf config)
        running_ := true
        console := .autoRecord }
  | autoRecord {c : RecordingController} (reply : RecordingController.StartReply s.archive)
      {o : Bool × RecordingController × Archive} (hpc : s.console = .autoRecord)
      (hauto : config.auto_record = true) (hc : s.recording_controller_ = some c)
      (h : c.startRecording s.archive reply = o) :
      ConsoleStep config s [.call (.startRecording reply.recordingExists o.1)]
        (s.called o .create)
  | noAutoRecord (hpc : s.console = .autoRecord) (hauto : config.auto_record = false) :
      ConsoleStep config s [] { s with console := .create }
  | create (hpc : s.console = .create) :
      ConsoleStep config s [] { s with worker.pc := .loop, console := .loop }
  | loopOn (hpc : s.console = .loop) (h : s.running_ = true) :
      ConsoleStep config s [] { s with console := .read }
  | loopOff (hpc : s.console = .loop) (h : s.running_ = false) :
      ConsoleStep config s [] { s with console := .join }
  | read (command : String) (hpc : s.console = .read) (hgood : s.good = true) :
      ConsoleStep config s [.read command] { s with command := command, console := .execute }
  /-- At the end of the input, and from then on: `>>` leaves the string as it is. -/
  | readFails (hpc : s.console = .read) :
      ConsoleStep config s [] { s with good := false, console := .execute }
  | start {c : RecordingController} (reply : RecordingController.StartReply s.archive)
      {o : Bool × RecordingController × Archive} (hpc : s.console = .execute)
      (hcommand : s.command = "start") (hc : s.recording_controller_ = some c)
      (h : c.startRecording s.archive reply = o) :
      ConsoleStep config s [.call (.startRecording reply.recordingExists o.1)] (s.called o .loop)
  | stop {c : RecordingController} (reply : RecordingController.StopReply)
      {o : Bool × RecordingController × Archive} (hpc : s.console = .execute)
      (hcommand : s.command = "stop") (hc : s.recording_controller_ = some c)
      (h : c.stopRecording s.archive reply = o) :
      ConsoleStep config s [.call (.stopRecording o.1)] (s.called o .loop)
  /-- `startRecording` and `stopRecording` without a controller. -/
  | noController (hpc : s.console = .execute) (hcommand : s.command = "start" ∨ s.command = "stop")
      (hc : s.recording_controller_ = none) :
      ConsoleStep config s [] { s with console := .loop }
  | quit (hpc : s.console = .execute) (hcommand : s.command = "quit") :
      ConsoleStep config s [.quit] { s with running_ := false, console := .join }
  | unknown (hpc : s.console = .execute) (hstart : s.command ≠ "start") (hstop : s.command ≠ "stop")
      (hquit : s.command ≠ "quit") :
      ConsoleStep config s [] { s with console := .loop }
  | join (hpc : s.console = .join) (h : s.worker.pc = .exited) :
      ConsoleStep config s [] { s with console := .shutdown }
  | shutdown (hpc : s.console = .shutdown) :
      ConsoleStep config s [] { s with running_ := false, console := .stop }
  | shutdownStop {c : RecordingController} (reply : RecordingController.StopReply)
      {o : Bool × RecordingController × Archive} (hpc : s.console = .stop)
      (hc : s.recording_controller_ = some c) (hrec : c.isRecording = true)
      (h : c.stopRecording s.archive reply = o) :
      ConsoleStep config s [.call (.stopRecording o.1)] (s.called o .controller)
  | nothingToStop (hpc : s.console = .stop)
      (h : ∀ c, s.recording_controller_ = some c → c.isRecording = false) :
      ConsoleStep config s [] { s with console := .controller }
  /-- `~RecordingController` -/
  | destructorStop {c : RecordingController} (reply : RecordingController.StopReply)
      {o : Bool × RecordingController × Archive} (hpc : s.console = .controller)
      (hc : s.recording_controller_ = some c) (hrec : c.isRecording = true)
      (h : c.stopRecording s.archive reply = o) :
      ConsoleStep config s [.call (.stopRecording o.1)]
        { s.called o .publication with recording_controller_ := none }
  | destructor (hpc : s.console = .controller)
      (h : ∀ c, s.recording_controller_ = some c → c.isRecording = false) :
      ConsoleStep config s [] { s with recording_controller_ := none, console := .publication }
  | resetPublication (hpc : s.console = .publication) :
      ConsoleStep config s [] { s with publication_ := false, console := .done }

inductive Step (config : PublisherConfig) (s : State) : List Event → State → Prop
  | publish {e : List Event} {w : Worker} (h : PublishStep s.running_ s.publication_ s.worker e w) :
      Step config s e { s with worker := w }
  | console {e : List Event} {t : State} (h : ConsoleStep config s e t) : Step config s e t
  /-- SIGINT or SIGTERM: `signalHandler` -/
  | signal : Step config s [] { s with running := false }

def system (config : PublisherConfig) : Lts State Event where
  Init s := ∃ archive, s = State.start archive
  Step := Step config

/-! ## The publish thread is the loop -/

/-- The iterations that the publish thread is done with. -/
def iterations (es : List Event) : List Iteration := es.filterMap fun
  | .iterated it => some it
  | _ => none

/-- The calls of the controller. -/
def calls (es : List Event) : List RecordingController.Event := es.filterMap fun
  | .call e => some e
  | _ => none

/-- The offers, each with whether the pointer was held. -/
def offers (es : List Event) : List Bool := es.filterMap fun
  | .offer publication_ => some publication_
  | _ => none

/-- These are the iterations that the thread is done with, and it is in the next one. -/
def Worker.Follows (w : Worker) (its : List Iteration) : Prop :=
  match w.pc with
  | .notStarted => w.thread = .start ∧ its = []
  | .loop | .build | .exited => w.thread = .run its
  | .publish event_time publish_time buffer
  | .publication event_time publish_time buffer
  | .offer event_time publish_time buffer =>
      w.thread = numbered (.run its) ∧
        buffer = nextMessage (.run its) event_time publish_time

theorem publish_eq (message_count_ : Int64) (it : Iteration) :
    publish message_count_ it
      = (it.published, if it.published then message_count_ + 1 else message_count_) := by
  unfold publish Iteration.published
  obtain ⟨_, _, running_, publication_, result⟩ := it
  cases running_ <;> cases publication_ <;> cases result <;> rfl

theorem iterate_of_published (p : PublishThread) {it : Iteration} (h : it.published = true) :
    p.iterate it = { numbered p with
      message_count_ := p.message_count_ + 1
      wire := p.wire ++ [nextMessage p it.event_time it.publish_time] } := by
  unfold PublishThread.iterate
  rw [publish_eq, h]
  rfl

theorem iterate_of_not_published (p : PublishThread) {it : Iteration} (h : it.published = false) :
    p.iterate it = numbered p := by
  unfold PublishThread.iterate
  rw [publish_eq, h]
  rfl

section PublishStep

variable {running_ publication_ : Bool} {w w' : Worker} {e : List Event} {its : List Iteration}

theorem PublishStep.follows (h : PublishStep running_ publication_ w e w')
    (hw : w.Follows its) : w'.Follows (its ++ iterations e) := by
  -- an iteration that publishes nothing only takes its number
  have hnothing : ∀ {p : PublishThread} {it : Iteration}, it.published = false →
      p = numbered (.run its) → p = .run (its ++ [it]) := by
    intro p it hit hp
    rw [PublishThread.run_snoc, iterate_of_not_published _ hit, hp]
  cases h with
  | enter | exit =>
      rw [show iterations [] = [] from rfl, List.append_nil]
      exact hw
  | @build p event_time publish_time =>
      have hp : p = .run its := hw
      rw [show iterations [] = [] from rfl, List.append_nil, hp]
      exact ⟨rfl, rfl⟩
  | testRunning | testPublication =>
      rw [show iterations [] = [] from rfl, List.append_nil]
      exact hw
  | stopped h =>
      rw [h]
      exact hnothing rfl hw.1
  | null h =>
      rw [h]
      exact hnothing rfl hw.1
  | accepted =>
      obtain ⟨hp, hbuffer⟩ := hw
      show _ = PublishThread.run (its ++ [_])
      rw [PublishThread.run_snoc, iterate_of_published _ rfl]
      dsimp only at hp hbuffer ⊢
      rw [hp, hbuffer]
      rfl
  | @refused p event_time publish_time buffer result h =>
      have hnot : (⟨event_time, publish_time, true, true, result⟩ : Iteration).published = false :=
        decide_eq_false h
      exact hnothing hnot hw.1

end PublishStep

/-! ## The threads side by side -/

variable {config : PublisherConfig} {es e : List Event} {s t : State}

/-- The thread has been created and has not left its loop. -/
def PublishPc.alive : PublishPc → Bool
  | .notStarted | .exited => false
  | _ => true

/-- What each place of the main thread says about the rest. -/
def InPhase (s : State) : Prop :=
  match s.console with
  | .initialize_ => s.worker.pc = .notStarted ∧ s.recording_controller_ = none
  | .autoRecord | .create =>
      s.worker.pc = .notStarted ∧ s.running_ = true ∧ s.publication_ = true ∧
        s.recording_controller_.isSome = true
  | .loop | .read | .execute =>
      s.worker.pc ≠ .notStarted ∧ s.running_ = true ∧ s.publication_ = true ∧
        s.recording_controller_.isSome = true
  | .join =>
      s.worker.pc ≠ .notStarted ∧ s.running_ = false ∧ s.publication_ = true ∧
        s.recording_controller_.isSome = true
  | .shutdown | .stop | .controller | .publication | .done => s.worker.pc.alive = false

/-- Only a living thread takes a step, and it never comes back to its beginning. -/
theorem PublishStep.alive {running_ publication_ : Bool} {w w' : Worker}
    (h : PublishStep running_ publication_ w e w') :
    w.pc.alive = true ∧ w'.pc ≠ .notStarted := by
  cases h <;> exact ⟨rfl, by simp⟩

theorem InPhase.step (hs : InPhase s) (h : Step config s e t) : InPhase t := by
  cases h with
  | publish h =>
      obtain ⟨halive, hnot⟩ := h.alive
      have hstarted : s.worker.pc ≠ .notStarted := by
        intro hpc
        rw [hpc] at halive
        cases halive
      unfold InPhase at hs ⊢
      cases hpc : s.console with
      | initialize_ | autoRecord | create =>
          rw [hpc] at hs
          exact absurd hs.1 hstarted
      | loop | read | execute | join =>
          rw [hpc] at hs
          exact ⟨hnot, hs.2⟩
      | shutdown | stop | controller | publication | done =>
          rw [hpc] at hs
          exact absurd halive (by simp [hs])
  | console h =>
      unfold InPhase at hs ⊢
      cases h with
      | failed publication_ hpc =>
          rw [hpc] at hs
          dsimp only at hs ⊢
          rw [hs.1]
          rfl
      | initialized hpc =>
          rw [hpc] at hs
          exact ⟨hs.1, rfl, rfl, rfl⟩
      | autoRecord reply hpc | start reply hpc | stop reply hpc =>
          rw [hpc] at hs
          exact ⟨hs.1, hs.2.1, hs.2.2.1, rfl⟩
      | noAutoRecord hpc | noController hpc | unknown hpc | loopOn hpc | read command hpc
        | readFails hpc =>
          rw [hpc] at hs
          exact hs
      | create hpc =>
          rw [hpc] at hs
          exact ⟨by simp, hs.2⟩
      | loopOff hpc hoff =>
          rw [hpc] at hs
          exact absurd hs.2.1 (by simp [hoff])
      | quit hpc =>
          rw [hpc] at hs
          exact ⟨hs.1, rfl, hs.2.2⟩
      | join hpc hexited =>
          dsimp only
          rw [hexited]
          rfl
      | shutdown hpc | shutdownStop reply hpc | nothingToStop hpc | destructorStop reply hpc
        | destructor hpc | resetPublication hpc =>
          rw [hpc] at hs
          exact hs
  | signal => exact hs

/-- The main thread does none of the publish thread's work, but creates it. -/
theorem ConsoleStep.worker (h : ConsoleStep config s e t) :
    iterations e = [] ∧ offers e = [] ∧
      (t.worker = s.worker ∨ s.console = .create ∧ t.worker = ⟨s.worker.thread, .loop⟩) := by
  cases h with
  | create hpc => exact ⟨rfl, rfl, .inr ⟨hpc, rfl⟩⟩
  | _ => exact ⟨rfl, rfl, .inl rfl⟩

/-- The thread is in the loop whatever the main thread does. -/
theorem Worker.Follows.step (hw : s.worker.Follows (iterations es)) (hs : InPhase s)
    (h : Step config s e t) : t.worker.Follows (iterations (es ++ e)) := by
  rw [iterations, List.filterMap_append]
  cases h with
  | publish h => exact h.follows hw
  | console h =>
      obtain ⟨hnone, -, hsame | ⟨hpc, hcreated⟩⟩ := h.worker
      · rw [show List.filterMap _ e = [] from hnone, List.append_nil, hsame]
        exact hw
      · rw [show List.filterMap _ e = [] from hnone, List.append_nil, hcreated]
        -- the thread begins with what it has been created with
        unfold InPhase at hs
        rw [hpc] at hs
        unfold Worker.Follows at hw
        rw [hs.1] at hw
        show s.worker.thread = .run (iterations es)
        rw [hw.1, hw.2]
        rfl
  | signal =>
      rw [List.filterMap_nil, List.append_nil]
      exact hw

/-! ## The controller -/

theorem PublishStep.calls {running_ publication_ : Bool} {w w' : Worker}
    (h : PublishStep running_ publication_ w e w') : calls e = [] := by
  cases h <;> rfl

/-- The calls are those of a run of the controller that has come to this state, if the controller
still exists. -/
def Controlled (es : List Event) (s : State) : Prop :=
  ∃ c, Run RecordingController.system (calls es) ⟨c, s.archive⟩ ∧
    (∀ c', s.recording_controller_ = some c' → c' = c) ∧
    (s.recording_controller_ = none →
      calls es = [] ∨ s.console = .publication ∨ s.console = .done)

theorem Controlled.kept (hs : Controlled es s) (he : calls e = [])
    (harchive : t.archive = s.archive) (hc : t.recording_controller_ = s.recording_controller_)
    (hpc : s.recording_controller_ = none → s.console = .publication ∨ s.console = .done →
      t.console = .publication ∨ t.console = .done) :
    Controlled (es ++ e) t := by
  obtain ⟨c, r, hsame, hnone⟩ := hs
  have hcalls : calls (es ++ e) = calls es := by
    rw [calls, List.filterMap_append, show List.filterMap _ e = [] from he, List.append_nil]
    rfl
  refine ⟨c, ?_, ?_, ?_⟩
  · rw [hcalls, harchive]
    exact r
  · rw [hc]
    exact hsame
  · rw [hcalls, hc]
    intro h
    exact (hnone h).imp_right (hpc h)

theorem Controlled.called {c : RecordingController} {o : Bool × RecordingController × Archive}
    {x : RecordingController.Event} {console : ConsolePc} (hs : Controlled es s)
    (hc : s.recording_controller_ = some c)
    (h : RecordingController.Step ⟨c, s.archive⟩ [x] ⟨o.2.1, o.2.2⟩) :
    Controlled (es ++ [.call x]) (s.called o console) := by
  obtain ⟨c', r, hsame, -⟩ := hs
  have hcalls : calls (es ++ [.call x]) = calls es ++ [x] := List.filterMap_append
  refine ⟨o.2.1, ?_, ?_, ?_⟩
  · rw [hcalls]
    rw [← hsame c hc] at r
    exact r.step h
  · intro c'' h''
    exact (Option.some.inj h'').symm
  · intro h
    cases h

theorem Controlled.step (hs : Controlled es s) (hphase : InPhase s) (h : Step config s e t) :
    Controlled (es ++ e) t := by
  cases h with
  | publish h =>
      exact hs.kept h.calls rfl rfl fun _ hpc => hpc
  | signal => exact hs.kept rfl rfl rfl fun _ hpc => hpc
  | console h =>
      cases h with
      | initialized hpc =>
          -- the new controller is the beginning of a run
          unfold InPhase at hphase
          rw [hpc] at hphase
          obtain ⟨c, -, -, hnone⟩ := hs
          have hcalls : calls (es ++ []) = [] := by
            rw [List.append_nil]
            rcases hnone hphase.2 with h | h | h
            · exact h
            · cases hpc.symm.trans h
            · cases hpc.symm.trans h
          refine ⟨controllerOf config, ?_, fun c' h => (Option.some.inj h).symm, nofun⟩
          rw [hcalls]
          exact .init ⟨_, _, rfl⟩
      | autoRecord reply hpc hauto hc h | start reply hpc hcommand hc h =>
          exact hs.called hc (.start (s := ⟨_, s.archive⟩) reply h)
      | stop reply hpc hcommand hc h | shutdownStop reply hpc hc hrec h =>
          exact hs.called hc (.stop (s := ⟨_, s.archive⟩) reply h)
      | destructorStop reply hpc hc hrec h =>
          have hcalled : Controlled _ (s.called _ .publication) :=
            hs.called hc (.stop (s := ⟨_, s.archive⟩) reply h)
          obtain ⟨c, r, -, -⟩ := hcalled
          exact ⟨c, r, nofun, fun _ => .inr (.inl rfl)⟩
      | destructor hpc =>
          obtain ⟨c, r, -, -⟩ := hs
          refine ⟨c, ?_, nofun, fun _ => .inr (.inl rfl)⟩
          rw [List.append_nil]
          exact r
      | resetPublication hpc => exact hs.kept rfl rfl rfl fun _ _ => .inr rfl
      | failed _ hpc | noAutoRecord hpc | create hpc | loopOn hpc | loopOff hpc | read _ hpc
        | readFails hpc | noController hpc | quit hpc | unknown hpc | join hpc | shutdown hpc
        | nothingToStop hpc =>
          exact hs.kept rfl rfl rfl fun _ h => by simp [hpc] at h

/-! ## Quitting -/

/-- An offer that the thread has already decided to make. -/
def PublishPc.pending : PublishPc → Nat
  | .publication .. | .offer .. => 1
  | _ => 0

theorem PublishPc.pending_le_one (pc : PublishPc) : pc.pending ≤ 1 := by
  cases pc <;> simp [pending]

/-- With `running_` cleared the thread only makes the offer it has decided to make. -/
theorem PublishStep.offers_le {publication_ : Bool} {w w' : Worker}
    (h : PublishStep false publication_ w e w') :
    (offers e).length + w'.pc.pending ≤ w.pc.pending := by
  cases h with
  | enter h | testRunning h => cases h
  | _ => simp [PublishPc.pending, offers]

theorem PublishStep.mem_offers {running_ publication_ : Bool} {w w' : Worker}
    (h : PublishStep running_ publication_ w e w') : ∀ b ∈ offers e, b = publication_ := by
  intro b hb
  cases h with
  | accepted | refused => exact List.mem_singleton.mp hb
  | _ => cases hb

theorem PublishStep.quit_not_mem {running_ publication_ : Bool} {w w' : Worker}
    (h : PublishStep running_ publication_ w e w') : .quit ∉ e := by
  cases h <;> simp

/-- What the publish thread uses is there as long as it lives. -/
theorem InPhase.held (hs : InPhase s) (halive : s.worker.pc.alive = true) :
    s.publication_ = true ∧ s.recording_controller_.isSome = true := by
  unfold InPhase at hs
  cases hpc : s.console with
  | initialize_ | autoRecord | create =>
      rw [hpc] at hs
      rw [hs.1] at halive
      cases halive
  | loop | read | execute | join =>
      rw [hpc] at hs
      exact hs.2.2
  | shutdown | stop | controller | publication | done =>
      rw [hpc] at hs
      exact absurd halive (by simp [hs])

/-- The main thread is past its loop. -/
def ConsolePc.ending : ConsolePc → Bool
  | .join | .shutdown | .stop | .controller | .publication | .done => true
  | _ => false

theorem InPhase.stopped (hs : InPhase s) (hending : s.console.ending = true)
    (halive : s.worker.pc.alive = true) : s.running_ = false := by
  unfold InPhase at hs
  cases hpc : s.console with
  | initialize_ | autoRecord | create | loop | read | execute =>
      rw [hpc] at hending
      cases hending
  | join =>
      rw [hpc] at hs
      exact hs.2.1
  | shutdown | stop | controller | publication | done =>
      rw [hpc] at hs
      exact absurd halive (by simp [hs])

theorem ConsoleStep.ending (h : ConsoleStep config s e t) (hs : s.console.ending = true) :
    t.console.ending = true ∧ .quit ∉ e := by
  cases h with
  | join | shutdown | shutdownStop | nothingToStop | destructorStop | destructor
    | resetPublication => exact ⟨rfl, by simp⟩
  | failed _ hpc | initialized hpc | autoRecord _ hpc | noAutoRecord hpc | create hpc | loopOn hpc
    | loopOff hpc | read _ hpc | readFails hpc | start _ hpc | stop _ hpc | noController hpc
    | quit hpc | unknown hpc =>
      rw [hpc] at hs
      cases hs

/-- The offers since `quit`, with the one that the thread has decided to make. -/
structure AfterQuit (es : List Event) (s : State) : Prop where
  few : ∀ before after, es = before ++ .quit :: after →
    (offers after).length + s.worker.pc.pending ≤ 1
  ending : .quit ∈ es → s.console.ending = true

theorem offers_append (es e : List Event) : offers (es ++ e) = offers es ++ offers e :=
  List.filterMap_append

theorem AfterQuit.step (hs : AfterQuit es s) (hphase : InPhase s) (h : Step config s e t) :
    AfterQuit (es ++ e) t := by
  cases h with
  | signal =>
      rw [List.append_nil]
      exact ⟨hs.few, hs.ending⟩
  | publish h =>
      have hnot := h.quit_not_mem
      refine ⟨forall_after_append (fun before after hsplit => ?_) fun before after hsplit => ?_,
        fun hquit => hs.ending ((List.mem_append.mp hquit).resolve_right hnot)⟩
      · -- after `quit` the thread sees `running_` cleared
        have hending := hs.ending (by rw [hsplit]; simp)
        rw [hphase.stopped hending h.alive.1] at h
        have hle := h.offers_le
        have hbefore := hs.few before after hsplit
        rw [offers_append, List.length_append]
        dsimp only
        omega
      · exact absurd (by rw [hsplit]; simp) hnot
  | console h =>
      obtain ⟨-, hoffers, hworker⟩ := h.worker
      have hpending : t.worker.pc.pending ≤ s.worker.pc.pending := by
        obtain hsame | ⟨-, hcreated⟩ := hworker
        · rw [hsame]
        · rw [hcreated]
          exact Nat.zero_le _
      refine ⟨forall_after_append (fun before after hsplit => ?_) fun before after hsplit => ?_,
        fun hquit => ?_⟩
      · have hbefore := hs.few before after hsplit
        rw [offers_append, hoffers, List.append_nil]
        omega
      · have hafter : offers after = [] := by
          have := congrArg offers hsplit
          rw [hoffers, offers_append] at this
          exact (List.append_eq_nil_iff.mp this.symm).2
        rw [hafter]
        exact (Nat.zero_add _).trans_le (PublishPc.pending_le_one _)
      · rcases List.mem_append.mp hquit with hquit | hquit
        · exact (h.ending (hs.ending hquit)).1
        · cases h with
          | quit => rfl
          | _ => simp at hquit

/-! ## The recording at the end -/

open RecordingController (startedSince)

/-- While the process ends, a recording goes on only if the stops so far have failed. -/
def Stopping (calls : List RecordingController.Event) : ConsolePc → Prop
  | .controller => startedSince calls = true → ∃ before, calls = before ++ [.stopRecording false]
  | .publication | .done => startedSince calls = true →
      ∃ before, calls = before ++ [.stopRecording false, .stopRecording false]
  | _ => True

theorem startedSince_stop (cs : List RecordingController.Event) (returned : Bool) :
    startedSince (cs ++ [.stopRecording returned]) = (startedSince cs && !returned) := by
  unfold startedSince
  rw [List.foldl_append]
  rfl

/-- A controller that does not record, or has never been made, leaves nothing to stop. -/
theorem Controlled.idle (hs : Controlled es s)
    (hpc : s.console ≠ .publication ∧ s.console ≠ .done)
    (hidle : ∀ c, s.recording_controller_ = some c → c.isRecording = false) :
    startedSince (calls es) = false := by
  obtain ⟨c, r, hsame, hnone⟩ := hs
  cases hc : s.recording_controller_ with
  | none =>
      rcases hnone hc with h | h | h
      · rw [h]
        rfl
      · exact absurd h hpc.1
      · exact absurd h hpc.2
  | some c' =>
      rw [RecordingController.startedSince_run r, ← hsame c' hc]
      exact hidle c' hc

theorem Stopping.step (hs : Stopping (calls es) s.console) (hc : Controlled es s)
    (h : Step config s e t) : Stopping (calls (es ++ e)) t.console := by
  have hcalls : calls (es ++ e) = calls es ++ calls e := List.filterMap_append
  rw [hcalls]
  cases h with
  | publish h =>
      rw [h.calls, List.append_nil]
      exact hs
  | signal =>
      rw [show calls [] = [] from rfl, List.append_nil]
      exact hs
  | console h =>
      cases h with
      | shutdownStop reply hpc hsome hrec h =>
          intro hstarted
          have hfailed := startedSince_stop (calls es) _ ▸ hstarted
          rw [Bool.and_eq_true, Bool.not_eq_true'] at hfailed
          exact ⟨calls es, by rw [← hfailed.2]; rfl⟩
      | nothingToStop hpc hidle =>
          intro hstarted
          rw [show calls [] = [] from rfl, List.append_nil,
            hc.idle (by simp [hpc]) hidle] at hstarted
          cases hstarted
      | destructorStop reply hpc hsome hrec h =>
          rw [hpc] at hs
          intro hstarted
          have hfailed := startedSince_stop (calls es) _ ▸ hstarted
          rw [Bool.and_eq_true, Bool.not_eq_true'] at hfailed
          obtain ⟨before, hbefore⟩ := hs hfailed.1
          refine ⟨before, ?_⟩
          rw [hbefore, List.append_assoc, ← hfailed.2]
          rfl
      | destructor hpc hidle =>
          intro hstarted
          rw [show calls [] = [] from rfl, List.append_nil,
            hc.idle (by simp [hpc]) hidle] at hstarted
          cases hstarted
      | resetPublication hpc =>
          rw [show calls [] = [] from rfl, List.append_nil]
          rw [hpc] at hs
          exact hs
      | _ => trivial

/-! ## Whether the process can end -/

/-- The input has ended without `quit`: the console executes the last command for ever. -/
structure Trapped (s : State) : Prop where
  running_ : s.running_ = true
  good : s.good = false
  command : s.command ≠ "quit"
  listening : s.console = .loop ∨ s.console = .read ∨ s.console = .execute

theorem Trapped.step (hs : Trapped s) (h : Step config s e t) : Trapped t := by
  obtain ⟨hrunning, hgood, hcommand, hlistening⟩ := hs
  cases h with
  | publish h => exact ⟨hrunning, hgood, hcommand, hlistening⟩
  | signal => exact ⟨hrunning, hgood, hcommand, hlistening⟩
  | console h =>
      cases h with
      | loopOn hpc => exact ⟨hrunning, hgood, hcommand, .inr (.inl rfl)⟩
      | readFails hpc => exact ⟨hrunning, rfl, hcommand, .inr (.inr rfl)⟩
      | start | stop | noController | unknown => exact ⟨hrunning, hgood, hcommand, .inl rfl⟩
      | loopOff hpc h => cases hrunning.symm.trans h
      | read _ hpc h => cases hgood.symm.trans h
      | quit hpc h => exact absurd h hcommand
      | failed _ hpc | initialized hpc | autoRecord _ hpc | noAutoRecord hpc | create hpc | join hpc
        | shutdown hpc | shutdownStop _ hpc | nothingToStop hpc | destructorStop _ hpc
        | destructor hpc | resetPublication hpc => simp [hpc] at hlistening

/-- What the console has read. -/
structure Heard (es : List Event) (s : State) : Prop where
  executed : s.console = .execute ∨ s.console.ending = true ∨ s.command ≠ "quit"
  trapped : s.good = false → .quit ∈ es ∨ Trapped s

theorem Heard.step (hs : Heard es s) (hphase : InPhase s) (h : Step config s e t) :
    Heard (es ++ e) t := by
  -- `quit` remains, and a trap remains
  have htrapped : s.good = false → .quit ∈ es ++ e ∨ Trapped t := fun hgood =>
    (hs.trapped hgood).imp (List.mem_append_left e) fun htrap => htrap.step h
  cases h with
  | publish h => exact ⟨hs.executed, htrapped⟩
  | signal => exact ⟨hs.executed, htrapped⟩
  | console h =>
      have hcommand : s.console.ending = false → s.console ≠ .execute → s.command ≠ "quit" := by
        intro hending hexecute
        simpa [hending, hexecute] using hs.executed
      cases h with
      | failed => exact ⟨.inr (.inl rfl), htrapped⟩
      | initialized hpc | autoRecord _ hpc | noAutoRecord hpc | create hpc | loopOn hpc =>
          exact ⟨.inr (.inr (hcommand (by rw [hpc]; rfl) (by simp [hpc]))), htrapped⟩
      | loopOff | quit | join | shutdown | shutdownStop | nothingToStop | destructorStop
        | destructor | resetPublication => exact ⟨.inr (.inl rfl), htrapped⟩
      | read _ hpc hgood => exact ⟨.inl rfl, fun h => by cases hgood.symm.trans h⟩
      | readFails hpc =>
          refine ⟨.inl rfl, fun _ => .inr ⟨?_, rfl, ?_, .inr (.inr rfl)⟩⟩
          · unfold InPhase at hphase
            rw [hpc] at hphase
            exact hphase.2.1
          · exact hcommand (by rw [hpc]; rfl) (by simp [hpc])
      | start _ _ h =>
          refine ⟨.inr (.inr ?_), htrapped⟩
          show s.command ≠ "quit"
          rw [h]
          decide
      | stop _ _ h =>
          refine ⟨.inr (.inr ?_), htrapped⟩
          show s.command ≠ "quit"
          rw [h]
          decide
      | noController _ h =>
          refine ⟨.inr (.inr ?_), htrapped⟩
          show s.command ≠ "quit"
          rcases h with h | h <;> rw [h] <;> decide
      | unknown _ _ _ h => exact ⟨.inr (.inr h), htrapped⟩

/-! ## Every run -/

structure Reached (es : List Event) (s : State) : Prop where
  phase : InPhase s
  follows : s.worker.Follows (iterations es)
  controlled : Controlled es s
  held : ∀ publication_ ∈ offers es, publication_ = true
  quit : AfterQuit es s
  stopping : Stopping (calls es) s.console
  heard : Heard es s

theorem reached (r : Run (system config) es s) : Reached es s := by
  refine r.invariant (I := Reached) ?_ ?_
  · rintro s ⟨archive, rfl⟩
    exact ⟨⟨rfl, rfl⟩, ⟨rfl, rfl⟩,
      ⟨controllerOf config, .init ⟨_, _, rfl⟩, nofun, fun _ => .inl rfl⟩, nofun,
      ⟨fun before after h => by simp at h, nofun⟩, trivial,
      ⟨.inr (.inr (by simp [State.start])), nofun⟩⟩
  · rintro es s e t hs h
    refine ⟨hs.phase.step h, hs.follows.step hs.phase h, hs.controlled.step hs.phase h, ?_,
      hs.quit.step hs.phase h, hs.stopping.step hs.controlled h, hs.heard.step hs.phase h⟩
    intro b hb
    rw [offers_append] at hb
    refine (List.mem_append.mp hb).elim (hs.held b) fun hb => ?_
    cases h with
    | publish h => exact (h.mem_offers b hb).trans (hs.phase.held h.alive.1).1
    | console h =>
        rw [h.worker.2.1] at hb
        cases hb
    | signal => cases hb

/-- An archive that has recorded nothing yet. -/
def newArchive : Archive where
  recordings := []
  channelMatches _ _ := true
  stopsUnknown := false
  nonneg := Archive.nonneg_nil
  ids := List.nodup_nil
  subscriptions := List.nodup_nil

/-- A recording is started by a command; the first message is offered after `quit`; and the archive
cannot be reached when the recording is to be stopped. -/
theorem exists_recorded_quit : ∃ before after s,
    Run (system {}) (before ++ .quit :: after) s ∧ s.console = .done ∧
    calls (before ++ .quit :: after)
      = [.startRecording false true, .stopRecording false, .stopRecording false] ∧
    iterations (before ++ .quit :: after) = [⟨0, 0, true, true, .position⟩] ∧
    offers after = [true] := by
  let first : newArchive.New := ⟨0, 7, 100, by decide, List.not_mem_nil, List.not_mem_nil⟩
  have r₀ : Run (system {}) [] (State.start newArchive) := .init ⟨_, rfl⟩
  have r₁ := r₀.silent (.console (.initialized rfl))
  have r₂ := r₁.silent (.console (.noAutoRecord rfl rfl))
  have r₃ := r₂.silent (.console (.create rfl))
  have r₄ := r₃.silent (.publish (.enter rfl))
  have r₅ := r₄.silent (.publish (.build 0 0))
  have r₆ := r₅.silent (.console (.loopOn rfl rfl))
  have r₇ := r₆.step (.console (.read "start" rfl rfl))
  have r₈ := r₇.step (.console (.start (.started first) rfl rfl rfl rfl))
  have r₉ := r₈.silent (.publish (.testRunning rfl))
  have r₁₀ := r₉.silent (.publish (.testPublication rfl))
  have r₁₁ := r₁₀.silent (.console (.loopOn rfl rfl))
  have r₁₂ := r₁₁.step (.console (.read "quit" rfl rfl))
  have r₁₃ := r₁₂.step (.console (.quit rfl rfl))
  have r₁₄ := r₁₃.step (.publish .accepted)
  have r₁₅ := r₁₄.silent (.publish (.exit rfl))
  have r₁₆ := r₁₅.silent (.console (.join rfl rfl))
  have r₁₇ := r₁₆.silent (.console (.shutdown rfl))
  have r₁₈ := r₁₇.step (.console (.shutdownStop .throws rfl rfl rfl rfl))
  have r₁₉ := r₁₈.step (.console (.destructorStop .throws rfl rfl rfl rfl))
  have r₂₀ := r₁₉.silent (.console (.resetPublication rfl))
  exact ⟨[_, _, _], [_, _, _, _], _, r₂₀, rfl, rfl, rfl, rfl⟩

/-- **The process is made of the loop and the controller.** In every interleaving of the publish
thread with the console, what the thread has sent and counted is what the loop
`PublishThread.run` has after the iterations that the thread is done with, and the calls of the
controller, with what the archive has come to, are a run of the controller on its own. -/
theorem publisher_refines (r : Run (system config) es s) :
    s.worker.thread.wire = (PublishThread.run (iterations es)).wire ∧
    s.worker.thread.message_count_ = (PublishThread.run (iterations es)).message_count_ ∧
    ∃ c, Run RecordingController.system (calls es) ⟨c, s.archive⟩ ∧
      ∀ c', s.recording_controller_ = some c' → c' = c := by
  have hw := (reached r).follows
  obtain ⟨c, hrun, hsame, -⟩ := (reached r).controlled
  unfold Worker.Follows at hw
  have hthread : s.worker.thread = .run (iterations es) ∨
      s.worker.thread = numbered (.run (iterations es)) := by
    cases hpc : s.worker.pc with
    | notStarted =>
        rw [hpc] at hw
        rw [hw.1, hw.2]
        exact .inl rfl
    | loop | build | exited =>
        rw [hpc] at hw
        exact .inl hw
    | publish | publication | offer =>
        rw [hpc] at hw
        exact .inr hw.1
  obtain h | h := hthread
  · rw [h]
    exact ⟨rfl, rfl, c, hrun, hsame⟩
  · rw [h]
    exact ⟨rfl, rfl, c, hrun, hsame⟩

/-- One message and three calls of the controller. -/
theorem publisher_refines_recorded : ∃ es s, Run (system {}) es s ∧
    calls es = [.startRecording false true, .stopRecording false, .stopRecording false] ∧
    s.worker.thread.wire = (PublishThread.run [⟨0, 0, true, true, .position⟩]).wire ∧
    ∃ c, Run RecordingController.system
      [.startRecording false true, .stopRecording false, .stopRecording false] ⟨c, s.archive⟩ := by
  obtain ⟨before, after, s, r, -, hcalls, hiterations, -⟩ := exists_recorded_quit
  obtain ⟨hwire, -, c, hrun, -⟩ := publisher_refines r
  rw [hiterations] at hwire
  rw [hcalls] at hrun
  exact ⟨_, s, r, hcalls, hwire, c, hrun⟩

/-- **How the publisher ends.** In every run the publish thread offers only through a publication
that is held, and lives only while the publication and the controller are; after `quit` it makes
at most one more offer; and when the process is done, a `startRecording` that has returned true has
been followed by a `stopRecording` that has returned true, or both `shutdown` and the destructor of
the controller have tried to stop the recording and have failed. -/
theorem publisher_ends_safely (r : Run (system config) es s) :
    (∀ publication_ ∈ offers es, publication_ = true) ∧
    (s.worker.pc.alive = true → s.publication_ = true ∧ s.recording_controller_.isSome = true) ∧
    (∀ before after, es = before ++ .quit :: after → (offers after).length ≤ 1) ∧
    (s.console = .done → startedSince (calls es) = true →
      ∃ before, calls es = before ++ [.stopRecording false, .stopRecording false]) := by
  have hs := reached r
  refine ⟨hs.held, hs.phase.held, fun before after hsplit => ?_, fun hdone => ?_⟩
  · have := hs.quit.few before after hsplit
    omega
  · have hstopping := hs.stopping
    rw [hdone] at hstopping
    exact hstopping

/-- One offer after `quit`, and a recording that is left to the archive. -/
theorem publisher_ends_safely_recorded : ∃ before after s,
    Run (system {}) (before ++ .quit :: after) s ∧ s.console = .done ∧
    (offers after).length = 1 ∧ (offers after).length ≤ 1 ∧
    startedSince (calls (before ++ .quit :: after)) = true ∧
    ∃ cs, calls (before ++ .quit :: after)
      = cs ++ [.stopRecording false, .stopRecording false] := by
  obtain ⟨before, after, s, r, hdone, hcalls, -, hoffers⟩ := exists_recorded_quit
  obtain ⟨-, -, hfew, hstopped⟩ := publisher_ends_safely r
  have hstarted : startedSince (calls (before ++ .quit :: after)) = true := by
    rw [hcalls]
    rfl
  exact ⟨before, after, s, r, hdone, by rw [hoffers]; rfl, hfew before after rfl, hstarted,
    hstopped hdone hstarted⟩

/-! ## Coming to the end -/

/-- The process can come to its end from here. -/
def CanEnd (config : PublisherConfig) (s : State) : Prop :=
  ∃ fs t, Steps (system config) s fs t ∧ t.console = .done

theorem CanEnd.of_step (h : Step config s e t) (ht : CanEnd config t) : CanEnd config s := by
  obtain ⟨fs, u, q, hdone⟩ := ht
  exact ⟨e ++ fs, u, (Steps.single (M := system config) h).trans q, hdone⟩

theorem CanEnd.of_console (hphase : InPhase s) (h : ConsoleStep config s e t)
    (ht : InPhase t → CanEnd config t) : CanEnd config s :=
  .of_step (.console h) (ht (hphase.step (.console h)))

/-- With `running_` cleared the thread finishes its iteration and exits. -/
theorem canEnd_join (hpc : s.console = .join) (hrunning : s.running_ = false)
    (hstarted : s.worker.pc ≠ .notStarted)
    (hexited : ∀ t : State, t.console = .join → t.worker.pc = .exited → CanEnd config t) :
    CanEnd config s := by
  have hstep : ∀ {s : State} {e : List Event} {w w' : Worker}, s.worker = w →
      PublishStep s.running_ s.publication_ w e w' → CanEnd config { s with worker := w' } →
        CanEnd config s := by
    rintro s e w w' rfl h ht
    exact .of_step (.publish h) ht
  have hloop : ∀ {s : State} {p : PublishThread}, s.console = .join → s.running_ = false →
      s.worker = ⟨p, .loop⟩ → CanEnd config s := by
    intro s p hpc hrunning hw
    exact hstep hw (.exit hrunning) (hexited _ hpc rfl)
  rcases hw : s.worker with ⟨p, pc⟩
  rw [hw] at hstarted
  cases pc with
  | notStarted => exact absurd rfl hstarted
  | exited => exact hexited s hpc (by rw [hw])
  | loop => exact hloop hpc hrunning hw
  | build =>
      refine hstep hw (.build 0 0) (hstep rfl (.stopped hrunning) (hloop hpc hrunning rfl))
  | publish event_time publish_time buffer =>
      exact hstep hw (.stopped hrunning) (hloop hpc hrunning rfl)
  | publication event_time publish_time buffer =>
      cases hnull : s.publication_ with
      | false => exact hstep hw (.null hnull) (hloop hpc hrunning rfl)
      | true =>
          refine hstep hw (.testPublication hnull) (hstep rfl (.refused .NOT_CONNECTED ?_) ?_)
          · decide
          · exact hloop hpc hrunning rfl
  | offer event_time publish_time buffer =>
      exact hstep hw (.refused .NOT_CONNECTED (by decide)) (hloop hpc hrunning rfl)

/-- Past its loop the main thread comes to its end, whatever the archive answers. -/
theorem canEnd_of_ending (hphase : InPhase s) (hending : s.console.ending = true) :
    CanEnd config s := by
  have hpublication : ∀ t : State, t.console = .publication → CanEnd config t := fun t hpc =>
    .of_step (.console (.resetPublication hpc)) ⟨[], _, .refl _, rfl⟩
  have hcontroller : ∀ t : State, t.console = .controller → CanEnd config t := by
    intro t hpc
    by_cases hidle : ∀ c, t.recording_controller_ = some c → c.isRecording = false
    · exact .of_step (.console (.destructor hpc hidle)) (hpublication _ rfl)
    · simp only [not_forall, Bool.not_eq_false] at hidle
      obtain ⟨c, hc, hrec⟩ := hidle
      exact .of_step (.console (.destructorStop .throws hpc hc hrec rfl)) (hpublication _ rfl)
  have hstop : ∀ t : State, t.console = .stop → CanEnd config t := by
    intro t hpc
    by_cases hidle : ∀ c, t.recording_controller_ = some c → c.isRecording = false
    · exact .of_step (.console (.nothingToStop hpc hidle)) (hcontroller _ rfl)
    · simp only [not_forall, Bool.not_eq_false] at hidle
      obtain ⟨c, hc, hrec⟩ := hidle
      exact .of_step (.console (.shutdownStop .throws hpc hc hrec rfl)) (hcontroller _ rfl)
  have hshutdown : ∀ t : State, t.console = .shutdown → CanEnd config t := fun t hpc =>
    .of_step (.console (.shutdown hpc)) (hstop _ rfl)
  cases hpc : s.console with
  | initialize_ | autoRecord | create | loop | read | execute =>
      rw [hpc] at hending
      cases hending
  | join =>
      unfold InPhase at hphase
      rw [hpc] at hphase
      refine canEnd_join hpc hphase.2.1 hphase.1 fun t hjoin hexited => ?_
      exact .of_step (.console (.join hjoin hexited)) (hshutdown _ rfl)
  | shutdown => exact hshutdown s hpc
  | stop => exact hstop s hpc
  | controller => exact hcontroller s hpc
  | publication => exact hpublication s hpc
  | done => exact ⟨[], s, .refl s, hpc⟩

/-- As long as there is input, the next command can be `quit`. -/
theorem canEnd_of_good (hphase : InPhase s) (hgood : s.good = true) : CanEnd config s := by
  have hread : ∀ t : State, InPhase t → t.good = true → t.console = .read → CanEnd config t := by
    intro t ht hgood hpc
    refine .of_console ht (.read "quit" hpc hgood) fun ht => ?_
    exact .of_console ht (.quit rfl rfl) fun ht => canEnd_of_ending ht rfl
  have hloop : ∀ t : State, InPhase t → t.good = true → t.console = .loop → CanEnd config t := by
    intro t ht hgood hpc
    have hrunning : t.running_ = true := by
      unfold InPhase at ht
      rw [hpc] at ht
      exact ht.2.1
    exact .of_console ht (.loopOn hpc hrunning) fun ht => hread _ ht hgood rfl
  have hcreate : ∀ t : State, InPhase t → t.good = true → t.console = .create →
      CanEnd config t := fun t ht hgood hpc =>
    .of_console ht (.create hpc) fun ht => hloop _ ht hgood rfl
  cases hpc : s.console with
  | initialize_ => exact .of_console hphase (.failed false hpc) fun ht => canEnd_of_ending ht rfl
  | autoRecord =>
      cases hauto : config.auto_record with
      | false => exact .of_console hphase (.noAutoRecord hpc hauto) fun ht => hcreate _ ht hgood rfl
      | true =>
          have hsome := hphase
          unfold InPhase at hsome
          rw [hpc] at hsome
          obtain ⟨c, hc⟩ := Option.isSome_iff_exists.mp hsome.2.2.2
          exact .of_console hphase (.autoRecord (.throws "") hpc hauto hc rfl) fun ht =>
            hcreate _ ht hgood rfl
  | create => exact hcreate s hphase hgood hpc
  | loop => exact hloop s hphase hgood hpc
  | read => exact hread s hphase hgood hpc
  | execute =>
      have hsome := hphase
      unfold InPhase at hsome
      rw [hpc] at hsome
      obtain ⟨c, hc⟩ := Option.isSome_iff_exists.mp hsome.2.2.2
      by_cases hstart : s.command = "start"
      · exact .of_console hphase (.start (.throws "") hpc hstart hc rfl) fun ht =>
          hloop _ ht hgood rfl
      by_cases hstop : s.command = "stop"
      · exact .of_console hphase (.stop .throws hpc hstop hc rfl) fun ht => hloop _ ht hgood rfl
      by_cases hquit : s.command = "quit"
      · exact .of_console hphase (.quit hpc hquit) fun ht => canEnd_of_ending ht rfl
      · exact .of_console hphase (.unknown hpc hstart hstop hquit) fun ht => hloop _ ht hgood rfl
  | join | shutdown | stop | controller | publication | done =>
      exact canEnd_of_ending hphase (by rw [hpc]; rfl)

/-- **The process can only end through `quit`.** From a state that a run has reached the process
can come to its end exactly if the console has executed `quit` or its input has not ended. After
the end of the input neither a signal, which clears a variable that nothing reads, nor anything
else stops the publisher. -/
theorem can_end_iff (r : Run (system config) es s) :
    (∃ fs t, Steps (system config) s fs t ∧ t.console = .done) ↔
      .quit ∈ es ∨ s.good = true := by
  have hs := reached r
  constructor
  · rintro ⟨fs, t, q, hdone⟩
    cases hgood : s.good with
    | true => exact .inr rfl
    | false =>
        refine .inl ((hs.heard.trapped hgood).resolve_right fun htrap => ?_)
        have ht := q.invariant (I := fun _ t => Trapped t) (fun _ _ _ _ h hstep => h.step hstep)
          htrap
        have hlistening := ht.listening
        simp [hdone] at hlistening
  · rintro (hquit | hgood)
    · exact canEnd_of_ending hs.phase (hs.quit.ending hquit)
    · exact canEnd_of_good hs.phase hgood

/-- The input of one process ends, and another one reads `quit`. -/
theorem can_end_iff_quit :
    (∃ es s, Run (system {}) es s ∧ s.good = false ∧ .quit ∉ es ∧ ¬ CanEnd {} s) ∧
    ∃ es s, Run (system {}) es s ∧ .quit ∈ es ∧ s.console = .join ∧ CanEnd {} s := by
  have r₀ : Run (system {}) [] (State.start newArchive) := .init ⟨_, rfl⟩
  have r₁ := r₀.silent (.console (.initialized rfl))
  have r₂ := r₁.silent (.console (.noAutoRecord rfl rfl))
  have r₃ := r₂.silent (.console (.create rfl))
  have r₄ := r₃.silent (.console (.loopOn rfl rfl))
  constructor
  · have r₅ := r₄.silent (.console (.readFails rfl))
    exact ⟨_, _, r₅, rfl, by simp, fun h => by simpa using (can_end_iff r₅).mp h⟩
  · have r₅ := r₄.step (.console (.read "quit" rfl rfl))
    have r₆ := r₅.step (.console (.quit rfl rfl))
    exact ⟨_, _, r₆, by simp, rfl, (can_end_iff r₆).mpr (.inl (by simp))⟩

end AeronReplay.PublisherProcess
