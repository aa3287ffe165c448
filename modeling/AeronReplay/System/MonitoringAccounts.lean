import AeronReplay.System.Headers
import AeronReplay.System.Histories
import Mathlib.Algebra.Order.BigOperators.Group.List
import Mathlib.Data.List.Forall2

set_option autoImplicit false

/-! # What the monitoring gets to see

The statistics of every processed message are offered to the monitoring queue, in order, and
those that find room there reach the monitoring thread in order (`monitoring_accounts`). The rest
is skipped without a trace: `skipped_count` of `main.cpp` is never written. The worker's samples of
the queue depth are exact (`queue_depth_sampled`). Both are proved with single steps first, and then
said of the process access by access, as far as it respects `SlotOrder`. -/

namespace AeronReplay.System

open Transition CheckpointManager RingQueue

variable {PoolSize : Nat} {N M : Ring.Size} {config : Config} {d₀ : CheckpointData}

/-! ## The history -/

section History

variable (ms ns : List (MonitoredEvent PoolSize))

/-- The events of the process itself. -/
def processEvents : List (Event PoolSize) := ms.filterMap MonitoredEvent.process?

/-- The samples of the queue depth. -/
def queueDepths : List Nat := ms.filterMap MonitoredEvent.queueDepth?

/-- The statistics that the worker has offered. -/
def offers : List MonitoringStats := ms.filterMap MonitoredEvent.offered?

def sends : List MonitoringStats := ms.filterMap MonitoredEvent.sent?

def skips : List MonitoringStats := ms.filterMap MonitoredEvent.skipped?

/-- The statistics that the monitoring thread has dequeued. -/
def observations : List MonitoringStats := ms.filterMap MonitoredEvent.observed?

@[simp] theorem processEvents_append :
    processEvents (ms ++ ns) = processEvents ms ++ processEvents ns := List.filterMap_append

@[simp] theorem queueDepths_append :
    queueDepths (ms ++ ns) = queueDepths ms ++ queueDepths ns := List.filterMap_append

@[simp] theorem offers_append : offers (ms ++ ns) = offers ms ++ offers ns :=
  List.filterMap_append

@[simp] theorem sends_append : sends (ms ++ ns) = sends ms ++ sends ns := List.filterMap_append

@[simp] theorem skips_append : skips (ms ++ ns) = skips ms ++ skips ns := List.filterMap_append

@[simp] theorem observations_append :
    observations (ms ++ ns) = observations ms ++ observations ns := List.filterMap_append

/-- What is offered is sent or skipped. -/
theorem length_offers : (offers ms).length = (sends ms).length + (skips ms).length := by
  induction ms with
  | nil => rfl
  | cons x ms ih =>
      simp only [offers, sends, skips, List.filterMap_cons] at ih ⊢
      cases x with
      | sent stats | skipped stats =>
          simp only [MonitoredEvent.offered?, MonitoredEvent.sent?, MonitoredEvent.skipped?,
            List.length_cons]
          omega
      | process | queueDepth | observed => exact ih

/-- Monitoring turns no message down but for want of room. -/
theorem stats_not_refused (buf : MessageBuffer) :
    (spscQueue M MonitoringStats).refuses (MessageWorker.monitoringStats buf) = false :=
  rfl

theorem observations_of_offer {x : MonitoredEvent PoolSize} (hx : x.observed? = none) :
    observations (ms ++ [x]) = observations ms := by
  rw [observations_append, observations, observations, List.filterMap_cons_none hx]
  exact List.append_nil _

/-- The part of the monitoring is not concerned. -/
structure Quiet (ns : List (MonitoredEvent PoolSize)) : Prop where
  depths : queueDepths ns = []
  offers : offers ns = []
  sends : sends ns = []
  skips : skips ns = []
  observations : observations ns = []

theorem quiet_process (e : List (Event PoolSize)) : Quiet (e.map .process) := by
  refine ⟨?_, ?_, ?_, ?_, ?_⟩
  all_goals
    refine List.filterMap_eq_nil_iff.mpr fun x hx => ?_
    obtain ⟨y, -, rfl⟩ := List.mem_map.mp hx
    rfl

end History

/-! ## What the statistics say -/

/-- The statistics are about this fragment: its number, its send time and some receive time. -/
def Reports (f : Fragment) (stats : MonitoringStats) : Prop :=
  ∃ recv_timestamp : Int64, stats = {
    message_number := f.message_number
    send_timestamp := f.header.publish_time_ns.toInt64
    recv_timestamp := recv_timestamp
    position := 0 }

theorem reports_of_stamped {f : Fragment} {b : MessageBuffer} (h : Stamped f b) :
    Reports f (MessageWorker.monitoringStats b) := by
  obtain ⟨recv, hrecv⟩ := h
  refine ⟨recv, ?_⟩
  unfold MessageWorker.monitoringStats
  rw [hrecv]
  rfl

/-- The message that has been processed and not yet offered. -/
def Monitored.pending (m : Monitored PoolSize) : List Fragment :=
  match m.duty with
  | .sendToMonitoring b => [m.process.origin b]
  | _ => []

/-! ## The steps of the process -/

/-- The fast path fills no buffer that the worker has. -/
theorem Custody.origin_of_held {s t : State PoolSize} {l : List (Fin PoolSize)}
    {e : List (Event PoolSize)} (h : Custody N s l) (hstep : SubscriberStep N config s e t)
    {b : Fin PoolSize} (hb : b ∈ s.worker.held) : t.origin b = s.origin b := by
  cases hstep with
  | trackDuplicate hpc | track hpc =>
      exact Function.update_of_ne (h.ne_held (congrArg FastPathPc.held hpc) (Or.inr hb)) _ _
  | _ => rfl

/-- The fast path neither judges a message nor takes one from the queue, and leaves the worker
where it is. -/
theorem SubscriberStep.aside {s t : State PoolSize} {e : List (Event PoolSize)}
    (h : SubscriberStep N config s e t) :
    handlerCalls e = [] ∧ dequeues e = [] ∧ t.worker = s.worker := by
  have hnone : ∀ x ∈ e, x.processed? = none ∧ x.dequeued? = none := by
    cases h with
    | trackDuplicate hpc hb hv hdup =>
        exact List.forall_mem_append.mpr
          ⟨forall_gaps (fun _ => ⟨rfl, rfl⟩) _, by simp [Event.processed?, Event.dequeued?]⟩
    | track hpc hb hv hdup => exact forall_gaps (fun _ => ⟨rfl, rfl⟩) _
    | dropDuplicate hpc | dropRefused hpc => exact forall_overflow ⟨rfl, rfl⟩ _
    | _ => simp [Event.processed?, Event.dequeued?]
  refine ⟨filterMap_eq_nil fun x hx => (hnone x hx).1,
    filterMap_eq_nil fun x hx => (hnone x hx).2, ?_⟩
  cases h <;> rfl

theorem aside_checkpoint (e : List SnapshotEvent) :
    handlerCalls (e.map .checkpoint : List (Event PoolSize)) = [] ∧
      dequeues (e.map .checkpoint : List (Event PoolSize)) = [] := by
  have hnone : ∀ x ∈ (e.map .checkpoint : List (Event PoolSize)),
      x.processed? = none ∧ x.dequeued? = none := by
    intro x hx
    obtain ⟨y, -, rfl⟩ := List.mem_map.mp hx
    exact ⟨rfl, rfl⟩
  exact ⟨filterMap_eq_nil fun x hx => (hnone x hx).1, filterMap_eq_nil fun x hx => (hnone x hx).2⟩

/-- A message is handed to `processMessage` exactly where the worker gets the duty to report
it. -/
theorem WorkerStep.handlerCalls {s t : State PoolSize} {e : List (Event PoolSize)}
    (h : WorkerStep N s e t) :
    System.handlerCalls e = match t.worker.duty with
      | .sendToMonitoring b => [t.origin b]
      | _ => [] := by
  cases h with
  | returnRejected | returnProcessed =>
      exact filterMap_eq_nil (forall_overflow (P := fun x => x.processed? = none) rfl _)
  | _ => rfl

/-! ## Accounts -/

/-- What the monitoring has seen after the events `ms`, while its queue holds `waiting`. -/
structure Watched (M : Ring.Size) (ms : List (MonitoredEvent PoolSize)) (m : Monitored PoolSize)
    (waiting : List MonitoringStats) : Prop where
  stores : Stores M m.stats_queue waiting
  fifo : sends ms = observations ms ++ waiting
  monitor : m.monitor = Monitor.run ((observations ms).map (·.toMessageStats))
  duty : ∀ b, m.duty = .sendToMonitoring b → m.process.worker = .processed b
  offered : ∃ fs, handlerCalls (processEvents ms) = fs ++ m.pending ∧
    List.Forall₂ Reports fs (offers ms)
  full : ∀ before x after, ms = before ++ x :: after → x.skipped?.isSome →
    (sends before).length = (observations before).length + (M.val - 1)

section Steps

variable {ms ns : List (MonitoredEvent PoolSize)} {m m' : Monitored PoolSize}
  {waiting : List MonitoringStats}

/-- A step that does not concern the monitoring queue. -/
theorem Watched.frame (h : Watched M ms m waiting) (hsends : sends ns = [])
    (hoffers : offers ns = []) (hobs : observations ns = [])
    (hskips : skips ns = []) (hqueue : m'.stats_queue = m.stats_queue)
    (hmonitor : m'.monitor = m.monitor)
    (hduty : ∀ b, m'.duty = .sendToMonitoring b → m'.process.worker = .processed b)
    (hpending : m.pending ++ handlerCalls (processEvents ns) = m'.pending) :
    Watched M (ms ++ ns) m' waiting where
  stores := by
    rw [hqueue]
    exact h.stores
  fifo := by rw [sends_append, observations_append, hsends, hobs, List.append_nil,
    List.append_nil, h.fifo]
  monitor := by rw [hmonitor, h.monitor, observations_append, hobs, List.append_nil]
  duty := hduty
  offered := by
    obtain ⟨fs, hfs, hreports⟩ := h.offered
    refine ⟨fs, ?_, ?_⟩
    · calc handlerCalls (processEvents (ms ++ ns))
          = fs ++ (m.pending ++ handlerCalls (processEvents ns)) := by
            rw [processEvents_append, handlerCalls_append, hfs, List.append_assoc]
        _ = fs ++ m'.pending := by rw [hpending]
    · rwa [offers_append, hoffers, List.append_nil]
  full := by
    refine forall_split_append h.full fun before x after hsplit hx => ?_
    obtain ⟨stats, hstats⟩ := Option.isSome_iff_exists.mp hx
    have hmem : stats ∈ skips ns := by
      rw [hsplit]
      exact List.mem_filterMap.mpr ⟨x, by simp, hstats⟩
    rw [hskips] at hmem
    cases hmem

/-- A step of the process. -/
theorem Watched.process (h : Watched M ms m waiting) {e : List (Event PoolSize)}
    (hqueue : m'.stats_queue = m.stats_queue) (hmonitor : m'.monitor = m.monitor)
    (hduty : ∀ b, m'.duty = .sendToMonitoring b → m'.process.worker = .processed b)
    (hpending : m.pending ++ handlerCalls e = m'.pending) :
    Watched M (ms ++ e.map .process) m' waiting := by
  have hquiet := quiet_process e
  refine h.frame hquiet.sends hquiet.offers hquiet.observations hquiet.skips hqueue hmonitor
    hduty ?_
  rw [processEvents, filterMap_process]
  exact hpending

/-- A step of the monitoring thread or of `main` that moves no statistics. -/
theorem Watched.idle (h : Watched M ms m waiting) (hqueue : m'.stats_queue = m.stats_queue)
    (hmonitor : m'.monitor = m.monitor) (hsame : m'.duty = m.duty)
    (hprocess : m'.process = m.process) : Watched M (ms ++ []) m' waiting := by
  refine h.frame rfl rfl rfl rfl hqueue hmonitor ?_ ?_
  · rw [hsame, hprocess]
    exact h.duty
  · rw [Monitored.pending, Monitored.pending, hsame, hprocess]
    exact List.append_nil _

/-- The worker has offered statistics about the message it has processed. -/
theorem Watched.offer (h : Watched M ms m waiting) {b : Fin PoolSize} {stats : MonitoringStats}
    {x : MonitoredEvent PoolSize} (hduty : m.duty = .sendToMonitoring b)
    (hx : x.offered? = some stats) (hnone : x.process? = none)
    (hreports : Reports (m.process.origin b) stats) :
    ∃ fs, handlerCalls (processEvents (ms ++ [x])) = fs ++ [] ∧
      List.Forall₂ Reports fs (offers (ms ++ [x])) := by
  obtain ⟨fs, hfs, hall⟩ := h.offered
  have hcalls : processEvents (ms ++ [x]) = processEvents ms := by
    rw [processEvents_append, processEvents, processEvents, List.filterMap_cons_none hnone]
    exact List.append_nil _
  have hoffers : offers (ms ++ [x]) = offers ms ++ [stats] := by
    rw [offers_append, offers, offers, List.filterMap_cons_some hx]
    rfl
  refine ⟨fs ++ [m.process.origin b], ?_, ?_⟩
  · rw [hcalls, hfs, Monitored.pending, hduty, List.append_nil]
  · rw [hoffers]
    exact List.rel_append hall (.cons hreports .nil)

theorem Watched.step (h : Watched M ms m waiting) {l : List (Fin PoolSize)}
    (hcustody : Custody N m.process l) (hstamped : AllStamped m.process l)
    (hstep : MonitoredStep N M config m ns m') :
    ∃ waiting', Watched M (ms ++ ns) m' waiting' := by
  -- the statistics are about the message in the buffer that the worker has
  have hreports : ∀ b, m.duty = .sendToMonitoring b → Reports (m.process.origin b)
      (MessageWorker.monitoringStats (m.process.pool.buffers_ b)) := by
    intro b hduty
    refine reports_of_stamped (hstamped b (mem_carrying.mpr (Or.inr (Or.inr ?_))))
    rw [h.duty b hduty]
    exact List.mem_singleton_self b
  cases hstep with
  | @subscriber e s hstep =>
      obtain ⟨hcalls, -, hworker⟩ := hstep.aside
      refine ⟨waiting, h.process rfl rfl ?_ ?_⟩
      · rw [hworker]
        exact h.duty
      · rw [hcalls, List.append_nil]
        unfold Monitored.pending
        dsimp only
        cases hduty : m.duty with
        | none | sampleQueueDepth => rfl
        | sendToMonitoring b =>
            have hb : b ∈ m.process.worker.held := by
              rw [h.duty b hduty]
              exact List.mem_singleton_self b
            exact congrArg (fun f => [f]) (hcustody.origin_of_held hstep hb).symm
  | @worker e s _ _ hduty hstep =>
      refine ⟨waiting, h.process rfl rfl ?_ ?_⟩
      · intro b hb
        dsimp only at hb ⊢
        cases hpc : s.worker <;> rw [hpc] at hb <;> cases hb
        rfl
      · rw [hstep.handlerCalls, Monitored.pending, hduty]
        rfl
  | sampleQueueDepth hduty =>
      refine ⟨waiting, h.frame rfl rfl rfl rfl rfl rfl (fun b hb => nomatch hb) ?_⟩
      rw [Monitored.pending, hduty]
      rfl
  | @send b q hduty henq =>
      obtain ⟨-, -, hstores⟩ | ⟨-, hfull⟩ := enqueue_spec (spscQueue M MonitoringStats) h.stores
        (stats_not_refused (m.process.pool.buffers_ b))
      · rw [henq] at hstores
        have hobs := observations_of_offer ms
          (x := .sent (MessageWorker.monitoringStats (m.process.pool.buffers_ b))) rfl
        refine ⟨_, hstores, ?_, ?_, fun b hb => (nomatch hb),
          h.offer hduty rfl rfl (hreports b hduty), ?_⟩
        · rw [sends_append, hobs, h.fifo, List.append_assoc]
          rfl
        · rw [hobs]
          exact h.monitor
        · exact forall_split_append h.full fun before x after hsplit hx => by
            rcases before with _ | ⟨y, before⟩
            · obtain ⟨rfl, -⟩ := List.cons.inj hsplit
              cases hx
            · simp at hsplit
      · rw [henq] at hfull
        cases hfull
  | @skip b q hduty henq =>
      obtain ⟨-, hok, -⟩ | ⟨hlen, hfull⟩ := enqueue_spec (spscQueue M MonitoringStats) h.stores
        (stats_not_refused (m.process.pool.buffers_ b))
      · rw [henq] at hok
        cases hok
      · rw [henq] at hfull
        cases hfull
        have hobs := observations_of_offer ms
          (x := .skipped (MessageWorker.monitoringStats (m.process.pool.buffers_ b))) rfl
        refine ⟨_, h.stores, ?_, ?_, fun b hb => (nomatch hb),
          h.offer hduty rfl rfl (hreports b hduty), ?_⟩
        · rw [sends_append, hobs, h.fifo]
          exact List.append_nil _
        · rw [hobs]
          exact h.monitor
        · refine forall_split_append h.full fun before x after hsplit _ => ?_
          rcases before with _ | ⟨y, before⟩
          · rw [List.append_nil, h.fifo, List.length_append, hlen]
          · simp at hsplit
  | testMonitoring hpc hrun | exitMonitoring hpc hstop | stopMonitoring hmain hrun
    | joinMonitoring hstop hexit => exact ⟨waiting, h.idle rfl rfl rfl rfl⟩
  | statsQueueEmpty hpc hdeq =>
      obtain ⟨-, hnone⟩ | ⟨a, l', -, hsome, -⟩ :=
        dequeue_spec (spscQueue M MonitoringStats) h.stores
      · rw [hnone] at hdeq
        cases hdeq
        exact ⟨waiting, h.idle rfl rfl rfl rfl⟩
      · rw [hdeq] at hsome
        cases hsome
  | @observe stats q hpc hdeq =>
      obtain ⟨-, hnone⟩ | ⟨a, rest, rfl, hsome, hstores⟩ :=
        dequeue_spec (spscQueue M MonitoringStats) h.stores
      · rw [hnone] at hdeq
        cases hdeq
      · rw [hdeq] at hsome hstores
        cases hsome
        have hobs : observations (ms ++ [.observed stats]) = observations ms ++ [stats] := by
          rw [observations_append]
          rfl
        refine ⟨rest, hstores, ?_, ?_, h.duty, ?_, ?_⟩
        · have hnone : sends [(.observed stats : MonitoredEvent PoolSize)] = [] := rfl
          rw [sends_append, h.fifo, hobs, hnone, List.append_nil, List.append_assoc]
          rfl
        · rw [hobs, List.map_append, List.map_singleton, Monitor.run_snoc, ← h.monitor]
        · obtain ⟨fs, hfs, hall⟩ := h.offered
          refine ⟨fs, ?_, ?_⟩
          · rw [processEvents_append]
            exact (congrArg _ (List.append_nil _)).trans hfs
          · rw [offers_append]
            exact (List.append_nil (offers ms)).symm ▸ hall
        · exact forall_split_append h.full fun before x after hsplit hx => by
            rcases before with _ | ⟨y, before⟩
            · obtain ⟨rfl, -⟩ := List.cons.inj hsplit
              cases hx
            · simp at hsplit
  | main hstep =>
      refine ⟨waiting, h.process rfl rfl ?_ ?_⟩
      · cases hstep <;> exact h.duty
      · cases hstep <;> exact List.append_nil _
  | checkpoint hstep =>
      refine ⟨waiting, h.process rfl rfl h.duty ?_⟩
      rw [(aside_checkpoint _).1]
      exact List.append_nil _

end Steps

theorem watched_init {m : Monitored PoolSize} (h : MonitoredInitial config d₀ m) :
    Watched M ([] : List (MonitoredEvent PoolSize)) m [] where
  stores := by
    refine ⟨?_, M.val_pos, ?_, rfl⟩
    · rw [h.stats_queue.1]
      exact M.val_pos
    · rw [h.stats_queue.1, h.stats_queue.2]
      exact (Nat.zero_mod _).symm
  fifo := rfl
  monitor := h.monitor
  duty b hb := by
    rw [h.duty] at hb
    cases hb
  offered := ⟨[], by rw [Monitored.pending, h.duty]; rfl, .nil⟩
  full before x after hsplit := by simp at hsplit

theorem watched_run (hsize : PoolSize < N.val) {ms : List (MonitoredEvent PoolSize)}
    {m : Monitored PoolSize} (r : Run (monitoredSystem PoolSize N M config d₀) ms m) :
    ∃ waiting, Watched M ms m waiting := by
  induction r with
  | init h => exact ⟨[], watched_init h⟩
  | step r hstep ih =>
      obtain ⟨waiting, h⟩ := ih
      obtain ⟨l, hl, hstamped⟩ :=
        stamped_run hsize (monitored_conservative.toExtension.run r)
      exact h.step hl.custody hstamped hstep

/-- The monitoring queue stores what it stores between calls. -/
theorem Accesses.Linearized.stats_stores {a : Accesses.State PoolSize}
    {q : RingQueue (Option (Fin PoolSize))} {k : RingQueue MonitoringStats}
    {l : List (Fin PoolSize)} {waiting : List MonitoringStats}
    (h : Accesses.Linearized N M a q k l waiting) :
    Stores M a.monitored.stats_queue waiting := by
  refine h.stats_queue.represents.stores_mem fun i stats hcleared => ?_
  cases h.stats_queue.agrees.clear i stats hcleared

/-- **The monitoring gets the processed messages in order**, each of them once, unless its queue
is full.

In every run that respects `SlotOrder` the statistics that the worker offers are about the messages
handed to `processMessage`, in their order, except for one it may be about to offer; those that find
room in the queue are observed by the monitoring thread in their order, or are still in the queue;
one is skipped only where the queue holds `16383` others; and the figures of the monitoring thread
are those of its loop on the observed ones. -/
theorem monitoring_accounts {as : List (Accesses.Event poolSize)} {a : Accesses.State poolSize}
    (r : Run (orderedProcess config d₀) as a) :
    (∃ fs, handlerCalls (Accesses.history as) = fs ++ a.monitored.pending ∧
      List.Forall₂ Reports fs (offers (Accesses.seen as))) ∧
    (∃ waiting, Stores statsQueueSize a.monitored.stats_queue waiting ∧
      sends (Accesses.seen as) = observations (Accesses.seen as) ++ waiting ∧
      (handlerCalls (Accesses.history as)).length = (observations (Accesses.seen as)).length
        + waiting.length + (skips (Accesses.seen as)).length + a.monitored.pending.length) ∧
    (∀ before stats after, as = before ++ .monitored (.skipped stats) :: after →
      (sends (Accesses.seen before)).length
        = (observations (Accesses.seen before)).length + 16383) ∧
    a.monitored.monitor
      = Monitor.run ((observations (Accesses.seen as)).map (·.toMessageStats)) := by
  obtain ⟨_, ⟨q, k, l, waiting, rfl, hl⟩, hr⟩ := Accesses.run_of_ordered poolSize_lt r
  obtain ⟨waiting', h⟩ := watched_run poolSize_lt hr
  obtain rfl : waiting = waiting' := hl.stats_queue.stores.unique h.stores
  refine ⟨h.offered, ⟨waiting, hl.stats_stores, h.fifo, ?_⟩, ?_, h.monitor⟩
  · obtain ⟨fs, hfs, hall⟩ := h.offered
    have hoffers := length_offers (Accesses.seen as)
    rw [← hall.length_eq, h.fifo, List.length_append] at hoffers
    show (handlerCalls (processEvents (Accesses.seen as))).length = _
    rw [hfs, List.length_append, hoffers]
    rfl
  · rintro before stats after rfl
    exact h.full (Accesses.seen before) (.skipped stats) (Accesses.seen after)
      (Accesses.seen_append before _) rfl

set_option maxRecDepth 20000 in
/-- One message, up to the monitoring thread. -/
theorem exists_observed : ∃ ms m,
    Run (monitoredProcess { checkpoint_enabled := false } .zero) ms m ∧
    handlerCalls (processEvents ms) = [⟨[], 64⟩] ∧ (observations ms).length = 1 ∧
    queueDepths ms = [1] ∧ (dequeues (processEvents ms)).length = 1 := by
  have r₀ := Run.init (M := monitoredProcess { checkpoint_enabled := false } .zero)
    (State.monitored_init (State.start_init { checkpoint_enabled := false } .zero))
  have r₁ := r₀.step (.subscriber first_arrives)
  have r₂ := r₁.step (.subscriber first_copied)
  have r₃ := r₂.step (.subscriber first_queued)
  have r₄ := r₃.step (.worker 0 0 rfl (.testRunning rfl rfl))
  have r₅ := r₄.step (.sampleQueueDepth rfl)
  have r₆ := r₅.step (.worker 0 0 rfl (.dequeue 8 rfl rfl))
  have r₇ := r₆.step (.worker 9 10 rfl (.process rfl rfl rfl))
  have r₈ := r₇.step (.send rfl rfl)
  have r₉ := r₈.step (.testMonitoring rfl rfl)
  have r₁₀ := r₉.step (.observe rfl rfl)
  exact ⟨_, _, r₁₀, rfl, rfl, rfl, rfl⟩

/-- One message, up to the monitoring thread. -/
theorem monitoring_accounts_observed : ∃ as a,
    Run (orderedProcess { checkpoint_enabled := false } .zero) as a ∧
    handlerCalls (Accesses.history as) = [⟨[], 64⟩] ∧
    (observations (Accesses.seen as)).length = 1 ∧
    (∃ fs, handlerCalls (Accesses.history as) = fs ++ a.monitored.pending ∧
      List.Forall₂ Reports fs (offers (Accesses.seen as))) ∧
    a.monitored.monitor
      = Monitor.run ((observations (Accesses.seen as)).map (·.toMessageStats)) := by
  obtain ⟨ms, m, r, hcalls, hobserved, -⟩ := exists_observed
  obtain ⟨as, hr, rfl, -⟩ := Accesses.exists_ordered_run r
  obtain ⟨hoffered, -, -, hmonitor⟩ := monitoring_accounts hr
  exact ⟨as, _, hr, hcalls, hobserved, hoffered, hmonitor⟩

/-! ## The queue depth -/

/-- `1` if the worker has begun a round and not yet taken the sample of it. -/
def WorkerDuty.unsampled : WorkerDuty PoolSize → UInt64
  | .sampleQueueDepth => 1
  | _ => 0

/-- `1` if the worker has begun a round and not yet looked into the queue. -/
def WorkerPc.looking : WorkerPc PoolSize → UInt64
  | .polling => 1
  | _ => 0

theorem WorkerPc.looking_of_ne {pc : WorkerPc PoolSize} (h : pc ≠ .polling) : pc.looking = 0 := by
  cases pc with
  | polling => exact absurd rfl h
  | _ => rfl

/-- The calls of the worker do not hide that it is about to look. -/
theorem Accesses.Linearized.looking_eq {a : Accesses.State PoolSize}
    {q : RingQueue (Option (Fin PoolSize))} {k : RingQueue MonitoringStats}
    {l : List (Fin PoolSize)} {waiting : List MonitoringStats}
    (h : Accesses.Linearized N M a q k l waiting) :
    a.worker.looking = a.process.worker.looking := by
  by_cases hpolling : a.process.worker = .polling
  · rw [hpolling, h.polling_iff.mpr hpolling]
  · rw [WorkerPc.looking_of_ne hpolling,
      WorkerPc.looking_of_ne fun heq => hpolling (h.polling_iff.mp heq)]

/-- What the counters of the worker say after the events `ms`. -/
structure Measured (ms : List (MonitoredEvent PoolSize)) (m : Monitored PoolSize) : Prop where
  total : m.metrics.total_queue_depth_ = .ofNat (queueDepths ms).sum
  samples : m.metrics.queue_depth_samples_ = .ofNat (queueDepths ms).length
  rounds : m.metrics.queue_depth_samples_ + m.duty.unsampled
    = m.metrics.queue_empty_count_ + .ofNat (dequeues (processEvents ms)).length
      + m.process.worker.looking
  processing : m.metrics.processing_count_ = .ofNat (handlerCalls (processEvents ms)).length
  exact : ∀ before x after, ms = before ++ x :: after → ∀ depth, x.queueDepth? = some depth →
    (enqueues (processEvents before)).length
      = (dequeues (processEvents before)).length + depth ∧ depth ≤ PoolSize

section Steps

variable {ms ns : List (MonitoredEvent PoolSize)} {m m' : Monitored PoolSize}

/-- A step in which the worker does nothing. -/
theorem Measured.frame (h : Measured ms m) (hdepths : queueDepths ns = [])
    (hdequeues : dequeues (processEvents ns) = []) (hcalls : handlerCalls (processEvents ns) = [])
    (hmetrics : m'.metrics = m.metrics) (hduty : m'.duty.unsampled = m.duty.unsampled)
    (hworker : m'.process.worker = m.process.worker) : Measured (ms ++ ns) m' where
  total := by rw [hmetrics, h.total, queueDepths_append, hdepths, List.append_nil]
  samples := by rw [hmetrics, h.samples, queueDepths_append, hdepths, List.append_nil]
  rounds := by rw [hmetrics, hduty, hworker, h.rounds, processEvents_append, dequeues_append,
    hdequeues, List.append_nil]
  processing := by rw [hmetrics, h.processing, processEvents_append, handlerCalls_append, hcalls,
    List.append_nil]
  exact := by
    refine forall_split_append h.exact fun before x after hsplit depth hx => ?_
    have hmem : depth ∈ queueDepths ns := by
      rw [hsplit]
      exact List.mem_filterMap.mpr ⟨x, by simp, hx⟩
    rw [hdepths] at hmem
    cases hmem

/-- What a step of the worker adds to the counters. -/
structure Adds (s : State PoolSize) (w : WorkerMetrics) (e : List (Event PoolSize))
    (t : State PoolSize) (w' : WorkerMetrics) : Prop where
  total : w'.total_queue_depth_ = w.total_queue_depth_
  samples : w'.queue_depth_samples_ = w.queue_depth_samples_
  rounds : w.queue_empty_count_ + s.worker.looking + t.worker.duty.unsampled
    = w'.queue_empty_count_ + .ofNat (dequeues e).length + t.worker.looking
  processing : w'.processing_count_ = w.processing_count_ + .ofNat (handlerCalls e).length

theorem adds_worker {s t : State PoolSize} {e : List (Event PoolSize)} (h : WorkerStep N s e t)
    (w : WorkerMetrics) (time : Int64) : Adds s w e t (w.after s.worker t.worker time) := by
  cases h with
  | testRunning hpc hrun | exit hpc hstop | queueEmpty hpc hdeq | dequeue _ hpc hdeq
    | rejectInvalid hpc hvalid | rejectDuplicate hpc hvalid hdup | process hpc hvalid hdup
    | countProcessed hpc =>
      refine ⟨?_, ?_, ?_, ?_⟩ <;>
        simp [hpc, WorkerMetrics.after, WorkerPc.duty, WorkerDuty.unsampled, WorkerPc.looking,
          dequeues, handlerCalls, List.filterMap_cons, Event.dequeued?, Event.processed?]
  | returnRejected hpc | returnProcessed hpc =>
      have hdequeues : dequeues (overflow s.pool) = [] :=
        filterMap_eq_nil (forall_overflow (P := fun x => x.dequeued? = none) rfl _)
      have hcalls : handlerCalls (overflow s.pool) = [] :=
        filterMap_eq_nil (forall_overflow (P := fun x => x.processed? = none) rfl _)
      refine ⟨?_, ?_, ?_, ?_⟩ <;>
        simp [hpc, WorkerMetrics.after, WorkerPc.duty, WorkerDuty.unsampled, WorkerPc.looking,
          hdequeues, hcalls]

theorem Measured.step (h : Measured ms m) {l : List (Fin PoolSize)}
    (hl : InCustody N (processEvents ms) m.process l)
    (hstep : MonitoredStep N M config m ns m') : Measured (ms ++ ns) m' := by
  cases hstep with
  | @subscriber e s hstep =>
      obtain ⟨hcalls, hdequeues, hworker⟩ := hstep.aside
      refine h.frame (quiet_process e).depths ?_ ?_ rfl rfl hworker
      · rw [processEvents, filterMap_process, hdequeues]
      · rw [processEvents, filterMap_process, hcalls]
  | @worker e s start_processing end_processing hduty hstep =>
      have hadds := adds_worker hstep m.metrics (end_processing - start_processing)
      have hprocess : processEvents (ms ++ e.map .process) = processEvents ms ++ e := by
        rw [processEvents_append]
        exact congrArg _ (filterMap_process e)
      have hrounds := h.rounds
      rw [hduty] at hrounds
      refine ⟨?_, ?_, ?_, ?_, ?_⟩
      · rw [queueDepths_append, (quiet_process e).depths, List.append_nil, ← h.total]
        exact hadds.total
      · rw [queueDepths_append, (quiet_process e).depths, List.append_nil, ← h.samples]
        exact hadds.samples
      · show (m.metrics.after m.process.worker s.worker _).queue_depth_samples_
            + s.worker.duty.unsampled = _
        rw [hprocess, dequeues_append, List.length_append, UInt64.ofNat_add, hadds.samples]
        calc m.metrics.queue_depth_samples_ + s.worker.duty.unsampled
            = m.metrics.queue_empty_count_ + m.process.worker.looking
                + s.worker.duty.unsampled + .ofNat (dequeues (processEvents ms)).length := by
              rw [← UInt64.add_zero m.metrics.queue_depth_samples_]
              refine (congrArg (· + _) hrounds).trans ?_
              ac_rfl
          _ = _ := by
              rw [hadds.rounds]
              ac_rfl
      · show (m.metrics.after m.process.worker s.worker _).processing_count_ = _
        rw [hprocess, handlerCalls_append, List.length_append, UInt64.ofNat_add, ← h.processing]
        exact hadds.processing
      · refine forall_split_append h.exact fun before x after hsplit depth hx => ?_
        have hmem : depth ∈ queueDepths (e.map MonitoredEvent.process) := by
          rw [hsplit]
          exact List.mem_filterMap.mpr ⟨x, by simp, hx⟩
        rw [(quiet_process e).depths] at hmem
        cases hmem
  | sampleQueueDepth hduty =>
      have hdepth : MessageQueue.size N m.process.queue.head_ m.process.queue.tail_ = l.length := by
        rw [← List.length_map some]
        exact hl.custody.stores.size_eq (pointerQueue N PoolSize)
      rw [hdepth]
      have hprocess : processEvents (ms ++ [.queueDepth l.length]) = processEvents ms := by
        rw [processEvents_append]
        exact List.append_nil _
      have hrounds := h.rounds
      rw [hduty] at hrounds
      refine ⟨?_, ?_, ?_, ?_, ?_⟩
      · rw [queueDepths_append, List.sum_append, UInt64.ofNat_add, ← h.total]
        exact congrArg (fun d => m.metrics.total_queue_depth_ + UInt64.ofNat d)
          (Nat.add_zero _).symm
      · rw [queueDepths_append, List.length_append, UInt64.ofNat_add, ← h.samples]
        rfl
      · rw [hprocess, ← hrounds]
        exact UInt64.add_zero _
      · rw [hprocess]
        exact h.processing
      · refine forall_split_append h.exact fun before x after hsplit depth hx => ?_
        rcases before with _ | ⟨y, before⟩
        · obtain ⟨rfl, -⟩ := List.cons.inj hsplit
          obtain rfl : l.length = depth := Option.some.inj hx
          have hplaces := hl.custody.pool.places.length_eq
          rw [out] at hplaces
          simp only [List.length_append] at hplaces
          rw [List.append_nil, hl.delivered, List.length_append, List.length_map]
          exact ⟨rfl, by omega⟩
        · simp at hsplit
  | send hduty henq | skip hduty henq =>
      exact h.frame rfl rfl rfl rfl (by rw [hduty]; rfl) rfl
  | testMonitoring hpc hrun | exitMonitoring hpc hstop | stopMonitoring hmain hrun
    | joinMonitoring hstop hexit | statsQueueEmpty hpc hdeq =>
      exact h.frame rfl rfl rfl rfl rfl rfl
  | observe hpc hdeq => exact h.frame rfl rfl rfl rfl rfl rfl
  | @main e s hstep =>
      refine h.frame (quiet_process e).depths ?_ ?_ rfl rfl ?_
      · rw [processEvents, filterMap_process]
        cases hstep <;> rfl
      · rw [processEvents, filterMap_process]
        cases hstep <;> rfl
      · cases hstep <;> rfl
  | checkpoint hstep =>
      refine h.frame (quiet_process _).depths ?_ ?_ rfl rfl rfl
      · rw [processEvents, filterMap_process, (aside_checkpoint _).2]
      · rw [processEvents, filterMap_process, (aside_checkpoint _).1]

end Steps

theorem measured_init {m : Monitored PoolSize} (h : MonitoredInitial config d₀ m) :
    Measured ([] : List (MonitoredEvent PoolSize)) m where
  total := by rw [h.metrics]; rfl
  samples := by rw [h.metrics]; rfl
  rounds := by rw [h.metrics, h.duty, h.process.worker]; rfl
  processing := by rw [h.metrics]; rfl
  exact before x after hsplit := by simp at hsplit

theorem measured_run (hsize : PoolSize < N.val) {ms : List (MonitoredEvent PoolSize)}
    {m : Monitored PoolSize} (r : Run (monitoredSystem PoolSize N M config d₀) ms m) :
    Measured ms m := by
  induction r with
  | init h => exact measured_init h
  | step r hstep ih =>
      obtain ⟨l, hl⟩ := custody_run hsize (monitored_conservative.toExtension.run r)
      exact ih.step hl hstep

/-- A sum of small numbers is small. -/
theorem sum_le_length_mul {ds : List Nat} {k : Nat} (h : ∀ d ∈ ds, d ≤ k) :
    ds.sum ≤ ds.length * k := by
  simpa using List.sum_le_card_nsmul ds k h

/-- **The queue depth is sampled exactly, and in every round.**

In every run that respects `SlotOrder` each sample is the number of messages that are enqueued and
not dequeued at that moment, and at most the size of the pool; while fewer than `2 ^ 54` rounds have
been made, the two counters whose quotient `getStatistics` reports as the average are the sum and
the number of the samples, so that the quotient is at most `1024`; and there is a sample for every
round, whether it has found a message or not. -/
theorem queue_depth_sampled {as : List (Accesses.Event poolSize)} {a : Accesses.State poolSize}
    (r : Run (orderedProcess config d₀) as a) :
    (∀ before depth after, as = before ++ .monitored (.queueDepth depth) :: after →
      (enqueues (Accesses.history before)).length
        = (dequeues (Accesses.history before)).length + depth ∧ depth ≤ 1024) ∧
    ((queueDepths (Accesses.seen as)).length < 2 ^ 54 →
      a.monitored.metrics.total_queue_depth_.toNat = (queueDepths (Accesses.seen as)).sum ∧
      a.monitored.metrics.queue_depth_samples_.toNat = (queueDepths (Accesses.seen as)).length ∧
      a.monitored.metrics.total_queue_depth_.toNat
        ≤ 1024 * a.monitored.metrics.queue_depth_samples_.toNat) ∧
    a.monitored.metrics.queue_depth_samples_ + a.monitored.duty.unsampled
      = a.monitored.metrics.queue_empty_count_
        + .ofNat (dequeues (Accesses.history as)).length + a.process.worker.looking := by
  obtain ⟨_, ⟨q, k, l, waiting, rfl, hl⟩, hr⟩ := Accesses.run_of_ordered poolSize_lt r
  have h := measured_run poolSize_lt hr
  have hexact : ∀ before depth after,
      Accesses.seen as = before ++ .queueDepth depth :: after →
      (enqueues (processEvents before)).length
        = (dequeues (processEvents before)).length + depth ∧ depth ≤ 1024 :=
    fun before depth after hsplit => h.exact before _ after hsplit depth rfl
  refine ⟨?_, fun hrounds => ?_, ?_⟩
  · rintro before depth after rfl
    exact hexact (Accesses.seen before) depth (Accesses.seen after)
      (Accesses.seen_append before _)
  · have hle : ∀ d ∈ queueDepths (Accesses.seen as), d ≤ 1024 := by
      intro d hd
      obtain ⟨x, hx, hdepth⟩ := List.mem_filterMap.mp hd
      obtain ⟨before, after, hsplit⟩ := List.append_of_mem hx
      exact (h.exact before x after hsplit d hdepth).2
    have hsum := sum_le_length_mul hle
    have htotal : a.monitored.metrics.total_queue_depth_.toNat
        = (queueDepths (Accesses.seen as)).sum := by
      refine (congrArg UInt64.toNat h.total).trans ?_
      rw [UInt64.toNat_ofNat']
      omega
    have hsamples : a.monitored.metrics.queue_depth_samples_.toNat
        = (queueDepths (Accesses.seen as)).length := by
      refine (congrArg UInt64.toNat h.samples).trans ?_
      rw [UInt64.toNat_ofNat']
      omega
    exact ⟨htotal, hsamples, by omega⟩
  · have hlooking : a.worker.looking = a.process.worker.looking := hl.looking_eq
    exact hlooking ▸ h.rounds

/-- One round that finds a message. -/
theorem queue_depth_sampled_one : ∃ as a,
    Run (orderedProcess { checkpoint_enabled := false } .zero) as a ∧
    queueDepths (Accesses.seen as) = [1] ∧
    a.monitored.metrics.total_queue_depth_.toNat = 1 ∧
    a.monitored.metrics.total_queue_depth_.toNat
      ≤ 1024 * a.monitored.metrics.queue_depth_samples_.toNat := by
  obtain ⟨ms, m, r, -, -, hdepths, -⟩ := exists_observed
  obtain ⟨as, hr, rfl, -⟩ := Accesses.exists_ordered_run r
  obtain ⟨-, haverage, -⟩ := queue_depth_sampled hr
  obtain ⟨htotal, -, hle⟩ := haverage (by rw [hdepths]; decide)
  exact ⟨as, _, hr, hdepths, by rw [htotal, hdepths]; rfl, hle⟩

end AeronReplay.System
