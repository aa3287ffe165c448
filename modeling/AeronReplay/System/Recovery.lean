import AeronReplay.System.CheckpointLag
import AeronReplay.System.EndToEnd
import AeronReplay.System.Resume

set_option autoImplicit false

/-! # Crashes and restarts

Processes that start in `--replay-auto` mode one after the other, each on the checkpoint file of
the one before it, while the messages are in one recording. A process may end at any moment: in
the middle of `update` and of `flush`, in the middle of any call of pool or queue, with messages in
its queue. A message that the next replay no longer delivers has arrived in an earlier process;
there it has been settled, or has found no buffer, or has been waiting for the worker when that
process ended. No message is passed over otherwise, and a process that ends drained leaves none
(`crashes_skip_nothing`). The runs are those that respect `SlotOrder`. -/

namespace AeronReplay.System

open Transition CheckpointManager

variable {PoolSize : Nat} {N : Ring.Size} {config : Config} {d₀ : CheckpointData}
  {es e : List (Event PoolSize)} {s t : State PoolSize} {l : List (Fin PoolSize)}

/-! ## Positions in the checkpoint -/

/-- The positions in memory, on their way there or to the file, and in the file. A flush has
loaded the position when it has loaded two words. -/
structure Positions (P : Int64 → Prop) (c : Snapshot) : Prop where
  data : P c.data_.last_position
  args : ∀ args i, c.updater = .storing args i → P args.last_position
  words : ∀ words n, c.flusher = .loading words n → 2 ≤ n → P words.last_position
  persisted : ∀ d, c.persisted = some d → P d.last_position

variable {P Q : Int64 → Prop}

theorem Positions.imp {c : Snapshot} (h : Positions P c) (hPQ : ∀ x, P x → Q x) :
    Positions Q c where
  data := hPQ _ h.data
  args args i hu := hPQ _ (h.args args i hu)
  words words n hf hn := hPQ _ (h.words words n hf hn)
  persisted d hd := hPQ _ (h.persisted d hd)

/-- The accesses of `update` and `flush` invent no position. -/
theorem Positions.access {c c' : Snapshot} {e : List SnapshotEvent} (h : Positions P c)
    (hstep : Access c e c') : Positions P c' := by
  cases hstep with
  | @store args i hu =>
      refine ⟨?_, fun args' i' hu' => ?_, h.words, h.persisted⟩
      · -- word 1 is the position
        by_cases hi : i = 1
        · subst hi
          exact h.args args _ hu
        · have hsame : (c.data_.set i (args.get i)).last_position = c.data_.last_position :=
            CheckpointData.get_set_of_ne c.data_ (Ne.symm hi) _
          rw [hsame]
          exact h.data
      · cases hu'
        exact h.args args _ hu
  | updated hu => exact ⟨h.data, fun _ _ hu' => (by cases hu'), h.words, h.persisted⟩
  | flush hf =>
      refine ⟨h.data, h.args, fun words n hf' hn => ?_, h.persisted⟩
      cases hf'
      omega
  | @load words i hf =>
      refine ⟨h.data, h.args, fun words' n hf' hn => ?_, h.persisted⟩
      cases hf'
      by_cases hi : i = 1
      · subst hi
        exact h.data
      · have hsame : (words.set i (c.data_.get i)).last_position = words.last_position :=
          CheckpointData.get_set_of_ne words (Ne.symm hi) _
        rw [hsame]
        refine h.words words i.val hf ?_
        have hi' : i.val ≠ 1 := fun h => hi (Fin.ext h)
        omega
  | skip hf he | fail hf he => exact ⟨h.data, h.args, fun _ _ hf' => (by cases hf'), h.persisted⟩
  | @persist words hf he =>
      refine ⟨h.data, h.args, fun _ _ hf' => (by cases hf'), fun d hd => ?_⟩
      cases hd
      exact h.words words 4 hf (by omega)

/-! ## The order of the fast path -/

/-- The fast path accepts fragments in the order of their arrival, and the checkpoint has the
loaded position or that of an accepted fragment. -/
structure InOrder (d₀ : CheckpointData) (es : List (Event PoolSize)) (s : State PoolSize) :
    Prop where
  sublist : (acceptances es ++ s.fastPath.inHand).Sublist (arrivals es)
  counted : ∀ f ∈ s.fastPath.counted, f ∈ acceptances es
  positions : Positions (fun p => p = d₀.last_position ∨ ∃ f ∈ acceptances es, f.position = p)
    s.checkpoint

/-- A step that neither takes nor accepts a fragment. -/
theorem InOrder.frame (h : InOrder d₀ es s) (harrivals : arrivals e = [])
    (haccepted : acceptances e = [])
    (hhand : t.fastPath.inHand.Sublist s.fastPath.inHand)
    (hcounted : ∀ f ∈ t.fastPath.counted, f ∈ s.fastPath.counted)
    (hpositions : Positions (fun p => p = d₀.last_position ∨
      ∃ f ∈ acceptances es, f.position = p) t.checkpoint) : InOrder d₀ (es ++ e) t := by
  rw [← List.append_nil (acceptances es), ← haccepted, ← acceptances_append] at hpositions
  refine ⟨?_, fun f hf => ?_, hpositions⟩
  · rw [acceptances_append, arrivals_append, harrivals, haccepted, List.append_nil, List.append_nil]
    exact (List.Sublist.append_left hhand _).trans h.sublist
  · rw [acceptances_append, haccepted, List.append_nil]
    exact h.counted f (hcounted f hf)

/-- A fragment arrives; it gets a buffer or it does not. -/
theorem InOrder.arrive (h : InOrder d₀ es s) {f : Fragment} (hidle : s.fastPath.inHand = [])
    (harrivals : arrivals e = [f]) (haccepted : acceptances e = [])
    (hhand : t.fastPath.inHand.Sublist [f]) (hcounted : t.fastPath.counted = [])
    (hcheckpoint : t.checkpoint = s.checkpoint) : InOrder d₀ (es ++ e) t := by
  have hpositions := h.positions
  rw [← hcheckpoint, ← List.append_nil (acceptances es), ← haccepted, ← acceptances_append]
    at hpositions
  refine ⟨?_, fun g hg => ?_, hpositions⟩
  · have hsub := h.sublist
    rw [hidle, List.append_nil] at hsub
    rw [acceptances_append, arrivals_append, harrivals, haccepted, List.append_nil]
    exact hsub.append hhand
  · rw [hcounted] at hg
    cases hg

theorem InOrder.subscriberStep (h : InOrder d₀ es s) (hstep : SubscriberStep N config s e t) :
    InOrder d₀ (es ++ e) t := by
  cases hstep with
  | arrive f recv hpc halloc => exact h.arrive (by rw [hpc]; rfl) rfl rfl (.refl _) rfl rfl
  | allocationFails f hpc halloc =>
      refine h.arrive (by rw [hpc]; rfl) rfl rfl ?_ ?_ rfl
      · rw [show State.fastPath _ = s.fastPath from rfl, hpc]
        exact List.nil_sublist _
      · rw [show State.fastPath _ = s.fastPath from rfl, hpc]
        rfl
  | @trackDuplicate f recv b m v hpc hb hv hdup =>
      refine h.frame (filterMap_eq_nil ?_) (filterMap_eq_nil ?_) (List.nil_sublist _)
        (fun g hg => by cases hg) h.positions
      · refine List.forall_mem_append.mpr ⟨forall_gaps (fun _ => rfl) _, ?_⟩
        simp [Event.arrived?]
      · refine List.forall_mem_append.mpr ⟨forall_gaps (fun _ => rfl) _, ?_⟩
        simp [Event.accepted?]
  | track hpc =>
      refine h.frame (filterMap_eq_nil (forall_gaps (fun _ => rfl) _))
        (filterMap_eq_nil (forall_gaps (fun _ => rfl) _)) ?_ (fun g hg => by cases hg) h.positions
      rw [hpc]
      exact .refl _
  | dropDuplicate | dropRefused =>
      exact h.frame (filterMap_eq_nil (forall_overflow (by rfl) _))
        (filterMap_eq_nil (forall_overflow (by rfl) _)) (List.nil_sublist _)
        (fun g hg => by cases hg) h.positions
  | @enqueue f b q hpc henq =>
      have hsub := h.sublist
      rw [hpc] at hsub
      refine ⟨?_, fun g hg => ?_,
        h.positions.imp fun p hp => hp.imp_right (Exists.imp fun g hg => hg.imp_left fun hg => ?_)⟩
      · rw [acceptances_append, arrivals_append]
        show (acceptances es ++ [f] ++ []).Sublist (arrivals es ++ [])
        rw [List.append_nil, List.append_nil]
        exact hsub
      · rw [acceptances_append]
        exact List.mem_append_right _ hg
      · rw [acceptances_append]
        exact List.mem_append_left _ hg
  | enqueueFails | exit | count | updated =>
      exact h.frame rfl rfl (List.nil_sublist _) (fun g hg => by cases hg) h.positions
  | @countAndUpdate f b now hpc hon hidle =>
      refine h.frame rfl rfl (List.nil_sublist _) (fun g hg => by cases hg)
        ⟨h.positions.data, fun args i hu => ?_, h.positions.words, h.positions.persisted⟩
      cases hu
      exact .inr ⟨f, h.counted f (by simp [hpc, FastPathPc.counted]), rfl⟩

theorem InOrder.step (h : InOrder d₀ es s) (hstep : Step N config s e t) :
    InOrder d₀ (es ++ e) t := by
  cases hstep with
  | subscriber hstep => exact h.subscriberStep hstep
  | worker hstep =>
      cases hstep with
      | returnRejected | returnProcessed =>
          exact h.frame (filterMap_eq_nil (forall_overflow (by rfl) _))
            (filterMap_eq_nil (forall_overflow (by rfl) _)) (.refl _) (fun _ => id) h.positions
      | _ => exact h.frame rfl rfl (.refl _) (fun _ => id) h.positions
  | main hstep =>
      cases hstep with
      | _ => exact h.frame rfl rfl (.refl _) (fun _ => id) h.positions
  | checkpoint hstep =>
      exact h.frame (filterMap_eq_nil (by simp [Event.arrived?]))
        (filterMap_eq_nil (by simp [Event.accepted?])) (.refl _) (fun _ => id)
        (h.positions.access hstep)

theorem inOrder_run (r : Run (system PoolSize N config d₀) es s) : InOrder d₀ es s := by
  refine Run.invariant (I := InOrder d₀) ?_ (fun _ _ _ _ h hstep => h.step hstep) r
  intro s h
  refine ⟨?_, fun f hf => ?_, ?_⟩
  · rw [h.fastPath]
    exact .refl _
  · rw [h.fastPath] at hf
    cases hf
  · rw [h.checkpoint]
    refine ⟨.inl rfl, fun args i hu => ?_, fun words n hf => ?_, fun d hd => ?_⟩
    · cases hu
    · cases hf
    · cases hd

theorem tracked_run (r : Run (system PoolSize N config d₀) es s) : Tracked es s :=
  Run.invariant (I := Tracked) (fun _ => tracked_init) (fun _ _ _ _ h hstep => h.step hstep) r

/-! ## One process -/

/-- The messages that a replay from a position delivers, and the live stream after it. -/
def replayed (recording : List Fragment) (position : Int64) : List Fragment :=
  recording.filter (position < ·.position)

/-- The messages of a recording end one after the other, behind its start. -/
structure Recorded (recording : List Fragment) : Prop where
  sorted : recording.Pairwise fun f g => f.position < g.position
  positive : ∀ f ∈ recording, 0 < f.position

/-- What can become of a message that has arrived in a process by the time it ends: it has been
settled, there has been no buffer for it, or it is among the accepted ones that the worker has not
judged. -/
def Fate (es : List (Event PoolSize)) (f : Fragment) : Prop :=
  SettledFragment es f ∨ .allocationFailed f ∈ es ∨
    ∃ rest, acceptances es = judgements es ++ rest ∧ f ∈ rest

section Process

variable {recording : List Fragment} {start : Int64} {es : List (Event poolSize)}
  {s : State poolSize}

theorem sorted_arrivals (hrecorded : Recorded recording)
    (hreceived : arrivals es <+: replayed recording start) :
    (arrivals es).Pairwise fun f g => f.position < g.position :=
  (hrecorded.sorted.filter _).sublist hreceived.sublist

theorem lt_of_arrived (hreceived : arrivals es <+: replayed recording start) {f : Fragment}
    (hf : f ∈ arrivals es) : start < f.position :=
  of_decide_eq_true (List.mem_filter.mp (hreceived.subset hf)).2

/-- What lies between the start of the replay and a message that has arrived has arrived. -/
theorem mem_arrivals_of_le (hrecorded : Recorded recording)
    (hreceived : arrivals es <+: replayed recording start) {f g : Fragment}
    (hf : f ∈ recording) (hstart : start < f.position) (hg : g ∈ arrivals es)
    (hle : f.position ≤ g.position) : f ∈ arrivals es := by
  have hmem : f ∈ replayed recording start :=
    List.mem_filter.mpr ⟨hf, decide_eq_true hstart⟩
  have hsorted := hrecorded.sorted.filter (start < ·.position)
  obtain ⟨rest, hrest⟩ := hreceived
  rw [← replayed, ← hrest] at hsorted
  rw [← hrest] at hmem
  rcases List.mem_append.mp hmem with hmem | hmem
  · exact hmem
  · -- what has not arrived comes after all that has
    have hlt := (List.pairwise_append.mp hsorted).2.2 g hg f hmem
    exact absurd hle (Int64.not_le.mpr hlt)

/-- The fast path has nothing in hand that it has accepted, nor anything before that. -/
theorem not_inHand_of_le (horder : InOrder d₀ es s)
    (hsorted : (arrivals es).Pairwise fun f g => f.position < g.position) {f g : Fragment}
    (hg : g ∈ acceptances es) (hle : f.position ≤ g.position) : f ∉ s.fastPath.inHand := by
  intro hf
  have hlt := (List.pairwise_append.mp (hsorted.sublist horder.sublist)).2.2 g hg f hf
  exact absurd hle (Int64.not_le.mpr hlt)

/-- What has arrived up to a message that has been accepted has found its fate. -/
theorem fate_of_le (r : Run (subscriberProcess config d₀) es s)
    (hsorted : (arrivals es).Pairwise fun f g => f.position < g.position) {f g : Fragment}
    (hf : f ∈ arrivals es) (hg : g ∈ acceptances es) (hle : f.position ≤ g.position) :
    Fate es f := by
  obtain ⟨l, hl⟩ := custody_run poolSize_lt r
  rcases (tracked_run r).accounted f hf with h | h | h | h | h
  · exact .inl h
  · exact .inr (.inl h)
  · cases hl.noFailure _ h
  · exact absurd h (not_inHand_of_le (inOrder_run r) hsorted hg hle)
  · rw [hl.judged] at h
    rcases List.mem_append.mp h with h | h
    · exact .inl (settled_of_judged h)
    · exact .inr (.inr ⟨_, hl.judged, h⟩)

/-- In a drained process nothing waits. -/
theorem settled_of_fate {f : Fragment} (h : Fate es f)
    (r : Run (subscriberProcess config d₀) es s) (hsettled : s.Settled)
    (hpool : ∀ g, .allocationFailed g ∉ es) : SettledFragment es f := by
  rcases h with h | h | ⟨rest, hrest, h⟩
  · exact h
  · exact absurd h (hpool f)
  · rw [acceptances_of_settled poolSize_lt r hsettled, List.self_eq_append_right] at hrest
    rw [hrest] at h
    cases h

end Process

/-! ## One process after the other -/

/-- The position that a process starts from, with the default of `--position`. -/
def startOf (file : Option (List UInt8)) : Int64 :=
  (Resume.startPosition (load file .zero).last_position 0).1

/-- The checkpoint file that a process leaves behind. -/
def fileAfter (file : Option (List UInt8)) (s : State PoolSize) : Option (List UInt8) :=
  match s.checkpoint.persisted with
  | none => file
  | some d => some (record d)

/-- A process, from the position its replay has started from to the moment it ends. -/
structure Session where
  start : Int64
  events : List (Accesses.Event poolSize)
  state : Accesses.State poolSize

/-- What has happened in the process. -/
abbrev Session.history (x : Session) : List (Event poolSize) := Accesses.history x.events

/-- Processes one after the other, and the checkpoint file they leave. Each has received a part
of the recording from where its replay has started, first in the replay and then live. -/
inductive Sessions (config : Config) (recording : List Fragment) :
    List Session → Option (List UInt8) → Prop
  | nil : Sessions config recording [] none
  | snoc {hs : List Session} {file : Option (List UInt8)} {as : List (Accesses.Event poolSize)}
      {a : Accesses.State poolSize} (h : Sessions config recording hs file)
      (r : Run (orderedProcess config (load file .zero)) as a)
      (hreceived : Accesses.polls as <+: replayed recording (startOf file)) :
      Sessions config recording (hs ++ [⟨startOf file, as, a⟩]) (fileAfter file a.process)

variable {recording : List Fragment} {hs : List Session} {file : Option (List UInt8)}

/-- A position that is not negative is where the process starts that loads it. -/
theorem startOf_eq (hnonneg : 0 ≤ (load file .zero).last_position) :
    startOf file = (load file .zero).last_position := by
  unfold startOf Resume.startPosition
  by_cases hpos : 0 < (load file .zero).last_position
  · rw [if_pos hpos]
  · rw [if_neg hpos]
    exact Int64.le_antisymm hnonneg (Int64.not_lt.mp hpos)

variable (file) in
/-- A process that has flushed leaves the position that it has flushed last. -/
theorem startOf_persisted {s : State PoolSize} {d : CheckpointData}
    (hd : s.checkpoint.persisted = some d) (hnonneg : 0 ≤ d.last_position) :
    0 ≤ (load (fileAfter file s) .zero).last_position ∧
      startOf (fileAfter file s) = d.last_position := by
  have hload : (load (fileAfter file s) .zero).last_position = d.last_position := by
    rw [fileAfter, hd, load_record]
  rw [← hload] at hnonneg ⊢
  exact ⟨hnonneg, startOf_eq hnonneg⟩

/-- Where the next process starts: where this one has, or behind a message it has accepted. -/
theorem startOf_fileAfter (hrecorded : Recorded recording) {es : List (Event poolSize)}
    {s : State poolSize} (hnonneg : 0 ≤ (load file .zero).last_position)
    (r : Run (subscriberProcess config (load file .zero)) es s)
    (hreceived : arrivals es <+: replayed recording (startOf file)) :
    0 ≤ (load (fileAfter file s) .zero).last_position ∧
      (startOf (fileAfter file s) = startOf file ∨
        ∃ f ∈ acceptances es, startOf (fileAfter file s) = f.position) := by
  have horder := inOrder_run r
  cases hd : s.checkpoint.persisted with
  | none =>
      rw [fileAfter, hd]
      exact ⟨hnonneg, .inl rfl⟩
  | some d =>
      rcases horder.positions.persisted d hd with hsame | ⟨f, hf, hposition⟩
      · obtain ⟨hle, hstart⟩ := startOf_persisted file hd (hsame ▸ hnonneg)
        rw [hstart, startOf_eq hnonneg]
        exact ⟨hle, .inl hsame⟩
      · have harrived : f ∈ arrivals es := horder.sublist.subset (List.mem_append_left _ hf)
        have hpos : 0 < f.position := hrecorded.positive f
          (List.mem_of_mem_filter (hreceived.subset harrived))
        obtain ⟨hle, hstart⟩ :=
          startOf_persisted file hd (hposition ▸ Int64.le_of_lt hpos)
        exact ⟨hle, .inr ⟨f, hf, hstart.trans hposition.symm⟩⟩

/-- What holds of the processes so far and of the file they have left. -/
structure Recovers (config : Config) (recording : List Fragment) (hs : List Session)
    (file : Option (List UInt8)) : Prop where
  nonneg : 0 ≤ (load file .zero).last_position
  run : ∀ x ∈ hs, ∃ d₀, Run (orderedProcess config d₀) x.events x.state
  fate : ∀ f ∈ recording, f.position ≤ startOf file →
    ∃ x ∈ hs, f ∈ arrivals x.history ∧ Fate x.history f
  starts : (hs.map Session.start).Pairwise (· ≤ ·)
  last : ∀ x ∈ hs, x.start ≤ startOf file

theorem recovers_run (hrecorded : Recorded recording) (h : Sessions config recording hs file) :
    Recovers config recording hs file := by
  induction h with
  | nil =>
      refine ⟨by decide, fun x hx => absurd hx List.not_mem_nil, fun f hf hle => ?_, .nil,
        fun x hx => absurd hx List.not_mem_nil⟩
      exact absurd (hrecorded.positive f hf) (Int64.not_lt.mpr hle)
  | @snoc hs file as a _ r hpolled ih =>
      obtain ⟨m, hm, hr⟩ := Accesses.process_run_of_ordered poolSize_lt r
      have hreceived := (Accesses.arrivals_prefix r.of_only).trans hpolled
      have hfile : fileAfter file a.process = fileAfter file m.process := by
        rw [fileAfter, fileAfter, hm.checkpoint_eq]
      rw [hfile]
      obtain ⟨hnonneg, hstart⟩ := startOf_fileAfter hrecorded ih.nonneg hr hreceived
      have hsublist := (inOrder_run hr).sublist
      have hle : startOf file ≤ startOf (fileAfter file m.process) := by
        rcases hstart with hsame | ⟨g, hg, hsame⟩
        · rw [hsame]
          exact Int64.le_refl _
        · rw [hsame]
          exact Int64.le_of_lt (lt_of_arrived hreceived
            (hsublist.subset (List.mem_append_left _ hg)))
      refine ⟨hnonneg, fun x hx => ?_, fun f hf hcovered => ?_, ?_, fun x hx => ?_⟩
      · rcases List.mem_append.mp hx with hx | hx
        · exact ih.run x hx
        · obtain rfl := List.mem_singleton.mp hx
          exact ⟨_, r⟩
      · by_cases hbefore : f.position ≤ startOf file
        · obtain ⟨x, hx, hfate⟩ := ih.fate f hf hbefore
          exact ⟨x, List.mem_append_left _ hx, hfate⟩
        · -- the file has advanced, to a message that this process has accepted
          rcases hstart with hsame | ⟨g, hg, hsame⟩
          · rw [hsame] at hcovered
            exact absurd hcovered hbefore
          · rw [hsame] at hcovered
            have harrived := mem_arrivals_of_le hrecorded hreceived hf (Int64.not_le.mp hbefore)
              (hsublist.subset (List.mem_append_left _ hg)) hcovered
            exact ⟨_, List.mem_append_right _ (List.mem_singleton_self _), harrived,
              fate_of_le hr (sorted_arrivals hrecorded hreceived) harrived hg hcovered⟩
      · rw [List.map_append, List.pairwise_append]
        refine ⟨ih.starts, List.pairwise_singleton _ _, fun x hx y hy => ?_⟩
        obtain ⟨z, hz, rfl⟩ := List.mem_map.mp hx
        obtain rfl := List.mem_singleton.mp hy
        exact ih.last z hz
      · rcases List.mem_append.mp hx with hx | hx
        · exact Int64.le_trans (ih.last x hx) hle
        · obtain rfl := List.mem_singleton.mp hx
          exact hle

/-- **Crashes skip nothing.** However often the process has crashed and started again, a recorded
message that the next replay does not deliver any more has arrived in an earlier process and has
found its fate there: it has been settled, there has been no buffer for it, or it has been
waiting for the worker when that process ended. If every process has ended drained and has never
been short of buffers, it has been settled. No replay starts before an earlier one. -/
theorem crashes_skip_nothing (hrecorded : Recorded recording)
    (h : Sessions config recording hs file) :
    (∀ f ∈ recording, f.position ≤ startOf file →
      ∃ x ∈ hs, f ∈ arrivals x.history ∧ Fate x.history f) ∧
    ((∀ x ∈ hs, x.state.Settled ∧ ∀ g, .allocationFailed g ∉ x.history) →
      ∀ f ∈ recording, f.position ≤ startOf file → ∃ x ∈ hs, SettledFragment x.history f) ∧
    (hs.map Session.start).Pairwise (· ≤ ·) ∧ ∀ x ∈ hs, x.start ≤ startOf file := by
  have hrecovers := recovers_run hrecorded h
  refine ⟨hrecovers.fate, fun hdrained f hf hle => ?_, hrecovers.starts, hrecovers.last⟩
  obtain ⟨x, hx, -, hfate⟩ := hrecovers.fate f hf hle
  obtain ⟨d₀, r⟩ := hrecovers.run x hx
  obtain ⟨hsettled, hpool⟩ := hdrained x hx
  exact ⟨x, hx, settled_of_fate hfate (hsettled.single r) hsettled.process hpool⟩

/-- Two messages of 64 bytes. -/
def twoMessages : List Fragment := [⟨[], 64⟩, ⟨[], 128⟩]

theorem recorded_twoMessages : Recorded twoMessages where
  sorted := by decide
  positive := by decide

/-- A process is killed when its flush thread has written the position of a message that waits in
the queue; the next replay starts behind this message. -/
theorem crashes_skip_nothing_waiting : ∃ hs file,
    Sessions {} twoMessages hs file ∧ startOf file = 64 ∧
      ∃ x ∈ hs, ⟨[], 64⟩ ∈ arrivals x.history ∧ Fate x.history ⟨[], 64⟩ := by
  obtain ⟨es, s, d, r, harrivals, hd, hposition, -⟩ := exists_flushed_ahead
  obtain ⟨as, a, hr, -, rfl, hpolls, rfl⟩ :=
    Accesses.exists_ordered_of_process (M := statsQueueSize) r
  have h : Sessions {} twoMessages [⟨startOf none, as, a⟩] (fileAfter none a.process) :=
    .snoc .nil hr ⟨[⟨[], 128⟩], by rw [hpolls, harrivals]; rfl⟩
  have hstart : startOf (fileAfter none a.process) = 64 :=
    (startOf_persisted none hd (by rw [hposition]; decide)).2.trans hposition
  exact ⟨_, _, h, hstart, (crashes_skip_nothing recorded_twoMessages h).1 _ (by decide)
    (by rw [hstart]; decide)⟩

end AeronReplay.System
