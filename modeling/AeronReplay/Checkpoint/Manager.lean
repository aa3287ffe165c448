import AeronReplay.Checkpoint.File
import AeronReplay.Checkpoint.Snapshot

set_option autoImplicit false

/-! # The checkpoint manager

A `CheckpointManager` (`CheckpointManager.cpp`) from its constructor to the end of its destructor:
the thread that calls `update`, the flush thread with its loop, and the destructor, which stops
and joins that thread and flushes once more. A flush first loads the four words and then goes
through the file steps, while `update` goes on.

`manager_refines` connects the two models of the parts: what the threads do to the words is a run
of `snapshots` and what they do to the files is one of `fileSystem`, because there is only one
flush at a time. `manager_ends` is about the final flush and the statistics.

The owner destroys the manager when no `update` is under way and calls none afterwards. Crashes
are part of `fileSystem` only, and `forceFlush`, which nothing calls, is left out. -/

namespace AeronReplay.CheckpointManager

open Transition

/-! ## The threads -/

/-- Where the flush thread is in `flushLoop`. -/
inductive LoopPc where
  /-- `while (running_)` -/
  | test
  | sleeping
  /-- `if (running_)` -/
  | testAgain
  | flushing
  | exited
  deriving DecidableEq

/-- Where the destructor is. -/
inductive DestructorPc where
  | notCalled
  | joining
  | joined
  | flushing
  | printing
  | done
  deriving DecidableEq

/-- The files and the words are in `file`; `persisted` is what `Snapshot` has. -/
structure Manager where
  file : FileState
  updater : UpdatePc
  flusher : FlushPc
  persisted : Option CheckpointData
  running_ : Bool
  loop : LoopPc
  destructor : DestructorPc
  flush_count_ : UInt64
  flush_failures_ : UInt64

/-- What happens to the words, and what happens to the files. -/
inductive ManagerEvent where
  | memory (e : SnapshotEvent)
  | file (e : FileEvent)
  deriving DecidableEq

/-- The phase once the flush has its tuple. -/
def Phase.taken : Phase → Phase
  | .joined => .finishing
  | phase => phase

/-- One step of `flush`, and whether it returns. The rename, or the call that fails, and the
increment of the counter after it are two accesses in the source and one step here: nothing reads
the counters before `printStatistics`, which comes after the last flush. -/
inductive FlushStep (m : Manager) : List ManagerEvent → Manager → Bool → Prop
  | load {words : CheckpointData} {i : Fin 4} (hf : m.flusher = .loading words i.val) :
      FlushStep m [.memory (.load i)]
        { m with flusher := .loading (words.set i (m.file.data_.get i)) (i.val + 1) } false
  | skip {words : CheckpointData} (hf : m.flusher = .loading words 4) (hpc : m.file.pc = .idle)
      (he : words.isEmpty = true) :
      FlushStep m [] { m with
        file.phase := m.file.phase.taken
        flusher := .idle } true
  | begin {words : CheckpointData} (hf : m.flusher = .loading words 4) (hpc : m.file.pc = .idle)
      (he : words.isEmpty = false) :
      FlushStep m [.file (.begun words)] { m with
        file.pc := .opening words
        file.phase := m.file.phase.taken } false
  /-- A step of the stream. -/
  | work {file : FileState} (hpc : m.file.pc ≠ .idle) (h : FileStep m.file [] file)
      (hdata : file.data_ = m.file.data_) (hphase : file.phase = m.file.phase) :
      FlushStep m [] { m with file := file } false
  | fails {words : CheckpointData} {file : FileState} (hf : m.flusher = .loading words 4)
      (he : words.isEmpty = false) (h : FileStep m.file [.failed] file) :
      FlushStep m [.file .failed, .memory (.flushed words)] { m with
        file := file
        flusher := .idle
        flush_failures_ := m.flush_failures_ + 1 } true
  | renames {words : CheckpointData} {file : FileState} (hf : m.flusher = .loading words 4)
      (he : words.isEmpty = false) (h : FileStep m.file [.renamed words] file) :
      FlushStep m [.file (.renamed words), .memory (.flushed words)] { m with
        file := file
        flusher := .idle
        persisted := some words
        flush_count_ := m.flush_count_ + 1 } true

inductive ManagerStep (m : Manager) : List ManagerEvent → Manager → Prop
  | call (args : CheckpointData) (hd : m.destructor = .notCalled) (hu : m.updater = .idle) :
      ManagerStep m [] { m with updater := .storing args 0 }
  | store {args : CheckpointData} {i : Fin 4} (hu : m.updater = .storing args i.val) :
      ManagerStep m [.memory (.store args i)] { m with
        file.data_ := m.file.data_.set i (args.get i)
        updater := .storing args (i.val + 1) }
  | updated {args : CheckpointData} (hu : m.updater = .storing args 4) :
      ManagerStep m [] { m with updater := .idle }
  | enter (hl : m.loop = .test) (h : m.running_ = true) :
      ManagerStep m [] { m with loop := .sleeping }
  | exit (hl : m.loop = .test) (h : m.running_ = false) :
      ManagerStep m [] { m with loop := .exited }
  | wake (hl : m.loop = .sleeping) : ManagerStep m [] { m with loop := .testAgain }
  | noFlush (hl : m.loop = .testAgain) (h : m.running_ = false) :
      ManagerStep m [] { m with loop := .test }
  | flush (hl : m.loop = .testAgain) (h : m.running_ = true) :
      ManagerStep m [] { m with
        flusher := .loading .zero 0
        loop := .flushing }
  | flushing {e : List ManagerEvent} {n : Manager} {returns : Bool} (hl : m.loop = .flushing)
      (h : FlushStep m e n returns) :
      ManagerStep m e { n with loop := if returns then .test else .flushing }
  | destroy (hd : m.destructor = .notCalled) (hu : m.updater = .idle) :
      ManagerStep m [] { m with
        running_ := false
        destructor := .joining }
  | join (hd : m.destructor = .joining) (hl : m.loop = .exited) :
      ManagerStep m [.file .joined] { m with
        file.phase := .joined
        destructor := .joined }
  | finalFlush (hd : m.destructor = .joined) :
      ManagerStep m [] { m with
        flusher := .loading .zero 0
        destructor := .flushing }
  | finalFlushing {e : List ManagerEvent} {n : Manager} {returns : Bool}
      (hd : m.destructor = .flushing) (h : FlushStep m e n returns) :
      ManagerStep m e { n with destructor := if returns then .printing else .flushing }
  | destroyed (hd : m.destructor = .printing) :
      ManagerStep m [] { m with
        file.phase := .gone
        destructor := .done }

/-- What the constructor leaves, on files with the given content. -/
def Manager.start (checkpoint tmp : Option (List UInt8)) : Manager where
  file := .start checkpoint tmp
  updater := .idle
  flusher := .idle
  persisted := none
  running_ := true
  loop := .test
  destructor := .notCalled
  flush_count_ := 0
  flush_failures_ := 0

def manager (checkpoint tmp : Option (List UInt8)) : Lts Manager ManagerEvent where
  Init m := m = .start checkpoint tmp
  Step := ManagerStep

/-! ## One flush at a time -/

variable {m n : Manager} {e es : List ManagerEvent} {returns : Bool} {flusher : FlushPc}

/-- The final flush takes its tuple, and then works on the file. -/
structure FinalPhase (s : FileState) : Prop where
  taking : s.pc = .idle → s.phase = .joined
  finishing : s.pc ≠ .idle → s.phase = .finishing

/-- The words that `flush` has loaded are those in memory. -/
def Loaded (flusher : FlushPc) (data_ : CheckpointData) : Prop :=
  ∀ words k, flusher = .loading words k → ∀ i : Fin 4, i.val < k → words.get i = data_.get i

/-- All four words. -/
theorem Loaded.eq {words d : CheckpointData} (h : Loaded flusher d)
    (hf : flusher = .loading words 4) : words = d :=
  CheckpointData.ext_get fun i => h words 4 hf i i.isLt

/-- What the places of the threads say of each other. -/
structure Coherent (m : Manager) : Prop where
  idle : m.loop ≠ .flushing → m.destructor ≠ .flushing →
    m.flusher = .idle ∧ m.file.pc = .idle
  alive : m.destructor = .notCalled ∨ m.destructor = .joining → m.file.phase = .running
  exited : m.destructor ≠ .notCalled → m.destructor ≠ .joining → m.loop = .exited
  quiet : m.destructor ≠ .notCalled → m.updater = .idle
  joined : m.destructor = .joined → m.file.phase = .joined
  final : m.destructor = .flushing → FinalPhase m.file
  loaded : m.destructor = .flushing → Loaded m.flusher m.file.data_
  printing : m.destructor = .printing → m.file.phase = .finishing

/-- The step at which a flush has failed or has renamed the file. -/
theorem FileStep.ends {s t : FileState} {x : FileEvent} (h : FileStep s [x] t)
    (hx : x = .failed ∨ ∃ d, x = .renamed d) :
    s.pc ≠ .idle ∧ t.pc = .idle ∧ t.phase = s.phase ∧ t.data_ = s.data_ := by
  cases h with
  | openFails hpc | writeFails hpc | rename hpc | renameFails hpc =>
      exact ⟨by rw [hpc]; exact nofun, rfl, rfl, rfl⟩
  | begin | join | beginFinal | crash | restart => simp at hx

/-- The steps in between. -/
theorem FileStep.goes_on {s t : FileState} (h : FileStep s [] t) (hpc : s.pc ≠ .idle)
    (hphase : t.phase = s.phase) : t.pc ≠ .idle := by
  cases h with
  | update => exact hpc
  | skip hidle | destroyed hidle => exact absurd hidle hpc
  | skipFinal hjoined =>
      rw [hjoined] at hphase
      cases hphase
  | «open» | write | writeIgnored | drain | turnsBad | flushed => exact nofun

/-- What a step of `flush` leaves as it is. -/
structure Unmoved (m n : Manager) : Prop where
  updater : n.updater = m.updater
  running_ : n.running_ = m.running_
  loop : n.loop = m.loop
  destructor : n.destructor = m.destructor
  data_ : n.file.data_ = m.file.data_

theorem FlushStep.unmoved (h : FlushStep m e n returns) : Unmoved m n := by
  cases h with
  | load | skip | begin => exact ⟨rfl, rfl, rfl, rfl, rfl⟩
  | work hpc h hdata => exact ⟨rfl, rfl, rfl, rfl, hdata⟩
  | fails hf he h => exact ⟨rfl, rfl, rfl, rfl, (h.ends (.inl rfl)).2.2.2⟩
  | renames hf he h => exact ⟨rfl, rfl, rfl, rfl, (h.ends (.inr ⟨_, rfl⟩)).2.2.2⟩

theorem FlushStep.returned (h : FlushStep m e n returns) (hr : returns = true) :
    n.flusher = .idle ∧ n.file.pc = .idle := by
  cases h with
  | load | begin | work => cases hr
  | skip hf hpc => exact ⟨rfl, hpc⟩
  | fails hf he h => exact ⟨rfl, (h.ends (.inl rfl)).2.1⟩
  | renames hf he h => exact ⟨rfl, (h.ends (.inr ⟨_, rfl⟩)).2.1⟩

/-- While the manager lives, a flush does not change its phase. -/
theorem FlushStep.alive (h : FlushStep m e n returns) (hm : m.file.phase = .running) :
    n.file.phase = .running := by
  cases h with
  | load => exact hm
  | skip | begin =>
      dsimp only
      rw [hm]
      rfl
  | work hpc h hdata hphase => exact hphase.trans hm
  | fails hf he h => exact (h.ends (.inl rfl)).2.2.1.trans hm
  | renames hf he h => exact (h.ends (.inr ⟨_, rfl⟩)).2.2.1.trans hm

theorem FlushStep.final (h : FlushStep m e n returns) (hm : FinalPhase m.file) :
    (returns = false → FinalPhase n.file) ∧ (returns = true → n.file.phase = .finishing) := by
  cases h with
  | load => exact ⟨fun _ => hm, nofun⟩
  | skip hf hpc =>
      refine ⟨nofun, fun _ => ?_⟩
      show m.file.phase.taken = .finishing
      rw [hm.taking hpc]
      rfl
  | begin hf hpc =>
      refine ⟨fun _ => ⟨nofun, fun _ => ?_⟩, nofun⟩
      show m.file.phase.taken = .finishing
      rw [hm.taking hpc]
      rfl
  | work hpc h hdata hphase =>
      exact ⟨fun _ => ⟨fun hidle => absurd hidle (h.goes_on hpc hphase),
        fun _ => hphase.trans (hm.finishing hpc)⟩, nofun⟩
  | fails hf he h =>
      obtain ⟨hbusy, -, hphase, -⟩ := h.ends (.inl rfl)
      exact ⟨nofun, fun _ => hphase.trans (hm.finishing hbusy)⟩
  | renames hf he h =>
      obtain ⟨hbusy, -, hphase, -⟩ := h.ends (.inr ⟨_, rfl⟩)
      exact ⟨nofun, fun _ => hphase.trans (hm.finishing hbusy)⟩

theorem FlushStep.loaded (h : FlushStep m e n returns) (hm : Loaded m.flusher m.file.data_) :
    Loaded n.flusher n.file.data_ := by
  cases h with
  | @load words i hf =>
      rintro words' k hwords j hj
      cases hwords
      by_cases hji : j = i
      · rw [hji, CheckpointData.get_set_self]
      · rw [CheckpointData.get_set_of_ne _ hji]
        have hne : j.val ≠ i.val := fun h => hji (Fin.ext h)
        exact hm words i.val hf j (by omega)
  | skip | fails | renames => exact nofun
  | begin => exact hm
  | work hpc h hdata =>
      intro words k hwords j hj
      rw [hm words k hwords j hj]
      exact congrArg (·.get j) hdata.symm

theorem coherent_start (checkpoint tmp : Option (List UInt8)) :
    Coherent (.start checkpoint tmp) where
  idle _ _ := ⟨rfl, rfl⟩
  alive _ := rfl
  exited h := absurd rfl h
  quiet h := absurd rfl h
  joined := nofun
  final := nofun
  loaded := nofun
  printing := nofun

/-- The final flush has not begun while the flush thread lives. -/
theorem Coherent.not_finalFlush (hm : Coherent m) (hlive : m.loop ≠ .exited) :
    m.destructor ≠ .flushing := fun hd => hlive (hm.exited (by simp [hd]) (by simp [hd]))

/-- A step of the flush thread outside `flush`. -/
theorem Coherent.loop (hm : Coherent m) {loop : LoopPc} (hl : m.loop ≠ .flushing)
    (hlive : m.loop ≠ .exited) : Coherent { m with loop := loop } where
  idle _ hd := hm.idle hl hd
  alive := hm.alive
  exited h h' := absurd (hm.exited h h') hlive
  quiet := hm.quiet
  joined := hm.joined
  final := hm.final
  loaded := hm.loaded
  printing := hm.printing

/-- A step of the flush thread inside `flush`. -/
theorem Coherent.flushing (hm : Coherent m) (hl : m.loop = .flushing)
    (h : FlushStep m e n returns) :
    Coherent { n with loop := if returns then .test else .flushing } := by
  have hsame := h.unmoved
  -- the destructor is still waiting
  have hwaiting : m.destructor = .notCalled ∨ m.destructor = .joining := by
    by_contra hd
    rw [not_or] at hd
    cases hl.symm.trans (hm.exited hd.1 hd.2)
  have hnot : ∀ d, d ≠ .notCalled → d ≠ .joining → n.destructor ≠ d := by
    intro d hd hd' heq
    rw [hsame.destructor] at heq
    subst heq
    exact hwaiting.elim hd hd'
  refine ⟨fun hloop _ => ?_, fun _ => h.alive (hm.alive hwaiting), fun hd hd' => ?_, fun hd => ?_,
    fun hd => absurd hd (hnot _ nofun nofun), fun hd => absurd hd (hnot _ nofun nofun),
    fun hd => absurd hd (hnot _ nofun nofun), fun hd => absurd hd (hnot _ nofun nofun)⟩
  · refine h.returned (Bool.eq_true_of_not_eq_false fun hr => hloop ?_)
    rw [hr]
    rfl
  · exact absurd rfl (hnot _ hd hd')
  · exact hsame.updater.trans (hm.quiet fun heq => hd (hsame.destructor.trans heq))

/-- A step of the final flush. -/
theorem Coherent.finalFlushing (hm : Coherent m) (hd : m.destructor = .flushing)
    (h : FlushStep m e n returns) :
    Coherent { n with destructor := if returns then .printing else .flushing } := by
  have hsame := h.unmoved
  have hfinal := h.final (hm.final hd)
  have hexited : n.loop = .exited := hsame.loop.trans (hm.exited (by simp [hd]) (by simp [hd]))
  have hquiet : n.updater = .idle := hsame.updater.trans (hm.quiet (by simp [hd]))
  cases returns with
  | true =>
      exact ⟨fun _ _ => h.returned rfl, by simp, fun _ _ => hexited, fun _ => hquiet, nofun, nofun,
        nofun, fun _ => hfinal.2 rfl⟩
  | false =>
      exact ⟨fun _ hnot => absurd rfl hnot, by simp, fun _ _ => hexited, fun _ => hquiet, nofun,
        fun _ => hfinal.1 rfl, fun _ => h.loaded (hm.loaded hd), nofun⟩

theorem Coherent.step (hm : Coherent m) (h : ManagerStep m e n) : Coherent n := by
  cases h with
  | call args hd hu =>
      exact ⟨hm.idle, hm.alive, hm.exited, fun h => absurd hd h, hm.joined, hm.final, hm.loaded,
        hm.printing⟩
  | store hu =>
      -- an update is under way, so that the destructor has not been called
      have hnot : m.destructor = .notCalled := by
        by_contra hd
        cases hu.symm.trans (hm.quiet hd)
      exact ⟨hm.idle, hm.alive, hm.exited, fun h => absurd hnot h, hm.joined,
        fun hd => (by cases hnot.symm.trans hd), fun hd => (by cases hnot.symm.trans hd),
        hm.printing⟩
  | updated hu =>
      exact ⟨hm.idle, hm.alive, hm.exited, fun _ => rfl, hm.joined, hm.final, hm.loaded,
        hm.printing⟩
  | enter hl | wake hl | noFlush hl | exit hl => exact hm.loop (by simp [hl]) (by simp [hl])
  | flush hl h =>
      have hlive : m.loop ≠ .exited := by simp [hl]
      have hnot := hm.not_finalFlush hlive
      exact ⟨fun h => absurd rfl h, hm.alive, fun h h' => absurd (hm.exited h h') hlive, hm.quiet,
        hm.joined, hm.final, fun hd => absurd hd hnot, hm.printing⟩
  | flushing hl h => exact hm.flushing hl h
  | destroy hd hu =>
      exact ⟨fun hl _ => hm.idle hl (by simp [hd]), fun _ => hm.alive (.inl hd),
        fun _ h => absurd rfl h, fun _ => hu, nofun, nofun, nofun, nofun⟩
  | join hd hl =>
      exact ⟨fun _ _ => hm.idle (by simp [hl]) (by simp [hd]), by simp, fun _ _ => hl,
        fun _ => hm.quiet (by simp [hd]), fun _ => rfl, nofun, nofun, nofun⟩
  | finalFlush hd =>
      have hl : m.loop = .exited := hm.exited (by simp [hd]) (by simp [hd])
      have hidle := (hm.idle (by simp [hl]) (by simp [hd])).2
      refine ⟨fun _ h => absurd rfl h, by simp, fun _ _ => hl, fun _ => hm.quiet (by simp [hd]),
        nofun, fun _ => ⟨fun _ => hm.joined hd, fun h => absurd hidle h⟩, ?_, nofun⟩
      rintro - words k hwords i hi
      cases hwords
      exact absurd hi (Nat.not_lt_zero _)
  | finalFlushing hd h => exact hm.finalFlushing hd h
  | destroyed hd =>
      have hl : m.loop = .exited := hm.exited (by simp [hd]) (by simp [hd])
      exact ⟨fun _ _ => hm.idle (by simp [hl]) (by simp [hd]), by simp, fun _ _ => hl,
        fun _ => hm.quiet (by simp [hd]), nofun, nofun, nofun, nofun⟩

/-! ## The two parts -/

/-- The words and the threads that use them. -/
def Manager.snapshot (m : Manager) : Snapshot := ⟨m.file.data_, m.updater, m.flusher, m.persisted⟩

def memoryEvents (es : List ManagerEvent) : List SnapshotEvent := es.filterMap fun
  | .memory e => some e
  | .file _ => none

def fileEvents (es : List ManagerEvent) : List FileEvent := es.filterMap fun
  | .memory _ => none
  | .file e => some e

theorem memoryEvents_append (es e : List ManagerEvent) :
    memoryEvents (es ++ e) = memoryEvents es ++ memoryEvents e := List.filterMap_append

theorem fileEvents_append (es e : List ManagerEvent) :
    fileEvents (es ++ e) = fileEvents es ++ fileEvents e := List.filterMap_append

/-- A step of `flush` loads a word, ends the flush or does nothing to the words. -/
theorem FlushStep.memory (h : FlushStep m e n returns) :
    SnapshotStep m.snapshot (memoryEvents e) n.snapshot ∨
      memoryEvents e = [] ∧ n.snapshot = m.snapshot := by
  cases h with
  | load hf => exact .inl (.access (.load hf))
  | skip hf hpc he => exact .inl (.access (.skip hf he))
  | begin => exact .inr ⟨rfl, rfl⟩
  | work hpc h hdata =>
      refine .inr ⟨rfl, ?_⟩
      unfold Manager.snapshot
      rw [hdata]
  | @fails words file hf he h =>
      have hdata : file.data_ = m.file.data_ := (h.ends (.inl rfl)).2.2.2
      left
      unfold Manager.snapshot
      rw [hdata]
      exact .access (.fail hf he)
  | @renames words file hf he h =>
      have hdata : file.data_ = m.file.data_ := (h.ends (.inr ⟨_, rfl⟩)).2.2.2
      left
      unfold Manager.snapshot
      rw [hdata]
      exact .access (.persist hf he)

theorem ManagerStep.memory (hm : Coherent m) (h : ManagerStep m e n) :
    SnapshotStep m.snapshot (memoryEvents e) n.snapshot ∨
      memoryEvents e = [] ∧ n.snapshot = m.snapshot := by
  cases h with
  | call args hd hu => exact .inl (.call args hu)
  | store hu => exact .inl (.access (.store hu))
  | updated hu => exact .inl (.access (.updated hu))
  | enter | exit | wake | noFlush | destroy | join | destroyed => exact .inr ⟨rfl, rfl⟩
  | flush hl h =>
      have hd := hm.not_finalFlush (by simp [hl])
      exact .inl (.access (.flush (hm.idle (by simp [hl]) hd).1))
  | finalFlush hd =>
      have hl : m.loop = .exited := hm.exited (by simp [hd]) (by simp [hd])
      exact .inl (.access (.flush (hm.idle (by simp [hl]) (by simp [hd])).1))
  | flushing hl h => exact h.memory
  | finalFlushing hd h => exact h.memory

/-- A step of `flush` does to the files what a step of the file system does: outside the final
flush, or with the words of memory. -/
theorem FlushStep.file (h : FlushStep m e n returns)
    (hm : m.file.phase = .running ∨
      FinalPhase m.file ∧ Loaded m.flusher m.file.data_) :
    FileStep m.file (fileEvents e) n.file ∨ fileEvents e = [] ∧ n.file = m.file := by
  cases h with
  | load => exact .inr ⟨rfl, rfl⟩
  | work hpc h => exact .inl h
  | fails hf he h => exact .inl h
  | renames hf he h => exact .inl h
  | skip hf hpc he =>
      rcases hm with hrunning | ⟨hfinal, hloaded⟩
      · refine .inr ⟨rfl, ?_⟩
        show { m.file with phase := m.file.phase.taken } = m.file
        rw [show m.file.phase.taken = m.file.phase by rw [hrunning]; rfl]
      · have hjoined := hfinal.taking hpc
        rw [hloaded.eq hf] at he
        left
        rw [show m.file.phase.taken = .finishing by rw [hjoined]; rfl]
        exact .skipFinal hjoined he
  | begin hf hpc he =>
      left
      rcases hm with hrunning | ⟨hfinal, hloaded⟩
      · rw [show m.file.phase.taken = m.file.phase by rw [hrunning]; rfl]
        exact .begin _ hpc hrunning he
      · have hjoined := hfinal.taking hpc
        rw [hloaded.eq hf] at he ⊢
        rw [show m.file.phase.taken = .finishing by rw [hjoined]; rfl]
        exact .beginFinal hjoined he

theorem ManagerStep.file (hm : Coherent m) (h : ManagerStep m e n) :
    FileStep m.file (fileEvents e) n.file ∨ fileEvents e = [] ∧ n.file = m.file := by
  cases h with
  | @store args i hu =>
      have hnot : m.destructor = .notCalled := by
        by_contra hd
        cases hu.symm.trans (hm.quiet hd)
      exact .inl (.update _ (hm.alive (.inl hnot)))
  | call | updated | enter | exit | wake | noFlush | flush | destroy | finalFlush =>
      exact .inr ⟨rfl, rfl⟩
  | join hd hl =>
      exact .inl (.join (hm.idle (by simp [hl]) (by simp [hd])).2 (hm.alive (.inr hd)))
  | destroyed hd =>
      have hl : m.loop = .exited := hm.exited (by simp [hd]) (by simp [hd])
      exact .inl (.destroyed (hm.idle (by simp [hl]) (by simp [hd])).2 (hm.printing hd))
  | flushing hl h =>
      have hwaiting : m.destructor = .notCalled ∨ m.destructor = .joining := by
        by_contra hd
        rw [not_or] at hd
        cases hl.symm.trans (hm.exited hd.1 hd.2)
      exact h.file (.inl (hm.alive hwaiting))
  | finalFlushing hd h => exact h.file (.inr ⟨hm.final hd, hm.loaded hd⟩)

/-! ## The statistics -/

/-- The flushes that have renamed the file. -/
def renameCount (es : List ManagerEvent) : Nat :=
  ((fileEvents es).filterMap FileEvent.renamed?).length

def failureCount (es : List ManagerEvent) : Nat := (fileEvents es).count .failed

theorem renameCount_append (es e : List ManagerEvent) :
    renameCount (es ++ e) = renameCount es + renameCount e := by
  rw [renameCount, fileEvents_append, List.filterMap_append, List.length_append]
  rfl

theorem failureCount_append (es e : List ManagerEvent) :
    failureCount (es ++ e) = failureCount es + failureCount e := by
  rw [failureCount, fileEvents_append, List.count_append]
  rfl

/-- What one step adds to the statistics. -/
theorem FlushStep.counts (h : FlushStep m e n returns) :
    n.flush_count_ = m.flush_count_ + .ofNat (renameCount e) ∧
      n.flush_failures_ = m.flush_failures_ + .ofNat (failureCount e) := by
  have hzero : ∀ x : UInt64, x = x + .ofNat 0 := fun x => (UInt64.add_zero x).symm
  cases h with
  | load | skip | begin | work => exact ⟨hzero _, hzero _⟩
  | fails => exact ⟨hzero _, rfl⟩
  | renames => exact ⟨rfl, hzero _⟩

theorem ManagerStep.counts (h : ManagerStep m e n) :
    n.flush_count_ = m.flush_count_ + .ofNat (renameCount e) ∧
      n.flush_failures_ = m.flush_failures_ + .ofNat (failureCount e) := by
  have hzero : ∀ x : UInt64, x = x + .ofNat 0 := fun x => (UInt64.add_zero x).symm
  cases h with
  | flushing hl h => exact h.counts
  | finalFlushing hd h => exact h.counts
  | _ => exact ⟨hzero _, hzero _⟩

/-! ## The final flush -/

/-- How the final flush has ended. -/
def Ended (es : List ManagerEvent) (m : Manager) : Prop :=
  m.file.data_.isEmpty = true ∨ (∃ before, fileEvents es = before ++ [.failed]) ∨
    lastRenamed (fileEvents es) = some m.file.data_

theorem FlushStep.ended (h : FlushStep m e n true) (hm : Loaded m.flusher m.file.data_) :
    Ended (es ++ e) n := by
  have hsame := h.unmoved.data_
  cases h with
  | skip hf hpc he => exact .inl (hm.eq hf ▸ he)
  | fails hf he h => exact .inr (.inl ⟨fileEvents es, fileEvents_append ..⟩)
  | @renames words file hf he h =>
      right
      right
      have hlast : lastRenamed (fileEvents es ++ [.renamed words]) = some words := by
        rw [lastRenamed, List.filterMap_append]
        exact List.getLast?_concat
      rw [fileEvents_append]
      refine hlast.trans (congrArg some ?_)
      exact (hm.eq hf).trans hsame.symm

/-- After the final flush nothing happens to the words and the files. -/
theorem ManagerStep.ended (hm : Coherent m) (h : ManagerStep m e n)
    (hended : m.destructor = .printing ∨ m.destructor = .done → Ended es m)
    (hn : n.destructor = .printing ∨ n.destructor = .done) : Ended (es ++ e) n := by
  have hkept : fileEvents e = [] → n.file.data_ = m.file.data_ → m.destructor = n.destructor →
      Ended (es ++ e) n := by
    intro he hdata hd
    unfold Ended
    rw [fileEvents_append, he, List.append_nil, hdata]
    exact hended (hd ▸ hn)
  have hpast : m.destructor = n.destructor →
      m.destructor ≠ .notCalled ∧ m.destructor ≠ .joining := by
    intro hd
    rw [hd]
    rcases hn with hn | hn <;> rw [hn] <;> exact ⟨nofun, nofun⟩
  cases h with
  | call | updated | enter | exit | wake | noFlush | flush => exact hkept rfl rfl rfl
  | store hu => cases hu.symm.trans (hm.quiet (hpast rfl).1)
  | flushing hl h =>
      obtain ⟨hnot, hnot'⟩ := hpast h.unmoved.destructor.symm
      cases hl.symm.trans (hm.exited hnot hnot')
  | destroy | join | finalFlush => simp at hn
  | @finalFlushing e n returns hd h =>
      cases returns with
      | true => exact h.ended (hm.loaded hd)
      | false => simp at hn
  | destroyed hd =>
      unfold Ended
      rw [fileEvents_append, show fileEvents [] = [] from rfl, List.append_nil]
      exact hended (.inl hd)

/-! ## Every run -/

variable {checkpoint tmp : Option (List UInt8)}

structure Reached (checkpoint tmp : Option (List UInt8)) (es : List ManagerEvent) (m : Manager) :
    Prop where
  coherent : Coherent m
  memory : Run (snapshots (load checkpoint .zero)) (memoryEvents es) m.snapshot
  file : Run (fileSystem (.start checkpoint tmp)) (fileEvents es) m.file
  flushed : m.flush_count_ = .ofNat (renameCount es)
  failed : m.flush_failures_ = .ofNat (failureCount es)
  ended : m.destructor = .printing ∨ m.destructor = .done → Ended es m

theorem Reached.step (hm : Reached checkpoint tmp es m) (h : ManagerStep m e n) :
    Reached checkpoint tmp (es ++ e) n where
  coherent := hm.coherent.step h
  memory := by
    rw [memoryEvents_append]
    obtain hstep | ⟨hnone, hsame⟩ := h.memory hm.coherent
    · exact hm.memory.step hstep
    · rw [hnone, hsame, List.append_nil]
      exact hm.memory
  file := by
    rw [fileEvents_append]
    obtain hstep | ⟨hnone, hsame⟩ := h.file hm.coherent
    · exact hm.file.step hstep
    · rw [hnone, hsame, List.append_nil]
      exact hm.file
  flushed := by rw [h.counts.1, hm.flushed, renameCount_append, UInt64.ofNat_add]
  failed := by rw [h.counts.2, hm.failed, failureCount_append, UInt64.ofNat_add]
  ended := h.ended hm.coherent hm.ended

theorem reached (r : Run (manager checkpoint tmp) es m) : Reached checkpoint tmp es m := by
  refine r.invariant (I := Reached checkpoint tmp) ?_ fun _ _ _ _ hm h => hm.step h
  rintro m rfl
  exact ⟨coherent_start checkpoint tmp, .init rfl, .init rfl, rfl, rfl, by simp [Manager.start]⟩

/-- A run in which one tuple is stored and the final flush brings it to the file. -/
theorem run_stored : ∃ es m, Run (manager none none) es m ∧ m.destructor = .done ∧
    m.file.data_ = ⟨1, 64, 1, 9⟩ ∧ renameCount es = 1 ∧
      fileEvents es = [.joined, .begun ⟨1, 64, 1, 9⟩, .renamed ⟨1, 64, 1, 9⟩] := by
  have r₀ : Run (manager none none) [] (.start none none) := .init rfl
  have r₁ := r₀.silent (.call ⟨1, 64, 1, 9⟩ rfl rfl)
  have r₂ := r₁.step (.store (i := 0) rfl)
  have r₃ := r₂.step (.store (i := 1) rfl)
  have r₄ := r₃.step (.store (i := 2) rfl)
  have r₅ := r₄.step (.store (i := 3) rfl)
  have r₆ := r₅.silent (.updated rfl)
  have r₇ := r₆.silent (.destroy rfl rfl)
  have r₈ := r₇.silent (.exit rfl rfl)
  have r₉ := r₈.step (.join rfl rfl)
  have r₁₀ := r₉.silent (.finalFlush rfl)
  have r₁₁ := r₁₀.step (.finalFlushing rfl (.load (i := 0) rfl))
  have r₁₂ := r₁₁.step (.finalFlushing rfl (.load (i := 1) rfl))
  have r₁₃ := r₁₂.step (.finalFlushing rfl (.load (i := 2) rfl))
  have r₁₄ := r₁₃.step (.finalFlushing rfl (.load (i := 3) rfl))
  have r₁₅ := r₁₄.step (.finalFlushing rfl (.begin rfl rfl rfl))
  have r₁₆ := r₁₅.silent (.finalFlushing rfl (.work nofun (.open rfl) rfl rfl))
  have r₁₇ := r₁₆.silent (.finalFlushing rfl (.work nofun (.write rfl) rfl rfl))
  have r₁₈ := r₁₇.silent (.finalFlushing rfl (.work nofun (.write rfl) rfl rfl))
  have r₁₉ := r₁₈.silent (.finalFlushing rfl (.work nofun (.write rfl) rfl rfl))
  have r₂₀ := r₁₉.silent (.finalFlushing rfl (.work nofun (.write rfl) rfl rfl))
  have r₂₁ := r₂₀.silent (.finalFlushing rfl (.work nofun (.write rfl) rfl rfl))
  have r₂₂ := r₂₁.silent (.finalFlushing rfl (.work nofun (.write rfl) rfl rfl))
  have r₂₃ := r₂₂.silent (.finalFlushing rfl (.work nofun (.write rfl) rfl rfl))
  have r₂₄ := r₂₃.silent (.finalFlushing rfl (.work nofun (.drain 40 rfl rfl) rfl rfl))
  have r₂₅ := r₂₄.silent (.finalFlushing rfl (.work nofun (.flushed rfl) rfl rfl))
  have r₂₆ := r₂₅.step (.finalFlushing rfl (.renames rfl rfl (.rename rfl)))
  exact ⟨_, _, r₂₆.silent (.destroyed rfl), rfl, rfl, rfl, rfl⟩

/-- **The manager is made of its two parts.** In every run of the manager what the threads do to
the words in memory is a run of `snapshots`, and what they do to the files is a run of
`fileSystem`; there is never more than one flush at a time. -/
theorem manager_refines (r : Run (manager checkpoint tmp) es m) :
    Run (snapshots (load checkpoint .zero)) (memoryEvents es) m.snapshot ∧
    Run (fileSystem (.start checkpoint tmp)) (fileEvents es) m.file ∧
    ¬ (m.loop = .flushing ∧ m.destructor = .flushing) := by
  have hm := reached r
  refine ⟨hm.memory, hm.file, fun ⟨hl, hd⟩ => ?_⟩
  exact hm.coherent.not_finalFlush (by simp [hl]) hd

/-- The files have gone through one flush. -/
theorem manager_refines_stored : ∃ s, Run (fileSystem (.start none none))
    [.joined, .begun ⟨1, 64, 1, 9⟩, .renamed ⟨1, 64, 1, 9⟩] s := by
  obtain ⟨es, m, r, -, -, -, hes⟩ := run_stored
  obtain ⟨-, hfile, -⟩ := manager_refines r
  exact ⟨m.file, hes ▸ hfile⟩

/-- **How the manager ends.** The statistics count the flushes that have renamed the file and
those that have failed; and when the destructor is done, the checkpoint file has the tuple that is
in memory, unless there is none or the very last flush has failed. -/
theorem manager_ends (r : Run (manager checkpoint tmp) es m) :
    m.flush_count_ = .ofNat (renameCount es) ∧
    m.flush_failures_ = .ofNat (failureCount es) ∧
    (m.destructor = .done → m.file.data_.isEmpty = true ∨
      (∃ before, fileEvents es = before ++ [.failed]) ∨
        m.file.checkpoint = some (record m.file.data_)) := by
  have hm := reached r
  refine ⟨hm.flushed, hm.failed, fun hdone => ?_⟩
  refine (hm.ended (.inr hdone)).imp_right fun h => h.imp_right fun hlast => ?_
  have hfile := (file_run rfl hm.file).2
  rw [expectedFile, hlast] at hfile
  exact hfile

/-- The tuple is in the file, and one flush has been counted. -/
theorem manager_ends_stored : ∃ m : Manager, m.flush_count_ = 1 ∧
    m.file.checkpoint = some (record ⟨1, 64, 1, 9⟩) := by
  obtain ⟨es, m, r, hdone, hdata, hcount, hes⟩ := run_stored
  obtain ⟨hflushed, -, hended⟩ := manager_ends r
  refine ⟨m, by rw [hflushed, hcount]; rfl, ?_⟩
  rcases hended hdone with hempty | ⟨before, hfailed⟩ | hfile
  · rw [hdata] at hempty
    cases hempty
  · have hlast := congrArg List.getLast? (hes.symm.trans hfailed)
    rw [List.getLast?_concat] at hlast
    cases hlast
  · rw [hfile, hdata]

end AeronReplay.CheckpointManager
