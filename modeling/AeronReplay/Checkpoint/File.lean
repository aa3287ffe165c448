import AeronReplay.Checkpoint.Record
import AeronReplay.Lib.Transition

set_option autoImplicit false

/-! # The checkpoint file

`flush` writes the record to a temporary file and renames it over the checkpoint file. The model
follows the bytes: `ofs.write` appends to the buffer of the stream, the buffer drains to the
temporary file in pieces of any size, the stream may turn bad at any moment, and the process may
crash at any moment and be started again. `crashSafety` is what holds of the checkpoint file
throughout. -/

namespace AeronReplay.CheckpointManager

open Transition

/-! ## The flush, step by step -/

/-- Where `flush` is, after it has taken the tuple `d`. -/
inductive FilePc where
  | idle
  | opening (d : CheckpointData)
  /-- The writes to come, the bytes in the buffer of the stream, and whether the stream is
  still good. -/
  | writing (d : CheckpointData) (todo : List (List UInt8)) (buffered : List UInt8) (good : Bool)
  | renaming (d : CheckpointData)

/-- The life of the process: the flush thread is running, the destructor has joined it, the
final flush has been started, the process is gone. -/
inductive Phase where
  | running
  | joined
  | finishing
  | gone
  deriving DecidableEq

structure FileState where
  checkpoint : Option (List UInt8)
  tmp : Option (List UInt8)
  data_ : CheckpointData
  pc : FilePc
  phase : Phase

inductive FileEvent where
  /-- `flush` has begun to bring the tuple to the file. -/
  | begun (d : CheckpointData)
  /-- `flush` has renamed the temporary file. -/
  | renamed (d : CheckpointData)
  /-- `flush` has counted a failure. -/
  | failed
  /-- The destructor has joined the flush thread. -/
  | joined
  | crashed
  /-- A new `CheckpointManager` has loaded the checkpoint file. -/
  | restarted
  deriving DecidableEq

/-- One step of the process or of its environment. -/
inductive FileStep : FileState → List FileEvent → FileState → Prop
  | update {s : FileState} (d : CheckpointData) (hrun : s.phase = .running) :
      FileStep s [] { s with data_ := d }
  | skip {s : FileState} {d : CheckpointData} (hpc : s.pc = .idle) (hrun : s.phase = .running)
      (he : d.isEmpty = true) :
      FileStep s [] s
  | begin {s : FileState} (d : CheckpointData) (hpc : s.pc = .idle) (hrun : s.phase = .running)
      (he : d.isEmpty = false) :
      FileStep s [.begun d] { s with pc := .opening d }
  | join {s : FileState} (hpc : s.pc = .idle) (hrun : s.phase = .running) :
      FileStep s [.joined] { s with phase := .joined }
  | skipFinal {s : FileState} (hjoined : s.phase = .joined) (he : s.data_.isEmpty = true) :
      FileStep s [] { s with phase := .finishing }
  | beginFinal {s : FileState} (hjoined : s.phase = .joined) (he : s.data_.isEmpty = false) :
      FileStep s [.begun s.data_] { s with
        pc := .opening s.data_
        phase := .finishing }
  | destroyed {s : FileState} (hpc : s.pc = .idle) (hfinal : s.phase = .finishing) :
      FileStep s [] { s with phase := .gone }
  | open {s : FileState} {d : CheckpointData} (hpc : s.pc = .opening d) :
      FileStep s [] { s with
        tmp := some []
        pc := .writing d (writes d) [] true }
  | openFails {s : FileState} {d : CheckpointData} (hpc : s.pc = .opening d) :
      FileStep s [.failed] { s with pc := .idle }
  | write {s : FileState} {d : CheckpointData} {w : List UInt8} {todo : List (List UInt8)}
      {buffered : List UInt8} (hpc : s.pc = .writing d (w :: todo) buffered true) :
      FileStep s [] { s with pc := .writing d todo (buffered ++ w) true }
  | writeIgnored {s : FileState} {d : CheckpointData} {w : List UInt8}
      {todo : List (List UInt8)} {buffered : List UInt8}
      (hpc : s.pc = .writing d (w :: todo) buffered false) :
      FileStep s [] { s with pc := .writing d todo buffered false }
  | drain {s : FileState} {d : CheckpointData} {todo : List (List UInt8)}
      {buffered content : List UInt8} {good : Bool} (n : Nat)
      (hpc : s.pc = .writing d todo buffered good) (htmp : s.tmp = some content) :
      FileStep s [] { s with
        tmp := some (content ++ buffered.take n)
        pc := .writing d todo (buffered.drop n) good }
  | turnsBad {s : FileState} {d : CheckpointData} {todo : List (List UInt8)}
      {buffered : List UInt8} {good : Bool} (hpc : s.pc = .writing d todo buffered good) :
      FileStep s [] { s with pc := .writing d todo buffered false }
  | flushed {s : FileState} {d : CheckpointData} (hpc : s.pc = .writing d [] [] true) :
      FileStep s [] { s with pc := .renaming d }
  | writeFails {s : FileState} {d : CheckpointData} {buffered : List UInt8}
      (hpc : s.pc = .writing d [] buffered false) :
      FileStep s [.failed] { s with pc := .idle }
  | rename {s : FileState} {d : CheckpointData} (hpc : s.pc = .renaming d) :
      FileStep s [.renamed d] { s with
        checkpoint := s.tmp
        tmp := none
        pc := .idle }
  | renameFails {s : FileState} {d : CheckpointData} (hpc : s.pc = .renaming d) :
      FileStep s [.failed] { s with pc := .idle }
  | crash {s : FileState} (hphase : s.phase ≠ .gone) :
      FileStep s [.crashed] { s with
        pc := .idle
        phase := .gone }
  | restart {s : FileState} (hgone : s.phase = .gone) :
      FileStep s [.restarted] { s with
        data_ := load s.checkpoint .zero
        phase := .running }

/-- The system started in the state `s₀`. -/
def fileSystem (s₀ : FileState) : Lts FileState FileEvent where
  Init s := s = s₀
  Step := FileStep

/-- A new `CheckpointManager` on files with the given content. -/
def FileState.start (checkpoint tmp : Option (List UInt8)) : FileState where
  checkpoint := checkpoint
  tmp := tmp
  data_ := load checkpoint .zero
  pc := .idle
  phase := .running

def FileEvent.renamed? : FileEvent → Option CheckpointData
  | .renamed d => some d
  | _ => none

/-- The tuple of the most recent flush whose rename took place. -/
def lastRenamed (es : List FileEvent) : Option CheckpointData :=
  (es.filterMap FileEvent.renamed?).getLast?

/-- What the checkpoint file holds after the events `es`. -/
def expectedFile (checkpoint : Option (List UInt8)) (es : List FileEvent) :
    Option (List UInt8) :=
  match lastRenamed es with
  | none => checkpoint
  | some d => some (record d)

/-! ## The invariant -/

/-- Where the bytes of the record are while a flush is under way. A stream that is still good
has lost none of them. -/
def BytesKept (s : FileState) : Prop :=
  match s.pc with
  | .writing d todo buffered good =>
      ∃ content, s.tmp = some content ∧
        (good = true → content ++ buffered ++ todo.flatten = record d)
  | .renaming d => s.tmp = some (record d)
  | _ => True

theorem bytesKept_step {s t : FileState} {e : List FileEvent} (h : BytesKept s)
    (hstep : FileStep s e t) : BytesKept t := by
  obtain ⟨checkpoint, tmp, data, pc, phase⟩ := s
  cases hstep with
  | update d hrun => exact h
  | skip hpc hrun he => exact h
  | begin d hpc hrun he => trivial
  | join hpc hrun => exact h
  | skipFinal hjoined he => exact h
  | beginFinal hjoined he => trivial
  | destroyed hpc hfinal => exact h
  | «open» hpc => exact ⟨[], rfl, fun _ => rfl⟩
  | openFails hpc => trivial
  | write hpc =>
      obtain rfl : pc = _ := hpc
      obtain ⟨content, htmp, hbytes⟩ := h
      refine ⟨content, htmp, fun _ => ?_⟩
      rw [← hbytes rfl, List.flatten_cons, ← List.append_assoc, ← List.append_assoc]
  | writeIgnored hpc =>
      obtain rfl : pc = _ := hpc
      obtain ⟨content, htmp, -⟩ := h
      exact ⟨content, htmp, fun hgood => by cases hgood⟩
  | drain n hpc htmp =>
      obtain rfl : pc = _ := hpc
      obtain rfl : tmp = _ := htmp
      obtain ⟨content, htmp', hbytes⟩ := h
      cases htmp'
      refine ⟨_, rfl, fun hgood => ?_⟩
      -- the bytes move from the buffer to the file, none is lost
      rw [← hbytes hgood, List.append_assoc _ (List.take _ _), List.take_append_drop]
  | turnsBad hpc =>
      obtain rfl : pc = _ := hpc
      obtain ⟨content, htmp, -⟩ := h
      exact ⟨content, htmp, fun hgood => by cases hgood⟩
  | flushed hpc =>
      obtain rfl : pc = _ := hpc
      obtain ⟨content, htmp, hbytes⟩ := h
      -- nothing is left to write and nothing is buffered
      have hall := hbytes rfl
      rw [List.flatten_nil, List.append_nil, List.append_nil] at hall
      show tmp = _
      rw [show tmp = _ from htmp, hall]
  | writeFails hpc => trivial
  | rename hpc => trivial
  | renameFails hpc => trivial
  | crash hphase => trivial
  | restart hgone => exact h

theorem expectedFile_append_of_silent {checkpoint : Option (List UInt8)}
    {es e : List FileEvent} (h : e.filterMap FileEvent.renamed? = []) :
    expectedFile checkpoint (es ++ e) = expectedFile checkpoint es := by
  rw [expectedFile, expectedFile, lastRenamed, lastRenamed, List.filterMap_append, h,
    List.append_nil]

theorem expectedFile_append_renamed (checkpoint : Option (List UInt8)) (es : List FileEvent)
    (d : CheckpointData) :
    expectedFile checkpoint (es ++ [.renamed d]) = some (record d) := by
  have hlast : lastRenamed (es ++ [.renamed d]) = some d := by
    rw [lastRenamed, List.filterMap_append]
    exact List.getLast?_concat
  rw [expectedFile, hlast]

/-- Only a rename changes the checkpoint file, and it puts the complete record there. -/
theorem checkpoint_step {s t : FileState} {e : List FileEvent} (h : BytesKept s)
    (hstep : FileStep s e t) :
    (e.filterMap FileEvent.renamed? = [] ∧ t.checkpoint = s.checkpoint) ∨
      ∃ d, e = [.renamed d] ∧ s.pc = .renaming d ∧ t.checkpoint = some (record d) := by
  cases hstep with
  | rename hpc =>
      refine Or.inr ⟨_, rfl, hpc, ?_⟩
      rw [BytesKept, hpc] at h
      exact h
  | _ => exact Or.inl ⟨rfl, rfl⟩

theorem file_run {s₀ s : FileState} {es : List FileEvent} (hidle : s₀.pc = .idle)
    (r : Run (fileSystem s₀) es s) :
    BytesKept s ∧ s.checkpoint = expectedFile s₀.checkpoint es := by
  refine Run.invariant
    (I := fun es s => BytesKept s ∧ s.checkpoint = expectedFile s₀.checkpoint es) ?_ ?_ r
  · rintro s rfl
    refine ⟨?_, rfl⟩
    rw [BytesKept, hidle]
    trivial
  · rintro es s e t ⟨hbytes, hfile⟩ hstep
    refine ⟨bytesKept_step hbytes hstep, ?_⟩
    rcases checkpoint_step hbytes hstep with ⟨hsilent, hsame⟩ | ⟨d, rfl, -, hrecord⟩
    · rw [hsame, hfile, expectedFile_append_of_silent hsilent]
    · rw [hrecord, expectedFile_append_renamed]

/-! ## A flush that fails -/

/-- A step that does not begin a flush leaves an idle thread idle. -/
theorem idle_step {s t : FileState} {e : List FileEvent} (hidle : s.pc = .idle)
    (hstep : FileStep s e t) (hnone : ∀ d, .begun d ∉ e) : t.pc = .idle := by
  cases hstep with
  | begin d => exact absurd (List.mem_singleton_self _) (hnone d)
  | beginFinal => exact absurd (List.mem_singleton_self _) (hnone _)
  | update | skip | join | skipFinal | destroyed | restart => exact hidle
  | openFails | writeFails | rename | renameFails | crash => rfl
  | «open» hpc | write hpc | writeIgnored hpc | drain _ hpc | turnsBad hpc | flushed hpc =>
      rw [hidle] at hpc
      cases hpc

/-- While no further flush begins, the checkpoint file is what it was, or the flush is over. -/
theorem checkpoint_during_flush {M : Lts FileState FileEvent} (hM : M.Step = FileStep)
    {s t : FileState} {fs : List FileEvent} (q : Steps M s fs t) (hbytes : BytesKept s)
    (hone : ∀ d, .begun d ∉ fs) : t.pc = .idle ∨ t.checkpoint = s.checkpoint := by
  have hinv : BytesKept t ∧
      ((∀ d, .begun d ∉ fs) → t.pc = .idle ∨ t.checkpoint = s.checkpoint) := by
    refine Steps.invariant (I := fun fs t => BytesKept t ∧
      ((∀ d, .begun d ∉ fs) → t.pc = .idle ∨ t.checkpoint = s.checkpoint)) ?_ q
      ⟨hbytes, fun _ => Or.inr rfl⟩
    rintro es u e v ⟨hu, ih⟩ hstep
    rw [hM] at hstep
    refine ⟨bytesKept_step hu hstep, fun hnone => ?_⟩
    rcases ih fun d hd => hnone d (List.mem_append_left _ hd) with hidle | hkept
    · exact Or.inl (idle_step hidle hstep fun d hd => hnone d (List.mem_append_right _ hd))
    · rcases checkpoint_step hu hstep with ⟨-, hsame⟩ | ⟨d, rfl, hpc, -⟩
      · exact Or.inr (hsame.trans hkept)
      · -- the rename is the end of the flush
        cases hstep
        exact Or.inl rfl
  exact hinv.2 hone

/-! ## What is in the temporary file -/

/-- The two states differ at most in the temporary file, and there only while no flush is
writing to it. -/
def AgreeButTmp (s t : FileState) : Prop :=
  t.checkpoint = s.checkpoint ∧ t.data_ = s.data_ ∧ t.pc = s.pc ∧ t.phase = s.phase ∧
    (s.pc = .idle ∨ (∃ d, s.pc = .opening d) ∨ t.tmp = s.tmp)

theorem AgreeButTmp.tmp_eq {s t : FileState} (h : AgreeButTmp s t) (hidle : s.pc ≠ .idle)
    (hopening : ∀ d, s.pc ≠ .opening d) : t.tmp = s.tmp := by
  obtain ⟨-, -, -, -, heq | ⟨d, heq⟩ | heq⟩ := h
  · exact absurd heq hidle
  · exact absurd heq (hopening d)
  · exact heq

/-- What the temporary file holds when no flush is writing to it makes no difference. -/
theorem agreeButTmp_step {s s' t : FileState} {e : List FileEvent} (h : AgreeButTmp s s')
    (hstep : FileStep s e t) : ∃ t', FileStep s' e t' ∧ AgreeButTmp t t' := by
  have hsame := h.tmp_eq
  obtain ⟨checkpoint, tmp, data, pc, phase⟩ := s
  obtain ⟨checkpoint', tmp', data', pc', phase'⟩ := s'
  obtain ⟨rfl, rfl, rfl, rfl, htmp⟩ := h
  cases hstep with
  | update d hrun => exact ⟨_, .update d hrun, rfl, rfl, rfl, rfl, htmp⟩
  | skip hpc hrun he => exact ⟨_, .skip hpc hrun he, rfl, rfl, rfl, rfl, htmp⟩
  | begin d hpc hrun he =>
      exact ⟨_, .begin d hpc hrun he, rfl, rfl, rfl, rfl, Or.inr (Or.inl ⟨d, rfl⟩)⟩
  | join hpc hrun => exact ⟨_, .join hpc hrun, rfl, rfl, rfl, rfl, htmp⟩
  | skipFinal hjoined he => exact ⟨_, .skipFinal hjoined he, rfl, rfl, rfl, rfl, htmp⟩
  | beginFinal hjoined he =>
      exact ⟨_, .beginFinal hjoined he, rfl, rfl, rfl, rfl, Or.inr (Or.inl ⟨_, rfl⟩)⟩
  | destroyed hpc hfinal => exact ⟨_, .destroyed hpc hfinal, rfl, rfl, rfl, rfl, htmp⟩
  | «open» hpc => exact ⟨_, .open hpc, rfl, rfl, rfl, rfl, Or.inr (Or.inr rfl)⟩
  | openFails hpc => exact ⟨_, .openFails hpc, rfl, rfl, rfl, rfl, Or.inl rfl⟩
  | write hpc =>
      obtain rfl : pc' = _ := hpc
      obtain rfl := hsame (by simp) (by simp)
      exact ⟨_, .write rfl, rfl, rfl, rfl, rfl, Or.inr (Or.inr rfl)⟩
  | writeIgnored hpc =>
      obtain rfl : pc' = _ := hpc
      obtain rfl := hsame (by simp) (by simp)
      exact ⟨_, .writeIgnored rfl, rfl, rfl, rfl, rfl, Or.inr (Or.inr rfl)⟩
  | drain n hpc hcontent =>
      obtain rfl : pc' = _ := hpc
      obtain rfl := hsame (by simp) (by simp)
      exact ⟨_, .drain n rfl hcontent, rfl, rfl, rfl, rfl, Or.inr (Or.inr rfl)⟩
  | turnsBad hpc =>
      obtain rfl : pc' = _ := hpc
      obtain rfl := hsame (by simp) (by simp)
      exact ⟨_, .turnsBad rfl, rfl, rfl, rfl, rfl, Or.inr (Or.inr rfl)⟩
  | flushed hpc =>
      obtain rfl : pc' = _ := hpc
      obtain rfl := hsame (by simp) (by simp)
      exact ⟨_, .flushed rfl, rfl, rfl, rfl, rfl, Or.inr (Or.inr rfl)⟩
  | writeFails hpc => exact ⟨_, .writeFails hpc, rfl, rfl, rfl, rfl, Or.inl rfl⟩
  | rename hpc =>
      obtain rfl : pc' = _ := hpc
      obtain rfl := hsame (by simp) (by simp)
      exact ⟨_, .rename rfl, rfl, rfl, rfl, rfl, Or.inl rfl⟩
  | renameFails hpc => exact ⟨_, .renameFails hpc, rfl, rfl, rfl, rfl, Or.inl rfl⟩
  | crash hphase => exact ⟨_, .crash hphase, rfl, rfl, rfl, rfl, Or.inl rfl⟩
  | restart hgone => exact ⟨_, .restart hgone, rfl, rfl, rfl, rfl, htmp⟩

theorem agreeButTmp_steps {M : Lts FileState FileEvent} (hM : M.Step = FileStep)
    {s s' t : FileState} {fs : List FileEvent} (h : AgreeButTmp s s') (q : Steps M s fs t) :
    ∃ t', Steps M s' fs t' ∧ AgreeButTmp t t' := by
  induction q with
  | refl => exact ⟨s', .refl s', h⟩
  | tail _ hstep ih =>
      obtain ⟨u', hsteps, hu⟩ := ih h
      rw [hM] at hstep
      obtain ⟨t', hstep', ht⟩ := agreeButTmp_step hu hstep
      exact ⟨t', .tail hsteps (by rw [hM]; exact hstep'), ht⟩

/-! ## The final flush -/

/-- The tuple that a flush under way has taken. -/
def FilePc.tuple? : FilePc → Option CheckpointData
  | .idle => none
  | .opening d => some d
  | .writing d _ _ _ => some d
  | .renaming d => some d

/-- After the destructor has joined the flush thread with the tuple `d` in memory and `c` in the
checkpoint file, and as long as nothing fails: the final flush has not been called, or it is
under way, or it is over. -/
def FinalFlush (c : Option (List UInt8)) (d : CheckpointData) (s : FileState) : Prop :=
  s.data_ = d ∧ BytesKept s ∧
  (s.phase = .joined ∧ s.pc = .idle ∧ s.checkpoint = c ∨
    s.phase = .finishing ∧ d.isEmpty = false ∧ s.pc.tuple? = some d ∨
    (s.phase = .finishing ∨ s.phase = .gone) ∧ s.pc = .idle ∧
      s.checkpoint = if d.isEmpty then c else some (record d))

/-- An event after which the final flush is no longer one that meets no failure. -/
def Disturbs (e : FileEvent) : Prop := e = .failed ∨ e = .crashed ∨ e = .restarted

theorem finalFlush_joined {c : Option (List UInt8)} {s t : FileState} {e : List FileEvent}
    (hbytes : BytesKept s) (hphase : s.phase = .joined) (hpc : s.pc = .idle)
    (hfile : s.checkpoint = c) (hstep : FileStep s e t) (hcalm : ∀ x ∈ e, ¬ Disturbs x) :
    FinalFlush c s.data_ t := by
  have hbytes' := bytesKept_step hbytes hstep
  cases hstep with
  | skipFinal hjoined he =>
      refine ⟨rfl, hbytes', Or.inr (Or.inr ⟨Or.inl rfl, hpc, ?_⟩)⟩
      rw [he]
      exact hfile
  | beginFinal hjoined he => exact ⟨rfl, hbytes', Or.inr (Or.inl ⟨rfl, he, rfl⟩)⟩
  | crash =>
      exact absurd (Or.inr (Or.inl rfl)) (hcalm _ (List.mem_singleton_self _))
  | update _ hrun | skip _ hrun | begin _ _ hrun | join _ hrun =>
      rw [hphase] at hrun
      cases hrun
  | destroyed _ hfinal =>
      rw [hphase] at hfinal
      cases hfinal
  | restart hgone =>
      rw [hphase] at hgone
      cases hgone
  | «open» hpc' | openFails hpc' | write hpc' | writeIgnored hpc' | drain _ hpc' | turnsBad hpc'
    | flushed hpc' | writeFails hpc' | rename hpc' | renameFails hpc' =>
      rw [hpc] at hpc'
      cases hpc'

theorem finalFlush_underWay {c : Option (List UInt8)} {d : CheckpointData} {s t : FileState}
    {e : List FileEvent} (hdata : s.data_ = d) (hbytes : BytesKept s)
    (hphase : s.phase = .finishing) (he : d.isEmpty = false) (htuple : s.pc.tuple? = some d)
    (hstep : FileStep s e t) (hcalm : ∀ x ∈ e, ¬ Disturbs x) : FinalFlush c d t := by
  have hbytes' := bytesKept_step hbytes hstep
  cases hstep with
  | «open» hpc | write hpc | writeIgnored hpc | drain _ hpc | turnsBad hpc | flushed hpc =>
      rw [hpc] at htuple
      exact ⟨hdata, hbytes', Or.inr (Or.inl ⟨hphase, he, htuple⟩)⟩
  | rename hpc =>
      rw [BytesKept, hpc] at hbytes
      rw [hpc] at htuple
      obtain rfl := Option.some.inj htuple
      refine ⟨hdata, hbytes', Or.inr (Or.inr ⟨Or.inl hphase, rfl, ?_⟩)⟩
      rw [he]
      exact hbytes
  | openFails | writeFails | renameFails =>
      exact absurd (Or.inl rfl) (hcalm _ (List.mem_singleton_self _))
  | crash =>
      exact absurd (Or.inr (Or.inl rfl)) (hcalm _ (List.mem_singleton_self _))
  | update _ hrun | skip _ hrun | begin _ _ hrun | join _ hrun =>
      rw [hphase] at hrun
      cases hrun
  | skipFinal hjoined | beginFinal hjoined =>
      rw [hphase] at hjoined
      cases hjoined
  | destroyed hpc =>
      rw [hpc] at htuple
      cases htuple
  | restart hgone =>
      rw [hphase] at hgone
      cases hgone

theorem finalFlush_over {c : Option (List UInt8)} {d : CheckpointData} {s t : FileState}
    {e : List FileEvent} (hdata : s.data_ = d) (hbytes : BytesKept s)
    (hphase : s.phase = .finishing ∨ s.phase = .gone) (hpc : s.pc = .idle)
    (hfile : s.checkpoint = if d.isEmpty then c else some (record d))
    (hstep : FileStep s e t) (hcalm : ∀ x ∈ e, ¬ Disturbs x) : FinalFlush c d t := by
  have hbytes' := bytesKept_step hbytes hstep
  have hnot : s.phase ≠ .running ∧ s.phase ≠ .joined := by
    rcases hphase with hphase | hphase <;> rw [hphase] <;> exact ⟨by decide, by decide⟩
  cases hstep with
  | destroyed => exact ⟨hdata, hbytes', Or.inr (Or.inr ⟨Or.inr rfl, hpc, hfile⟩)⟩
  | crash => exact absurd (Or.inr (Or.inl rfl)) (hcalm _ (List.mem_singleton_self _))
  | restart => exact absurd (Or.inr (Or.inr rfl)) (hcalm _ (List.mem_singleton_self _))
  | update _ hrun | skip _ hrun | begin _ _ hrun | join _ hrun => exact absurd hrun hnot.1
  | skipFinal hjoined | beginFinal hjoined => exact absurd hjoined hnot.2
  | «open» hpc' | openFails hpc' | write hpc' | writeIgnored hpc' | drain _ hpc' | turnsBad hpc'
    | flushed hpc' | writeFails hpc' | rename hpc' | renameFails hpc' =>
      rw [hpc] at hpc'
      cases hpc'

theorem finalFlush_steps {M : Lts FileState FileEvent} (hM : M.Step = FileStep)
    {c : Option (List UInt8)} {d : CheckpointData} {s t : FileState} {fs : List FileEvent}
    (q : Steps M s fs t) (h : FinalFlush c d s) (hcalm : ∀ x ∈ fs, ¬ Disturbs x) :
    FinalFlush c d t := by
  refine Steps.invariant (I := fun fs t => (∀ x ∈ fs, ¬ Disturbs x) → FinalFlush c d t) ?_ q
    (fun _ => h) hcalm
  intro es u e v ih hstep hcalm
  rw [hM] at hstep
  have hcalm' : ∀ x ∈ e, ¬ Disturbs x := fun x hx => hcalm x (List.mem_append_right _ hx)
  obtain ⟨rfl, hbytes, ⟨hphase, hpc, hfile⟩ | ⟨hphase, he, htuple⟩ | ⟨hphase, hpc, hfile⟩⟩ :=
    ih fun x hx => hcalm x (List.mem_append_left _ hx)
  · exact finalFlush_joined hbytes hphase hpc hfile hstep hcalm'
  · exact finalFlush_underWay rfl hbytes hphase he htuple hstep hcalm'
  · exact finalFlush_over rfl hbytes hphase hpc hfile hstep hcalm'

/-! ## Crash safety -/

/-- What holds of the checkpoint file of a process that is started on files with the given
content, with failures and crashes at any step. -/
structure CrashSafety (checkpoint tmp : Option (List UInt8)) : Prop where
  /-- The file is what it was initially, or the complete record of the most recent flush whose
  rename took place. -/
  complete : ∀ es s, Run (fileSystem (.start checkpoint tmp)) es s →
    s.checkpoint = checkpoint ∧ lastRenamed es = none ∨
    ∃ d, lastRenamed es = some d ∧ s.checkpoint = some (record d) ∧ (record d).length = 40
  /-- A flush that reports a failure leaves the file as it was when the flush began. -/
  failed_unchanged : ∀ es s d s₁ fs s₂ s₃, Run (fileSystem (.start checkpoint tmp)) es s →
    FileStep s [.begun d] s₁ → Steps (fileSystem (.start checkpoint tmp)) s₁ fs s₂ →
    (∀ d', .begun d' ∉ fs) → FileStep s₂ [.failed] s₃ → s₃.checkpoint = s.checkpoint
  /-- Between two flushes the temporary file may hold anything: everything that can happen next
  can also happen with other content, with the same events and the same results. -/
  tmp_ignored : ∀ es s, Run (fileSystem (.start checkpoint tmp)) es s → s.pc = .idle →
    ∀ other fs t, Steps (fileSystem (.start checkpoint tmp)) s fs t →
    ∃ t', Steps (fileSystem (.start checkpoint tmp)) { s with tmp := other } fs t' ∧
      t'.checkpoint = t.checkpoint ∧ t'.data_ = t.data_ ∧ t'.pc = t.pc ∧ t'.phase = t.phase
  /-- If the destructor's final flush meets no failure, the next process starts with the tuple
  that was in memory; an empty tuple is skipped and leaves the file as it was. -/
  final_kept : ∀ es s s₁ fs s₂ s₃, Run (fileSystem (.start checkpoint tmp)) es s →
    FileStep s [.joined] s₁ → Steps (fileSystem (.start checkpoint tmp)) s₁ fs s₂ →
    (∀ x ∈ fs, ¬ Disturbs x) → FileStep s₂ [.restarted] s₃ →
    if s.data_.isEmpty then s₃.checkpoint = s.checkpoint else s₃.data_ = s.data_

/-- **The checkpoint file is crash-safe**, whatever the two files hold at the start. -/
theorem crashSafety (checkpoint tmp : Option (List UInt8)) : CrashSafety checkpoint tmp where
  complete es s r := by
    have hfile := (file_run rfl r).2
    cases hlast : lastRenamed es with
    | none =>
        rw [expectedFile, hlast] at hfile
        exact Or.inl ⟨hfile, rfl⟩
    | some d =>
        rw [expectedFile, hlast] at hfile
        exact Or.inr ⟨d, rfl, hfile, length_record d⟩
  failed_unchanged es s d s₁ fs s₂ s₃ r hbegin q hone hfail := by
    have hbytes := bytesKept_step (file_run rfl r).1 hbegin
    have hfirst : s₁.checkpoint = s.checkpoint := by cases hbegin <;> rfl
    have hlast : s₂.pc ≠ .idle ∧ s₃.checkpoint = s₂.checkpoint := by
      cases hfail with
      | openFails hpc | writeFails hpc | renameFails hpc => exact ⟨by simp [hpc], rfl⟩
    -- a flush that fails at this point is still under way
    rcases checkpoint_during_flush rfl q hbytes hone with hidle | hkept
    · exact absurd hidle hlast.1
    · rw [hlast.2, hkept, hfirst]
  tmp_ignored es s _ hidle other fs t q := by
    have hagree : AgreeButTmp s { s with tmp := other } := ⟨rfl, rfl, rfl, rfl, Or.inl hidle⟩
    obtain ⟨t', q', hfile, hdata, hpc, hphase, -⟩ := agreeButTmp_steps rfl hagree q
    exact ⟨t', q', hfile, hdata, hpc, hphase⟩
  final_kept es s s₁ fs s₂ s₃ r hjoin q hcalm hrestart := by
    have hstart : FinalFlush s.checkpoint s.data_ s₁ := by
      have hbytes := bytesKept_step (file_run rfl r).1 hjoin
      cases hjoin with
      | join hpc _ => exact ⟨rfl, hbytes, Or.inl ⟨rfl, hpc, rfl⟩⟩
    obtain ⟨-, -, hend⟩ := finalFlush_steps rfl q hstart hcalm
    cases hrestart with
    | restart hgone =>
        rw [hgone] at hend
        have hfile : s₂.checkpoint = if s.data_.isEmpty then s.checkpoint
            else some (record s.data_) := by
          rcases hend with ⟨hphase, -⟩ | ⟨hphase, -⟩ | ⟨-, -, hfile⟩
          · cases hphase
          · cases hphase
          · exact hfile
        by_cases he : s.data_.isEmpty = true
        · rw [if_pos he] at hfile ⊢
          exact hfile
        · rw [if_neg he] at hfile ⊢
          rw [hfile]
          exact load_record s.data_ .zero

end AeronReplay.CheckpointManager
