import AeronReplay.Checkpoint.Record
import AeronReplay.Lib.Directory
import AeronReplay.Lib.Transition
import Mathlib.Data.List.Induction

set_option autoImplicit false

/-! # Two flushes at once

`CheckpointManager::forceFlush` runs `flush` on the caller's thread while the background thread may
be in `flush` as well (`CheckpointManager.cpp`). Both open the same temporary file. The file steps
of the two calls (open and truncate, write and flush the record, rename) come in any order, a
schedule; no step fails by itself, only a rename fails where the other call has renamed the file
already.

`flushes_safe_iff` says for which schedules the checkpoint file stays whole and both calls succeed:
those in which neither opens the temporary file between the other's open and rename. A single flush,
with its partial writes and failures, is in `File`. -/

namespace AeronReplay.TwoFlushers

open CheckpointManager Transition

inductive FileName where
  | checkpoint
  | tmp
  deriving DecidableEq

/-- Who has called `flush`. -/
inductive Flusher where
  | forceFlush
  | flushLoop
  deriving DecidableEq

def Flusher.other : Flusher → Flusher
  | .forceFlush => .flushLoop
  | .flushLoop => .forceFlush

/-- Where a call of `flush` is. -/
inductive CallPc where
  /-- It has returned early, since there is no data yet. -/
  | skipped
  | opening
  | writing (ofs : Nat)
  | renaming
  | succeeded
  | failed
  deriving DecidableEq

/-- The call has opened the temporary file and not yet renamed it. -/
def CallPc.underWay : CallPc → Bool
  | .writing _ | .renaming => true
  | _ => false

def CallPc.returned : CallPc → Bool
  | .skipped | .succeeded | .failed => true
  | _ => false

structure State where
  files : Directory FileName UInt8
  pc : Flusher → CallPc
  /-- Not in the program: whose rename was the last one. -/
  lastRenamed : Option Flusher

/-- Both calls have taken their tuples. -/
def start (d : Flusher → CheckpointData) (files : Directory FileName UInt8) : State where
  files := files
  pc w := if (d w).isEmpty then .skipped else .opening
  lastRenamed := none

/-- The next file step of one of the calls. -/
def step (d : Flusher → CheckpointData) (s : State) (w : Flusher) : State :=
  match s.pc w with
  | .opening =>
      let (files, ofs) := s.files.openTruncate .tmp
      { s with
        files := files
        pc := Function.update s.pc w (.writing ofs) }
  | .writing ofs =>
      { s with
        files := s.files.write ofs (record (d w))
        pc := Function.update s.pc w .renaming }
  | .renaming =>
      match s.files.rename .tmp .checkpoint with
      | some files =>
          { files := files
            pc := Function.update s.pc w .succeeded
            lastRenamed := some w }
      -- there is no such file any more
      | none => { s with pc := Function.update s.pc w .failed }
  | .skipped | .succeeded | .failed => s

/-- The state after the steps of a schedule. -/
def run (d : Flusher → CheckpointData) (s : State) (schedule : List Flusher) : State :=
  schedule.foldl (step d) s

/-- The checkpoint file is absent or a complete record. -/
def Whole (file : Option (List UInt8)) : Prop :=
  ∀ bytes, file = some bytes → ∃ d : CheckpointData, bytes = record d

variable {d : Flusher → CheckpointData} {s : State}

/-- What two flushes that have returned are expected to have done. -/
structure Safe (d : Flusher → CheckpointData) (s : State) (schedule : List Flusher) : Prop where
  whole : ∀ before after, schedule = before ++ after →
    Whole ((run d s before).files.read .checkpoint)
  succeed : ∀ w, (run d s schedule).pc w ≠ .failed
  last : ∀ w, (run d s schedule).lastRenamed = some w →
    (run d s schedule).files.read .checkpoint = some (record (d w))

/-- **Neither call opens the temporary file between the other's open and rename.** -/
def NoOverlap (d : Flusher → CheckpointData) (s : State) (schedule : List Flusher) : Prop :=
  ∀ before w after, schedule = before ++ w :: after → (run d s before).pc w = .opening →
    ((run d s before).pc w.other).underWay = false

theorem run_snoc (s : State) (schedule : List Flusher) (w : Flusher) :
    run d s (schedule ++ [w]) = step d (run d s schedule) w :=
  List.foldl_append

theorem noOverlap_snoc {schedule : List Flusher} {w : Flusher} :
    NoOverlap d s (schedule ++ [w]) ↔ NoOverlap d s schedule ∧
      ((run d s schedule).pc w = .opening →
        ((run d s schedule).pc w.other).underWay = false) :=
  forall_split_snoc schedule w

theorem Flusher.eq_or_other (v w : Flusher) : v = w ∨ v = w.other := by
  cases v <;> cases w <;> simp [Flusher.other]

theorem Flusher.other_ne (w : Flusher) : w.other ≠ w := by
  cases w <;> simp [Flusher.other]

/-! ## One call after the other -/

/-- What holds as long as the calls do not overlap. -/
structure Orderly (d : Flusher → CheckpointData) (s : State) : Prop where
  whole : Whole (s.files.read .checkpoint)
  succeed : ∀ w, s.pc w ≠ .failed
  last : ∀ w, s.lastRenamed = some w → s.files.read .checkpoint = some (record (d w))
  alone : ∀ w, (s.pc w).underWay = true → (s.pc w.other).underWay = false
  writing : ∀ w ofs, s.pc w = .writing ofs →
    s.files.names .tmp = some ofs ∧ s.files.content ofs = []
  written : ∀ w, s.pc w = .renaming → s.files.read .tmp = some (record (d w))

theorem orderly_start {files : Directory FileName UInt8} (h : Whole (files.read .checkpoint)) :
    Orderly d (start d files) := by
  have hpc : ∀ w, (start d files).pc w = .skipped ∨ (start d files).pc w = .opening := by
    intro w
    show (if (d w).isEmpty then CallPc.skipped else .opening) = _ ∨ _
    split
    · exact Or.inl rfl
    · next he => exact Or.inr (if_neg he)
  refine ⟨h, fun w hw => ?_, (fun w hw => nomatch hw), fun w hw => ?_, fun w ofs hw => ?_,
    fun w hw => ?_⟩
  · rcases hpc w with hp | hp <;> cases hp.symm.trans hw
  · rcases hpc w with hp | hp <;> rw [hp] at hw <;> cases hw
  · rcases hpc w with hp | hp <;> cases hp.symm.trans hw
  · rcases hpc w with hp | hp <;> cases hp.symm.trans hw

section Steps

variable {w : Flusher}

theorem step_opening (h : s.pc w = .opening) : step d s w = { s with
    files := (s.files.openTruncate .tmp).1
    pc := Function.update s.pc w (.writing (s.files.openTruncate .tmp).2) } := by
  rw [step, h]

theorem step_writing {ofs : Nat} (h : s.pc w = .writing ofs) : step d s w = { s with
    files := s.files.write ofs (record (d w))
    pc := Function.update s.pc w .renaming } := by
  rw [step, h]

theorem step_renaming {files : Directory FileName UInt8} (h : s.pc w = .renaming)
    (hrename : s.files.rename .tmp .checkpoint = some files) : step d s w =
      { files := files, pc := Function.update s.pc w .succeeded, lastRenamed := some w } := by
  rw [step, h]
  dsimp only
  rw [hrename]

theorem step_renaming_none (h : s.pc w = .renaming)
    (hrename : s.files.rename .tmp .checkpoint = none) :
    step d s w = { s with pc := Function.update s.pc w .failed } := by
  rw [step, h]
  dsimp only
  rw [hrename]

theorem step_returned (h : (s.pc w).returned = true) : step d s w = s := by
  rw [step]
  split
  · next hpc => rw [hpc] at h; cases h
  · next hpc => rw [hpc] at h; cases h
  · next hpc => rw [hpc] at h; cases h
  · rfl
  · rfl
  · rfl

/-- The other call stays where it is. -/
theorem update_other (pc : Flusher → CallPc) (w : Flusher) (p : CallPc) :
    Function.update pc w p w.other = pc w.other :=
  Function.update_of_ne w.other_ne _ _

/-- A step of one call while the other is not under way. -/
theorem Orderly.update (h : Orderly d s) {files : Directory FileName UInt8} {p : CallPc}
    {last : Option Flusher} (halone : (s.pc w.other).underWay = false)
    (hwhole : Whole (files.read .checkpoint)) (hp : p ≠ .failed)
    (hlast : ∀ v, last = some v → files.read .checkpoint = some (record (d v)))
    (hwriting : ∀ ofs, p = .writing ofs → files.names .tmp = some ofs ∧ files.content ofs = [])
    (hwritten : p = .renaming → files.read .tmp = some (record (d w))) :
    Orderly d ⟨files, Function.update s.pc w p, last⟩ := by
  refine ⟨hwhole, fun v hv => ?_, hlast, fun v hv => ?_, fun v ofs hv => ?_, fun v hv => ?_⟩
  all_goals
    dsimp only at hv
    obtain rfl | rfl := v.eq_or_other w
  · rw [Function.update_self] at hv
    exact hp hv
  · rw [update_other] at hv
    exact h.succeed _ hv
  · dsimp only
    rw [update_other]
    exact halone
  · rw [update_other, halone] at hv
    cases hv
  · rw [Function.update_self] at hv
    exact hwriting ofs hv
  · rw [update_other] at hv
    rw [hv] at halone
    cases halone
  · rw [Function.update_self] at hv
    exact hwritten hv
  · rw [update_other] at hv
    rw [hv] at halone
    cases halone

/-- The temporary file is opened. -/
theorem Orderly.opening (h : Orderly d s) (hpc : s.pc w = .opening)
    (halone : (s.pc w.other).underWay = false) : Orderly d (step d s w) := by
  obtain ⟨hname, hempty, hother⟩ := Directory.openTruncate_spec s.files .tmp
  have hread : (s.files.openTruncate .tmp).1.read .checkpoint = s.files.read .checkpoint :=
    hother _ (by decide)
  rw [step_opening hpc]
  refine h.update halone (hread.symm ▸ h.whole) (by simp) (fun v hv => hread.trans (h.last v hv))
    (fun ofs hofs => ?_) fun hr => nomatch hr
  cases hofs
  exact ⟨hname, hempty⟩

/-- The record is written. -/
theorem Orderly.write (h : Orderly d s) {ofs : Nat} (hpc : s.pc w = .writing ofs) :
    Orderly d (step d s w) := by
  have halone := h.alone w (by rw [hpc]; rfl)
  obtain ⟨hname, hempty⟩ := h.writing w ofs hpc
  -- the handle is on the temporary file, not on the checkpoint file
  have hne : s.files.names .checkpoint ≠ some ofs := fun heq =>
    absurd (s.files.injective heq hname) (by decide)
  have hread : (s.files.write ofs (record (d w))).read .checkpoint = s.files.read .checkpoint :=
    Directory.read_setContent_of_ne hne
  rw [step_writing hpc]
  exact h.update halone (hread.symm ▸ h.whole) (by simp) (fun v hv => hread.trans (h.last v hv))
    (fun ofs' hofs => nomatch hofs) fun _ => Directory.read_write hname hempty

/-- The temporary file is renamed. -/
theorem Orderly.rename (h : Orderly d s) (hpc : s.pc w = .renaming) : Orderly d (step d s w) := by
  have halone := h.alone w (by rw [hpc]; rfl)
  have hwritten := h.written w hpc
  obtain ⟨ofs, hname, -⟩ := Option.map_eq_some_iff.mp hwritten
  obtain ⟨files, hrename, hread, -⟩ := Directory.rename_spec .checkpoint hname (by decide)
  have hrecord : files.read .checkpoint = some (record (d w)) := hread.trans hwritten
  rw [step_renaming hpc hrename]
  refine h.update halone (fun bytes hbytes => ⟨d w, ?_⟩) (by simp) (fun v hv => ?_)
    (fun ofs' hofs => nomatch hofs) fun hr => nomatch hr
  · exact Option.some.inj (hbytes.symm.trans hrecord)
  · obtain rfl := Option.some.inj hv
    exact hrecord

/-- **One step**: unless a call opens the temporary file while the other is under way, order is
kept. -/
theorem Orderly.step (h : Orderly d s) (w : Flusher)
    (hguard : s.pc w = .opening → (s.pc w.other).underWay = false) : Orderly d (step d s w) := by
  cases hpc : s.pc w with
  | opening => exact h.opening hpc (hguard hpc)
  | writing ofs => exact h.write hpc
  | «renaming» => exact h.rename hpc
  | skipped | succeeded | failed =>
      rw [step_returned (by rw [hpc]; rfl)]
      exact h

theorem orderly_run (h : Orderly d s) {schedule : List Flusher}
    (hno : NoOverlap d s schedule) : Orderly d (run d s schedule) := by
  induction schedule using List.reverseRecOn with
  | nil => exact h
  | append_singleton schedule w ih =>
      obtain ⟨hbefore, hlast⟩ := noOverlap_snoc.mp hno
      rw [run_snoc]
      exact (ih hbefore).step w hlast

end Steps

/-! ## Two calls under way -/

/-- One of the calls has failed or is going to: it is under way, and the other one is as well or has
renamed the file. -/
def Doomed (s : State) : Prop :=
  ∃ w, s.pc w = .failed ∨ (s.pc w).underWay = true ∧
    ((s.pc w.other).underWay = true ∨ s.pc w.other = .succeeded ∧ s.files.names .tmp = none)

section Doomed

variable {v w : Flusher}

theorem Flusher.other_other (w : Flusher) : w.other.other = w := by
  cases w <;> rfl

/-- A call does not move the other one. -/
theorem step_pc_of_ne (h : v ≠ w) : (step d s w).pc v = s.pc v := by
  cases hpc : s.pc w with
  | opening =>
      rw [step_opening hpc]
      exact Function.update_of_ne h _ _
  | writing ofs =>
      rw [step_writing hpc]
      exact Function.update_of_ne h _ _
  | «renaming» =>
      cases hrename : s.files.rename .tmp .checkpoint with
      | some files =>
          rw [step_renaming hpc hrename]
          exact Function.update_of_ne h _ _
      | none =>
          rw [step_renaming_none hpc hrename]
          exact Function.update_of_ne h _ _
  | skipped | succeeded | failed => rw [step_returned (by rw [hpc]; rfl)]

/-- A call that is under way stays so, or renames the file, or fails because there is none. -/
theorem step_underWay (d : Flusher → CheckpointData) (h : (s.pc w).underWay = true) :
    (((step d s w).pc w).underWay = true ∧
        (step d s w).files.names .tmp = s.files.names .tmp) ∨
      ((step d s w).pc w = .succeeded ∧ s.files.names .tmp ≠ none ∧
        (step d s w).files.names .tmp = none) ∨
      (step d s w).pc w = .failed := by
  cases hpc : s.pc w with
  | writing ofs =>
      rw [step_writing hpc]
      exact Or.inl ⟨by simp [CallPc.underWay], rfl⟩
  | «renaming» =>
      cases hname : s.files.names .tmp with
      | some i =>
          obtain ⟨files, hrename, -, hgone⟩ := Directory.rename_spec .checkpoint hname (by decide)
          rw [step_renaming hpc hrename]
          exact Or.inr (Or.inl ⟨Function.update_self _ _ _, by simp, hgone⟩)
      | none =>
          rw [step_renaming_none hpc (Directory.rename_none .checkpoint hname)]
          exact Or.inr (Or.inr (Function.update_self _ _ _))
  | opening | skipped | succeeded | failed =>
      rw [hpc] at h
      cases h

/-- Both calls are under way, and one of them makes a step. -/
theorem doomed_of_both (d : Flusher → CheckpointData) (h : (s.pc w).underWay = true)
    (hother : (s.pc w.other).underWay = true) : Doomed (step d s w) := by
  have hsame : (step d s w).pc w.other = s.pc w.other := step_pc_of_ne w.other_ne
  obtain ⟨hstill, -⟩ | ⟨hdone, -, hgone⟩ | hfailed := step_underWay d h
  · exact ⟨w, Or.inr ⟨hstill, Or.inl (hsame.symm ▸ hother)⟩⟩
  · refine ⟨w.other, Or.inr ⟨hsame.symm ▸ hother, Or.inr ⟨?_, hgone⟩⟩⟩
    rw [w.other_other]
    exact hdone
  · exact ⟨w, Or.inl hfailed⟩

/-- **One step**: what is doomed stays so. -/
theorem Doomed.step (h : Doomed s) (d : Flusher → CheckpointData) (v : Flusher) :
    Doomed (step d s v) := by
  obtain ⟨w, hfailed | ⟨hway, hother | ⟨hdone, hgone⟩⟩⟩ := h
  · obtain rfl | rfl := w.eq_or_other v
    · rw [step_returned (by rw [hfailed]; rfl)]
      exact ⟨w, Or.inl hfailed⟩
    · exact ⟨v.other, Or.inl ((step_pc_of_ne v.other_ne).trans hfailed)⟩
  · obtain rfl | rfl := v.eq_or_other w
    · exact doomed_of_both d hway hother
    · exact doomed_of_both d hother (by rwa [w.other_other])
  · obtain rfl | rfl := v.eq_or_other w
    · -- the file has been renamed by the other call
      obtain ⟨hstill, hname⟩ | ⟨-, hthere, -⟩ | hfailed := step_underWay d hway
      · have hsame : (TwoFlushers.step d s v).pc v.other = s.pc v.other := step_pc_of_ne v.other_ne
        exact ⟨v, Or.inr ⟨hstill, Or.inr ⟨hsame.trans hdone, hname.trans hgone⟩⟩⟩
      · exact absurd hgone hthere
      · exact ⟨v, Or.inl hfailed⟩
    · rw [step_returned (by rw [hdone]; rfl)]
      exact ⟨w, Or.inr ⟨hway, Or.inr ⟨hdone, hgone⟩⟩⟩

theorem Doomed.run (h : Doomed s) (d : Flusher → CheckpointData) (schedule : List Flusher) :
    Doomed (run d s schedule) := by
  induction schedule generalizing s with
  | nil => exact h
  | cons w schedule ih => exact ih (h.step d w)

/-- The temporary file is opened under the other call. -/
theorem doomed_of_overlap (d : Flusher → CheckpointData) (hpc : s.pc w = .opening)
    (hother : (s.pc w.other).underWay = true) : Doomed (step d s w) := by
  have hsame : (step d s w).pc w.other = s.pc w.other := step_pc_of_ne w.other_ne
  refine ⟨w, Or.inr ⟨?_, Or.inl (hsame.symm ▸ hother)⟩⟩
  rw [step_opening hpc]
  simp [CallPc.underWay]

/-- In the end a call has failed. -/
theorem Doomed.failed (h : Doomed s) (hdone : ∀ w, (s.pc w).returned = true) :
    ∃ w, s.pc w = .failed := by
  obtain ⟨w, hfailed | ⟨hway, -⟩⟩ := h
  · exact ⟨w, hfailed⟩
  · have hback := hdone w
    cases hpc : s.pc w with
    | failed => exact ⟨w, hpc⟩
    | writing | «renaming» | opening => rw [hpc] at hback; cases hback
    | skipped | succeeded => rw [hpc] at hway; cases hway

end Doomed

/-- **Two flushes are safe exactly if they do not overlap**: from a checkpoint file that is absent
or whole, both calls succeed, the file stays whole at every moment and holds in the end the record
of the call that renamed last, if and only if neither call opens the temporary file between the
other's open and rename. -/
theorem flushes_safe_iff (d : Flusher → CheckpointData) {files : Directory FileName UInt8}
    (hwhole : Whole (files.read .checkpoint)) {schedule : List Flusher}
    (hdone : ∀ w, ((run d (start d files) schedule).pc w).returned = true) :
    Safe d (start d files) schedule ↔ NoOverlap d (start d files) schedule := by
  constructor
  · rintro hsafe before w after rfl hpc
    rw [Bool.eq_false_iff]
    intro hother
    have hdoomed : Doomed (run d (start d files) (before ++ w :: after)) := by
      have hrun : run d (start d files) (before ++ w :: after)
          = run d (step d (run d (start d files) before) w) after := List.foldl_append
      rw [hrun]
      exact (doomed_of_overlap d hpc hother).run d after
    obtain ⟨v, hfailed⟩ := hdoomed.failed hdone
    exact hsafe.succeed v hfailed
  · intro hno
    have hend := orderly_run (orderly_start hwhole) hno
    refine ⟨?_, hend.succeed, hend.last⟩
    rintro before after rfl
    refine (orderly_run (orderly_start hwhole) ?_).whole
    rintro before' w after' rfl hpc
    exact hno before' w (after' ++ after) (by simp) hpc

/-- Two calls with a message between their snapshots, where there is no file yet. -/
def twoTuples : Flusher → CheckpointData
  | .forceFlush => ⟨1, 64, 1, 5⟩
  | .flushLoop => ⟨2, 128, 2, 6⟩

def noFiles : Directory FileName UInt8 := .empty FileName UInt8

/-- The background thread flushes before `forceFlush` is called. -/
theorem flushes_safe_iff_sequential :
    Safe twoTuples (start twoTuples noFiles)
      [.flushLoop, .flushLoop, .flushLoop, .forceFlush, .forceFlush, .forceFlush] := by
  have hwhole : Whole (noFiles.read .checkpoint) := fun bytes hbytes => by
    have hnone : (none : Option (List UInt8)) = some bytes := hbytes
    cases hnone
  refine (flushes_safe_iff twoTuples hwhole fun w => ?_).mpr ?_
  · cases w <;> rfl
  · have h₀ : NoOverlap twoTuples (start twoTuples noFiles) [] :=
      fun before w after hsplit => absurd hsplit (by simp)
    have h₁ := (@noOverlap_snoc twoTuples _ _ .flushLoop).mpr ⟨h₀, fun _ => rfl⟩
    have h₂ := (@noOverlap_snoc twoTuples _ _ .flushLoop).mpr ⟨h₁, fun _ => rfl⟩
    have h₃ := (@noOverlap_snoc twoTuples _ _ .flushLoop).mpr ⟨h₂, fun _ => rfl⟩
    have h₄ := (@noOverlap_snoc twoTuples _ _ .forceFlush).mpr ⟨h₃, fun _ => rfl⟩
    have h₅ := (@noOverlap_snoc twoTuples _ _ .forceFlush).mpr ⟨h₄, fun _ => rfl⟩
    exact (@noOverlap_snoc twoTuples _ _ .forceFlush).mpr ⟨h₅, fun _ => rfl⟩

/-- `forceFlush` has written its record, the background thread truncates the file, and `forceFlush`
renames it: the checkpoint file is empty. The rename of the background thread fails. -/
theorem empty_checkpoint_exposed :
    (run twoTuples (start twoTuples noFiles)
      [.forceFlush, .forceFlush, .flushLoop, .forceFlush]).files.read .checkpoint = some [] ∧
    (run twoTuples (start twoTuples noFiles) [.forceFlush, .forceFlush, .flushLoop, .forceFlush,
      .flushLoop, .flushLoop]).pc .flushLoop = .failed ∧
    ¬ Safe twoTuples (start twoTuples noFiles) [.forceFlush, .forceFlush, .flushLoop, .forceFlush,
      .flushLoop, .flushLoop] := by
  refine ⟨rfl, rfl, fun h => ?_⟩
  obtain ⟨d, hd⟩ := h.whole [.forceFlush, .forceFlush, .flushLoop, .forceFlush]
    [.flushLoop, .flushLoop] rfl [] rfl
  have hlen := length_record d
  rw [← hd] at hlen
  cases hlen

end AeronReplay.TwoFlushers
