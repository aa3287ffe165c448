import AeronReplay.Checkpoint.Record
import AeronReplay.Lib.Transition
import Mathlib.Data.Fintype.Basic
import Mathlib.Tactic.FinCases

set_option autoImplicit false

/-! # Updates and flushes, access by access

`CheckpointManager::update` stores four words one after the other and `flush` loads them one
after the other, in the same order, without a lock. `NoOvertaking` says that neither of the two
overtakes the other on the way; under this condition what `flush` writes is what one completed
`update` has stored (`flushed_of_noOvertaking`), without it the tuple can be a mixture
(`flushed_torn`). -/

namespace AeronReplay

/-! ## The four words -/

namespace CheckpointData

/-- The words in the order in which `update` stores and `flush` loads them. -/
def get (d : CheckpointData) : Fin 4 → Int64
  | 0 => d.last_sequence_number
  | 1 => d.last_position
  | 2 => d.message_count
  | 3 => d.timestamp_ns

def set (d : CheckpointData) (i : Fin 4) (x : Int64) : CheckpointData :=
  match i with
  | 0 => { d with last_sequence_number := x }
  | 1 => { d with last_position := x }
  | 2 => { d with message_count := x }
  | 3 => { d with timestamp_ns := x }

theorem get_set_self (d : CheckpointData) (i : Fin 4) (x : Int64) : (d.set i x).get i = x := by
  fin_cases i <;> rfl

theorem get_set_of_ne (d : CheckpointData) {i j : Fin 4} (h : j ≠ i) (x : Int64) :
    (d.set i x).get j = d.get j := by
  fin_cases i <;> fin_cases j <;> first | rfl | exact absurd rfl h

theorem ext_get {d d' : CheckpointData} (h : ∀ i, d.get i = d'.get i) : d = d' := by
  obtain ⟨a, b, c, e⟩ := d
  obtain ⟨a', b', c', e'⟩ := d'
  obtain rfl : a = a' := h 0
  obtain rfl : b = b' := h 1
  obtain rfl : c = c' := h 2
  obtain rfl : e = e' := h 3
  rfl

end CheckpointData

namespace CheckpointManager

open Transition

/-! ## The threads -/

/-- Where `update` is: the tuple it stores and how many words it has stored. The tuple includes
the value that the clock is going to return. -/
inductive UpdatePc where
  | idle
  | storing (args : CheckpointData) (stored : Nat)

/-- Where `flush` is: the words it has loaded and how many. -/
inductive FlushPc where
  | idle
  | loading (words : CheckpointData) (loaded : Nat)

structure Snapshot where
  data_ : CheckpointData
  updater : UpdatePc
  flusher : FlushPc
  /-- What this process has last brought into the checkpoint file. -/
  persisted : Option CheckpointData

inductive SnapshotEvent where
  /-- `update(args)` has stored word `i`. -/
  | store (args : CheckpointData) (i : Fin 4)
  /-- `flush` has loaded word `i`. -/
  | load (i : Fin 4)
  /-- `flush` writes the tuple. -/
  | flushed (words : CheckpointData)
  deriving DecidableEq

/-- One access of a thread that is in `update` or in `flush`. -/
inductive Access : Snapshot → List SnapshotEvent → Snapshot → Prop
  | store {s : Snapshot} {args : CheckpointData} {i : Fin 4}
      (hu : s.updater = .storing args i.val) :
      Access s [.store args i] { s with
        data_ := s.data_.set i (args.get i)
        updater := .storing args (i.val + 1) }
  | updated {s : Snapshot} {args : CheckpointData} (hu : s.updater = .storing args 4) :
      Access s [] { s with updater := .idle }
  | flush {s : Snapshot} (hf : s.flusher = .idle) :
      Access s [] { s with flusher := .loading .zero 0 }
  | load {s : Snapshot} {words : CheckpointData} {i : Fin 4}
      (hf : s.flusher = .loading words i.val) :
      Access s [.load i] { s with
        flusher := .loading (words.set i (s.data_.get i)) (i.val + 1) }
  | skip {s : Snapshot} {words : CheckpointData} (hf : s.flusher = .loading words 4)
      (he : words.isEmpty = true) :
      Access s [] { s with flusher := .idle }
  | persist {s : Snapshot} {words : CheckpointData} (hf : s.flusher = .loading words 4)
      (he : words.isEmpty = false) :
      Access s [.flushed words] { s with
        flusher := .idle
        persisted := some words }
  | fail {s : Snapshot} {words : CheckpointData} (hf : s.flusher = .loading words 4)
      (he : words.isEmpty = false) :
      Access s [.flushed words] { s with flusher := .idle }

/-- One step of the subscriber thread, which calls `update`, or of the flush thread. -/
inductive SnapshotStep : Snapshot → List SnapshotEvent → Snapshot → Prop
  | call {s : Snapshot} (args : CheckpointData) (hu : s.updater = .idle) :
      SnapshotStep s [] { s with updater := .storing args 0 }
  | access {s t : Snapshot} {e : List SnapshotEvent} (h : Access s e t) : SnapshotStep s e t

/-- Both threads, started on the tuple `d₀` that the constructor has loaded or left at zero. -/
def snapshots (d₀ : CheckpointData) : Lts Snapshot SnapshotEvent where
  Init s := s = ⟨d₀, .idle, .idle, none⟩
  Step := SnapshotStep

/-! ## Overtaking -/

/-- The tuples of the updates that have made their first store. -/
def started (es : List SnapshotEvent) : List CheckpointData :=
  es.filterMap fun
    | .store args i => if i = 0 then some args else none
    | _ => none

/-- The effect of an event on two counts: the updates that have begun, and those that had begun
when the current flush made its first load. -/
def tick (acc : Nat × Nat) : SnapshotEvent → Nat × Nat
  | .store _ i => if i = 0 then (acc.1 + 1, acc.2) else acc
  | .load i => if i = 0 then (acc.1, acc.1) else acc
  | .flushed _ => acc

/-- How many updates had begun when the current flush made its first load. -/
def seen (es : List SnapshotEvent) : Nat := (es.foldl tick (0, 0)).2

/-- How many words `update` has stored. -/
def UpdatePc.stored : UpdatePc → Nat
  | .idle => 0
  | .storing _ stored => stored

@[simp] theorem stored_storing (args : CheckpointData) (k : Nat) :
    (UpdatePc.storing args k).stored = k := rfl

/-- How many words `flush` has loaded. -/
def FlushPc.loaded : FlushPc → Nat
  | .idle => 0
  | .loading _ loaded => loaded

/-- **Neither thread overtakes the other.** An update that began after the current flush does
not store a word that the flush has not loaded yet, and a flush does not load a word that the
update it began in has not stored yet. -/
def NoOvertaking : Guard Snapshot SnapshotEvent := fun es s e _ =>
  (∀ args i, .store args i ∈ e → i ≠ 0 → seen es < (started es).length →
    0 < s.flusher.loaded → i.val < s.flusher.loaded) ∧
  (∀ i, .load i ∈ e → i ≠ 0 → seen es = (started es).length →
    0 < s.updater.stored → i.val < s.updater.stored)

/-! ## The history -/

theorem started_append (es fs : List SnapshotEvent) :
    started (es ++ fs) = started es ++ started fs := List.filterMap_append

theorem tick_fst (es : List SnapshotEvent) : (es.foldl tick (0, 0)).1 = (started es).length := by
  induction es using List.reverseRecOn with
  | nil => rfl
  | append_singleton es e ih =>
      rw [List.foldl_append, started_append, List.length_append, ← ih]
      cases e with
      | store args i => by_cases hi : i = 0 <;> simp [tick, started, hi]
      | load i => by_cases hi : i = 0 <;> simp [tick, started, hi]
      | flushed words => rfl

theorem seen_append_store (es : List SnapshotEvent) (args : CheckpointData) (i : Fin 4) :
    seen (es ++ [.store args i]) = seen es := by
  rw [seen, List.foldl_append]
  by_cases hi : i = 0 <;> simp [tick, seen, hi]

theorem seen_append_load (es : List SnapshotEvent) (i : Fin 4) :
    seen (es ++ [.load i]) = if i = 0 then (started es).length else seen es := by
  rw [seen, List.foldl_append, ← tick_fst]
  by_cases hi : i = 0 <;> simp [tick, seen, hi]

/-- The tuple of update number `k`; number `0` is the one the process has started on. -/
def tuple (d₀ : CheckpointData) (es : List SnapshotEvent) (k : Nat) : CheckpointData :=
  (d₀ :: started es)[k]?.getD d₀

theorem tuple_append (d₀ : CheckpointData) (es fs : List SnapshotEvent) {k : Nat}
    (h : k ≤ (started es).length) : tuple d₀ (es ++ fs) k = tuple d₀ es k := by
  have hlt : k < (d₀ :: started es).length := Nat.lt_succ_of_le h
  rw [tuple, tuple, started_append, ← List.cons_append, List.getElem?_append_left hlt]

theorem tuple_store_first (d₀ : CheckpointData) (es : List SnapshotEvent)
    (args : CheckpointData) :
    tuple d₀ (es ++ [.store args 0]) ((started es).length + 1) = args := by
  rw [tuple, started_append]
  show (started es ++ [args])[(started es).length]?.getD d₀ = args
  rw [List.getElem?_append_right (Nat.le_refl _), Nat.sub_self]
  rfl

/-- The tuple was there at the start or has been stored completely. -/
def Stored (d₀ : CheckpointData) (es : List SnapshotEvent) (d : CheckpointData) : Prop :=
  d = d₀ ∨ .store d 3 ∈ es

theorem Stored.append {d₀ d : CheckpointData} {es : List SnapshotEvent} (h : Stored d₀ es d)
    (fs : List SnapshotEvent) : Stored d₀ (es ++ fs) d :=
  h.imp_right fun hmem => List.mem_append_left fs hmem

/-! ## The invariant -/

/-- With `n` updates begun: which tuple each word in memory belongs to, which tuples have been
stored completely, and which tuple a flush in progress is loading. -/
structure SnapshotInv (d₀ : CheckpointData) (es : List SnapshotEvent) (s : Snapshot) : Prop where
  stored : ∀ i, s.updater.stored = 0 ∨ i.val < s.updater.stored →
    s.data_.get i = (tuple d₀ es (started es).length).get i
  unstored : ∀ i, 0 < s.updater.stored → s.updater.stored ≤ i.val →
    s.data_.get i = (tuple d₀ es ((started es).length - 1)).get i
  args : ∀ args stored, s.updater = .storing args stored → 0 < stored →
    stored ≤ 4 ∧ 0 < (started es).length ∧ args = tuple d₀ es (started es).length
  before : ∀ k < (started es).length, Stored d₀ es (tuple d₀ es k)
  current : s.updater.stored = 0 ∨ s.updater.stored = 4 →
    Stored d₀ es (tuple d₀ es (started es).length)
  loading : ∀ words loaded, s.flusher = .loading words loaded → 0 < loaded → loaded < 4 →
    (∀ i, i.val < loaded → words.get i = (tuple d₀ es (seen es)).get i) ∧
    (seen es = (started es).length ∨ seen es + 1 = (started es).length ∧
      0 < s.updater.stored ∧ s.updater.stored ≤ loaded)
  loaded : ∀ words, s.flusher = .loading words 4 → Stored d₀ es words

variable {d₀ : CheckpointData} {es : List SnapshotEvent} {s : Snapshot}

theorem SnapshotInv.init (d₀ : CheckpointData) : SnapshotInv d₀ [] ⟨d₀, .idle, .idle, none⟩ where
  stored _ _ := rfl
  unstored _ h := absurd h (Nat.lt_irrefl 0)
  args _ _ h := by cases h
  before k hk := absurd hk (Nat.not_lt_zero k)
  current _ := Or.inl rfl
  loading _ _ h := by cases h
  loaded _ h := by cases h

/-- The first store of an update. -/
theorem SnapshotInv.store_first (h : SnapshotInv d₀ es s) {args : CheckpointData}
    (hu : s.updater = .storing args 0) :
    SnapshotInv d₀ (es ++ [.store args 0]) { s with
      data_ := s.data_.set 0 (args.get 0)
      updater := .storing args 1 } := by
  have hidle : s.updater.stored = 0 := by rw [hu]; rfl
  have hlen : (started (es ++ [.store args 0])).length = (started es).length + 1 := by
    rw [started_append, List.length_append]
    rfl
  have hold : ∀ k ≤ (started es).length, tuple d₀ (es ++ [.store args 0]) k = tuple d₀ es k :=
    fun k => tuple_append d₀ es _
  refine ⟨?_, ?_, ?_, ?_, ?_, ?_, fun words hf => (h.loaded words hf).append _⟩
  · intro i hi
    rw [stored_storing] at hi
    obtain rfl : i = 0 := Fin.ext (by omega)
    rw [hlen, tuple_store_first]
    exact s.data_.get_set_self 0 (args.get 0)
  · intro i _ hi
    rw [stored_storing] at hi
    have hne : i ≠ 0 := by
      rintro rfl
      cases hi
    rw [hlen, Nat.add_sub_cancel, hold _ (Nat.le_refl _), ← h.stored i (Or.inl hidle)]
    exact CheckpointData.get_set_of_ne _ hne _
  · intro args' stored hu' _
    cases hu'
    rw [hlen, tuple_store_first]
    exact ⟨by omega, Nat.succ_pos _, rfl⟩
  · intro k hk
    rw [hlen] at hk
    rw [hold k (by omega)]
    -- the update before this one has made all its stores
    rcases Nat.lt_succ_iff_lt_or_eq.mp hk with hlt | rfl
    · exact (h.before k hlt).append _
    · exact (h.current (Or.inl hidle)).append _
  · rintro (hzero | hfour)
    · cases hzero
    · cases hfour
  · intro words loaded hf hpos hlt
    -- a flush under way has begun in the update before
    obtain ⟨hwords, hseen | ⟨-, hstored, -⟩⟩ := h.loading words loaded hf hpos hlt
    · rw [seen_append_store, hlen, hseen, hold _ (Nat.le_refl _)]
      exact ⟨hseen ▸ hwords, Or.inr ⟨rfl, Nat.one_pos, hpos⟩⟩
    · omega

/-- A later store of an update, which does not overtake a flush. -/
theorem SnapshotInv.store_next (h : SnapshotInv d₀ es s) {args : CheckpointData} {i : Fin 4}
    (hu : s.updater = .storing args i.val) (hi : i ≠ 0)
    (horder : seen es < (started es).length → 0 < s.flusher.loaded → i.val < s.flusher.loaded) :
    SnapshotInv d₀ (es ++ [.store args i]) { s with
      data_ := s.data_.set i (args.get i)
      updater := .storing args (i.val + 1) } := by
  have hpos : 0 < i.val := Nat.pos_of_ne_zero (Fin.val_ne_of_ne hi)
  obtain ⟨-, hn, hargs⟩ := h.args args i.val hu hpos
  have hstart : started (es ++ [.store args i]) = started es := by
    rw [started_append]
    simp [started, hi]
  have hold : ∀ k ≤ (started es).length, tuple d₀ (es ++ [.store args i]) k = tuple d₀ es k :=
    fun k => tuple_append d₀ es _
  have hstored : s.updater.stored = i.val := by rw [hu]; rfl
  refine ⟨?_, ?_, ?_, ?_, ?_, ?_, fun words hf => (h.loaded words hf).append _⟩
  · intro j hlt
    rw [stored_storing] at hlt
    rw [hstart, hold _ (Nat.le_refl _)]
    by_cases hj : j = i
    · rw [hj, ← hargs]
      exact CheckpointData.get_set_self _ _ _
    · have hval := Fin.val_ne_of_ne hj
      rw [← h.stored j (Or.inr (by omega))]
      exact CheckpointData.get_set_of_ne _ hj _
  · intro j _ hle
    rw [stored_storing] at hle
    have hj : j ≠ i := fun heq => by
      have := congrArg Fin.val heq
      omega
    rw [hstart, hold _ (Nat.sub_le _ _), ← h.unstored j (by omega) (by omega)]
    exact CheckpointData.get_set_of_ne _ hj _
  · intro args' stored hu' _
    cases hu'
    rw [hstart, hold _ (Nat.le_refl _)]
    exact ⟨i.isLt, hn, hargs⟩
  · intro k hk
    rw [hstart] at hk
    rw [hold k (Nat.le_of_lt hk)]
    exact (h.before k hk).append _
  · rintro (hzero | hfour)
    · cases hzero
    · -- the fourth store completes the update
      have hthree : i = 3 := Fin.ext (Nat.succ.inj hfour)
      rw [hstart, hold _ (Nat.le_refl _), ← hargs, hthree]
      exact Or.inr (List.mem_append_right _ (List.mem_singleton_self _))
  · intro words loaded hf hpos' hlt
    have hflush : s.flusher.loaded = loaded := by rw [show s.flusher = _ from hf]; rfl
    obtain ⟨hwords, hseen⟩ := h.loading words loaded hf hpos' hlt
    have hle : seen es ≤ (started es).length := by omega
    rw [seen_append_store, hstart, hold _ hle]
    refine ⟨hwords, hseen.imp_right fun ⟨heq, _, _⟩ => ⟨heq, Nat.succ_pos _, ?_⟩⟩
    rw [← hflush]
    exact horder (by omega) (by omega)

/-- A call of `update`, and its return. -/
theorem SnapshotInv.updater (h : SnapshotInv d₀ es s) {pc : UpdatePc}
    (hpc : ∀ args stored, pc = .storing args stored → stored = 0) (hnew : pc.stored = 0)
    (hu : s.updater.stored = 0 ∨ s.updater.stored = 4) :
    SnapshotInv d₀ es { s with updater := pc } := by
  refine ⟨?_, ?_, ?_, h.before, fun _ => h.current hu, ?_, h.loaded⟩
  · intro i _
    have := i.isLt
    exact h.stored i (by omega)
  · intro i hpos
    exact absurd hnew (Nat.ne_of_gt hpos)
  · intro args stored hstoring hpos
    exact absurd hpos (by rw [hpc args stored hstoring]; exact Nat.lt_irrefl 0)
  · intro words loaded hf hpos hlt
    obtain ⟨hwords, hseen⟩ := h.loading words loaded hf hpos hlt
    exact ⟨hwords, Or.inl (by omega)⟩

/-- The first load of a flush. -/
theorem SnapshotInv.load_first (h : SnapshotInv d₀ es s) (words : CheckpointData) :
    SnapshotInv d₀ (es ++ [.load 0]) { s with
      flusher := .loading (words.set 0 (s.data_.get 0)) 1 } := by
  have hstart : started (es ++ [.load 0]) = started es := by
    rw [started_append]
    exact List.append_nil _
  have hold : ∀ k ≤ (started es).length, tuple d₀ (es ++ [.load 0]) k = tuple d₀ es k :=
    fun k => tuple_append d₀ es _
  have hseen : seen (es ++ [.load 0]) = (started es).length := by
    rw [seen_append_load, if_pos rfl]
  refine ⟨?_, ?_, ?_, ?_, ?_, ?_, ?_⟩
  · intro i hi
    rw [hstart, hold _ (Nat.le_refl _)]
    exact h.stored i hi
  · intro i hpos hi
    rw [hstart, hold _ (Nat.sub_le _ _)]
    exact h.unstored i hpos hi
  · intro args stored hu hpos
    rw [hstart, hold _ (Nat.le_refl _)]
    exact h.args args stored hu hpos
  · intro k hk
    rw [hstart] at hk
    rw [hold k (Nat.le_of_lt hk)]
    exact (h.before k hk).append _
  · intro hu
    rw [hstart, hold _ (Nat.le_refl _)]
    exact (h.current hu).append _
  · intro words' loaded hf _ _
    cases hf
    rw [hseen, hstart, hold _ (Nat.le_refl _)]
    -- from here on the flush is about the latest update
    refine ⟨fun i hi => ?_, Or.inl rfl⟩
    obtain rfl : i = 0 := Fin.ext (by omega)
    rw [CheckpointData.get_set_self]
    exact h.stored 0 (Nat.eq_zero_or_pos _)
  · intro words' hf
    cases hf

/-- The word that the next load returns, when the flush does not overtake the update it began
in. -/
theorem SnapshotInv.next_word (h : SnapshotInv d₀ es s) {words : CheckpointData} {i : Fin 4}
    (hf : s.flusher = .loading words i.val) (hi : i ≠ 0)
    (horder : seen es = (started es).length → 0 < s.updater.stored →
      i.val < s.updater.stored) :
    s.data_.get i = (tuple d₀ es (seen es)).get i := by
  have hpos : 0 < i.val := Nat.pos_of_ne_zero (Fin.val_ne_of_ne hi)
  obtain ⟨-, hseen | ⟨hseen, hstored, hle⟩⟩ := h.loading words i.val hf hpos i.isLt
  · rw [hseen]
    exact h.stored i ((Nat.eq_zero_or_pos _).imp_right (horder hseen))
  · -- the next update has not got to this word
    rw [h.unstored i hstored hle, ← hseen, Nat.add_sub_cancel]

/-- A later load of a flush, which does not overtake the update it began in. -/
theorem SnapshotInv.load_next (h : SnapshotInv d₀ es s) {words : CheckpointData} {i : Fin 4}
    (hf : s.flusher = .loading words i.val) (hi : i ≠ 0)
    (horder : seen es = (started es).length → 0 < s.updater.stored →
      i.val < s.updater.stored) :
    SnapshotInv d₀ (es ++ [.load i]) { s with
      flusher := .loading (words.set i (s.data_.get i)) (i.val + 1) } := by
  have hpos : 0 < i.val := Nat.pos_of_ne_zero (Fin.val_ne_of_ne hi)
  have hstart : started (es ++ [.load i]) = started es := by
    rw [started_append]
    exact List.append_nil _
  have hold : ∀ k ≤ (started es).length, tuple d₀ (es ++ [.load i]) k = tuple d₀ es k :=
    fun k => tuple_append d₀ es _
  have hseen : seen (es ++ [.load i]) = seen es := by
    rw [seen_append_load, if_neg hi]
  obtain ⟨hwords, hcase⟩ := h.loading words i.val hf hpos i.isLt
  have hnext : ∀ j : Fin 4, j.val < i.val + 1 →
      (words.set i (s.data_.get i)).get j = (tuple d₀ es (seen es)).get j := by
    intro j hj
    by_cases heq : j = i
    · rw [heq, CheckpointData.get_set_self, h.next_word hf hi horder]
    · have hne := Fin.val_ne_of_ne heq
      rw [CheckpointData.get_set_of_ne _ heq, hwords j (by omega)]
  refine ⟨?_, ?_, ?_, ?_, ?_, ?_, ?_⟩
  · intro j hj
    rw [hstart, hold _ (Nat.le_refl _)]
    exact h.stored j hj
  · intro j hpos' hj
    rw [hstart, hold _ (Nat.sub_le _ _)]
    exact h.unstored j hpos' hj
  · intro args stored hu hpos'
    rw [hstart, hold _ (Nat.le_refl _)]
    exact h.args args stored hu hpos'
  · intro k hk
    rw [hstart] at hk
    rw [hold k (Nat.le_of_lt hk)]
    exact (h.before k hk).append _
  · intro hu
    rw [hstart, hold _ (Nat.le_refl _)]
    exact (h.current hu).append _
  · intro words' loaded hf' _ _
    cases hf'
    rw [hseen, hstart, hold _ (by omega)]
    exact ⟨hnext, hcase.imp_right fun ⟨heq, hstored, hle⟩ => ⟨heq, hstored, Nat.le_succ_of_le hle⟩⟩
  · intro words' hf'
    obtain ⟨rfl, hthree⟩ : words.set i (s.data_.get i) = words' ∧ i.val + 1 = 4 := by
      simpa using hf'
    have htuple : words.set i (s.data_.get i) = tuple d₀ es (seen es) :=
      CheckpointData.ext_get fun j => hnext j (by have := j.isLt; omega)
    rw [htuple]
    refine Stored.append ?_ _
    -- the last load completes the tuple of the update the flush began in
    rcases hcase with hlast | ⟨hlast, -, -⟩
    · have hdone : s.updater.stored = 0 ∨ s.updater.stored = 4 := by
        cases hu : s.updater with
        | idle => exact Or.inl rfl
        | storing args stored =>
            rw [hu] at horder
            by_cases hzero : stored = 0
            · exact Or.inl hzero
            · have hlt := horder hlast (Nat.pos_of_ne_zero hzero)
              have hle := (h.args args stored hu (Nat.pos_of_ne_zero hzero)).1
              rw [stored_storing] at hlt ⊢
              omega
      rw [hlast]
      exact h.current hdone
    · exact h.before _ (by omega)

/-- What happens after the last load keeps the invariant. -/
theorem SnapshotInv.flusher (h : SnapshotInv d₀ es s) {fs : List SnapshotEvent}
    (hfs : ∀ e ∈ fs, ∃ words, e = .flushed words) {pc : FlushPc} (hpc : pc.loaded = 0)
    (persisted : Option CheckpointData) :
    SnapshotInv d₀ (es ++ fs) { s with
      flusher := pc
      persisted := persisted } := by
  have hstart : started (es ++ fs) = started es := by
    have hnone : started fs = [] := by
      refine List.filterMap_eq_nil_iff.mpr fun e he => ?_
      obtain ⟨words, rfl⟩ := hfs e he
      rfl
    rw [started_append, hnone, List.append_nil]
  have hold : ∀ k, tuple d₀ (es ++ fs) k = tuple d₀ es k := by
    intro k
    rw [tuple, tuple, hstart]
  refine ⟨?_, ?_, ?_, ?_, ?_, ?_, ?_⟩
  · intro i hi
    rw [hstart, hold]
    exact h.stored i hi
  · intro i hpos hi
    rw [hstart, hold]
    exact h.unstored i hpos hi
  · intro args stored hu hpos
    rw [hstart, hold]
    exact h.args args stored hu hpos
  · intro k hk
    rw [hstart] at hk
    rw [hold]
    exact (h.before k hk).append fs
  · intro hu
    rw [hstart, hold]
    exact (h.current hu).append fs
  · intro words loaded hf hpos _
    obtain rfl : pc = _ := hf
    exact absurd hpc (Nat.ne_of_gt hpos)
  · intro words hf
    obtain rfl : pc = _ := hf
    cases hpc

theorem snapshotInv_access (h : SnapshotInv d₀ es s) {e : List SnapshotEvent} {t : Snapshot}
    (hstep : Access s e t) (horder : NoOvertaking es s e t) : SnapshotInv d₀ (es ++ e) t := by
  cases hstep with
  | @store args i hu =>
      by_cases hi : i = 0
      · subst hi
        exact h.store_first hu
      · exact h.store_next hu hi (horder.1 args i (List.mem_singleton_self _) hi)
  | updated hu =>
      rw [List.append_nil]
      exact h.updater (fun _ _ hpc => by cases hpc) rfl (Or.inr (by rw [hu]; rfl))
  | flush hf =>
      exact h.flusher (fun _ he => absurd he List.not_mem_nil) rfl s.persisted
  | @load words i hf =>
      by_cases hi : i = 0
      · subst hi
        exact h.load_first words
      · exact h.load_next hf hi (horder.2 i (List.mem_singleton_self _) hi)
  | skip hf he => exact h.flusher (fun _ he => absurd he List.not_mem_nil) rfl s.persisted
  | persist hf he =>
      exact h.flusher (fun e hmem => ⟨_, List.mem_singleton.mp hmem⟩) rfl _
  | fail hf he =>
      exact h.flusher (fun e hmem => ⟨_, List.mem_singleton.mp hmem⟩) rfl s.persisted

theorem snapshotInv_run (r : RunWhere (snapshots d₀) NoOvertaking es s) :
    SnapshotInv d₀ es s := by
  refine RunWhere.invariant (I := SnapshotInv d₀) ?_ ?_ r
  · rintro s rfl
    exact .init d₀
  · intro es s e t h hstep horder
    cases hstep with
    | call args hu =>
        rw [List.append_nil]
        exact h.updater (fun _ _ hpc => by cases hpc; rfl) rfl (Or.inl (by rw [hu]; rfl))
    | access hstep => exact snapshotInv_access h hstep horder

/-! ## What `flush` writes -/

theorem flushed_loaded {s t : Snapshot} {words : CheckpointData}
    (h : SnapshotStep s [.flushed words] t) : s.flusher = .loading words 4 := by
  cases h with
  | access h =>
      cases h with
      | persist hf he => exact hf
      | fail hf he => exact hf

/-- **As long as neither thread overtakes the other, every tuple that `flush` writes is the
tuple of one update that has made all its stores**, or the one the process has started on. -/
theorem flushed_of_noOvertaking (r : RunWhere (snapshots d₀) NoOvertaking es s)
    {words : CheckpointData} {t : Snapshot} (h : SnapshotStep s [.flushed words] t) :
    words = d₀ ∨ .store words 3 ∈ es :=
  (snapshotInv_run r).loaded words (flushed_loaded h)

/-- Where the other thread is not under way, there is nothing to overtake. -/
theorem noOvertaking_alone {e : List SnapshotEvent} {t : Snapshot}
    (hstore : s.flusher.loaded = 0 ∨ ∀ args i, .store args i ∉ e)
    (hload : s.updater.stored = 0 ∨ ∀ i, .load i ∉ e) : NoOvertaking es s e t := by
  constructor
  · intro args i hmem _ _ hpos
    rcases hstore with hzero | hnone
    · omega
    · exact absurd hmem (hnone args i)
  · intro i hmem _ _ hpos
    rcases hload with hzero | hnone
    · omega
    · exact absurd hmem (hnone i)

/-- An update, and a flush after it. -/
theorem flushed_of_noOvertaking_sequential :
    ∃ es s t, RunWhere (snapshots .zero) NoOvertaking es s ∧
      SnapshotStep s [.flushed ⟨1, 100, 1, 5⟩] t ∧
      ((⟨1, 100, 1, 5⟩ : CheckpointData) = .zero ∨ .store ⟨1, 100, 1, 5⟩ 3 ∈ es) := by
  have r₀ : RunWhere (snapshots .zero) NoOvertaking [] _ := .init rfl
  have r₁ := r₀.step (.call ⟨1, 100, 1, 5⟩ rfl) (noOvertaking_alone (.inl rfl) (.inl rfl))
  have r₂ := r₁.step (.access (@Access.store _ _ 0 rfl))
    (noOvertaking_alone (.inl rfl) (.inr (by simp)))
  have r₃ := r₂.step (.access (@Access.store _ _ 1 rfl))
    (noOvertaking_alone (.inl rfl) (.inr (by simp)))
  have r₄ := r₃.step (.access (@Access.store _ _ 2 rfl))
    (noOvertaking_alone (.inl rfl) (.inr (by simp)))
  have r₅ := r₄.step (.access (@Access.store _ _ 3 rfl))
    (noOvertaking_alone (.inl rfl) (.inr (by simp)))
  have r₆ := r₅.step (.access (.updated rfl)) (noOvertaking_alone (.inl rfl) (.inr (by simp)))
  have r₇ := r₆.step (.access (.flush rfl)) (noOvertaking_alone (.inl rfl) (.inl rfl))
  have r₈ := r₇.step (.access (@Access.load _ _ 0 rfl))
    (noOvertaking_alone (.inl rfl) (.inl rfl))
  have r₉ := r₈.step (.access (@Access.load _ _ 1 rfl))
    (noOvertaking_alone (.inr (by simp)) (.inl rfl))
  have r₁₀ := r₉.step (.access (@Access.load _ _ 2 rfl))
    (noOvertaking_alone (.inr (by simp)) (.inl rfl))
  have r₁₁ := r₁₀.step (.access (@Access.load _ _ 3 rfl))
    (noOvertaking_alone (.inr (by simp)) (.inl rfl))
  have hstep : ∀ s : Snapshot, s.flusher = .loading ⟨1, 100, 1, 5⟩ 4 →
      SnapshotStep s [.flushed ⟨1, 100, 1, 5⟩] { s with flusher := .idle } :=
    fun s hf => .access (.fail hf rfl)
  exact ⟨_, _, _, r₁₁, hstep _ rfl, flushed_of_noOvertaking r₁₁ (hstep _ rfl)⟩

/-- A flush that runs between the first and the second store of an update writes a tuple that
no update has stored. -/
theorem flushed_torn : ∃ es s t, Run (snapshots .zero) es s ∧
    SnapshotStep s [.flushed ⟨1, 0, 0, 0⟩] t ∧
    ¬ ((⟨1, 0, 0, 0⟩ : CheckpointData) = .zero ∨ .store ⟨1, 0, 0, 0⟩ 3 ∈ es) := by
  have r₀ : Run (snapshots .zero) [] _ := .init rfl
  have r₁ := r₀.step (.call ⟨1, 100, 1, 5⟩ rfl)
  have r₂ := r₁.step (.access (@Access.store _ _ 0 rfl))
  -- the first word is new, the other three are not
  have r₃ := r₂.step (.access (.flush rfl))
  have r₄ := r₃.step (.access (@Access.load _ _ 0 rfl))
  have r₅ := r₄.step (.access (@Access.load _ _ 1 rfl))
  have r₆ := r₅.step (.access (@Access.load _ _ 2 rfl))
  have r₇ := r₆.step (.access (@Access.load _ _ 3 rfl))
  exact ⟨_, _, _, r₇, .access (.persist rfl rfl), by decide⟩

end CheckpointManager

end AeronReplay
