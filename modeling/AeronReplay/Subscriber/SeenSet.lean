import AeronReplay.Subscriber.Pipeline

set_option autoImplicit false

/-! # The worker's loop and its set of seen sequence numbers

The loop of `MessageWorker::workerThreadMain` on the buffers it dequeues, one after the other:
steps 3 to 8 of an iteration (`MessageWorker.cpp`). An iteration that finds the queue empty
changes none of this.

The set is emptied when a new number makes it larger than `seenLimit`, and that number goes with
the others. `dedup_survives_iff` says which runs of the loop do not notice. -/

namespace AeronReplay.MessageWorker

/-! ## The loop -/

/-- What the loop carries from one message to the next. -/
structure Loop where
  seen_sequences_ : Finset UInt64
  messages_processed_ : UInt64
  messages_invalid_ : UInt64
  messages_duplicate_ : UInt64
  /-- Not in the program: the messages passed to `processMessage`, the first one first. -/
  processed : List MessageBuffer

namespace Loop

/-- The state in which the worker thread is started. -/
def start : Loop := ⟨∅, 0, 0, 0, []⟩

/-- Steps 3 to 8 for one dequeued buffer. -/
def handle (l : Loop) (msg_buf : MessageBuffer) : Loop :=
  if !validateMessage (some msg_buf) then
    { l with messages_invalid_ := l.messages_invalid_ + 1 }
  else
    let (duplicate, seen_sequences_) := checkDuplicate l.seen_sequences_ msg_buf
    if duplicate then { l with
      seen_sequences_ := seen_sequences_
      messages_duplicate_ := l.messages_duplicate_ + 1 }
    else { l with
      seen_sequences_ := seen_sequences_
      processed := l.processed ++ [msg_buf]
      messages_processed_ := l.messages_processed_ + 1 }

def run (l : Loop) (bufs : List MessageBuffer) : Loop := bufs.foldl handle l

/-- The numbers that the loop accepts out of these messages. -/
def acceptedNumbers (l : Loop) : List MessageBuffer → Finset UInt64
  | [] => ∅
  | buf :: bufs =>
      if (checkDuplicate l.seen_sequences_ buf).1 then (l.handle buf).acceptedNumbers bufs
      else insert buf.header.sequence_number ((l.handle buf).acceptedNumbers bufs)

/-- The number of this message is new and the set is full, so that the check empties it. -/
def Clears (l : Loop) (buf : MessageBuffer) : Prop :=
  buf.header.sequence_number ∉ l.seen_sequences_ ∧ seenLimit ≤ l.seen_sequences_.card

end Loop

/-- The loop on the messages that a started worker dequeues. -/
def workerThreadMain (bufs : List MessageBuffer) : Loop := Loop.start.run bufs

theorem workerThreadMain_snoc (bufs : List MessageBuffer) (buf : MessageBuffer) :
    workerThreadMain (bufs ++ [buf]) = (workerThreadMain bufs).handle buf :=
  List.foldl_append

/-! ## One iteration -/

namespace Loop

variable (l : Loop) (buf : MessageBuffer)

/-- No message is invalid, so that every check counts. -/
theorem handle_seen :
    (l.handle buf).seen_sequences_
      = (checkSequence l.seen_sequences_ buf.header.sequence_number).2 := by
  unfold handle validateMessage
  simp only [Bool.not_true, Bool.false_eq_true, if_false]
  split <;> rfl

theorem handle_processed :
    (l.handle buf).processed
      = if (checkDuplicate l.seen_sequences_ buf).1 then l.processed
        else l.processed ++ [buf] := by
  unfold handle validateMessage
  simp only [Bool.not_true, Bool.false_eq_true, if_false]
  split <;> rfl

theorem checkDuplicate_iff :
    (checkDuplicate l.seen_sequences_ buf).1 = true ↔
      buf.header.sequence_number ∈ l.seen_sequences_ :=
  checkSequence_duplicate _ _

/-- A check that does not empty the set adds the number. -/
theorem mem_handle_seen {l : Loop} {buf : MessageBuffer} (h : ¬ l.Clears buf) {seq : UInt64} :
    seq ∈ (l.handle buf).seen_sequences_ ↔
      seq = buf.header.sequence_number ∨ seq ∈ l.seen_sequences_ := by
  rw [handle_seen]
  unfold checkSequence
  -- a known number changes nothing, a new one is inserted where there is room
  by_cases hold : buf.header.sequence_number ∈ l.seen_sequences_
  · rw [if_pos hold]
    constructor
    · exact Or.inr
    · rintro (rfl | hmem)
      · exact hold
      · exact hmem
  · have hroom : ¬ seenLimit < (insert buf.header.sequence_number l.seen_sequences_).card := by
      intro hfull
      rw [Finset.card_insert_of_notMem hold] at hfull
      exact h ⟨hold, Nat.lt_succ_iff.mp hfull⟩
    rw [if_neg hold]
    dsimp only
    rw [if_neg hroom, Finset.mem_insert]

theorem handle_seen_of_clears {l : Loop} {buf : MessageBuffer} (h : l.Clears buf) :
    (l.handle buf).seen_sequences_ = ∅ := by
  have hfull : seenLimit < (insert buf.header.sequence_number l.seen_sequences_).card := by
    rw [Finset.card_insert_of_notMem h.1]
    exact Nat.lt_succ_of_le h.2
  rw [handle_seen]
  unfold checkSequence
  rw [if_neg h.1]
  dsimp only
  rw [if_pos hfull]

theorem card_handle_seen {l : Loop} (h : l.seen_sequences_.card ≤ seenLimit)
    (buf : MessageBuffer) : (l.handle buf).seen_sequences_.card ≤ seenLimit := by
  rw [handle_seen]
  unfold checkSequence
  split
  · exact h
  · dsimp only
    split
    · exact Nat.zero_le _
    · rename_i hroom
      exact Nat.le_of_not_lt hroom

/-! ## Runs of the loop -/

theorem run_append (bufs bufs' : List MessageBuffer) :
    l.run (bufs ++ bufs') = (l.run bufs).run bufs' :=
  List.foldl_append

theorem acceptedNumbers_append (bufs bufs' : List MessageBuffer) :
    l.acceptedNumbers (bufs ++ bufs')
      = l.acceptedNumbers bufs ∪ (l.run bufs).acceptedNumbers bufs' := by
  induction bufs generalizing l with
  | nil => exact (Finset.empty_union _).symm
  | cons buf bufs ih =>
      rw [List.cons_append, acceptedNumbers, acceptedNumbers, ih]
      split
      · rfl
      · rw [Finset.insert_union]
        rfl

/-- While nothing empties the set, no number is forgotten. -/
theorem mem_run_seen {l : Loop} {bufs : List MessageBuffer}
    (h : ∀ xs w ys, bufs = xs ++ w :: ys → ¬ (l.run xs).Clears w) {seq : UInt64}
    (hseq : seq ∈ l.seen_sequences_) : seq ∈ (l.run bufs).seen_sequences_ := by
  induction bufs using List.reverseRecOn with
  | nil => exact hseq
  | append_singleton bufs buf ih =>
      have hprefix := ih fun xs w ys hsplit => h xs w (ys ++ [buf]) (by rw [hsplit]; simp)
      rw [run_append]
      exact (mem_handle_seen (h bufs buf [] rfl)).mpr (Or.inr hprefix)

/-- Only the numbers that are checked enter the set. -/
theorem of_mem_run_seen {l : Loop} {bufs : List MessageBuffer} {seq : UInt64}
    (h : seq ∈ (l.run bufs).seen_sequences_) :
    seq ∈ l.seen_sequences_ ∨ ∃ buf ∈ bufs, buf.header.sequence_number = seq := by
  induction bufs using List.reverseRecOn with
  | nil => exact Or.inl h
  | append_singleton bufs buf ih =>
      rw [run_append] at h
      change seq ∈ ((l.run bufs).handle buf).seen_sequences_ at h
      rw [handle_seen] at h
      rcases Finset.mem_insert.mp (checkSequence_subset _ _ h) with rfl | hold
      · exact Or.inr ⟨buf, by simp, rfl⟩
      · refine (ih hold).imp_right ?_
        rintro ⟨b, hb, hseq⟩
        exact ⟨b, List.mem_append_left _ hb, hseq⟩

end Loop

/-- The set never outgrows its limit. -/
theorem card_seen_le (bufs : List MessageBuffer) :
    (workerThreadMain bufs).seen_sequences_.card ≤ seenLimit := by
  induction bufs using List.reverseRecOn with
  | nil => exact Nat.zero_le _
  | append_singleton bufs buf ih =>
      rw [workerThreadMain_snoc]
      exact Loop.card_handle_seen ih buf

/-- On buffers that carry the numbers of these fragments the loop does what the second filter of
the pipeline does on the fragments. -/
theorem workerThreadMain_pipeline {zs : List (MessageBuffer × Fragment)}
    (h : ∀ z ∈ zs, z.1.header.sequence_number = z.2.sequence_number) :
    ∃ ws : List (MessageBuffer × Fragment), ws.Sublist zs ∧
      (workerThreadMain (zs.map Prod.fst)).processed = ws.map Prod.fst ∧
      (Pipeline.worker (zs.map Prod.snd)).processed = ws.map Prod.snd ∧
      (workerThreadMain (zs.map Prod.fst)).seen_sequences_
        = (Pipeline.worker (zs.map Prod.snd)).seen_sequences_ := by
  induction zs using List.reverseRecOn with
  | nil => exact ⟨[], .refl _, rfl, rfl, rfl⟩
  | append_singleton zs z ih =>
      obtain ⟨ws, hws, hbufs, hfragments, hseen⟩ :=
        ih fun y hy => h y (List.mem_append_left _ hy)
      have hz : z.1.header.sequence_number = z.2.sequence_number := h z (by simp)
      rw [List.map_append, List.map_append, List.map_singleton, List.map_singleton,
        workerThreadMain_snoc, Pipeline.worker_snoc, Loop.handle_processed, Loop.handle_seen,
        Pipeline.processed_next, hbufs, hfragments, checkDuplicate, hseen, hz]
      by_cases hdup : z.2.sequence_number ∈
          (Pipeline.worker (zs.map Prod.snd)).seen_sequences_
      · refine ⟨ws, hws.trans (List.sublist_append_left _ _), ?_, if_pos hdup, rfl⟩
        exact if_pos ((checkSequence_duplicate _ _).mpr hdup)
      · refine ⟨ws ++ [z], hws.append (.refl _), ?_, ?_, rfl⟩
        · rw [if_neg fun hd => hdup ((checkSequence_duplicate _ _).mp hd), List.map_append]
          rfl
        · rw [if_neg hdup, List.map_append]
          rfl

/-! ## Repeats across the limit -/

/-- `m` is accepted after `xs`, `m'` carries the same number and is checked after `ys`, and in
between fewer than half of `seenLimit` other numbers are accepted. -/
structure SoonRepeated (xs : List MessageBuffer) (m : MessageBuffer) (ys : List MessageBuffer)
    (m' : MessageBuffer) : Prop where
  accepted : (checkDuplicate (workerThreadMain xs).seen_sequences_ m).1 = false
  same : m'.header.sequence_number = m.header.sequence_number
  soon : (((workerThreadMain (xs ++ [m])).acceptedNumbers ys).erase
    m.header.sequence_number).card < seenLimit / 2

/-- `buf` is taken for a duplicate after `bufs` and does not reach `processMessage`. -/
def Refused (bufs : List MessageBuffer) (buf : MessageBuffer) : Prop :=
  (checkDuplicate (workerThreadMain bufs).seen_sequences_ buf).1 = true ∧
    (workerThreadMain (bufs ++ [buf])).processed = (workerThreadMain bufs).processed

/-- The whole promise for the messages `bufs`: soon repeated numbers are refused, and the set
keeps its limit. -/
def Deduplicates (bufs : List MessageBuffer) : Prop :=
  (∀ xs m ys m' zs, bufs = xs ++ m :: ys ++ m' :: zs → SoonRepeated xs m ys m' →
    Refused (xs ++ m :: ys) m') ∧
  ∀ xs, xs <+: bufs → (workerThreadMain xs).seen_sequences_.card ≤ seenLimit

theorem refused_iff (bufs : List MessageBuffer) (buf : MessageBuffer) :
    Refused bufs buf ↔ buf.header.sequence_number ∈ (workerThreadMain bufs).seen_sequences_ := by
  unfold Refused
  rw [workerThreadMain_snoc, Loop.handle_processed]
  constructor
  · rintro ⟨hdup, -⟩
    exact (Loop.checkDuplicate_iff _ _).mp hdup
  · intro hmem
    have hdup := (Loop.checkDuplicate_iff _ _).mpr hmem
    exact ⟨hdup, if_pos hdup⟩

/-- The run up to and including `m`, and what follows. -/
theorem workerThreadMain_append_cons (xs : List MessageBuffer) (m : MessageBuffer)
    (ys : List MessageBuffer) :
    workerThreadMain (xs ++ m :: ys) = (workerThreadMain (xs ++ [m])).run ys := by
  have hsplit : xs ++ m :: ys = xs ++ [m] ++ ys := by simp
  rw [hsplit]
  exact Loop.run_append _ _ _

/-- A number that is accepted and not cleared away is refused when it comes again. -/
theorem refused_of_not_clears {xs ys : List MessageBuffer} {m m' : MessageBuffer}
    (hsame : m'.header.sequence_number = m.header.sequence_number)
    (hkept : ∀ ws w vs, m :: ys = ws ++ w :: vs → ¬ (workerThreadMain (xs ++ ws)).Clears w) :
    Refused (xs ++ m :: ys) m' := by
  have hadded : m.header.sequence_number ∈ (workerThreadMain (xs ++ [m])).seen_sequences_ := by
    have hm : ¬ (workerThreadMain xs).Clears m := by
      have := hkept [] m ys rfl
      rwa [List.append_nil] at this
    rw [workerThreadMain_snoc]
    exact (Loop.mem_handle_seen hm).mpr (Or.inl rfl)
  rw [refused_iff, hsame, workerThreadMain_append_cons]
  refine Loop.mem_run_seen (fun ws w vs hys => ?_) hadded
  have hw := hkept (m :: ws) w vs (by rw [hys]; rfl)
  rwa [workerThreadMain_append_cons] at hw

/-- What has been cleared away is accepted when it comes again for the first time. -/
theorem not_refused_of_clears {ws vs : List MessageBuffer} {w m' : MessageBuffer}
    (hclears : (workerThreadMain ws).Clears w)
    (hfirst : ∀ v ∈ vs, v.header.sequence_number ≠ m'.header.sequence_number) :
    ¬ Refused (ws ++ w :: vs) m' := by
  rw [refused_iff, workerThreadMain_append_cons]
  intro hmem
  rcases Loop.of_mem_run_seen hmem with hempty | ⟨v, hv, hseq⟩
  · rw [workerThreadMain_snoc, Loop.handle_seen_of_clears hclears] at hempty
    exact Finset.notMem_empty _ hempty
  · exact hfirst v hv hseq

/-- The first of the messages with a given number. -/
theorem exists_first {bufs : List MessageBuffer} {seq : UInt64}
    (h : ∃ v ∈ bufs, v.header.sequence_number = seq) :
    ∃ bs b cs, bufs = bs ++ b :: cs ∧ b.header.sequence_number = seq ∧
      ∀ x ∈ bs, x.header.sequence_number ≠ seq := by
  obtain ⟨v, hv, hseq⟩ := h
  have hfound : (bufs.find? (·.header.sequence_number = seq)).isSome = true :=
    List.find?_isSome.mpr ⟨v, hv, decide_eq_true hseq⟩
  obtain ⟨b, hb⟩ := Option.isSome_iff_exists.mp hfound
  obtain ⟨hb, bs, cs, hsplit, hbefore⟩ := List.find?_eq_some_iff_append.mp hb
  exact ⟨bs, b, cs, hsplit, by simpa using hb, fun x hx => by simpa using hbefore x hx⟩

/-- What is accepted out of the first of the messages is accepted out of all of them. -/
theorem SoonRepeated.earlier {xs ys zs : List MessageBuffer} {m b m' : MessageBuffer}
    (h : SoonRepeated xs m (ys ++ b :: zs) m')
    (hsame : b.header.sequence_number = m.header.sequence_number) : SoonRepeated xs m ys b where
  accepted := h.accepted
  same := hsame
  soon := by
    refine Nat.lt_of_le_of_lt (Finset.card_le_card (Finset.erase_subset_erase _ ?_)) h.soon
    rw [Loop.acceptedNumbers_append]
    exact Finset.subset_union_left

/-- Where the set is emptied between a number and its repeat, some repeat is not refused. -/
theorem not_deduplicates_of_clears {bufs xs ys zs ws vs : List MessageBuffer}
    {m m' w : MessageBuffer} (hsplit : bufs = xs ++ m :: ys ++ m' :: zs)
    (hsoon : SoonRepeated xs m ys m') (hws : m :: ys = ws ++ w :: vs)
    (hclears : (workerThreadMain (xs ++ ws)).Clears w) : ¬ Deduplicates bufs := by
  intro hholds
  by_cases hagain : ∃ v ∈ vs, v.header.sequence_number = m.header.sequence_number
  · -- the first repeat after the set was emptied comes before `m'`
    obtain ⟨as, b, cs, rfl, hb, hbefore⟩ := exists_first hagain
    have hfirst : ¬ Refused (xs ++ ws ++ w :: as) b :=
      not_refused_of_clears hclears fun v hv => hb ▸ hbefore v hv
    -- the set was emptied by `m` itself, or by a later message
    cases ws with
    | nil =>
        obtain ⟨rfl, rfl⟩ := List.cons.inj hws
        refine hfirst ?_
        have := hholds.1 xs m as b (cs ++ m' :: zs) (by rw [hsplit]; simp) (hsoon.earlier hb)
        simpa using this
    | cons m₀ ws =>
        obtain ⟨rfl, hys⟩ := List.cons.inj hws
        replace hys : ys = ws ++ w :: as ++ b :: cs := by
          rw [hys, List.append_assoc]
          rfl
        subst hys
        refine hfirst ?_
        have := hholds.1 xs m (ws ++ w :: as) b (cs ++ m' :: zs) (by rw [hsplit]; simp)
          (hsoon.earlier hb)
        simpa using this
  · -- `m'` is the first repeat
    have hfirst : ¬ Refused (xs ++ ws ++ w :: vs) m' :=
      not_refused_of_clears hclears fun v hv heq => hagain ⟨v, hv, heq.trans hsoon.same⟩
    refine hfirst ?_
    have := hholds.1 xs m ys m' zs hsplit hsoon
    rwa [hws, ← List.append_assoc] at this

/-- **Deduplication holds exactly while the set is not emptied too early**: on the messages
`bufs`, soon repeated numbers are refused and the set keeps its limit if and only if no check
empties the set from the acceptance of a number up to a soon repeat of it. -/
theorem dedup_survives_iff (bufs : List MessageBuffer) :
    Deduplicates bufs ↔
      ∀ xs m ys m' zs, bufs = xs ++ m :: ys ++ m' :: zs → SoonRepeated xs m ys m' →
        ∀ ws w vs, m :: ys = ws ++ w :: vs → ¬ (workerThreadMain (xs ++ ws)).Clears w := by
  constructor
  · intro hholds xs m ys m' zs hsplit hsoon ws w vs hws hclears
    exact not_deduplicates_of_clears hsplit hsoon hws hclears hholds
  · intro hkept
    refine ⟨fun xs m ys m' zs hsplit hsoon => ?_, fun xs _ => card_seen_le xs⟩
    exact refused_of_not_clears hsoon.same (hkept xs m ys m' zs hsplit hsoon)

/-- A run over few enough numbers forgets none of them. -/
theorem dedup_of_few_numbers {bufs : List MessageBuffer}
    (hfew : (bufs.map (·.header.sequence_number)).toFinset.card ≤ seenLimit) :
    Deduplicates bufs := by
  refine ⟨fun xs m ys m' zs hsplit hsoon => ?_, fun xs _ => card_seen_le xs⟩
  refine refused_of_not_clears hsoon.same fun ws w vs hws hclears => ?_
  -- an emptying check would need `seenLimit + 1` different numbers
  have hsubset : insert w.header.sequence_number (workerThreadMain (xs ++ ws)).seen_sequences_
      ⊆ (bufs.map (·.header.sequence_number)).toFinset := by
    have hbufs : bufs = xs ++ ws ++ w :: (vs ++ m' :: zs) := by
      rw [hsplit, hws]
      simp
    intro seq hseq
    rw [hbufs, List.mem_toFinset, List.mem_map]
    rcases Finset.mem_insert.mp hseq with rfl | hseen
    · exact ⟨w, by simp, rfl⟩
    · rcases Loop.of_mem_run_seen hseen with hempty | ⟨b, hb, hseq⟩
      · exact absurd hempty (Finset.notMem_empty _)
      · exact ⟨b, List.mem_append_left _ hb, hseq⟩
  have hcard := Finset.card_le_card hsubset
  rw [Finset.card_insert_of_notMem hclears.1] at hcard
  have := hclears.2
  omega

/-! ## A number accepted twice in a row -/

def numbered (n : Nat) : MessageBuffer :=
  { MessageBuffer.fresh with
    header := { MessageHeader.zero with sequence_number := .ofNat n } }

theorem ofNat_injOn : Set.InjOn UInt64.ofNat {n | n ≤ seenLimit} := by
  intro a ha b hb h
  have hval := congrArg UInt64.toNat h
  rw [UInt64.toNat_ofNat', UInt64.toNat_ofNat'] at hval
  unfold seenLimit at ha hb
  simp only [Set.mem_ofPred_eq] at ha hb
  omega

/-- The numbers `0` to `n - 1` fill the set. -/
theorem card_seen_range {n : Nat} (hn : n ≤ seenLimit) :
    (workerThreadMain ((List.range n).map numbered)).seen_sequences_
        = (Finset.range n).image UInt64.ofNat ∧
      (workerThreadMain ((List.range n).map numbered)).seen_sequences_.card = n := by
  have hcard : ((Finset.range n).image UInt64.ofNat).card = n := by
    rw [Finset.card_image_of_injOn, Finset.card_range]
    exact ofNat_injOn.mono fun i hi => (Nat.le_of_lt (Finset.mem_range.mp hi)).trans hn
  suffices hseen : _ from ⟨hseen, by rw [hseen, hcard]⟩
  clear hcard
  induction n with
  | zero => rfl
  | succ n ih =>
      have ih := ih (Nat.le_of_succ_le hn)
      have hroom : ¬ (workerThreadMain ((List.range n).map numbered)).Clears (numbered n) := by
        rintro ⟨-, hfull⟩
        rw [ih] at hfull
        have := hfull.trans Finset.card_image_le
        rw [Finset.card_range] at this
        omega
      ext seq
      rw [List.range_succ, List.map_append, List.map_singleton, workerThreadMain_snoc,
        Loop.mem_handle_seen hroom, ih, Finset.range_add_one, Finset.image_insert,
        Finset.mem_insert]
      rfl

/-- After the numbers `0` to `seenLimit - 1`, the number `seenLimit` clears itself away, and
its repeat, which is the very next message, is processed again. -/
theorem repeat_accepted_at_limit :
    ¬ Deduplicates ((List.range (seenLimit + 1)).map numbered ++ [numbered seenLimit]) := by
  obtain ⟨hseen, hcard⟩ := card_seen_range (Nat.le_refl seenLimit)
  have hnew : (numbered seenLimit).header.sequence_number ∉
      (workerThreadMain ((List.range seenLimit).map numbered)).seen_sequences_ := by
    rw [hseen]
    intro hmem
    obtain ⟨i, hi, heq⟩ := Finset.mem_image.mp hmem
    have hlt := Finset.mem_range.mp hi
    exact hlt.ne (ofNat_injOn (Nat.le_of_lt hlt) (Nat.le_refl seenLimit) heq)
  have hsplit : (List.range (seenLimit + 1)).map numbered ++ [numbered seenLimit]
      = (List.range seenLimit).map numbered ++ numbered seenLimit :: []
        ++ numbered seenLimit :: [] := by
    rw [List.range_succ, List.map_append]
    rfl
  have hsoon : SoonRepeated ((List.range seenLimit).map numbered) (numbered seenLimit) []
      (numbered seenLimit) := by
    refine ⟨?_, rfl, ?_⟩
    · rw [Bool.eq_false_iff, ne_eq, Loop.checkDuplicate_iff]
      exact hnew
    · rw [Loop.acceptedNumbers, Finset.erase_empty, Finset.card_empty]
      decide
  have hclears : (workerThreadMain ((List.range seenLimit).map numbered ++ [])).Clears
      (numbered seenLimit) := by
    rw [List.append_nil]
    exact ⟨hnew, hcard.ge⟩
  have hws : [numbered seenLimit] = [] ++ numbered seenLimit :: [] := rfl
  exact not_deduplicates_of_clears hsplit hsoon hws hclears

end AeronReplay.MessageWorker
