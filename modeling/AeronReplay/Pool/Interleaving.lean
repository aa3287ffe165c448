import AeronReplay.Lib.Transition
import AeronReplay.Pool.BufferPool

set_option autoImplicit false

/-! # Two threads on one pool, access by access

The subscriber thread allocates a buffer and either enqueues it or, on a drop path, deallocates
it; the worker thread deallocates the buffers it has dequeued. The accesses to `free_count_`,
`free_list_` and `in_use` interleave in any order.

Claiming an entry of `free_list_` (the compare-exchange on `free_count_`) and using it (the read
or the write of the entry) are two steps, and the entry may be claimed by the other thread in
between. `SlotOrder` says that the two threads then use the entry in the order in which they
have claimed it. Under this condition the pool works (`pool_sound`); without it a buffer is
handed out twice (`buffer_handed_out_twice`). -/

namespace AeronReplay.BufferPool

open Transition Places

variable {PoolSize : Nat}

/-! ## The threads -/

/-- Where a thread is in `allocate`, with its local variables. -/
inductive AllocatePc (PoolSize : Nat) where
  | idle
  | loaded (count : Nat)
  | claimed (slot : Nat)
  | readSlot (buf : Fin PoolSize)

/-- Where a thread is in `deallocate`, with its local variables. -/
inductive DeallocatePc (PoolSize : Nat) where
  | idle
  | marked (buf : Fin PoolSize)
  | loaded (buf : Fin PoolSize) (count : Nat)
  | claimed (buf : Fin PoolSize) (slot : Nat)

/-- The pool, the two threads, and where the buffers are that have been handed out: with the
fast path, in the message queue or with the worker. -/
structure State (PoolSize : Nat) where
  pool : BufferPool PoolSize
  allocating : AllocatePc PoolSize
  dropping : DeallocatePc PoolSize
  returning : DeallocatePc PoolSize
  msg_buf : Option (Fin PoolSize)
  queued : List (Fin PoolSize)
  worker_buf : Option (Fin PoolSize)

inductive Event (PoolSize : Nat) where
  /-- `allocate` has returned the buffer. -/
  | allocated (buf : Fin PoolSize)
  /-- The subscriber's `allocate` has read the entry it had claimed. -/
  | readSlot (slot : Nat)
  /-- The worker's `deallocate` has written the entry it had claimed. -/
  | wroteSlot (slot : Nat)

/-- One access of `deallocate` after it has marked the buffer, and the entry it writes. A
compare-exchange that fails, for whatever reason, loads `free_count_` again. -/
inductive DeallocateStep : BufferPool PoolSize → DeallocatePc PoolSize → Option Nat →
    BufferPool PoolSize → DeallocatePc PoolSize → Prop
  | load {p : BufferPool PoolSize} {buf : Fin PoolSize} :
      DeallocateStep p (.marked buf) none p (.loaded buf p.free_count_)
  | compareExchange {p : BufferPool PoolSize} {buf : Fin PoolSize} {count : Nat}
      (hroom : count < PoolSize) (heq : p.free_count_ = count) :
      DeallocateStep p (.loaded buf count) none { p with free_count_ := count + 1 }
        (.claimed buf count)
  | compareExchangeFails {p : BufferPool PoolSize} {buf : Fin PoolSize} {count : Nat}
      (hroom : count < PoolSize) :
      DeallocateStep p (.loaded buf count) none p (.loaded buf p.free_count_)
  | writeSlot {p : BufferPool PoolSize} {buf : Fin PoolSize} {slot : Nat} :
      DeallocateStep p (.claimed buf slot) (some slot)
        { p with free_list_ := Function.update p.free_list_ slot buf } .idle
  | overflow {p : BufferPool PoolSize} {buf : Fin PoolSize} {count : Nat}
      (hfull : ¬ count < PoolSize) :
      DeallocateStep p (.loaded buf count) none p .idle

/-- One access of one thread. -/
inductive Step : State PoolSize → List (Event PoolSize) → State PoolSize → Prop
  | load {s : State PoolSize} (ha : s.allocating = .idle) (hd : s.dropping = .idle)
      (hbuf : s.msg_buf = none) :
      Step s [] { s with allocating := .loaded s.pool.free_count_ }
  | exhausted {s : State PoolSize} (ha : s.allocating = .loaded 0) :
      Step s [] { s with allocating := .idle }
  | compareExchange {s : State PoolSize} {slot : Nat} (ha : s.allocating = .loaded (slot + 1))
      (heq : s.pool.free_count_ = slot + 1) :
      Step s [] { s with
        pool := { s.pool with free_count_ := slot }
        allocating := .claimed slot }
  | compareExchangeFails {s : State PoolSize} {slot : Nat}
      (ha : s.allocating = .loaded (slot + 1)) :
      Step s [] { s with allocating := .loaded s.pool.free_count_ }
  | readSlot {s : State PoolSize} {slot : Nat} (ha : s.allocating = .claimed slot) :
      Step s [.readSlot slot] { s with allocating := .readSlot (s.pool.free_list_ slot) }
  | markInUse {s : State PoolSize} {buf : Fin PoolSize} (ha : s.allocating = .readSlot buf) :
      Step s [.allocated buf] { s with
        pool := (s.pool.storeInUse buf true).resetBuffer buf
        allocating := .idle
        msg_buf := some buf }
  | enqueue {s : State PoolSize} {buf : Fin PoolSize} (hbuf : s.msg_buf = some buf) :
      Step s [] { s with
        msg_buf := none
        queued := s.queued ++ [buf] }
  | drop {s : State PoolSize} {buf : Fin PoolSize} (hbuf : s.msg_buf = some buf)
      (hd : s.dropping = .idle) :
      Step s [] { s with
        pool := s.pool.storeInUse buf false
        dropping := .marked buf
        msg_buf := none }
  | dropping {s : State PoolSize} {written : Option Nat} {p : BufferPool PoolSize}
      {pc : DeallocatePc PoolSize} (h : DeallocateStep s.pool s.dropping written p pc) :
      Step s [] { s with
        pool := p
        dropping := pc }
  | dequeue {s : State PoolSize} {buf : Fin PoolSize} {queued : List (Fin PoolSize)}
      (hq : s.queued = buf :: queued) (hbuf : s.worker_buf = none)
      (hr : s.returning = .idle) :
      Step s [] { s with
        queued := queued
        worker_buf := some buf }
  | release {s : State PoolSize} {buf : Fin PoolSize} (hbuf : s.worker_buf = some buf)
      (hr : s.returning = .idle) :
      Step s [] { s with
        pool := s.pool.storeInUse buf false
        returning := .marked buf
        worker_buf := none }
  | returning {s : State PoolSize} {written : Option Nat} {p : BufferPool PoolSize}
      {pc : DeallocatePc PoolSize} (h : DeallocateStep s.pool s.returning written p pc) :
      Step s (written.toList.map .wroteSlot) { s with
        pool := p
        returning := pc }

/-- Both threads on a new pool. -/
def interleaving (PoolSize : Nat) : Lts (State PoolSize) (Event PoolSize) where
  Init s := s.pool.Initial ∧ s.allocating = .idle ∧ s.dropping = .idle ∧ s.returning = .idle ∧
    s.msg_buf = none ∧ s.queued = [] ∧ s.worker_buf = none
  Step := Step

/-- The buffers that `allocate` has returned and that nobody has passed to `deallocate`. -/
def State.owned (s : State PoolSize) : List (Fin PoolSize) :=
  s.msg_buf.toList ++ s.queued ++ s.worker_buf.toList

/-- No pool operation is in progress. -/
def State.Quiescent (s : State PoolSize) : Prop :=
  s.allocating = .idle ∧ s.dropping = .idle ∧ s.returning = .idle

/-- **The two threads use an entry in the order in which they have claimed it.** When both have
claimed entry `i`, `free_count_` tells who was first: `allocate` lowers it to `i`, `deallocate`
raises it to `i + 1`. So the subscriber does not read an entry that the worker has claimed
before it and not yet written, and the worker does not write an entry that the subscriber has
claimed before it and not yet read. -/
def SlotOrder : Guard (State PoolSize) (Event PoolSize) := fun _ s e _ =>
  (∀ i, .readSlot i ∈ e →
    ¬ ((∃ buf, s.returning = .claimed buf i) ∧ s.pool.free_count_ = i)) ∧
  (∀ i, .wroteSlot i ∈ e → ¬ (s.allocating = .claimed i ∧ s.pool.free_count_ = i + 1))

/-! ## The ownership invariant -/

/-- `free_list_` as it will be once a pending write is done. -/
def DeallocatePc.write (pc : DeallocatePc PoolSize) (f : Nat → Fin PoolSize) :
    Nat → Fin PoolSize :=
  match pc with
  | .claimed buf slot => Function.update f slot buf
  | _ => f

/-- The buffer of a `deallocate` that has not claimed an entry yet. -/
def DeallocatePc.held : DeallocatePc PoolSize → List (Fin PoolSize)
  | .marked buf => [buf]
  | .loaded buf _ => [buf]
  | _ => []

section

variable (buf : Fin PoolSize) (i : Nat) (f : Nat → Fin PoolSize)

@[simp] theorem write_idle : (DeallocatePc.idle : DeallocatePc PoolSize).write f = f := rfl
@[simp] theorem held_marked : (DeallocatePc.marked buf).held = [buf] := rfl
@[simp] theorem write_loaded : (DeallocatePc.loaded buf i).write f = f := rfl
@[simp] theorem write_claimed :
    (DeallocatePc.claimed buf i).write f = Function.update f i buf := rfl
@[simp] theorem held_idle : (DeallocatePc.idle : DeallocatePc PoolSize).held = [] := rfl
@[simp] theorem held_loaded : (DeallocatePc.loaded buf i).held = [buf] := rfl
@[simp] theorem held_claimed : (DeallocatePc.claimed buf i).held = [] := rfl

end

/-- `free_list_` as it will be once the pending writes are done. -/
def State.slots (s : State PoolSize) : Nat → Fin PoolSize :=
  s.returning.write (s.dropping.write s.pool.free_list_)

/-- The buffer that an `allocate` in progress is going to return. Where the entry is claimed by
both threads, the order of their claims decides whether it is the one in the entry now. -/
def State.reserved (s : State PoolSize) : List (Fin PoolSize) :=
  match s.allocating with
  | .claimed slot =>
      if s.pool.free_count_ = slot then [s.slots slot] else [s.pool.free_list_ slot]
  | .readSlot buf => [buf]
  | _ => []

/-- All places a buffer can be in. -/
def State.places (s : State PoolSize) : List (Fin PoolSize) :=
  stack s.slots s.pool.free_count_ ++ s.reserved ++ s.dropping.held ++ s.returning.held ++
    s.owned

structure Inv (s : State PoolSize) : Prop where
  places : Each s.places
  sequential : s.allocating ≠ .idle → s.dropping = .idle ∧ s.msg_buf = none
  allocating : ∀ slot, s.allocating = .claimed slot → s.pool.free_count_ = slot ∨
    s.pool.free_count_ = slot + 1 ∧ ∃ buf, s.returning = .claimed buf slot
  returning : ∀ buf slot, s.returning = .claimed buf slot → slot < s.pool.free_count_ ∨
    slot = s.pool.free_count_ ∧ s.allocating = .claimed slot
  dropping : ∀ buf slot, s.dropping = .claimed buf slot → slot < s.pool.free_count_ ∧
    ∀ buf', s.returning ≠ .claimed buf' slot
  loaded : ∀ buf count, s.dropping = .loaded buf count ∨ s.returning = .loaded buf count →
    count < PoolSize

theorem inv_init {s : State PoolSize} (h : (interleaving PoolSize).Init s) : Inv s := by
  obtain ⟨pool, allocating, dropping, returning, msg_buf, queued, worker_buf⟩ := s
  obtain ⟨hpool, rfl, rfl, rfl, rfl, rfl, rfl⟩ := h
  have heach : Each (State.places ⟨pool, .idle, .idle, .idle, none, [], none⟩) := by
    refine hpool.each.of_count_eq fun a => ?_
    simp [State.places, State.slots, State.reserved, State.owned, DeallocatePc.held,
      DeallocatePc.write, freeList]
  exact ⟨heach, by simp, by simp, by simp, by simp, by simp⟩

/-- While a buffer is out of the free list there is room in it. -/
theorem Inv.count_lt {s : State PoolSize} (h : Inv s) {buf : Fin PoolSize}
    (hout : buf ∈ s.dropping.held ++ s.returning.held) : s.pool.free_count_ < PoolSize := by
  have hlen := h.places.length_eq
  have hpos := List.length_pos_of_mem hout
  simp only [State.places, List.length_append, length_stack] at hlen hpos
  omega

/-! ## The steps of `allocate` -/

/-- An `allocate` that has not claimed an entry. -/
def AllocatePc.Unclaimed (pc : AllocatePc PoolSize) : Prop :=
  pc = .idle ∨ ∃ count, pc = .loaded count

/-- Loading `free_count_`, and giving up, claim and reserve nothing. -/
theorem inv_load {s : State PoolSize} (h : Inv s) (ha : s.allocating.Unclaimed)
    {pc : AllocatePc PoolSize} (hpc : pc.Unclaimed)
    (hseq : pc ≠ .idle → s.dropping = .idle ∧ s.msg_buf = none) :
    Inv { s with allocating := pc } := by
  have hnone : ∀ {pc' : AllocatePc PoolSize} {slot : Nat}, pc'.Unclaimed → pc' ≠ .claimed slot := by
    rintro pc' slot (rfl | ⟨count, rfl⟩) <;> simp
  have hreserved : s.reserved = State.reserved { s with allocating := pc } := by
    unfold State.reserved
    rcases ha with ha | ⟨count, ha⟩ <;> rcases hpc with rfl | ⟨count', rfl⟩ <;> simp only [ha]
  refine ⟨h.places.of_count_eq fun a => ?_, hseq, ?_, ?_, h.dropping, h.loaded⟩
  · simp only [State.places, hreserved]
    rfl
  · intro slot hclaimed
    exact absurd hclaimed (hnone hpc)
  · intro buf slot hr
    rcases h.returning buf slot hr with hlt | ⟨-, hclaimed⟩
    · exact Or.inl hlt
    · exact absurd hclaimed (hnone ha)

theorem inv_compareExchange {s : State PoolSize} (h : Inv s) {slot : Nat}
    (ha : s.allocating = .loaded (slot + 1)) (heq : s.pool.free_count_ = slot + 1) :
    Inv { s with
      pool := { s.pool with free_count_ := slot }
      allocating := .claimed slot } := by
  have hseq := h.sequential (by simp [ha])
  refine ⟨h.places.of_count_eq fun a => ?_, fun _ => hseq, ?_, ?_, ?_, h.loaded⟩
  · -- the last free entry becomes the reserved one
    simp only [State.places, State.reserved, State.slots, State.owned, ha, heq, if_true, stack_succ,
      List.count_append, List.count_nil]
    omega
  · intro slot' hslot
    cases hslot
    exact Or.inl rfl
  · intro buf slot' hr
    rcases h.returning buf slot' hr with hlt | ⟨-, hclaimed⟩
    · rw [heq] at hlt
      show slot' < slot ∨ slot' = slot ∧ AllocatePc.claimed slot = .claimed slot'
      rcases Nat.lt_succ_iff_lt_or_eq.mp hlt with hlt | rfl
      · exact Or.inl hlt
      · exact Or.inr ⟨rfl, rfl⟩
    · rw [ha] at hclaimed
      cases hclaimed
  · intro buf slot' hd
    rw [show s.dropping = _ from hseq.1] at hd
    cases hd

/-- The entry that `allocate` has claimed names the buffer that is reserved for it. -/
theorem Inv.reserved_claimed {s : State PoolSize} (h : Inv s) {slot : Nat}
    (ha : s.allocating = .claimed slot)
    (horder : ¬ ((∃ buf, s.returning = .claimed buf slot) ∧ s.pool.free_count_ = slot)) :
    s.reserved = [s.pool.free_list_ slot] := by
  simp only [State.reserved, ha]
  split
  · rename_i hcount
    -- the worker has no write pending on this entry
    rw [State.slots, (h.sequential (by simp [ha])).1]
    cases hr : s.returning with
    | claimed buf slot' =>
        have hne : slot ≠ slot' := by
          rintro rfl
          exact horder ⟨⟨buf, hr⟩, hcount⟩
        show [Function.update s.pool.free_list_ slot' buf slot] = _
        rw [Function.update_of_ne hne]
    | idle | marked | loaded => rfl
  · rfl

theorem inv_readSlot {s : State PoolSize} (h : Inv s) {slot : Nat}
    (ha : s.allocating = .claimed slot)
    (horder : ¬ ((∃ buf, s.returning = .claimed buf slot) ∧ s.pool.free_count_ = slot)) :
    Inv { s with allocating := .readSlot (s.pool.free_list_ slot) } := by
  have hseq := h.sequential (by simp [ha])
  have hreserved := h.reserved_claimed ha horder
  refine ⟨h.places.of_count_eq fun a => ?_, fun _ => hseq, by simp, ?_, h.dropping, h.loaded⟩
  · simp only [State.places, hreserved]
    rfl
  · intro buf slot' hr
    rcases h.returning buf slot' hr with hlt | ⟨heq, hclaimed⟩
    · exact Or.inl hlt
    · rw [ha] at hclaimed
      cases hclaimed
      exact absurd ⟨⟨buf, hr⟩, heq.symm⟩ horder

theorem inv_markInUse {s : State PoolSize} (h : Inv s) {buf : Fin PoolSize}
    (ha : s.allocating = .readSlot buf) :
    Inv { s with
      pool := (s.pool.storeInUse buf true).resetBuffer buf
      allocating := .idle
      msg_buf := some buf } := by
  have hseq := h.sequential (by simp [ha])
  refine ⟨h.places.of_count_eq fun a => ?_, fun hidle => absurd rfl hidle, by simp, ?_, h.dropping,
    h.loaded⟩
  · simp only [State.places, State.reserved, State.slots, State.owned, ha, hseq.2, storeInUse,
      resetBuffer, Option.toList_some, Option.toList_none, List.count_append, List.count_nil]
    omega
  · intro buf' slot hr
    rcases h.returning buf' slot hr with hlt | ⟨-, hclaimed⟩
    · exact Or.inl hlt
    · rw [ha] at hclaimed
      cases hclaimed

/-! ## Steps that claim and write nothing -/

/-- A `deallocate` that has not claimed an entry. -/
def DeallocatePc.Unclaimed (pc : DeallocatePc PoolSize) : Prop :=
  ∀ buf slot, pc ≠ .claimed buf slot

theorem write_of_unclaimed {pc : DeallocatePc PoolSize} (h : pc.Unclaimed)
    (f : Nat → Fin PoolSize) : pc.write f = f := by
  cases pc with
  | claimed buf slot => exact absurd rfl (h buf slot)
  | idle | marked | loaded => rfl

/-- A write to one entry and a pending write to another commute. -/
theorem write_update {pc : DeallocatePc PoolSize} (f : Nat → Fin PoolSize) {i : Nat}
    {buf : Fin PoolSize} (h : ∀ buf' slot, pc = .claimed buf' slot → slot ≠ i) :
    pc.write (Function.update f i buf) = Function.update (pc.write f) i buf := by
  cases pc with
  | claimed buf' slot => exact Function.update_comm (h buf' slot rfl).symm buf buf' f
  | idle | marked | loaded => rfl

/-- A step that hands a buffer on, calls `deallocate` or loads `free_count_` keeps the
invariant if no buffer disappears from the hands that hold it. -/
theorem inv_move {s t : State PoolSize} (h : Inv s)
    (hlist : t.pool.free_list_ = s.pool.free_list_)
    (hcount : t.pool.free_count_ = s.pool.free_count_)
    (halloc : t.allocating = s.allocating)
    (hseq : t.allocating ≠ .idle → t.dropping = .idle ∧ t.msg_buf = none)
    (hd : t.dropping = s.dropping ∨ s.dropping.Unclaimed ∧ t.dropping.Unclaimed)
    (hr : t.returning = s.returning ∨ s.returning.Unclaimed ∧ t.returning.Unclaimed)
    (hloaded : ∀ buf count, t.dropping = .loaded buf count ∨ t.returning = .loaded buf count →
      count < PoolSize)
    (hheld : ∀ a, (t.dropping.held ++ t.returning.held ++ t.owned).count a
      = (s.dropping.held ++ s.returning.held ++ s.owned).count a) : Inv t := by
  have hwrite : ∀ {pc pc' : DeallocatePc PoolSize},
      pc' = pc ∨ pc.Unclaimed ∧ pc'.Unclaimed → pc'.write = pc.write := by
    rintro pc pc' (rfl | ⟨hpc, hpc'⟩)
    · rfl
    · funext f
      rw [write_of_unclaimed hpc, write_of_unclaimed hpc']
  have hclaimed : ∀ {pc pc' : DeallocatePc PoolSize} {buf : Fin PoolSize} {slot : Nat},
      pc' = pc ∨ pc.Unclaimed ∧ pc'.Unclaimed →
        (pc' = .claimed buf slot ↔ pc = .claimed buf slot) := by
    rintro pc pc' buf slot (rfl | ⟨hpc, hpc'⟩)
    · exact Iff.rfl
    · exact iff_of_false (hpc' buf slot) (hpc buf slot)
  have hslots : t.slots = s.slots := by
    rw [State.slots, State.slots, hwrite hd, hwrite hr, hlist]
  have hreserved : t.reserved = s.reserved := by
    rw [State.reserved, State.reserved, halloc, hcount, hslots, hlist]
  refine ⟨h.places.of_count_eq fun a => ?_, hseq, ?_, ?_, ?_, hloaded⟩
  · have := hheld a
    simp only [State.places, hslots, hreserved, hcount, List.count_append] at this ⊢
    omega
  · intro slot ha
    rw [hcount]
    rcases h.allocating slot (halloc ▸ ha) with heq | ⟨heq, buf, hr'⟩
    · exact Or.inl heq
    · exact Or.inr ⟨heq, buf, (hclaimed hr).mpr hr'⟩
  · intro buf slot hr'
    rw [hcount, halloc]
    exact h.returning buf slot ((hclaimed hr).mp hr')
  · intro buf slot hd'
    rw [hcount]
    obtain ⟨hlt, hother⟩ := h.dropping buf slot ((hclaimed hd).mp hd')
    exact ⟨hlt, fun buf' hr' => hother buf' ((hclaimed hr).mp hr')⟩

/-! ## The steps of `deallocate` -/

/-- The subscriber is in one call at a time. -/
theorem Inv.idle_of_dropping {s : State PoolSize} (h : Inv s) (hd : s.dropping ≠ .idle) :
    s.allocating = .idle := by
  by_contra hne
  exact hd (h.sequential hne).1

theorem Inv.returning_lt {s : State PoolSize} (h : Inv s) (hidle : s.allocating = .idle)
    {buf : Fin PoolSize} {slot : Nat} (hr : s.returning = .claimed buf slot) :
    slot < s.pool.free_count_ := by
  rcases h.returning buf slot hr with hlt | ⟨-, hclaimed⟩
  · exact hlt
  · rw [hidle] at hclaimed
    cases hclaimed

/-- The subscriber's `deallocate` claims an entry. -/
theorem inv_dropping_claim {s : State PoolSize} (h : Inv s) {buf : Fin PoolSize} {count : Nat}
    (hd : s.dropping = .loaded buf count) (heq : s.pool.free_count_ = count) :
    Inv { s with
      pool := { s.pool with free_count_ := count + 1 }
      dropping := .claimed buf count } := by
  have hidle := h.idle_of_dropping (by simp [hd])
  have hlt : ∀ buf' slot, s.returning = .claimed buf' slot → slot < count := by
    intro buf' slot hr
    rw [← heq]
    exact h.returning_lt hidle hr
  refine ⟨h.places.of_count_eq fun a => ?_, fun hne => absurd hidle hne, ?_, ?_, ?_, ?_⟩
  · have hpush := stack_push (s.returning.write s.pool.free_list_) count buf
    rw [← write_update _ fun buf' slot hr => Nat.ne_of_lt (hlt buf' slot hr)] at hpush
    simp only [State.places, State.reserved, State.slots, State.owned, write_loaded, write_claimed,
      held_loaded, held_claimed, hd, hidle, heq, hpush, List.count_append, List.count_nil]
    omega
  · intro slot ha
    rw [show s.allocating = _ from hidle] at ha
    cases ha
  · intro buf' slot hr
    exact Or.inl (Nat.lt_succ_of_lt (hlt buf' slot hr))
  · intro buf' slot hslot
    cases hslot
    exact ⟨Nat.lt_succ_self _, fun buf' hr => Nat.lt_irrefl _ (hlt buf' _ hr)⟩
  · rintro buf' count' (hloaded | hloaded)
    · cases hloaded
    · exact h.loaded buf' count' (Or.inr hloaded)

/-- The subscriber's `deallocate` writes the entry it has claimed. -/
theorem inv_dropping_write {s : State PoolSize} (h : Inv s) {buf : Fin PoolSize} {slot : Nat}
    (hd : s.dropping = .claimed buf slot) :
    Inv { s with
      pool := { s.pool with free_list_ := Function.update s.pool.free_list_ slot buf }
      dropping := .idle } := by
  have hidle := h.idle_of_dropping (by simp [hd])
  refine ⟨h.places.of_count_eq fun a => ?_, fun hne => absurd hidle hne, h.allocating, h.returning,
    ?_, ?_⟩
  · simp only [State.places, State.reserved, State.slots, DeallocatePc.held, DeallocatePc.write,
      hd, hidle]
    rfl
  · intro buf' slot' hslot
    cases hslot
  · rintro buf' count' (hloaded | hloaded)
    · cases hloaded
    · exact h.loaded buf' count' (Or.inr hloaded)

/-- While the worker has claimed no entry, `free_count_` is what `allocate` has left. -/
theorem Inv.allocating_eq {s : State PoolSize} (h : Inv s) {slot : Nat}
    (ha : s.allocating = .claimed slot) (hr : s.returning.Unclaimed) :
    s.pool.free_count_ = slot := by
  rcases h.allocating slot ha with hcount | ⟨-, buf, hclaimed⟩
  · exact hcount
  · exact absurd hclaimed (hr buf slot)

/-- A claim of the worker changes nothing for the `allocate` that has claimed the entry before. -/
theorem Inv.reserved_claim {s : State PoolSize} (h : Inv s) {buf : Fin PoolSize} {count : Nat}
    (hr : s.returning = .loaded buf count) (heq : s.pool.free_count_ = count) :
    State.reserved { s with
      pool := { s.pool with free_count_ := count + 1 }
      returning := .claimed buf count } = s.reserved := by
  cases ha : s.allocating with
  | claimed slot =>
      obtain rfl : s.pool.free_count_ = slot :=
        h.allocating_eq ha (by simp [hr, DeallocatePc.Unclaimed])
      obtain rfl := heq
      have hdrop := (h.sequential (by simp [ha])).1
      simp only [State.reserved, State.slots, ha, hr, hdrop, DeallocatePc.write,
        Nat.succ_ne_self, if_true, if_false]
  | idle | loaded | readSlot => simp only [State.reserved, ha]

/-- The worker's `deallocate` claims an entry, which may be the one an `allocate` has claimed
and not yet read. -/
theorem inv_returning_claim {s : State PoolSize} (h : Inv s) {buf : Fin PoolSize} {count : Nat}
    (hr : s.returning = .loaded buf count) (heq : s.pool.free_count_ = count) :
    Inv { s with
      pool := { s.pool with free_count_ := count + 1 }
      returning := .claimed buf count } := by
  have hslot : ∀ slot, s.allocating = .claimed slot → slot = count := fun slot ha =>
    (h.allocating_eq ha (by simp [hr, DeallocatePc.Unclaimed])).symm.trans heq
  have hreserved := h.reserved_claim hr heq
  refine ⟨h.places.of_count_eq fun a => ?_, h.sequential, ?_, ?_, ?_, ?_⟩
  · have hpush := stack_push (s.dropping.write s.pool.free_list_) count buf
    simp only [State.places, hreserved, List.count_append]
    simp only [State.slots, State.owned, write_loaded, write_claimed, held_loaded, held_claimed, hr,
      heq, hpush, List.count_append, List.count_nil]
    omega
  · intro slot ha
    obtain rfl := hslot slot ha
    exact Or.inr ⟨rfl, buf, rfl⟩
  · intro buf' slot hclaimed
    cases hclaimed
    exact Or.inl (Nat.lt_succ_self _)
  · intro buf' slot hd
    have hlt := (h.dropping buf' slot hd).1
    rw [heq] at hlt
    refine ⟨Nat.lt_succ_of_lt hlt, fun buf'' hclaimed => ?_⟩
    cases hclaimed
    exact Nat.lt_irrefl _ hlt
  · rintro buf' count' (hloaded | hloaded)
    · exact h.loaded buf' count' (Or.inl hloaded)
    · cases hloaded

/-- The write of the worker is the one that has been pending. -/
theorem Inv.slots_write {s : State PoolSize} (h : Inv s) {buf : Fin PoolSize} {slot : Nat}
    (hr : s.returning = .claimed buf slot) :
    State.slots { s with
      pool := { s.pool with free_list_ := Function.update s.pool.free_list_ slot buf }
      returning := .idle } = s.slots := by
  rw [State.slots, State.slots, hr]
  refine write_update _ ?_
  rintro buf' slot' hd rfl
  exact (h.dropping buf' _ hd).2 buf hr

/-- When the worker may write its entry, an `allocate` in progress has made the last claim. -/
theorem Inv.allocating_eq_of_order {s : State PoolSize} (h : Inv s) {buf : Fin PoolSize}
    {slot slot' : Nat} (ha : s.allocating = .claimed slot')
    (hr : s.returning = .claimed buf slot)
    (horder : ¬ (s.allocating = .claimed slot ∧ s.pool.free_count_ = slot + 1)) :
    s.pool.free_count_ = slot' := by
  rcases h.allocating slot' ha with heq | ⟨heq, buf', hclaimed⟩
  · exact heq
  · rw [hr] at hclaimed
    cases hclaimed
    exact absurd ⟨ha, heq⟩ horder

theorem Inv.reserved_write {s : State PoolSize} (h : Inv s) {buf : Fin PoolSize} {slot : Nat}
    (hr : s.returning = .claimed buf slot)
    (horder : ¬ (s.allocating = .claimed slot ∧ s.pool.free_count_ = slot + 1)) :
    State.reserved { s with
      pool := { s.pool with free_list_ := Function.update s.pool.free_list_ slot buf }
      returning := .idle } = s.reserved := by
  rw [State.reserved, State.reserved, h.slots_write hr]
  cases ha : s.allocating with
  | claimed slot' => simp only [h.allocating_eq_of_order ha hr horder, if_true]
  | idle | loaded | readSlot => rfl

/-- The worker's `deallocate` writes the entry it has claimed. -/
theorem inv_returning_write {s : State PoolSize} (h : Inv s) {buf : Fin PoolSize} {slot : Nat}
    (hr : s.returning = .claimed buf slot)
    (horder : ¬ (s.allocating = .claimed slot ∧ s.pool.free_count_ = slot + 1)) :
    Inv { s with
      pool := { s.pool with free_list_ := Function.update s.pool.free_list_ slot buf }
      returning := .idle } := by
  have hslots := h.slots_write hr
  have hreserved := h.reserved_write hr horder
  refine ⟨h.places.of_count_eq fun a => ?_, h.sequential, ?_, ?_, ?_, ?_⟩
  · simp only [State.places, hslots, hreserved, hr]
    rfl
  · intro slot' ha
    exact Or.inl (h.allocating_eq_of_order ha hr horder)
  · intro buf' slot' hclaimed
    cases hclaimed
  · intro buf' slot' hd
    refine ⟨(h.dropping buf' slot' hd).1, fun buf'' hclaimed => ?_⟩
    cases hclaimed
  · rintro buf' count' (hloaded | hloaded)
    · exact h.loaded buf' count' (Or.inl hloaded)
    · cases hloaded

theorem inv_dropping {s : State PoolSize} (h : Inv s) {written : Option Nat}
    {p : BufferPool PoolSize} {pc : DeallocatePc PoolSize}
    (hstep : DeallocateStep s.pool s.dropping written p pc) :
    Inv { s with
      pool := p
      dropping := pc } := by
  obtain ⟨pool, allocating, dropping, returning, msg_buf, queued, worker_buf⟩ := s
  have hseq : allocating ≠ .idle → dropping = .idle ∧ msg_buf = none := h.sequential
  have hlt : ∀ {buf}, buf ∈ dropping.held → pool.free_count_ < PoolSize := fun hmem =>
    h.count_lt (List.mem_append_left _ hmem)
  -- both kinds of load leave the thread with a count below `PoolSize`
  have hload : ∀ {buf}, dropping.held = [buf] → dropping.Unclaimed → dropping ≠ .idle →
      Inv ⟨pool, allocating, .loaded buf pool.free_count_, returning, msg_buf, queued,
        worker_buf⟩ := by
    intro buf hheld hunclaimed hbusy
    refine inv_move h rfl rfl rfl (fun hne => absurd (hseq hne).1 hbusy)
      (Or.inr ⟨hunclaimed, by simp [DeallocatePc.Unclaimed]⟩) (Or.inl rfl) ?_ ?_
    · rintro buf' count (hloaded | hloaded)
      · cases hloaded
        exact hlt (by rw [hheld]; exact List.mem_singleton_self buf)
      · exact h.loaded buf' count (Or.inr hloaded)
    · intro a
      show (([buf] ++ returning.held) ++ _).count a
        = ((dropping.held ++ returning.held) ++ _).count a
      rw [hheld]
      rfl
  cases hstep with
  | load => exact hload rfl (by simp [DeallocatePc.Unclaimed]) (by simp)
  | compareExchangeFails _ => exact hload rfl (by simp [DeallocatePc.Unclaimed]) (by simp)
  | compareExchange _ heq => exact inv_dropping_claim h rfl heq
  | writeSlot => exact inv_dropping_write h rfl
  | overflow hfull => exact absurd (h.loaded _ _ (Or.inl rfl)) hfull

theorem inv_returning {s : State PoolSize} (h : Inv s) {written : Option Nat}
    {p : BufferPool PoolSize} {pc : DeallocatePc PoolSize}
    (hstep : DeallocateStep s.pool s.returning written p pc)
    (horder : ∀ slot ∈ written, ¬ (s.allocating = .claimed slot ∧ s.pool.free_count_ = slot + 1)) :
    Inv { s with
      pool := p
      returning := pc } := by
  obtain ⟨pool, allocating, dropping, returning, msg_buf, queued, worker_buf⟩ := s
  have hload : ∀ {buf}, returning.held = [buf] → returning.Unclaimed →
      Inv ⟨pool, allocating, dropping, .loaded buf pool.free_count_, msg_buf, queued,
        worker_buf⟩ := by
    intro buf hheld hunclaimed
    refine inv_move h rfl rfl rfl h.sequential (Or.inl rfl)
      (Or.inr ⟨hunclaimed, by simp [DeallocatePc.Unclaimed]⟩) ?_ ?_
    · rintro buf' count (hloaded | hloaded)
      · exact h.loaded buf' count (Or.inl hloaded)
      · cases hloaded
        have hmem : buf ∈ returning.held := by
          rw [hheld]
          exact List.mem_singleton_self buf
        exact h.count_lt (List.mem_append_right _ hmem)
    · intro a
      show ((dropping.held ++ [buf]) ++ _).count a
        = ((dropping.held ++ returning.held) ++ _).count a
      rw [hheld]
      rfl
  cases hstep with
  | load => exact hload rfl (by simp [DeallocatePc.Unclaimed])
  | compareExchangeFails _ => exact hload rfl (by simp [DeallocatePc.Unclaimed])
  | compareExchange _ heq => exact inv_returning_claim h rfl heq
  | writeSlot => exact inv_returning_write h rfl (horder _ rfl)
  | overflow hfull => exact absurd (h.loaded _ _ (Or.inr rfl)) hfull

/-- Every step that respects the order of the claims keeps the invariant. -/
theorem inv_step {es e : List (Event PoolSize)} {s t : State PoolSize} (h : Inv s)
    (hstep : Step s e t) (horder : SlotOrder es s e t) : Inv t := by
  have hkept : ∀ buf count, s.dropping = .loaded buf count ∨ s.returning = .loaded buf count →
      count < PoolSize := h.loaded
  cases hstep with
  | load ha hd hbuf => exact inv_load h (Or.inl ha) (Or.inr ⟨_, rfl⟩) fun _ => ⟨hd, hbuf⟩
  | exhausted ha => exact inv_load h (Or.inr ⟨_, ha⟩) (Or.inl rfl) fun hne => absurd rfl hne
  | compareExchange ha heq => exact inv_compareExchange h ha heq
  | compareExchangeFails ha =>
      exact inv_load h (Or.inr ⟨_, ha⟩) (Or.inr ⟨_, rfl⟩) fun _ => h.sequential (by simp [ha])
  | readSlot ha => exact inv_readSlot h ha (horder.1 _ (List.mem_singleton_self _))
  | markInUse ha => exact inv_markInUse h ha
  | enqueue hbuf =>
      refine inv_move h rfl rfl rfl (fun hne => ⟨(h.sequential hne).1, rfl⟩) (Or.inl rfl)
        (Or.inl rfl) hkept fun a => ?_
      simp only [State.owned, hbuf, Option.toList_some, Option.toList_none, List.count_append,
        List.count_nil]
      omega
  | drop hbuf hd =>
      refine inv_move h rfl rfl rfl (fun hne => ?_) (Or.inr ⟨by simp [hd, DeallocatePc.Unclaimed],
        by simp [DeallocatePc.Unclaimed]⟩) (Or.inl rfl) ?_ fun a => ?_
      · rw [(h.sequential hne).2] at hbuf
        cases hbuf
      · rintro buf count (hloaded | hloaded)
        · cases hloaded
        · exact hkept buf count (Or.inr hloaded)
      · simp only [State.owned, hbuf, hd, held_idle, held_marked, Option.toList_some,
          Option.toList_none, List.count_append, List.count_nil]
        omega
  | dropping hd => exact inv_dropping h hd
  | dequeue hq hbuf hr =>
      refine inv_move h rfl rfl rfl h.sequential (Or.inl rfl) (Or.inl rfl) hkept fun a => ?_
      simp only [State.owned, hq, hbuf, Option.toList_some, Option.toList_none, List.count_append,
        List.count_cons, List.count_nil]
      omega
  | release hbuf hr =>
      refine inv_move h rfl rfl rfl h.sequential (Or.inl rfl)
        (Or.inr ⟨by simp [hr, DeallocatePc.Unclaimed], by simp [DeallocatePc.Unclaimed]⟩) ?_
        fun a => ?_
      · rintro buf count (hloaded | hloaded)
        · exact hkept buf count (Or.inl hloaded)
        · cases hloaded
      · simp only [State.owned, hbuf, hr, held_idle, held_marked, Option.toList_some,
          Option.toList_none, List.count_append, List.count_nil]
        omega
  | returning hr =>
      exact inv_returning h hr fun slot hslot => horder.2 slot (by
        rw [Option.mem_def.mp hslot]
        exact List.mem_singleton_self _)

theorem inv_run {es : List (Event PoolSize)} {s : State PoolSize}
    (r : RunWhere (interleaving PoolSize) SlotOrder es s) : Inv s :=
  RunWhere.invariant (I := fun _ s => Inv s) (fun _ => inv_init)
    (fun _ _ _ _ h hstep horder => inv_step h hstep horder) r

/-! ## What the pool guarantees -/

/-- The buffer that `allocate` is about to return is nobody else's. -/
theorem Inv.notMem_owned {s : State PoolSize} (h : Inv s) {buf : Fin PoolSize}
    (ha : s.allocating = .readSlot buf) : buf ∉ s.owned := by
  have hplaces := h.places
  have hmem : buf ∈ stack s.slots s.pool.free_count_ ++ s.reserved ++ s.dropping.held ++
      s.returning.held := by
    simp only [State.reserved, ha, List.mem_append, List.mem_singleton, or_true, true_or]
  exact hplaces.notMem_right hmem

theorem Inv.quiescent {s : State PoolSize} (h : Inv s) (hq : s.Quiescent) :
    Each (s.pool.freeList ++ s.owned) := by
  obtain ⟨ha, hd, hr⟩ := hq
  have hplaces := h.places
  simp only [State.places, State.slots, State.reserved, ha, hd, hr, write_idle, held_idle,
    List.append_nil] at hplaces
  exact hplaces

/-- **The pool is sound as long as the two threads use an entry in the order in which they have
claimed it**: `allocate` returns no buffer that is still owned, and whenever no operation is in
progress the first `free_count_` entries of `free_list_` are pairwise distinct and are the
buffers nobody owns. -/
theorem pool_sound {es : List (Event PoolSize)} {s : State PoolSize}
    (r : RunWhere (interleaving PoolSize) SlotOrder es s) :
    (∀ buf t, Step s [.allocated buf] t → buf ∉ s.owned) ∧
    (s.Quiescent → s.pool.freeList.Nodup ∧ ∀ buf, buf ∈ s.pool.freeList ↔ buf ∉ s.owned) := by
  have h := inv_run r
  refine ⟨fun buf t hstep => ?_, fun hq => ?_⟩
  · generalize he : [Event.allocated buf] = e at hstep
    cases hstep with
    | markInUse ha =>
        cases he
        exact h.notMem_owned ha
    | returning hr =>
        rename_i written _ _
        cases written <;> cases he
    | _ => cases he
  · have heach := h.quiescent hq
    exact ⟨(List.nodup_append.mp heach.nodup).1, heach.mem_left_iff⟩

/-- A new pool of two buffers and two threads that have not started. -/
def twoBuffers : State 2 where
  pool := ⟨fun _ => .fresh, fun i => if i = 0 then 0 else 1, 2⟩
  allocating := .idle
  dropping := .idle
  returning := .idle
  msg_buf := none
  queued := []
  worker_buf := none

theorem twoBuffers_init : (interleaving 2).Init twoBuffers :=
  ⟨⟨by decide, rfl, fun _ => rfl⟩, rfl, rfl, rfl, rfl, rfl, rfl⟩

/-- Both threads have claimed entry 0, the subscriber first: it reads the entry before the worker
writes there the buffer it hands back. -/
theorem pool_sound_crossed : ∃ (es : List (Event 2)) (s : State 2),
    RunWhere (interleaving 2) SlotOrder es s ∧
    s.Quiescent ∧ s.pool.freeList = [1] ∧ s.owned = [0] ∧
    (∀ buf t, Step s [.allocated buf] t → buf ∉ s.owned) ∧
    (s.Quiescent → s.pool.freeList.Nodup ∧
      ∀ buf, buf ∈ s.pool.freeList ↔ buf ∉ s.owned) := by
  have hread : ∀ {es e : List (Event 2)} {s t : State 2} (i : Nat), e = [.readSlot i] →
      (∀ buf, s.returning = .claimed buf i → s.pool.free_count_ ≠ i) → SlotOrder es s e t := by
    rintro es e s t i rfl hfirst
    refine ⟨fun j hj => ?_, by simp⟩
    obtain rfl : j = i := by simpa using hj
    rintro ⟨⟨buf, hbuf⟩, hcount⟩
    exact hfirst buf hbuf hcount
  have hother : ∀ {es e : List (Event 2)} {s t : State 2}, (∀ i, .readSlot i ∉ e) →
      (∀ i, .wroteSlot i ∉ e) → SlotOrder es s e t := fun hnoRead hnoWrite =>
    ⟨fun i hi => absurd hi (hnoRead i), fun i hi => absurd hi (hnoWrite i)⟩
  have r₀ : RunWhere (interleaving 2) SlotOrder [] twoBuffers := .init twoBuffers_init
  -- the subscriber allocates buffer 1 and enqueues it, and claims entry 0
  have r₁ := r₀.step (.load rfl rfl rfl) (hother (by simp) (by simp))
  have r₂ := r₁.step (.compareExchange rfl rfl) (hother (by simp) (by simp))
  have r₃ := r₂.step (.readSlot rfl) (hread 1 rfl nofun)
  have r₄ := r₃.step (.markInUse rfl) (hother (by simp) (by simp))
  have r₅ := r₄.step (.enqueue rfl) (hother (by simp) (by simp))
  have r₆ := r₅.step (.load rfl rfl rfl) (hother (by simp) (by simp))
  have r₇ := r₆.step (.compareExchange rfl rfl) (hother (by simp) (by simp))
  -- the worker hands back buffer 1 up to the point where it has claimed entry 0, too
  have r₈ := r₇.step (.dequeue rfl rfl rfl) (hother (by simp) (by simp))
  have r₉ := r₈.step (.release rfl rfl) (hother (by simp) (by simp))
  have r₁₀ := r₉.step (.returning .load) (hother (by simp) (by simp))
  have r₁₁ := r₁₀.step (.returning (.compareExchange (by decide) rfl))
    (hother (by simp) (by simp))
  have r₁₂ := r₁₁.step (.readSlot rfl) (hread 0 rfl fun _ _ => by decide)
  have r₁₃ := r₁₂.step (.returning .writeSlot) ⟨by simp, fun i _ => by simp⟩
  have r₁₄ := r₁₃.step (.markInUse rfl) (hother (by simp) (by simp))
  exact ⟨_, _, r₁₄, ⟨rfl, rfl, rfl⟩, rfl, rfl, pool_sound r₁₄⟩

/-- Without the condition a buffer that waits in the message queue is handed out again. -/
theorem buffer_handed_out_twice : ∃ (es : List (Event 2)) (s t : State 2),
    Run (interleaving 2) es s ∧ Step s [.allocated 0] t ∧ s.queued = [0] ∧ 0 ∈ s.owned := by
  have r₀ : Run (interleaving 2) [] twoBuffers := .init twoBuffers_init
  -- the subscriber allocates buffer 1 and enqueues it
  have r₁ := r₀.step (.load rfl rfl rfl)
  have r₂ := r₁.step (.compareExchange rfl rfl)
  have r₃ := r₂.step (.readSlot rfl)
  have r₄ := r₃.step (.markInUse rfl)
  have r₅ := r₄.step (.enqueue rfl)
  -- it allocates buffer 0 from entry 0 and enqueues it
  have r₆ := r₅.step (.load rfl rfl rfl)
  have r₇ := r₆.step (.compareExchange rfl rfl)
  have r₈ := r₇.step (.readSlot rfl)
  have r₉ := r₈.step (.markInUse rfl)
  have r₁₀ := r₉.step (.enqueue rfl)
  -- the worker returns buffer 1 up to the point where it has claimed entry 0
  have r₁₁ := r₁₀.step (.dequeue rfl rfl rfl)
  have r₁₂ := r₁₁.step (.release rfl rfl)
  have r₁₃ := r₁₂.step (.returning .load)
  have r₁₄ := r₁₃.step (.returning (.compareExchange (by decide) rfl))
  -- the subscriber claims entry 0 and reads what was there before
  have r₁₅ := r₁₄.step (.load rfl rfl rfl)
  have r₁₆ := r₁₅.step (.compareExchange rfl rfl)
  have r₁₇ := r₁₆.step (.readSlot rfl)
  exact ⟨_, _, _, r₁₇, .markInUse rfl, rfl, List.mem_singleton_self 0⟩

end AeronReplay.BufferPool
