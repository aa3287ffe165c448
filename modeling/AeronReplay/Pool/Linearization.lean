import AeronReplay.Pool.Interleaving

set_option autoImplicit false

/-! # The calls of the pool as single steps

In a run that respects `SlotOrder`, every call of `allocate` and `deallocate` can be taken to
happen at one moment: when the call claims its entry, or, for an `allocate` that is refused, when
it finds `free_count_` at zero. `State.atomic` is the pool as it would then be: the pending writes
to `free_list_` are done, a reserved buffer is reset and marked, and a buffer whose `deallocate`
has not claimed an entry is still marked. Each access of a call either leaves this pool alone or
does to it what the whole call does (`atomic_compareExchange`, `atomic_claim`). -/

namespace AeronReplay.BufferPool

open Transition Places

variable {PoolSize : Nat} {s t : State PoolSize}

/-! ## The pool between the calls -/

/-- The buffers whose `deallocate` has not claimed an entry yet. -/
def State.leaving (s : State PoolSize) : List (Fin PoolSize) :=
  s.dropping.held ++ s.returning.held

/-- The buffer as it is when the calls in progress have not been made or are done. -/
def State.contents (s : State PoolSize) (b : Fin PoolSize) : MessageBuffer :=
  if b ∈ s.reserved then { (s.pool.buffers_ b).reset with in_use := true }
  else if b ∈ s.leaving then { s.pool.buffers_ b with in_use := true }
  else s.pool.buffers_ b

theorem contents_reserved {b : Fin PoolSize} (hb : b ∈ s.reserved) :
    s.contents b = { (s.pool.buffers_ b).reset with in_use := true } := if_pos hb

theorem contents_of_notMem {b : Fin PoolSize} (hb : b ∉ s.reserved) :
    s.contents b = if b ∈ s.leaving then { s.pool.buffers_ b with in_use := true }
      else s.pool.buffers_ b := if_neg hb

/-- The pool as it is when every call is made in one step. -/
def State.atomic (s : State PoolSize) : BufferPool PoolSize where
  buffers_ := s.contents
  free_list_ := s.slots
  free_count_ := s.pool.free_count_

theorem State.atomic_quiescent (h : s.Quiescent) : s.atomic = s.pool := by
  obtain ⟨⟨buffers, fl, count⟩, allocating, dropping, returning, msg_buf, queued, worker_buf⟩ := s
  obtain ⟨rfl, rfl, rfl⟩ := h
  rfl

/-- What decides what the pool is like. -/
theorem atomic_congr (hslots : t.slots = s.slots)
    (hcount : t.pool.free_count_ = s.pool.free_count_) (hreserved : t.reserved = s.reserved)
    (hleaving : t.leaving = s.leaving) (hbuffers : t.pool.buffers_ = s.pool.buffers_) :
    t.atomic = s.atomic := by
  have hcontents : t.contents = s.contents := by
    funext b
    rw [State.contents, State.contents, hreserved, hleaving, hbuffers]
  rw [State.atomic, State.atomic, hcontents, hslots, hcount]

/-- `in_use` is set for the buffers that are out and not on their way back. -/
def State.InUse (s : State PoolSize) : Prop :=
  ∀ b, (s.pool.buffers_ b).in_use = true ↔ b ∈ s.owned

/-- What holds in every run that respects the order of the claims. -/
structure Sound (s : State PoolSize) : Prop extends Inv s where
  inUse : s.InUse

theorem sound_init (h : (interleaving PoolSize).Init s) : Sound s := by
  refine ⟨inv_init h, fun b => ?_⟩
  obtain ⟨hpool, -, -, -, hmsg, hqueued, hworker⟩ := h
  simp [State.owned, hmsg, hqueued, hworker, hpool.in_use b]

/-! ## Who has a buffer -/

theorem Sound.notMem_reserved (h : Sound s) {b : Fin PoolSize} (hb : b ∈ s.owned) :
    b ∉ s.reserved := by
  intro hres
  refine h.places.notMem_right ?_ hb
  simp only [List.mem_append, hres, or_true, true_or]

theorem Sound.notMem_leaving (h : Sound s) {b : Fin PoolSize} (hb : b ∈ s.owned) :
    b ∉ s.leaving := by
  intro hleaving
  refine h.places.notMem_right ?_ hb
  simp only [List.mem_append]
  rcases List.mem_append.mp hleaving with hmem | hmem
  · exact .inl (.inr hmem)
  · exact .inr hmem

/-- A buffer that is owned is as it is. -/
theorem Sound.contents_owned (h : Sound s) {b : Fin PoolSize} (hb : b ∈ s.owned) :
    s.contents b = s.pool.buffers_ b := by
  rw [State.contents, if_neg (h.notMem_reserved hb), if_neg (h.notMem_leaving hb)]

/-- A buffer that is reserved is not on its way back. -/
theorem Inv.reserved_notMem_leaving (h : Inv s) {b : Fin PoolSize} (hb : b ∈ s.reserved) :
    b ∉ s.leaving := by
  intro hleaving
  have hplaces : Each ((stack s.slots s.pool.free_count_ ++ s.reserved) ++
      (s.leaving ++ s.owned)) := h.places.of_count_eq fun a => by
    simp only [State.places, State.leaving, List.append_assoc]
  exact hplaces.notMem_right (List.mem_append_right _ hb) (List.mem_append_left _ hleaving)

/-- Without an `allocate` in progress no header differs. -/
theorem header_contents (hreserved : s.reserved = []) (b : Fin PoolSize) :
    (s.contents b).header = (s.pool.buffers_ b).header := by
  rw [State.contents, hreserved, if_neg List.not_mem_nil]
  split <;> rfl

/-! ## The calls of `allocate` -/

/-- `allocate` is refused when it finds `free_count_` at zero. -/
theorem atomic_exhausted (hcount : s.pool.free_count_ = 0) :
    s.atomic.allocate = (none, s.atomic) := by
  show (if 0 < s.pool.free_count_ then _ else (none, s.atomic)) = _
  rw [hcount, if_neg (Nat.lt_irrefl 0)]

/-- **The claim of `allocate` is the whole call.** -/
theorem atomic_compareExchange (h : Sound s) {slot : Nat}
    (ha : s.allocating = .loaded (slot + 1)) (heq : s.pool.free_count_ = slot + 1) :
    s.atomic.allocate = (some (s.slots slot), State.atomic { s with
      pool := { s.pool with free_count_ := slot }
      allocating := .claimed slot }) := by
  have hnone : s.reserved = [] := by simp only [State.reserved, ha]
  have hreserved : State.reserved { s with
      pool := { s.pool with free_count_ := slot }
      allocating := .claimed slot } = [s.slots slot] := by
    simp only [State.reserved, State.slots, if_true]
  -- the buffer has been free, so that no `deallocate` is about to return it
  have hfree : s.slots slot ∉ s.leaving := by
    have hinv := inv_compareExchange h.toInv ha heq
    exact hinv.reserved_notMem_leaving (by rw [hreserved]; exact List.mem_singleton_self _)
  have hbuffer : s.contents (s.slots slot) = s.pool.buffers_ (s.slots slot) := by
    rw [State.contents, hnone, if_neg List.not_mem_nil, if_neg hfree]
  have hcontents : State.contents { s with
      pool := { s.pool with free_count_ := slot }
      allocating := .claimed slot }
      = Function.update s.contents (s.slots slot)
        { (s.pool.buffers_ (s.slots slot)).reset with in_use := true } := by
    funext b
    by_cases hb : b = s.slots slot
    · rw [hb, Function.update_self, State.contents, hreserved,
        if_pos (List.mem_singleton_self _)]
    · rw [Function.update_of_ne hb, State.contents, State.contents, hreserved, hnone,
        if_neg (mt List.mem_singleton.mp hb), if_neg List.not_mem_nil]
      rfl
  rw [allocate_eq (show s.atomic.free_count_ = slot + 1 from heq), State.atomic, State.atomic,
    hcontents, ← hbuffer]
  rfl

/-- The entry that is read names the buffer that has been taken. -/
theorem atomic_readSlot (h : Inv s) {slot : Nat} (ha : s.allocating = .claimed slot)
    (horder : ¬ ((∃ buf, s.returning = .claimed buf slot) ∧ s.pool.free_count_ = slot)) :
    State.atomic { s with allocating := .readSlot (s.pool.free_list_ slot) } = s.atomic :=
  atomic_congr rfl rfl (h.reserved_claimed ha horder).symm rfl rfl

theorem atomic_markInUse (h : Inv s) {b : Fin PoolSize} (ha : s.allocating = .readSlot b) :
    State.atomic { s with
      pool := (s.pool.storeInUse b true).resetBuffer b
      allocating := .idle
      msg_buf := some b } = s.atomic := by
  have hreserved : s.reserved = [b] := by simp only [State.reserved, ha]
  have hcontents : State.contents { s with
      pool := (s.pool.storeInUse b true).resetBuffer b
      allocating := .idle
      msg_buf := some b } = s.contents := by
    funext a
    rw [contents_of_notMem (List.not_mem_nil)]
    by_cases hab : a = b
    · have hmem : a ∈ s.reserved := by rw [hreserved, hab]; exact List.mem_singleton_self b
      rw [contents_reserved hmem, resetBuffer_storeInUse, hab, Function.update_self]
      exact if_neg (hab ▸ h.reserved_notMem_leaving hmem)
    · have hmem : a ∉ s.reserved := by
        rw [hreserved]
        exact mt List.mem_singleton.mp hab
      rw [contents_of_notMem hmem, resetBuffer_storeInUse, Function.update_of_ne hab]
      rfl
  rw [State.atomic, State.atomic, hcontents]
  rfl

/-! ## The calls of `deallocate` -/

theorem set_in_use_self {m : MessageBuffer} (h : m.in_use = true) :
    { m with in_use := true } = m := by
  cases m
  subst h
  rfl

/-- Clearing `in_use` does not count before the claim. -/
theorem atomic_mark (h : Sound s) {b : Fin PoolSize} (hb : b ∈ s.owned)
    (hpool : t.pool = s.pool.storeInUse b false) (hslots : t.slots = s.slots)
    (hreserved : t.reserved = s.reserved)
    (hleaving : ∀ a, a ∈ t.leaving ↔ a = b ∨ a ∈ s.leaving) : t.atomic = s.atomic := by
  have hcontents : t.contents = s.contents := by
    funext a
    by_cases hab : a = b
    · subst hab
      rw [h.contents_owned hb, contents_of_notMem (hreserved ▸ h.notMem_reserved hb),
        if_pos ((hleaving a).mpr (.inl rfl)), hpool, storeInUse_self]
      exact set_in_use_self ((h.inUse a).mpr hb)
    · have hsame : t.pool.buffers_ a = s.pool.buffers_ a := by
        rw [hpool, storeInUse_of_ne _ hab]
      have hmem : a ∈ t.leaving ↔ a ∈ s.leaving := by
        rw [hleaving, or_iff_right hab]
      simp only [State.contents, hreserved, hmem, hsame]
  rw [State.atomic, State.atomic, hcontents, hslots, hpool]
  rfl

/-- **The claim of `deallocate` is the whole call.** -/
theorem atomic_claim (h : Sound s) {b : Fin PoolSize} (hb : b ∈ s.leaving)
    (hbuffers : t.pool.buffers_ = s.pool.buffers_)
    (hcount : t.pool.free_count_ = s.pool.free_count_ + 1)
    (hslots : t.slots = Function.update s.slots s.pool.free_count_ b)
    (hreserved : t.reserved = s.reserved)
    (hleaving : ∀ a, a ∈ t.leaving ↔ a ≠ b ∧ a ∈ s.leaving) :
    t.atomic = s.atomic.deallocate (.buffer b) := by
  have hnotres : b ∉ s.reserved := fun hres => h.reserved_notMem_leaving hres hb
  have hflag : (s.pool.buffers_ b).in_use = false := by
    rw [Bool.eq_false_iff, ne_eq, h.inUse]
    exact fun howned => h.notMem_leaving howned hb
  have hcontents : t.contents
      = Function.update s.contents b { s.contents b with in_use := false } := by
    funext a
    by_cases hab : a = b
    · subst hab
      rw [Function.update_self, contents_of_notMem hnotres,
        contents_of_notMem (hreserved ▸ hnotres), hbuffers, if_pos hb,
        if_neg fun hmem => ((hleaving a).mp hmem).1 rfl]
      show s.pool.buffers_ a = { s.pool.buffers_ a with in_use := false }
      rw [← hflag]
    · have hmem : a ∈ t.leaving ↔ a ∈ s.leaving := by
        rw [hleaving, and_iff_right hab]
      rw [Function.update_of_ne hab]
      simp only [State.contents, hreserved, hmem, hbuffers]
  rw [deallocate_eq (show s.atomic.free_count_ < PoolSize from h.count_lt hb), State.atomic,
    hcontents, hslots, hcount]
  rfl

theorem atomic_drop (h : Sound s) {b : Fin PoolSize} (hbuf : s.msg_buf = some b)
    (hd : s.dropping = .idle) :
    State.atomic { s with
      pool := s.pool.storeInUse b false
      dropping := .marked b
      msg_buf := none } = s.atomic := by
  have howned : b ∈ s.owned := by simp [State.owned, hbuf]
  obtain ⟨pool, allocating, dropping, returning, msg_buf, queued, worker_buf⟩ := s
  obtain rfl : dropping = .idle := hd
  refine atomic_mark h howned rfl rfl rfl fun a => ?_
  simp only [State.leaving, held_idle, held_marked, List.mem_append, List.mem_singleton,
    List.nil_append]

theorem atomic_release (h : Sound s) {b : Fin PoolSize} (hbuf : s.worker_buf = some b)
    (hr : s.returning = .idle) :
    State.atomic { s with
      pool := s.pool.storeInUse b false
      returning := .marked b
      worker_buf := none } = s.atomic := by
  have howned : b ∈ s.owned := by simp [State.owned, hbuf]
  obtain ⟨pool, allocating, dropping, returning, msg_buf, queued, worker_buf⟩ := s
  obtain rfl : returning = .idle := hr
  refine atomic_mark h howned rfl rfl rfl fun a => ?_
  simp only [State.leaving, held_idle, held_marked, List.mem_append, List.mem_singleton,
    List.append_nil, or_comm]

/-- The two threads return different buffers. -/
theorem Inv.notMem_returning (h : Inv s) {b : Fin PoolSize} (hb : b ∈ s.dropping.held) :
    b ∉ s.returning.held := by
  intro hr
  have hplaces : Each ((stack s.slots s.pool.free_count_ ++ s.reserved ++ s.dropping.held) ++
      (s.returning.held ++ s.owned)) := h.places.of_count_eq fun a => by
    simp only [State.places, List.append_assoc]
  exact hplaces.notMem_right (List.mem_append_right _ hb) (List.mem_append_left _ hr)

/-- An access of the subscriber's `deallocate` does nothing or is the whole call. -/
theorem atomic_dropping (h : Sound s) {written : Option Nat} {p : BufferPool PoolSize}
    {pc : DeallocatePc PoolSize} (hstep : DeallocateStep s.pool s.dropping written p pc) :
    (pc.held = s.dropping.held ∧
        State.atomic { s with pool := p, dropping := pc } = s.atomic) ∨
      ∃ b, s.dropping.held = [b] ∧ pc.held = [] ∧
        State.atomic { s with pool := p, dropping := pc } = s.atomic.deallocate (.buffer b) := by
  obtain ⟨pool, allocating, dropping, returning, msg_buf, queued, worker_buf⟩ := s
  have hidle : dropping ≠ .idle → allocating = .idle := h.idle_of_dropping
  cases hstep with
  | load | compareExchangeFails => exact .inl ⟨rfl, rfl⟩
  | writeSlot =>
      obtain rfl := hidle (by simp)
      exact .inl ⟨rfl, rfl⟩
  | overflow hfull => exact absurd (h.loaded _ _ (Or.inl rfl)) hfull
  | @compareExchange b count hroom heq =>
      obtain rfl := hidle (by simp)
      obtain rfl : pool.free_count_ = count := heq
      have hb : b ∉ returning.held := h.notMem_returning (List.mem_singleton_self b)
      refine .inr ⟨b, rfl, rfl, atomic_claim h (List.mem_cons_self) rfl rfl ?_ rfl fun a => ?_⟩
      · exact write_update _ fun buf slot hr => Nat.ne_of_lt (h.returning_lt rfl hr)
      · show a ∈ returning.held ↔ a ≠ b ∧ a ∈ b :: returning.held
        rw [List.mem_cons]
        constructor
        · intro ha
          exact ⟨fun hab => hb (hab ▸ ha), .inr ha⟩
        · rintro ⟨hne, ha⟩
          exact ha.resolve_left hne

/-- The worker's `deallocate` does not change what is reserved. -/
theorem reserved_returning (h : Inv s) {written : Option Nat} {p : BufferPool PoolSize}
    {pc : DeallocatePc PoolSize} (hstep : DeallocateStep s.pool s.returning written p pc)
    (horder : ∀ slot ∈ written,
      ¬ (s.allocating = .claimed slot ∧ s.pool.free_count_ = slot + 1)) :
    State.reserved { s with pool := p, returning := pc } = s.reserved := by
  obtain ⟨pool, allocating, dropping, returning, msg_buf, queued, worker_buf⟩ := s
  cases hstep with
  | load | compareExchangeFails | overflow => rfl
  | writeSlot => exact h.reserved_write rfl (horder _ rfl)
  | compareExchange hroom heq => exact h.reserved_claim rfl heq

/-- An access of the worker's `deallocate` does nothing or is the whole call. -/
theorem atomic_returning (h : Sound s) {written : Option Nat} {p : BufferPool PoolSize}
    {pc : DeallocatePc PoolSize} (hstep : DeallocateStep s.pool s.returning written p pc)
    (horder : ∀ slot ∈ written,
      ¬ (s.allocating = .claimed slot ∧ s.pool.free_count_ = slot + 1)) :
    (pc.held = s.returning.held ∧
        State.atomic { s with pool := p, returning := pc } = s.atomic) ∨
      ∃ b, s.returning.held = [b] ∧ pc.held = [] ∧
        State.atomic { s with pool := p, returning := pc } = s.atomic.deallocate (.buffer b) := by
  obtain ⟨pool, allocating, dropping, returning, msg_buf, queued, worker_buf⟩ := s
  cases hstep with
  | load | compareExchangeFails => exact .inl ⟨rfl, rfl⟩
  | writeSlot =>
      exact .inl ⟨rfl, atomic_congr (h.slots_write rfl) rfl
        (h.reserved_write rfl (horder _ rfl)) rfl rfl⟩
  | overflow hfull => exact absurd (h.loaded _ _ (Or.inr rfl)) hfull
  | @compareExchange b count hroom heq =>
      have hb : b ∉ dropping.held := fun hd =>
        h.notMem_returning hd (List.mem_singleton_self b)
      have hreserved := h.reserved_claim rfl heq
      obtain rfl : pool.free_count_ = count := heq
      refine .inr ⟨b, rfl, rfl, atomic_claim h (List.mem_append_right _ (List.mem_singleton_self b))
        rfl rfl rfl hreserved fun a => ?_⟩
      show a ∈ dropping.held ++ [] ↔ a ≠ b ∧ a ∈ dropping.held ++ [b]
      rw [List.append_nil, List.mem_append, List.mem_singleton]
      constructor
      · intro ha
        exact ⟨fun hab => hb (hab ▸ ha), .inl ha⟩
      · rintro ⟨hne, ha⟩
        exact ha.resolve_right hne

/-! ## The contents of the buffers -/

/-- Writing a buffer that is owned. -/
theorem atomic_write (h : Sound s) {b : Fin PoolSize} (hb : b ∈ s.owned) (m : MessageBuffer) :
    State.atomic { s with pool := s.pool.write b m } = s.atomic.write b m := by
  have hcontents : State.contents { s with pool := s.pool.write b m }
      = Function.update s.contents b m := by
    funext a
    by_cases hab : a = b
    · subst hab
      have hself : State.contents { s with pool := s.pool.write a m } a
          = (s.pool.write a m).buffers_ a := by
        show (if a ∈ s.reserved then _ else if a ∈ s.leaving then _ else _) = _
        rw [if_neg (h.notMem_reserved hb), if_neg (h.notMem_leaving hb)]
      rw [hself, Function.update_self]
      exact Function.update_self _ _ _
    · have hsame : (s.pool.write b m).buffers_ a = s.pool.buffers_ a :=
        Function.update_of_ne hab _ _
      rw [Function.update_of_ne hab]
      show (if a ∈ s.reserved then { ((s.pool.write b m).buffers_ a).reset with in_use := true }
        else if a ∈ s.leaving then { (s.pool.write b m).buffers_ a with in_use := true }
        else (s.pool.write b m).buffers_ a) = _
      rw [hsame]
      rfl
  rw [State.atomic, hcontents]
  rfl

/-! ## Runs -/

theorem Sound.write (h : Sound s) {b : Fin PoolSize} {m : MessageBuffer}
    (hflag : m.in_use = (s.pool.buffers_ b).in_use) :
    Sound { s with pool := s.pool.write b m } where
  toInv := ⟨h.places, h.sequential, h.allocating, h.returning, h.dropping, h.loaded⟩
  inUse a := by
    by_cases hab : a = b
    · subst hab
      show ((Function.update s.pool.buffers_ a m) a).in_use = true ↔ _
      rw [Function.update_self, hflag]
      exact h.inUse a
    · show ((Function.update s.pool.buffers_ b m) a).in_use = true ↔ _
      rw [Function.update_of_ne hab]
      exact h.inUse a

theorem Inv.nodup_owned (h : Inv s) : s.owned.Nodup :=
  (List.nodup_append.mp h.places.nodup).2.1

theorem Sound.inUse_step (h : Sound s) {e : List (Event PoolSize)} (hstep : Step s e t) :
    t.InUse := by
  have hnodup := h.nodup_owned
  have hinUse := h.inUse
  have hdealloc : ∀ {p : BufferPool PoolSize} {pc pc' : DeallocatePc PoolSize}
      {written : Option Nat}, DeallocateStep s.pool pc written p pc' →
        p.buffers_ = s.pool.buffers_ := fun hd => by
    cases hd with
    | _ => rfl
  intro a
  cases hstep with
  | load | exhausted | compareExchange | compareExchangeFails | readSlot => exact hinUse a
  | @markInUse b ha =>
      have hnone := (h.sequential (by simp [ha])).2
      have howned := hinUse a
      simp only [State.owned, hnone, Option.toList_none, Option.toList_some,
        resetBuffer_storeInUse, List.mem_append, List.mem_singleton, List.not_mem_nil,
        false_or] at howned ⊢
      by_cases hab : a = b
      · rw [hab, Function.update_self]
        exact iff_of_true rfl (.inl (.inl rfl))
      · rw [Function.update_of_ne hab, howned, or_assoc, or_iff_right hab]
  | enqueue hbuf =>
      have howned := hinUse a
      simp only [State.owned, hbuf, Option.toList_none, Option.toList_some, List.mem_append,
        List.mem_singleton, List.not_mem_nil, false_or] at howned ⊢
      rw [howned]
      tauto
  | @drop b hbuf hd =>
      have howned := hinUse a
      simp only [State.owned, hbuf, Option.toList_none, Option.toList_some, List.nil_append,
        List.cons_append, List.mem_cons] at howned hnodup ⊢
      by_cases hab : a = b
      · rw [hab, storeInUse_self]
        exact iff_of_false Bool.false_ne_true (List.nodup_cons.mp hnodup).1
      · rw [storeInUse_of_ne _ hab, howned, or_iff_right hab]
  | dropping hd => exact (hdealloc hd).symm ▸ hinUse a
  | @dequeue b queued hq hbuf hr =>
      have howned := hinUse a
      simp only [State.owned, hq, hbuf, Option.toList_none, Option.toList_some, List.mem_append,
        List.mem_cons, List.not_mem_nil, or_false] at howned ⊢
      rw [howned]
      tauto
  | @release b hbuf hr =>
      have howned := hinUse a
      simp only [State.owned, hbuf, Option.toList_none, Option.toList_some, List.append_nil,
        List.mem_append, List.mem_singleton] at howned hnodup ⊢
      by_cases hab : a = b
      · rw [hab, storeInUse_self]
        refine iff_of_false Bool.false_ne_true fun hmem => ?_
        exact (List.nodup_append.mp hnodup).2.2 b (List.mem_append.mpr hmem) b
          (List.mem_singleton_self b) rfl
      · rw [storeInUse_of_ne _ hab, howned, or_iff_left hab]
  | returning hr => exact (hdealloc hr).symm ▸ hinUse a

/-- Only the accesses of entries can be out of order. -/
theorem slotOrder_of_notMem {es e : List (Event PoolSize)} (hr : ∀ i, .readSlot i ∉ e)
    (hw : ∀ i, .wroteSlot i ∉ e) : SlotOrder es s e t :=
  ⟨fun i hi => absurd hi (hr i), fun i hi => absurd hi (hw i)⟩

theorem slotOrder_nil {es : List (Event PoolSize)} : SlotOrder es s [] t :=
  slotOrder_of_notMem (fun _ => List.not_mem_nil) fun _ => List.not_mem_nil

/-- Loading `free_count_` in `allocate`. -/
theorem Sound.load (h : Sound s) (ha : s.allocating.Unclaimed) {pc : AllocatePc PoolSize}
    (hpc : pc.Unclaimed) (hseq : s.dropping = .idle ∧ s.msg_buf = none) :
    Sound { s with allocating := pc } :=
  ⟨inv_load h.toInv ha hpc fun _ => hseq, h.inUse⟩

/-- The buffers in the queue and the one that is going to be put there are in the pool. -/
theorem Inv.length_queued_lt (h : Inv s) {b : Fin PoolSize} (hbuf : s.msg_buf = some b) :
    s.queued.length < PoolSize := by
  have hlength := h.places.length_eq
  simp only [State.places, State.owned, hbuf, Option.toList_some, List.length_append,
    List.length_singleton] at hlength
  omega

theorem Sound.step (h : Sound s) {e : List (Event PoolSize)} (hstep : Step s e t)
    (horder : SlotOrder [] s e t) : Sound t :=
  ⟨inv_step h.toInv hstep horder, h.inUse_step hstep⟩

/-! ## Calls that are made alone -/

/-- From `pc` on, `deallocate` goes to its end, the other thread standing still; `written` is the
entry it writes, if there is room. -/
inductive Deallocates :
    BufferPool PoolSize → DeallocatePc PoolSize → Option Nat → BufferPool PoolSize → Prop
  | last {p p' : BufferPool PoolSize} {pc : DeallocatePc PoolSize} {written : Option Nat}
      (h : DeallocateStep p pc written p' .idle) : Deallocates p pc written p'
  | head {p p₁ p' : BufferPool PoolSize} {pc pc₁ : DeallocatePc PoolSize} {written : Option Nat}
      (h : DeallocateStep p pc none p₁ pc₁) (hbusy : pc₁ ≠ .idle)
      (rest : Deallocates p₁ pc₁ written p') : Deallocates p pc written p'

/-- Alone, the accesses of `deallocate` do what the call does in one step. -/
theorem deallocates_marked (p : BufferPool PoolSize) (b : Fin PoolSize) :
    Deallocates (p.storeInUse b false) (.marked b)
      (if p.free_count_ < PoolSize then some p.free_count_ else none)
      (p.deallocate (.buffer b)) := by
  by_cases hroom : p.free_count_ < PoolSize
  · rw [deallocate_eq hroom, if_pos hroom]
    exact .head .load (by simp) (.head (.compareExchange hroom rfl) (by simp) (.last .writeSlot))
  · have hfull : p.deallocate (.buffer b) = p.storeInUse b false := if_neg hroom
    rw [hfull, if_neg hroom]
    exact .head .load (by simp) (.last (.overflow hroom))

/-- Wherever it is, `deallocate` comes to its end. -/
theorem exists_deallocates {pc : DeallocatePc PoolSize} (h : pc ≠ .idle)
    (p : BufferPool PoolSize) : ∃ written p', Deallocates p pc written p' := by
  have hcurrent : ∀ b, ∃ written p', Deallocates p (.loaded b p.free_count_) written p' :=
    fun b => by
      by_cases hroom : p.free_count_ < PoolSize
      · exact ⟨_, _, .head (.compareExchange hroom rfl) (by simp) (.last .writeSlot)⟩
      · exact ⟨_, _, .last (.overflow hroom)⟩
  cases pc with
  | idle => exact absurd rfl h
  | marked b =>
      obtain ⟨written, p', hrest⟩ := hcurrent b
      exact ⟨written, p', .head .load (by simp) hrest⟩
  | loaded b count =>
      by_cases hroom : count < PoolSize
      · obtain ⟨written, p', hrest⟩ := hcurrent b
        exact ⟨written, p', .head (.compareExchangeFails hroom) (by simp) hrest⟩
      · exact ⟨_, _, .last (.overflow hroom)⟩
  | claimed b slot => exact ⟨_, _, .last .writeSlot⟩

end AeronReplay.BufferPool
