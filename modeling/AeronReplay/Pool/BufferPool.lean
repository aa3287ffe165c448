import AeronReplay.Lib.Places
import AeronReplay.Message.Buffer

set_option autoImplicit false

/-! # The buffer pool

`BufferPool<PoolSize>` (`BufferPool.h`): the buffers, an array of pointers to them and a
counter; the first `free_count_` entries of the array are the free buffers. The counters
`total_allocations_`, `total_deallocations_` and `allocation_failures_` are only printed and
are left out. -/

namespace AeronReplay

open Places

/-- A pointer handed to `deallocate`, as `isValidBuffer` sees it: null, not into the pool, or
the buffer of the pool. -/
inductive BufferPtr (PoolSize : Nat) where
  | null
  | foreign
  | buffer (b : Fin PoolSize)

/-- Only the entries of `free_list_` below `PoolSize` are used. -/
structure BufferPool (PoolSize : Nat) where
  buffers_ : Fin PoolSize → MessageBuffer
  free_list_ : Nat → Fin PoolSize
  free_count_ : Nat

namespace BufferPool

variable {PoolSize : Nat}

/-- The state that the constructor sets up. -/
structure Initial (p : BufferPool PoolSize) : Prop where
  free_list_ : ∀ i : Fin PoolSize, p.free_list_ i.val = i
  free_count_ : p.free_count_ = PoolSize
  in_use : ∀ b, (p.buffers_ b).in_use = false

/-- `buf->in_use.store(flag)`. -/
def storeInUse (p : BufferPool PoolSize) (buf : Fin PoolSize) (flag : Bool) :
    BufferPool PoolSize :=
  { p with buffers_ := Function.update p.buffers_ buf { p.buffers_ buf with in_use := flag } }

theorem storeInUse_self (p : BufferPool PoolSize) (buf : Fin PoolSize) (flag : Bool) :
    (p.storeInUse buf flag).buffers_ buf = { p.buffers_ buf with in_use := flag } :=
  Function.update_self _ _ _

theorem storeInUse_of_ne (p : BufferPool PoolSize) {buf b : Fin PoolSize} (hb : b ≠ buf)
    (flag : Bool) : (p.storeInUse buf flag).buffers_ b = p.buffers_ b :=
  Function.update_of_ne hb _ _

/-- `buf->reset()`. -/
def resetBuffer (p : BufferPool PoolSize) (buf : Fin PoolSize) : BufferPool PoolSize :=
  { p with buffers_ := Function.update p.buffers_ buf (p.buffers_ buf).reset }

/-- What a buffer is like when `allocate` has marked and reset it. -/
theorem resetBuffer_storeInUse (p : BufferPool PoolSize) (buf : Fin PoolSize) :
    ((p.storeInUse buf true).resetBuffer buf).buffers_
      = Function.update p.buffers_ buf { (p.buffers_ buf).reset with in_use := true } := by
  show Function.update (Function.update p.buffers_ buf _) buf
    (Function.update p.buffers_ buf _ buf).reset = _
  rw [Function.update_idem, Function.update_self]
  rfl

/-! ## The operations of one thread alone -/

def allocate (p : BufferPool PoolSize) : Option (Fin PoolSize) × BufferPool PoolSize :=
  let count := p.free_count_
  if 0 < count then
    let p := { p with free_count_ := count - 1 }
    let buf := p.free_list_ (count - 1)
    (some buf, (p.storeInUse buf true).resetBuffer buf)
  else (none, p)

def deallocate (p : BufferPool PoolSize) (buf : BufferPtr PoolSize) : BufferPool PoolSize :=
  match buf with
  | .null => p
  | .foreign => p
  | .buffer b =>
    let p := p.storeInUse b false
    let count := p.free_count_
    if count < PoolSize then
      { p with
        free_list_ := Function.update p.free_list_ count b
        free_count_ := count + 1 }
    -- "free list overflow": the buffer is not returned
    else p

/-- The free buffers, the next one to be handed out last. -/
def freeList (p : BufferPool PoolSize) : List (Fin PoolSize) := stack p.free_list_ p.free_count_

theorem Initial.each {p : BufferPool PoolSize} (h : p.Initial) : Each p.freeList := by
  rw [freeList, h.free_count_]
  exact each_stack_of_val h.free_list_

/-- `allocate` takes the buffer of the last free entry. -/
theorem allocate_eq {p : BufferPool PoolSize} {slot : Nat} (h : p.free_count_ = slot + 1) :
    p.allocate = (some (p.free_list_ slot), { p with
      buffers_ := Function.update p.buffers_ (p.free_list_ slot)
        { (p.buffers_ (p.free_list_ slot)).reset with in_use := true }
      free_count_ := slot }) := by
  obtain ⟨buffers, fl, count⟩ := p
  obtain rfl : count = slot + 1 := h
  exact Prod.ext rfl (congrArg (BufferPool.mk · fl slot)
    (resetBuffer_storeInUse ⟨buffers, fl, slot⟩ (fl slot)))

/-- `deallocate` stores the buffer in the first free entry. -/
theorem deallocate_eq {p : BufferPool PoolSize} (h : p.free_count_ < PoolSize)
    (b : Fin PoolSize) :
    p.deallocate (.buffer b) = { p.storeInUse b false with
      free_list_ := Function.update p.free_list_ p.free_count_ b
      free_count_ := p.free_count_ + 1 } := if_pos h

/-- `allocate` takes the last free buffer, marks it and resets it, and touches no other
buffer. It is refused only by an empty pool. -/
theorem allocate_spec (p : BufferPool PoolSize) :
    (p.freeList = [] ∧ p.allocate = (none, p)) ∨
      ∃ b, p.allocate.1 = some b ∧ p.freeList = p.allocate.2.freeList ++ [b] ∧
        p.allocate.2.buffers_
          = Function.update p.buffers_ b { (p.buffers_ b).reset with in_use := true } := by
  obtain ⟨buffers, fl, count⟩ := p
  cases count with
  | zero => exact Or.inl ⟨rfl, rfl⟩
  | succ count =>
      refine Or.inr ⟨fl count, rfl, stack_succ fl count, ?_⟩
      rw [allocate_eq (show (count + 1 : Nat) = count + 1 from rfl)]

/-- While a buffer of the pool is out there is room in the free list, and `deallocate` puts the
buffer there and marks it as not in use. -/
theorem deallocate_spec {p : BufferPool PoolSize} (h : p.free_count_ < PoolSize)
    (b : Fin PoolSize) :
    (p.deallocate (.buffer b)).freeList = p.freeList ++ [b] ∧
    (p.deallocate (.buffer b)).buffers_
      = Function.update p.buffers_ b { p.buffers_ b with in_use := false } := by
  rw [deallocate_eq h]
  exact ⟨stack_push p.free_list_ p.free_count_ b, rfl⟩

/-! ## The buffers that are out -/

/-- `buf` is written by the thread that has it. -/
def write (p : BufferPool PoolSize) (buf : Fin PoolSize) (b : MessageBuffer) :
    BufferPool PoolSize :=
  { p with buffers_ := Function.update p.buffers_ buf b }

/-- Every buffer is either free or one of the buffers `out`, and `in_use` says which. -/
structure Lends (p : BufferPool PoolSize) (out : List (Fin PoolSize)) : Prop where
  places : Each (p.freeList ++ out)
  in_use : ∀ b, (p.buffers_ b).in_use = true ↔ b ∉ p.freeList

variable {p : BufferPool PoolSize} {out : List (Fin PoolSize)}

theorem Initial.lends (h : p.Initial) : p.Lends [] where
  places := by
    rw [List.append_nil]
    exact h.each
  in_use b := by simp [h.in_use b, h.each.mem b]

/-- The order in which the buffers that are out are listed does not matter. -/
theorem Lends.of_count_eq (h : p.Lends out) {out' : List (Fin PoolSize)}
    (hcount : ∀ a, out'.count a = out.count a) : p.Lends out' where
  places := h.places.of_count_eq fun a => by rw [List.count_append, List.count_append, hcount]
  in_use := h.in_use

theorem Lends.in_use_of_mem (h : p.Lends out) {b : Fin PoolSize} (hb : b ∈ out) :
    (p.buffers_ b).in_use = true :=
  (h.in_use b).mpr fun hfree => h.places.notMem_right hfree hb

/-- While a buffer is out there is room in the free list. -/
theorem Lends.count_lt (h : p.Lends out) {b : Fin PoolSize} (hb : b ∈ out) :
    p.free_count_ < PoolSize := by
  have hlen := h.places.length_eq
  have hpos := List.length_pos_of_mem hb
  rw [List.length_append, freeList, length_stack] at hlen
  omega

/-- `allocate` lends a buffer that was free, reset and marked, and leaves the others alone. -/
theorem Lends.allocate (h : p.Lends out) {b : Fin PoolSize} {p' : BufferPool PoolSize}
    (halloc : p.allocate = (some b, p')) :
    p'.Lends (b :: out) ∧ p'.buffers_ b = { (p.buffers_ b).reset with in_use := true } ∧
      ∀ a ≠ b, p'.buffers_ a = p.buffers_ a := by
  obtain ⟨-, hnone⟩ | ⟨b', hsome, hfree, hbuffers⟩ := allocate_spec p
  · rw [hnone] at halloc
    cases halloc
  rw [halloc] at hsome hfree hbuffers
  obtain rfl : b = b' := Option.some.inj hsome
  have hself : p'.buffers_ b = { (p.buffers_ b).reset with in_use := true } := by
    rw [hbuffers, Function.update_self]
  have hother : ∀ a ≠ b, p'.buffers_ a = p.buffers_ a := fun a ha => by
    rw [hbuffers, Function.update_of_ne ha]
  have hplaces : Each (p'.freeList ++ b :: out) := by
    refine h.places.of_count_eq fun a => ?_
    rw [hfree, List.append_assoc]
    rfl
  refine ⟨⟨hplaces, fun a => ?_⟩, hself, hother⟩
  by_cases ha : a = b
  · rw [ha, hself]
    exact iff_of_true rfl fun hmem => hplaces.notMem_right hmem List.mem_cons_self
  · rw [hother a ha, h.in_use a, hfree, List.mem_append, List.mem_singleton]
    simp [ha]

/-- `deallocate` of a buffer that is out puts it back; the free list does not overflow. -/
theorem Lends.deallocate {b : Fin PoolSize} (h : p.Lends (b :: out)) :
    (p.deallocate (.buffer b)).Lends out ∧
      ∀ a ≠ b, (p.deallocate (.buffer b)).buffers_ a = p.buffers_ a := by
  obtain ⟨hfree, hbuffers⟩ := deallocate_spec (h.count_lt List.mem_cons_self) b
  have hother : ∀ a ≠ b, (p.deallocate (.buffer b)).buffers_ a = p.buffers_ a := fun a ha => by
    rw [hbuffers, Function.update_of_ne ha]
  refine ⟨⟨h.places.of_count_eq fun a => ?_, fun a => ?_⟩, hother⟩
  · rw [hfree, List.append_assoc]
    rfl
  · rw [hfree, List.mem_append, List.mem_singleton]
    by_cases ha : a = b
    · rw [ha, hbuffers, Function.update_self]
      simp
    · rw [hother a ha, h.in_use a]
      simp [ha]

/-- Writing a buffer without touching `in_use`. -/
theorem Lends.write (h : p.Lends out) (buf : Fin PoolSize) {b : MessageBuffer}
    (hflag : b.in_use = (p.buffers_ buf).in_use) :
    (p.write buf b).Lends out ∧ (p.write buf b).buffers_ buf = b ∧
      ∀ a ≠ buf, (p.write buf b).buffers_ a = p.buffers_ a := by
  have hself : (p.write buf b).buffers_ buf = b := Function.update_self _ _ _
  have hother : ∀ a ≠ buf, (p.write buf b).buffers_ a = p.buffers_ a := fun a ha =>
    Function.update_of_ne ha _ _
  refine ⟨⟨h.places, fun a => ?_⟩, hself, hother⟩
  by_cases ha : a = buf
  · rw [ha, hself, hflag]
    exact h.in_use buf
  · rw [hother a ha]
    exact h.in_use a

end BufferPool

end AeronReplay
