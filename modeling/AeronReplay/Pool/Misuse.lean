import AeronReplay.Pool.BufferPool
import AeronReplay.Lib.Transition
import Mathlib.Data.List.Induction

set_option autoImplicit false

/-! # Misuse of the buffer pool

A sequence of `allocate` and `deallocate` calls in which any pointer may be handed back. The guards
of `deallocate` catch a null pointer, a foreign one, and a free buffer while all buffers are free;
`in_use` is written but not tested. `sound_iff` says that the pool stays in order along a run
exactly if every pool buffer that is handed back was out, or all buffers were free. -/

namespace AeronReplay

open Places Transition

namespace BufferPool

variable {PoolSize : Nat}

/-! ## Runs -/

/-- A call of the pool's interface. -/
inductive Call (PoolSize : Nat) where
  | allocate
  | deallocate (buf : BufferPtr PoolSize)

/-- The pool and the buffers that are handed out, the newest first. -/
structure Ledger (PoolSize : Nat) where
  pool : BufferPool PoolSize
  out : List (Fin PoolSize)

namespace Ledger

/-- A buffer is out from the `allocate` that returns it to the `deallocate` that hands it back. -/
def call (s : Ledger PoolSize) : Call PoolSize → Ledger PoolSize
  | .allocate => match s.pool.allocate with
    | (some b, p) => ⟨p, b :: s.out⟩
    | (none, p) => ⟨p, s.out⟩
  | .deallocate .null => { s with pool := s.pool.deallocate .null }
  | .deallocate .foreign => { s with pool := s.pool.deallocate .foreign }
  | .deallocate (.buffer b) => ⟨s.pool.deallocate (.buffer b), s.out.erase b⟩

def run (s : Ledger PoolSize) (calls : List (Call PoolSize)) : Ledger PoolSize :=
  calls.foldl call s

/-- The pool is in order: its free entries are distinct buffers that are not in use, the free
buffers and those that are out are all there are, and none is out twice. -/
structure Sound (s : Ledger PoolSize) : Prop where
  distinct : s.pool.freeList.Nodup
  in_use : ∀ b ∈ s.pool.freeList, (s.pool.buffers_ b).in_use = false
  total : s.pool.free_count_ + s.out.length = PoolSize
  outstanding : s.out.Nodup

/-- The call hands back nothing of the pool, or a buffer that is out, or all buffers are free. -/
def Proper (s : Ledger PoolSize) : Call PoolSize → Prop
  | .deallocate (.buffer b) => b ∈ s.out ∨ s.pool.free_count_ = PoolSize
  | _ => True

/-- The state after some of the calls is in order if the pool lends what is out. -/
theorem sound_of_lends {s : Ledger PoolSize} (h : s.pool.Lends s.out) : s.Sound where
  distinct := (List.nodup_append.mp h.places.nodup).1
  in_use b hb := Bool.eq_false_iff.mpr fun htrue => (h.in_use b).mp htrue hb
  total := by
    have hlen := h.places.length_eq
    rwa [List.length_append, freeList, length_stack] at hlen
  outstanding := (List.nodup_append.mp h.places.nodup).2.1

end Ledger

/-- Handing back a free buffer while all are free is noticed and changes nothing. -/
theorem Lends.deallocate_full {p : BufferPool PoolSize} {out : List (Fin PoolSize)}
    (h : p.Lends out) (hfull : p.free_count_ = PoolSize) (b : Fin PoolSize) :
    (p.deallocate (.buffer b)).Lends (out.erase b) := by
  have heq : p.deallocate (.buffer b) = p.storeInUse b false :=
    if_neg (show ¬ p.free_count_ < PoolSize by omega)
  have hout : out = [] := by
    have hlen := h.places.length_eq
    rw [List.length_append, freeList, length_stack] at hlen
    exact List.eq_nil_of_length_eq_zero (by omega)
  subst hout
  rw [heq, List.erase_nil]
  refine ⟨h.places, fun a => ?_⟩
  have hmem : a ∈ p.freeList := by
    have hall := h.places.mem a
    rwa [List.append_nil] at hall
  have hflag : ((p.storeInUse b false).buffers_ a).in_use = false := by
    by_cases ha : a = b
    · have hself : (p.storeInUse b false).buffers_ b = { p.buffers_ b with in_use := false } :=
        Function.update_self _ _ _
      rw [ha, hself]
    · have hother : (p.storeInUse b false).buffers_ a = p.buffers_ a :=
        Function.update_of_ne ha _ _
      rw [hother]
      exact Bool.eq_false_iff.mpr fun htrue => (h.in_use a).mp htrue hmem
  constructor
  · intro htrue
    rw [hflag] at htrue
    exact Bool.noConfusion htrue
  · intro hnot
    exact absurd hmem hnot

namespace Ledger

variable {s : Ledger PoolSize}

/-- **A proper call keeps the pool in order.** -/
theorem lends_call (h : s.pool.Lends s.out) {c : Call PoolSize} (hc : s.Proper c) :
    (s.call c).pool.Lends (s.call c).out := by
  cases c with
  | allocate =>
      rw [call]
      cases halloc : s.pool.allocate with
      | mk b? p =>
          cases b? with
          | some b => exact (h.allocate halloc).1
          | none =>
              obtain ⟨-, hnone⟩ | ⟨b, hsome, -⟩ := allocate_spec s.pool
              · rw [hnone] at halloc
                exact (Prod.mk.inj halloc).2 ▸ h
              · rw [halloc] at hsome
                exact absurd hsome (by simp)
  | deallocate buf =>
      cases buf with
      | null => exact h
      | foreign => exact h
      | buffer b =>
          by_cases hb : b ∈ s.out
          · have hback : s.pool.Lends (b :: s.out.erase b) :=
              h.of_count_eq fun a => ((List.perm_cons_erase hb).count_eq a).symm
            exact hback.deallocate.1
          · exact h.deallocate_full (hc.resolve_left hb) b

/-- **An improper call breaks it**: the buffer is in the free list twice. -/
theorem not_sound_call (h : s.pool.Lends s.out) {b : Fin PoolSize}
    (hc : ¬ s.Proper (.deallocate (.buffer b))) : ¬ (s.call (.deallocate (.buffer b))).Sound := by
  intro hsound
  rw [Proper, not_or] at hc
  have hfree : b ∈ s.pool.freeList := (h.places.mem_left_iff b).mpr hc.1
  have htotal := (sound_of_lends h).total
  have hroom : s.pool.free_count_ < PoolSize := by
    have := hc.2
    omega
  have hdistinct := hsound.distinct
  rw [call, (deallocate_spec hroom b).1] at hdistinct
  exact (List.nodup_append.mp hdistinct).2.2 b hfree b List.mem_cons_self rfl

theorem run_snoc (s : Ledger PoolSize) (calls : List (Call PoolSize)) (c : Call PoolSize) :
    s.run (calls ++ [c]) = (s.run calls).call c := by
  rw [run, List.foldl_append]
  rfl

/-- Along proper calls the pool lends what is out. -/
theorem lends_run (h : s.pool.Lends s.out) {calls : List (Call PoolSize)}
    (hcalls : ∀ before c after, calls = before ++ c :: after → (s.run before).Proper c) :
    (s.run calls).pool.Lends (s.run calls).out := by
  induction calls using List.reverseRecOn with
  | nil => exact h
  | append_singleton calls c ih =>
      rw [forall_split_snoc] at hcalls
      rw [run_snoc]
      exact lends_call (ih hcalls.1) hcalls.2

/-- **Misuse corrupts the pool exactly when it is not noticed**: from a new pool, all states of a
run are in order if and only if every call of it is proper. -/
theorem sound_iff (p : BufferPool PoolSize) (h : p.Initial) (calls : List (Call PoolSize)) :
    (∀ before after, calls = before ++ after → ((Ledger.mk p []).run before).Sound) ↔
      ∀ before c after, calls = before ++ c :: after → ((Ledger.mk p []).run before).Proper c := by
  have hstart : (Ledger.mk p []).pool.Lends (Ledger.mk p []).out := h.lends
  constructor
  · intro hsound
    induction calls using List.reverseRecOn with
    | nil => exact forall_split_nil
    | append_singleton calls c ih =>
        have hbefore := ih fun before after hsplit =>
          hsound before (after ++ [c]) (by simp [hsplit])
        rw [forall_split_snoc]
        refine ⟨hbefore, ?_⟩
        by_contra himproper
        have hlends := lends_run hstart hbefore
        have hafter := hsound (calls ++ [c]) [] (by simp)
        rw [run_snoc] at hafter
        match c, himproper with
        | .deallocate (.buffer b), himproper => exact not_sound_call hlends himproper hafter
        | .allocate, himproper => exact himproper trivial
        | .deallocate .null, himproper => exact himproper trivial
        | .deallocate .foreign, himproper => exact himproper trivial
  · rintro hcalls before after rfl
    refine sound_of_lends (lends_run hstart fun xs c ys hsplit => hcalls xs c (ys ++ after) ?_)
    rw [hsplit]
    simp

/-! ## A double hand-back -/

/-- A new pool. -/
def freshPool (PoolSize : Nat) (h : 0 < PoolSize) : BufferPool PoolSize where
  buffers_ _ := MessageBuffer.fresh
  free_list_ i := if hi : i < PoolSize then ⟨i, hi⟩ else ⟨0, h⟩
  free_count_ := PoolSize

theorem initial_freshPool (h : 0 < PoolSize) : (freshPool PoolSize h).Initial where
  free_list_ i := dif_pos i.isLt
  free_count_ := rfl
  in_use _ := rfl

/-- Buffers go out and come back in another order, two pointers that are none of the pool's are
handed back, and a free buffer when all are free. -/
theorem sound_iff_handedBack :
    (∀ before after, [.allocate, .allocate, .deallocate (.buffer 2), .deallocate .null, .allocate,
        .deallocate .foreign, .deallocate (.buffer 1), .deallocate (.buffer 2),
        .deallocate (.buffer 0), .allocate] = before ++ after →
      ((Ledger.mk (freshPool 3 (by decide)) []).run before).Sound) ∧
    ((Ledger.mk (freshPool 3 (by decide)) []).run [.allocate, .allocate, .deallocate (.buffer 2),
        .deallocate .null, .allocate]).out = [2, 1] := by
  refine ⟨(sound_iff (freshPool 3 (by decide)) (initial_freshPool (by decide)) _).mpr ?_, rfl⟩
  refine forall_split_cons trivial (forall_split_cons trivial ?_)
  refine forall_split_cons (Or.inl (by decide)) (forall_split_cons trivial ?_)
  refine forall_split_cons trivial (forall_split_cons trivial ?_)
  refine forall_split_cons (Or.inl (by decide)) (forall_split_cons (Or.inl (by decide)) ?_)
  -- all three are free again
  exact forall_split_cons (Or.inr rfl) (forall_split_cons trivial forall_split_nil)

/-- Of two buffers that are out, one is handed back twice, and then handed out twice. -/
theorem doubleDeallocate_corrupts :
    ((Ledger.mk (freshPool 2 (by decide)) []).run [.allocate, .allocate,
        .deallocate (.buffer 1), .deallocate (.buffer 1)]).pool.freeList = [1, 1] ∧
      ((Ledger.mk (freshPool 2 (by decide)) []).run [.allocate, .allocate,
        .deallocate (.buffer 1), .deallocate (.buffer 1), .allocate, .allocate]).out = [1, 1, 0] ∧
      ¬ ((Ledger.mk (freshPool 2 (by decide)) []).run [.allocate, .allocate,
        .deallocate (.buffer 1), .deallocate (.buffer 1), .allocate, .allocate]).Sound := by
  refine ⟨rfl, rfl, ?_⟩
  intro h
  exact absurd h.outstanding (by decide)

end Ledger

end BufferPool

end AeronReplay
