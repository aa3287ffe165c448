import Mathlib.Data.List.FinRange
import Mathlib.Logic.Function.Basic

set_option autoImplicit false

/-! # Every resource in exactly one place

A system that hands finitely many resources around keeps them in several lists: a free list, a
queue, the hands of a thread. `Each l` says that the list `l` of all places together names every
resource exactly once, so that nothing is lost and nothing is in two places. Moving a resource
between places leaves every count as it is, which is all `Each.of_count_eq` asks for.

`stack f k` is a free list kept in an array `f` with fill level `k`. -/

namespace Places

variable {α : Type} [DecidableEq α]

/-- Every value stands in the list exactly once. -/
def Each (l : List α) : Prop := ∀ a, l.count a = 1

theorem Each.of_count_eq {l l' : List α} (h : Each l) (hcount : ∀ a, l'.count a = l.count a) :
    Each l' := fun a => (hcount a).trans (h a)

theorem Each.nodup {l : List α} (h : Each l) : l.Nodup :=
  List.nodup_iff_count_le_one.mpr fun a => Nat.le_of_eq (h a)

theorem Each.mem {l : List α} (h : Each l) (a : α) : a ∈ l :=
  List.count_pos_iff.mp (by rw [h a]; exact Nat.one_pos)

/-- What is in one place is not in another. -/
theorem Each.notMem_right {l₁ l₂ : List α} (h : Each (l₁ ++ l₂)) {a : α} (ha : a ∈ l₁) :
    a ∉ l₂ := by
  intro ha'
  have hone := h a
  have h₁ := List.count_pos_iff.mpr ha
  have h₂ := List.count_pos_iff.mpr ha'
  rw [List.count_append] at hone
  omega

/-- What is not in one place is in the others. -/
theorem Each.mem_left_iff {l₁ l₂ : List α} (h : Each (l₁ ++ l₂)) (a : α) :
    a ∈ l₁ ↔ a ∉ l₂ := by
  refine ⟨h.notMem_right, fun ha => ?_⟩
  rcases List.mem_append.mp (h.mem a) with h₁ | h₂
  · exact h₁
  · exact absurd h₂ ha

theorem each_finRange (n : Nat) : Each (List.finRange n) := fun a =>
  List.count_eq_one_of_mem (List.nodup_finRange n) (List.mem_finRange a)

theorem Each.length_eq {n : Nat} {l : List (Fin n)} (h : Each l) : l.length = n := by
  have hperm : l.Perm (List.finRange n) :=
    List.perm_iff_count.mpr fun a => (h a).trans (each_finRange n a).symm
  rw [hperm.length_eq, List.length_finRange]

/-! ## A free list in an array -/

/-- The first `k` entries of the array `f`. -/
def stack (f : Nat → α) (k : Nat) : List α := (List.range k).map f

omit [DecidableEq α] in
@[simp] theorem length_stack (f : Nat → α) (k : Nat) : (stack f k).length = k := by
  rw [stack, List.length_map, List.length_range]

omit [DecidableEq α] in
theorem stack_succ (f : Nat → α) (k : Nat) : stack f (k + 1) = stack f k ++ [f k] := by
  rw [stack, List.range_succ, List.map_append]
  rfl

omit [DecidableEq α] in
/-- Entries from the fill level on do not matter. -/
theorem stack_update_of_le (f : Nat → α) {k i : Nat} (h : k ≤ i) (a : α) :
    stack (Function.update f i a) k = stack f k := by
  refine List.map_congr_left fun j hj => ?_
  have hj' := List.mem_range.mp hj
  have hne : j ≠ i := by omega
  exact Function.update_of_ne hne a f

omit [DecidableEq α] in
/-- Storing at the fill level and raising it pushes. -/
theorem stack_push (f : Nat → α) (k : Nat) (a : α) :
    stack (Function.update f k a) (k + 1) = stack f k ++ [a] := by
  rw [stack_succ, stack_update_of_le f (Nat.le_refl k), Function.update_self]

/-- An array that lists the values of `Fin n` in order. -/
theorem each_stack_of_val {n : Nat} {f : Nat → Fin n} (h : ∀ i : Fin n, f i.val = i) :
    Each (stack f n) := by
  have heq : stack f n = List.finRange n := by
    refine List.ext_getElem (by rw [length_stack, List.length_finRange]) fun i hi _ => ?_
    rw [length_stack] at hi
    simp only [stack, List.getElem_map, List.getElem_range, List.getElem_finRange]
    exact h ⟨i, hi⟩
  rw [heq]
  exact each_finRange n

end Places
