import Mathlib.Data.List.DropRight
import Mathlib.Data.List.Rotate

set_option autoImplicit false

/-! # A ring of slots as a sliding window

A list of fixed length that is overwritten slot after slot, from the front again after the last
one. Read from the write position on it is what was written last, oldest first, preceded by what
is left of the initial filling. -/

namespace Window

variable {α : Type} {W : Nat} {d : α} {xs ring : List α} {pos : Nat}

/-- A ring of `W` slots, filled with `d` at first, after the values `xs` have been written. -/
structure Shows (W : Nat) (d : α) (xs ring : List α) (pos : Nat) : Prop where
  length_eq : ring.length = W
  pos_lt : pos < W
  view : ring.rotate pos = (List.replicate W d ++ xs).rtake W

theorem shows_init (hW : 0 < W) : Shows W d [] (List.replicate W d) 0 where
  length_eq := List.length_replicate
  pos_lt := hW
  view := by
    rw [List.rotate_zero, List.append_nil, List.rtake, List.length_replicate, Nat.sub_self,
      List.drop_zero]

/-- Overwriting the oldest value: the view loses its first value and gains a last one. -/
theorem rotate_set (hpos : pos < ring.length) (x : α) :
    (ring.set pos x).rotate ((pos + 1) % ring.length) = (ring.rotate pos).tail ++ [x] := by
  have hlen : (ring.set pos x).length = ring.length := List.length_set
  have htake : (ring.set pos x).take (pos + 1) = ring.take pos ++ [x] := by
    rw [List.take_succ_eq_append_getElem (by omega), List.getElem_set_self,
      List.take_set_of_le (Nat.le_refl pos)]
  have hdrop : (ring.set pos x).drop (pos + 1) = ring.drop (pos + 1) :=
    List.drop_set_of_lt (Nat.lt_succ_self pos)
  have hview : ring.rotate pos = ring[pos] :: (ring.drop (pos + 1) ++ ring.take pos) := by
    rw [List.rotate_eq_drop_append_take hpos.le, List.drop_eq_getElem_cons hpos]
    rfl
  calc (ring.set pos x).rotate ((pos + 1) % ring.length)
      = (ring.set pos x).rotate (pos + 1) := by rw [← hlen, List.rotate_mod]
    _ = ring.drop (pos + 1) ++ (ring.take pos ++ [x]) := by
        rw [List.rotate_eq_drop_append_take (by omega), hdrop, htake]
    _ = (ring.rotate pos).tail ++ [x] := by rw [hview, List.tail_cons, List.append_assoc]

theorem Shows.write (h : Shows W d xs ring pos) (x : α) :
    Shows W d (xs ++ [x]) (ring.set pos x) ((pos + 1) % ring.length) where
  length_eq := List.length_set.trans h.length_eq
  pos_lt := by
    rw [h.length_eq]
    exact Nat.mod_lt _ (Nat.zero_lt_of_lt h.pos_lt)
  view := by
    have hpos := h.pos_lt
    obtain ⟨V, rfl⟩ : ∃ V, W = V + 1 := ⟨W - 1, by omega⟩
    have hlen : (List.replicate (V + 1) d ++ xs).length = V + 1 + xs.length := by
      rw [List.length_append, List.length_replicate]
    rw [rotate_set (by rw [h.length_eq]; exact hpos), h.view, ← List.append_assoc,
      List.rtake_concat_succ, List.rtake, List.rtake, hlen, List.tail_drop]
    congr 2
    omega

/-- **What the ring holds**: the last `W` values, and the initial value until it has been
overwritten everywhere. -/
theorem Shows.mem_iff (h : Shows W d xs ring pos) {y : α} :
    y ∈ ring ↔ y ∈ xs.rtake W ∨ (y = d ∧ xs.length < W) := by
  have hlen : (List.replicate W d ++ xs).length - W = xs.length := by
    rw [List.length_append, List.length_replicate]
    omega
  rw [← List.mem_rotate (n := pos), h.view, List.rtake, hlen, List.drop_append,
    List.length_replicate, List.drop_replicate, List.mem_append, List.mem_replicate, List.rtake,
    or_comm]
  refine or_congr Iff.rfl ?_
  constructor
  · rintro ⟨hroom, rfl⟩
    exact ⟨rfl, by omega⟩
  · rintro ⟨rfl, hroom⟩
    exact ⟨by omega, rfl⟩

end Window
